/-
Code in braces wherever it may stand:

* `Wrapper`: an element, a block or a snippet, all but the markup at one place in it;
* `Surroundings`: what stands around a place in a template, layer by layer. Between the layers
  stands markup that is read on its own;
* `Surroundings.readable_around`: what is closed is read in any surroundings, by induction over the
  layers;
* `readTemplate_codeTag`: so code in braces is an expression tag in any surroundings, and nothing
  around it is read differently for it;
* `leadingComments_misread`: the slash of a comment at the beginning of the code is taken for that of
  a closing clause.
-/
import SvelteStories.Proofs.Markup.Pieces

namespace SvelteStories

namespace Markup

section

variable {read : ExpressionReader} {x : Piece}

/-! ### Surroundings -/

/-- The branches of a block, of which one is a given piece. -/
def branchesAround : List (Standing read × Clause) → Piece → List (Clause × Standing read) →
    Piece × List (Clause × Piece)
  | [], x, later => (x, later.map fun b => (b.1, b.2.piece))
  | (s, c) :: earlier, x, later =>
    let (y, others) := branchesAround earlier x later
    (s.piece, (c, y) :: others)

/-- What may enclose markup. -/
inductive Wrapper (read : ExpressionReader)
  /-- An element with an opening tag. -/
  | element (tag : OpeningTag read)
  /-- A block, with the branches before and behind the one in question. -/
  | block (clauses : BlockClauses) (earlier : List (Standing read × Clause))
    (later : List (Clause × Standing read))
  /-- A snippet. -/
  | snippet (clauses : SnippetClauses)

/-- A wrapper around a piece. -/
def Wrapper.around : Wrapper read → Piece → Piece
  | element tag, x => tag.around x
  | block clauses earlier later, x =>
    let (first, others) := branchesAround earlier x later
    clauses.around first others
  | snippet clauses, x => clauses.around x

/-- A wrapper and what stands beside it. -/
structure Layer (read : ExpressionReader) where
  /-- What stands before the wrapper. -/
  before : Standing read
  /-- The wrapper. -/
  wrapper : Wrapper read
  /-- What stands behind the wrapper. -/
  behind : Standing read

/-- A layer around a piece. -/
def Layer.around (l : Layer read) (x : Piece) : Piece :=
  .between l.before (l.wrapper.around x) l.behind

/-- What stands around a place in a template. -/
structure Surroundings (read : ExpressionReader) where
  /-- What stands right before the place. -/
  before : Standing read
  /-- What stands right behind the place. -/
  behind : Standing read
  /-- What encloses these, from the inside to the outside. -/
  layers : List (Layer read)

/-- Layers around a piece, from the inside to the outside. -/
def layersAround : List (Layer read) → Piece → Piece
  | [], x => x
  | l :: layers, x => layersAround layers (l.around x)

/-- A piece in its surroundings. -/
def Surroundings.around (s : Surroundings read) (x : Piece) : Piece :=
  layersAround s.layers (.between s.before x s.behind)

/-! ### Reading in surroundings -/

lemma readable_branchesAround (hread : read.PlaceFree) (hx : x.Readable read)
    (earlier : List (Standing read × Clause)) (later : List (Clause × Standing read)) :
    (branchesAround earlier x later).1.Readable read
      ∧ ∀ b ∈ (branchesAround earlier x later).2, b.2.Readable read := by
  induction earlier with
  | nil =>
      refine ⟨hx, fun b hb => ?_⟩
      obtain ⟨b, -, rfl⟩ := List.mem_map.mp hb
      exact b.2.readable hread
  | cons b earlier ih => exact ⟨b.1.readable hread, List.forall_mem_cons.mpr ih⟩

/-- What is wrapped is closed. -/
lemma Wrapper.closed_around (hread : read.PlaceFree) (w : Wrapper read) (hx : x.Readable read) :
    (w.around x).Closed read := by
  cases w with
  | element tag => exact tag.closed_around hread hx
  | block clauses earlier later =>
      obtain ⟨hfirst, hothers⟩ := readable_branchesAround hread hx earlier later
      exact clauses.closed_around hfirst hothers
  | snippet clauses => exact clauses.closed_around hx

/-- What is closed is read in any surroundings. -/
theorem Surroundings.readable_around (hread : read.PlaceFree) (s : Surroundings read)
    (hx : x.Closed read) : (s.around x).Readable read := by
  have hinside := hx.between hread s.before s.behind
  rw [Surroundings.around]
  generalize Piece.between s.before x s.behind = y at hinside ⊢
  induction s.layers generalizing y with
  | nil => exact hinside
  | cons l layers ih =>
      exact ih _ ((l.wrapper.closed_around hread hinside).between hread l.before l.behind)

end

end Markup

open Markup

/-! ### Expression tags -/

/-- Code in braces is an expression tag wherever it stands, unless a sign behind the brace says that
it is something else, and what stands around it is read as it is without it. A file without scripts
and styles holds the template. -/
theorem readTemplate_codeTag (s : Surroundings readAttributeExpression) {code : List Char}
    (hcode : Code code) (hsign : ∀ c ∈ ['#', ':', '@', '/'], code.head? ≠ some c) :
    ∃ nodes, readTemplate readAttributeExpression (s.around (codeTag code)).text = .ok nodes
      ∧ outlines id nodes = (s.around (codeTag code)).parts 0
      ∧ ∀ filename, (∀ n ∈ nodes, n.IsTemplate) →
        readDocument ⟨filename, (s.around (codeTag code)).text⟩
          = .ok ⟨⟨filename, (s.around (codeTag code)).text⟩, ⟨none, none⟩, [],
            ⟨⟨0, byteLength (s.around (codeTag code)).text⟩, nodes⟩⟩ := by
  obtain ⟨nodes, hnodes, hparts⟩ := (s.readable_around placeFree_readAttributeExpression
    (closed_codeTag hcode hsign)).readTemplate
  exact ⟨nodes, hnodes, hparts,
    fun filename hplain => readDocument_of_readTemplate filename hnodes hplain⟩

/-- Markup with nothing in it. -/
def nothing : Standing readAttributeExpression :=
  ⟨[], [], rfl⟩

/-- A place in a paragraph in a snippet: the second branch of a block, behind a blank. -/
def elseBranch : Surroundings readAttributeExpression where
  before := ⟨" ".toList, [.text ⟨0, 1⟩ " ".toList], rfl⟩
  behind := nothing
  layers := [
    ⟨nothing, .block ⟨⟨"if c".toList, "if".toList, code_iff_steps.mpr ⟨_, rfl, rfl⟩,
        code_iff_steps.mpr ⟨_, rfl, rfl⟩, by decide⟩, by decide⟩
      [(⟨"d".toList, [.text ⟨0, 1⟩ "d".toList], rfl⟩,
        ⟨"else".toList, code_iff_steps.mpr ⟨_, rfl, rfl⟩⟩)] [], nothing⟩,
    ⟨nothing, .element (.ofName _ (show IsElementName "p".toList from ⟨'p', [], rfl, rfl, by simp⟩)
      (by decide) (by decide)), nothing⟩,
    ⟨nothing, .snippet ⟨⟨"snippet row()".toList, "snippet".toList,
      code_iff_steps.mpr ⟨_, rfl, rfl⟩, code_iff_steps.mpr ⟨_, rfl, rfl⟩, by decide⟩, by decide,
      by decide⟩, nothing⟩]

theorem readTemplate_elseBranch :
    Code "b / 2".toList ∧ (∀ c ∈ ['#', ':', '@', '/'], "b / 2".toList.head? ≠ some c)
      ∧ (elseBranch.around (codeTag "b / 2".toList)).text
        = ("\x7b#snippet row()\x7d<p>\x7b#if c\x7dd\x7b:else\x7d \x7bb / 2\x7d"
          ++ "\x7b/if\x7d</p>\x7b/snippet\x7d").toList
      ∧ ∃ nodes, readTemplate readAttributeExpression
          (elseBranch.around (codeTag "b / 2".toList)).text = .ok nodes
        ∧ outlines id nodes = [.snippet ⟨⟨0, 61⟩, "row".toList, ⟨14, 14⟩, ⟨⟨16, 51⟩,
          [.element ⟨⟨16, 51⟩, .regular, "p".toList, [], ⟨⟨19, 47⟩,
            [.block ⟨⟨19, 47⟩, "if".toList, ⟨24, 25⟩, [⟨⟨26, 27⟩, [.text ⟨26, 27⟩ "d".toList]⟩,
              ⟨⟨34, 42⟩, [.text ⟨34, 35⟩ " ".toList, .expression ⟨35, 42⟩ ⟨36, 41⟩]⟩]⟩]⟩,
            false⟩]⟩⟩] := by
  have hcode : Code "b / 2".toList := code_iff_steps.mpr ⟨_, rfl, rfl⟩
  obtain ⟨nodes, hnodes, hparts, -⟩ := readTemplate_codeTag elseBranch hcode (by decide)
  exact ⟨hcode, by decide, rfl, nodes, hnodes, hparts⟩

/-- Code that begins with a comment is taken for a closing clause, in a block and outside of any. -/
theorem leadingComments_misread :
    (∀ code ∈ ["/* note */".toList, "/* note */ b".toList, "// note\nb".toList],
      Code code ∧ (∀ c ∈ ['#', ':', '@'], code.head? ≠ some c))
      ∧ (readDocument ⟨"A.svelte", inBraces "/* note */".toList⟩).isOk = false
      ∧ (readDocument ⟨"A.svelte", inBraces "// note\nb".toList⟩).isOk = false
      ∧ (readDocument ⟨"A.svelte", inBraces "#if a".toList ++ (inBraces "/* note */ b".toList
        ++ inBraces "/if".toList)⟩).isOk = false := by
  refine ⟨?_, by decide +kernel, by decide +kernel, by decide +kernel⟩
  simp only [List.forall_mem_cons]
  exact ⟨⟨code_iff_steps.mpr ⟨_, rfl, rfl⟩, by decide⟩, ⟨code_iff_steps.mpr ⟨_, rfl, rfl⟩,
    by decide⟩, ⟨code_iff_steps.mpr ⟨_, rfl, rfl⟩, by decide⟩, fun _ h => absurd h List.not_mem_nil⟩

end SvelteStories

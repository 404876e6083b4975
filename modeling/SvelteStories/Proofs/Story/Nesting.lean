/-
Places in trees of markup:

* `Span.InText`: a span begins and ends between characters of a text;
* `Node.Encloses`: a part of a template has its place in a text, and so have the fragments right
  inside of it, which stand in it one behind the other and are covered by their parts;
* `Node.Nested`: so does every part inside of it;
* `NodeReader.Nests`: a reader gives only such parts. There is a lemma for each form of parts with
  others inside, which supposes it of the reader of these;
* `readTemplate_nested`: the parts of a template are nested.
-/
import SvelteStories.Proofs.Story.Covers
import SvelteStories.Proofs.Text.Ranges

namespace SvelteStories

/-- A span begins and ends between characters of a text, and in this order. -/
def Span.InText (t : List Char) (s : Span) : Prop :=
  ∃ w, slice? t s = some w

/-- Such a span lies in the text. -/
lemma Span.InText.contains {t : List Char} {s : Span} (h : s.InText t) :
    (⟨0, byteLength t⟩ : Span).contains s = true := by
  obtain ⟨w, hw⟩ := h
  obtain ⟨before, behind, rfl, hstart, hstop⟩ := slice?_eq_some_iff.mp hw
  refine Span.contains_iff.mpr ⟨Nat.zero_le _, ?_⟩
  simp only [byteLength_append]
  omega

namespace Markup

open Place

/-! ### Nested parts -/

/-- The fragments right inside of a part of a template. -/
def Node.fragments : Node → List Fragment
  | .element e => [e.fragment]
  | .snippet s => [s.body]
  | .block b => b.branches
  | .text _ _ | .comment _ _ | .expression _ _ | .tag _ _ _ => []

lemma Node.children_eq (n : Node) : n.children = n.fragments.flatMap Fragment.nodes := by
  cases n <;> simp [children, fragments]

/-- A part of a template has its place in a text, with the fragments right inside of it. -/
structure Node.Encloses (t : List Char) (n : Node) : Prop where
  /-- The part has its place. -/
  inText : n.span.InText t
  /-- The fragments have their places. -/
  fragmentsInText : ∀ f ∈ n.fragments, f.span.InText t
  /-- They stand in the part. -/
  contains : ∀ f ∈ n.fragments, n.span.contains f.span = true
  /-- Their parts cover them. -/
  tiled : ∀ f ∈ n.fragments, f.Tiled
  /-- They follow one another. -/
  ordered : n.fragments.Pairwise fun f g => f.span.stop ≤ g.span.start

/-- Every part in a part of a template encloses what is right inside of it. -/
inductive Node.Nested (t : List Char) : Node → Prop
  /-- A part with such parts inside. -/
  | intro {n : Node} : n.Encloses t → (∀ m ∈ n.children, Node.Nested t m) → Node.Nested t n

namespace Node.Nested

variable {t : List Char} {n m : Node}

lemma encloses (h : n.Nested t) : n.Encloses t := by
  cases h with
  | intro hencloses _ => exact hencloses

lemma child (h : n.Nested t) (hm : m ∈ n.children) : m.Nested t := by
  cases h with
  | intro _ hchildren => exact hchildren m hm

end Node.Nested

/-! ### Readers -/

/-- A reader gives nested parts. -/
def NodeReader.Nests (t : List Char) (children : NodeReader) : Prop :=
  ∀ ⦃enclosure p nodes q⦄, (start t).Reaches p → children enclosure p = .ok (nodes, q) →
    ∀ n ∈ nodes, n.Nested t

section

variable {t : List Char} {p q r : Place} {n : Node} {f : Fragment} {children : NodeReader}

lemma inText_of_reaches (hp : (start t).Reaches p) (h : p.Reaches q) : (p.spanTo q).InText t := by
  obtain ⟨w, hw⟩ := h
  exact ⟨w, slice?_of_reads hp hw⟩

/-- What stands between two places stands between any two around them. -/
lemma contains_spanTo {p' q' : Place} (hp : p.Reaches p') (hq : q'.Reaches q) :
    (p.spanTo q).contains (p'.spanTo q') = true :=
  Span.contains_iff.mpr ⟨hp.le, hq.le⟩

/-- A part that cannot hold others is nested. -/
lemma nested_of_isLeaf (h : n.isLeaf = true) (hn : n.span.InText t) : n.Nested t := by
  have hfragments : n.fragments = [] := by
    cases n <;> first | rfl | exact absurd h Bool.false_ne_true
  refine .intro ⟨hn, ?_, ?_, ?_, ?_⟩ ?_ <;> simp [hfragments, Node.children_eq]

/-- A part with a single fragment inside is nested if the parts of the fragment are. -/
lemma nested_of_fragments_eq_singleton (hfragments : n.fragments = [f]) (hspan : n.span = p.spanTo q)
    (hp : (start t).Reaches p) {inside stop : Place} (hinside : p.Reaches inside)
    (hf : f.span = inside.spanTo stop) (hstop : inside.Reaches stop) (hq : stop.Reaches q)
    (htiled : f.Tiled) (hnodes : ∀ m ∈ f.nodes, m.Nested t) : n.Nested t := by
  have hchildren : n.children = f.nodes := by simp [Node.children_eq, hfragments]
  refine .intro ⟨?_, ?_, ?_, ?_, ?_⟩ (hchildren ▸ hnodes)
  · exact hspan ▸ inText_of_reaches hp (hinside.trans (hstop.trans hq))
  · simpa [hfragments, hf] using inText_of_reaches (hp.trans hinside) hstop
  · simpa [hfragments, hf, hspan] using contains_spanTo hinside hq
  · simpa [hfragments] using htiled
  · simp [hfragments]

/-! ### Elements and snippets -/

lemma readContent_nested {name : List Char} {selfClosing : Bool} {opening inside : Place}
    (hsound : children.Sound t) (hnests : children.Nests t) (hp : (start t).Reaches inside)
    (h : readContent children name selfClosing opening inside = .ok (f, q)) :
    ∃ stop, f.span = inside.spanTo stop ∧ inside.Reaches stop ∧ stop.Reaches q
      ∧ ∀ m ∈ f.nodes, m.Nested t := by
  simp only [readContent] at h
  split_ifs at h with hempty hraw
  · simp only [Except.ok.injEq, Prod.mk.injEq] at h
    obtain ⟨rfl, rfl⟩ := h
    exact ⟨inside, rfl, .refl _, .refl _, by simp⟩
  · split at h
    · simp at h
    · rename_i data rest hsplit
      simp only [bind_eq_ok_iff, pure_eq_ok_iff, Prod.mk.injEq] at h
      obtain ⟨q, hclosing, rfl, rfl⟩ := h
      obtain ⟨hrest, hopen⟩ := eq_append_of_splitAtFirst hsplit
      have hdata := reads_after hrest
      have hstop : ['<', '/'] <+: (inside.after data).rest := by
        rw [← List.append_cancel_left (hrest.symm.trans hdata.1)]
        exact (List.prefix_append ['<', '/'] name).trans hopen
      obtain ⟨closing, hreads, -⟩ := reads_readClosingTag hstop hclosing
      refine ⟨_, rfl, hdata.reaches, hreads.reaches, ?_⟩
      simpa using nested_of_isLeaf (n := .text (inside.spanTo (inside.after data)) data) rfl
        (inText_of_reaches hp hdata.reaches)
  · rw [bind_eq_ok_iff] at h
    obtain ⟨⟨nodes, stop⟩, hnodes, h⟩ := h
    simp only [bind_eq_ok_iff, pure_eq_ok_iff, Prod.mk.injEq] at h
    obtain ⟨q, hclosing, rfl, rfl⟩ := h
    obtain ⟨hread, hstop⟩ := hsound hp hnodes
    obtain ⟨closing, hreads, -⟩ := reads_readClosingTag hstop hclosing
    exact ⟨stop, rfl, hread.reaches, hreads.reaches, hnests hp hnodes⟩

lemma readElement_nested {read : ExpressionReader} (hsound : children.Sound t)
    (hnests : children.Nests t) (hp : (start t).Reaches p) (hopen : p.rest.head? = some '<')
    (h : readElement read children p = .ok (n, q)) : n.Nested t := by
  simp only [readElement, bind_eq_ok_iff, pure_eq_ok_iff, Prod.mk.injEq] at h
  obtain ⟨⟨⟨attributes, selfClosing⟩, inside⟩, hattributes, ⟨f, q⟩, hcontent, rfl, rfl⟩ := h
  have hname : p.Reads ('<' :: (p.after ['<']).run isElementNamePart)
      (p.after ('<' :: (p.after ['<']).run isElementNamePart)) := by
    have hhead := reads_head hopen
    refine reads_of_startsWith ?_
    rw [hhead.1]
    simpa [run] using List.takeWhile_prefix _
  have hopening := hname.reaches.trans (readAttributes_reaches hattributes)
  have hinside := hp.trans hopening
  obtain ⟨stop, hspan, hstop, hq, hnodes⟩ := readContent_nested hsound hnests hinside hcontent
  exact nested_of_fragments_eq_singleton rfl rfl hp hopening hspan hstop hq
    (readContent_spec hsound hinside hcontent).2.1 hnodes

lemma readSnippet_nested {header : Header} {inside : Place} (hsound : children.Sound t)
    (hnests : children.Nests t) (hp : (start t).Reaches p) (hinside : p.Reaches inside)
    (h : readSnippet children header p inside = .ok (n, q)) : n.Nested t := by
  simp only [readSnippet] at h
  split_ifs at h
  · exact absurd h error_bind_ne_ok
  rw [bind_eq_ok_iff] at h
  obtain ⟨⟨nodes, clause⟩, hnodes, h⟩ := h
  dsimp only at h
  split_ifs at h
  · exact absurd h error_bind_ne_ok
  rw [bind_eq_ok_iff] at h
  obtain ⟨⟨code, behind⟩, hcode, h⟩ := h
  dsimp only at h
  split_ifs at h
  · exact absurd h error_bind_ne_ok
  simp only [pure_eq_ok_iff, Prod.mk.injEq] at h
  obtain ⟨rfl, rfl⟩ := h
  have hread := (hsound (hp.trans hinside) hnodes).1
  exact nested_of_fragments_eq_singleton rfl rfl hp hinside rfl hread.reaches
    (reads_braced hcode).1.reaches hread.tiles (hnests (hp.trans hinside) hnodes)

/-! ### Blocks -/

/-- Branches have their places between two places, one behind the other, and nested parts. -/
structure BranchesNested (t : List Char) (p q : Place) (branches : List Fragment) : Prop where
  /-- The branches have their places. -/
  inText : ∀ f ∈ branches, f.span.InText t
  /-- These are between the two places. -/
  contains : ∀ f ∈ branches, (p.spanTo q).contains f.span = true
  /-- They follow one another. -/
  ordered : branches.Pairwise fun f g => f.span.stop ≤ g.span.start
  /-- The parts are nested. -/
  nested : ∀ f ∈ branches, ∀ m ∈ f.nodes, m.Nested t

/-- Before branches, another one. -/
lemma BranchesNested.cons {nodes : List Node} {branches : List Fragment} {clause behind : Place}
    (hp : (start t).Reaches p) (hread : p.Reaches clause) (hclause : clause.Reaches behind)
    (hq : behind.Reaches q) (hnodes : ∀ m ∈ nodes, m.Nested t)
    (h : BranchesNested t behind q branches) :
    BranchesNested t p q (⟨p.spanTo clause, nodes⟩ :: branches) := by
  refine ⟨List.forall_mem_cons.mpr ⟨inText_of_reaches hp hread, h.inText⟩,
    List.forall_mem_cons.mpr ⟨contains_spanTo (.refl p) (hclause.trans hq), fun f hf => ?_⟩,
    List.pairwise_cons.mpr ⟨fun f hf => ?_, h.ordered⟩,
    List.forall_mem_cons.mpr ⟨hnodes, h.nested⟩⟩
  · exact Span.contains_trans (contains_spanTo (hread.trans hclause) (.refl q)) (h.contains f hf)
  · exact Nat.le_trans hclause.le (Span.contains_iff.mp (h.contains f hf)).1

lemma readBranches_nested {kind : List Char} {fuel : Nat} {branches : List Fragment}
    (hsound : children.Sound t) (hnests : children.Nests t) (hp : (start t).Reaches p)
    (h : readBranches children kind fuel p = .ok (branches, q)) :
    p.Reaches q ∧ BranchesNested t p q branches := by
  induction fuel generalizing p branches with
  | zero => simp [readBranches] at h
  | succ fuel ih =>
      rw [readBranches, bind_eq_ok_iff] at h
      obtain ⟨⟨nodes, clause⟩, hnodes, h⟩ := h
      rw [bind_eq_ok_iff] at h
      obtain ⟨⟨code, behind⟩, hcode, h⟩ := h
      have hread := (hsound hp hnodes).1.reaches
      have hclause := (reads_braced hcode).1.reaches
      have hnested := hnests hp hnodes
      dsimp only at h
      split at h
      · split_ifs at h
        · simp only [pure_eq_ok_iff, Prod.mk.injEq] at h
          obtain ⟨rfl, rfl⟩ := h
          refine ⟨hread.trans hclause, .cons hp hread hclause (.refl _) hnested ⟨?_, ?_, ?_, ?_⟩⟩
          all_goals simp
        · simp at h
      · simp only [bind_eq_ok_iff, pure_eq_ok_iff, Prod.mk.injEq] at h
        obtain ⟨⟨branches, stop⟩, hbranches, rfl, rfl⟩ := h
        obtain ⟨hrest, hnestedRest⟩ := ih (hp.trans (hread.trans hclause)) hbranches
        exact ⟨hread.trans (hclause.trans hrest), .cons hp hread hclause hrest hnested hnestedRest⟩

lemma readBlock_nested (hsound : children.Sound t) (hnests : children.Nests t)
    (hp : (start t).Reaches p) (h : readBlock children p = .ok (n, q)) : n.Nested t := by
  rw [readBlock, bind_eq_ok_iff] at h
  obtain ⟨⟨code, inside⟩, hcode, h⟩ := h
  have hinside := (reads_braced hcode).1.reaches
  dsimp only at h
  split_ifs at h
  · exact readSnippet_nested hsound hnests hp hinside h
  · simp only [bind_eq_ok_iff, pure_eq_ok_iff, Prod.mk.injEq] at h
    obtain ⟨⟨branches, q⟩, hbranches, rfl, rfl⟩ := h
    obtain ⟨hreaches, hnested⟩ := readBranches_nested hsound hnests (hp.trans hinside) hbranches
    refine .intro ⟨inText_of_reaches hp (hinside.trans hreaches), hnested.inText, fun f hf => ?_,
      (readBranches_spec hsound (hp.trans hinside) hbranches).2.1, hnested.ordered⟩ fun m hm => ?_
    · exact Span.contains_trans (contains_spanTo hinside (.refl _)) (hnested.contains f hf)
    · obtain ⟨f, hf, hm⟩ := List.mem_flatMap.mp (Node.children_eq _ ▸ hm)
      exact hnested.nested f hf m hm
  · simp at h

/-! ### Templates -/

/-- A part is nested if the parts inside are. -/
lemma readNode_nested {read : ExpressionReader} {form : NodeForm} (hsound : children.Sound t)
    (hnests : children.Nests t) (hp : (start t).Reaches p)
    (hform : beginning p.rest = .node form)
    (h : readNode read children form p = .ok (n, q)) : n.Nested t := by
  have hagrees := agrees_beginning p.rest
  rw [hform] at hagrees
  obtain ⟨hreaches, hspan, -⟩ := readsNode_readNode hsound hp hform h
  by_cases hleaf : form ≠ .element ∧ form ≠ .block
  · exact nested_of_isLeaf (isLeaf_of_readNode h hleaf.1 hleaf.2)
      (hspan ▸ inText_of_reaches hp hreaches)
  · cases form with
    | element => exact readElement_nested hsound hnests hp hagrees h
    | block => exact readBlock_nested hsound hnests hp h
    | comment | tag | expression | text => exact absurd (by decide) hleaf

end

/-- The reader of templates gives nested parts. -/
theorem nests_readNodes (t : List Char) (read : ExpressionReader) (fuel : Nat) :
    (readNodes read fuel).Nests t :=
  forall_mem_of_readNodes (fun _ _ _ _ _ hsound hnests hp hform hnode =>
    readNode_nested hsound hnests hp hform hnode) fuel

/-- The parts of a template are nested. -/
theorem readTemplate_nested {read : ExpressionReader} {t : List Char} {nodes : List Node}
    (h : readTemplate read t = .ok nodes) : ∀ n ∈ nodes, n.Nested t := by
  rw [readTemplate, map_eq_ok_iff] at h
  obtain ⟨⟨nodes, q⟩, hnodes, rfl⟩ := h
  exact nests_readNodes t read _ (.refl _) hnodes

end Markup

end SvelteStories

/-
Readers of scripts and the texts that they go over:

* `Parser.Gives`: a reader gives a value at a cursor, and leaves the cursor elsewhere;
* `Cursor.Before`: a cursor stands before a text, behind a gap perhaps;
* `Clean`: nothing is wrong with the first token of a text;
* `Parser.Reads`: a reader reads a text wherever it stands, as long as a certain text follows.
-/
import SvelteStories.Proofs.Script.Gaps
import SvelteStories.Script.Parser.Cursor

namespace SvelteStories.Script

/-! ### Results -/

/-- A reader gives a value in a context, and moves from one cursor to another. -/
def Parser.Gives {α : Type} (r : Parser α) (c : Context) (k : Cursor) (a : α) (k' : Cursor) : Prop :=
  r c k = .ok a k'

section

variable {α β : Type} {r : Parser α} {f : α → Parser β} {c : Context} {k k' k'' : Cursor} {a : α}
  {b : β}

lemma gives_pure (a : α) (c : Context) (k : Cursor) : (pure a : Parser α).Gives c k a k := rfl

lemma Parser.Gives.bind (h : r.Gives c k a k') (h' : (f a).Gives c k' b k'') :
    (r >>= f).Gives c k b k'' := by
  rw [Gives] at h h' ⊢
  change EStateM.bind (r c) (fun a => f a c) k = _
  rw [EStateM.bind, h]
  exact h'

lemma exists_gives_of_bind (h : (r >>= f).Gives c k b k'') :
    ∃ a k', r.Gives c k a k' ∧ (f a).Gives c k' b k'' := by
  rw [Parser.Gives] at h
  change EStateM.bind (r c) (fun a => f a c) k = _ at h
  rw [EStateM.bind] at h
  split at h
  · rename_i a k' hr
    exact ⟨a, k', hr, h⟩
  · cases h

lemma Parser.Gives.inContext {change : Context → Context} (h : r.Gives (change c) k a k') :
    (inContext change r).Gives c k a k' := h

lemma gives_read (c : Context) (k : Cursor) : (read : Parser Context).Gives c k c k := rfl

lemma gives_get (c : Context) (k : Cursor) : (get : Parser Cursor).Gives c k k k := rfl

lemma gives_tokenHere (c : Context) (k : Cursor) : tokenHere.Gives c k k.current.token k := rfl

lemma gives_lexemeHere (c : Context) (k : Cursor) : lexemeHere.Gives c k k.current k := rfl

lemma gives_isTyped (c : Context) (k : Cursor) : isTyped.Gives c k c.dialect.isTyped k := rfl

lemma gives_isAt (p : String) (c : Context) (k : Cursor) :
    (isAt p).Gives c k (k.current.token = .punctuator p) k := rfl

/-- The start of the current token, or the place behind the last one. -/
lemma exists_gives_offsetHere (c : Context) (k : Cursor) :
    ∃ offset, offsetHere.Gives c k offset k := ⟨_, rfl⟩

lemma gives_spanFrom (start : Nat) (c : Context) (k : Cursor) :
    (spanFrom start).Gives c k ⟨start, k.last.stop⟩ k := rfl

/-! ### Moving on -/

/-- The cursor behind its current token. -/
def Cursor.moved (c : Context) (k : Cursor) : Cursor :=
  let next := lexeme c.lexMode k.current.token.trailing false k.current.span.stop k.current.after
  { k with
    current := next
    last := k.current.span
    faults := if c.isQuiet then k.faults else k.faults ++ next.faults }

lemma gives_skip (c : Context) (k : Cursor) : skip.Gives c k () (k.moved c) := rfl

lemma gives_eat {p : String} (h : k.current.token = .punctuator p) :
    (eat p).Gives c k true (k.moved c) := by
  refine (gives_isAt p c k).bind ?_
  rw [decide_eq_true h, if_pos rfl]
  exact (gives_skip c k).bind (gives_pure true c _)

lemma gives_eat_of_ne {p : String} (h : k.current.token ≠ .punctuator p) :
    (eat p).Gives c k false k := by
  refine (gives_isAt p c k).bind ?_
  rw [decide_eq_false h]
  exact gives_pure false c k

lemma gives_expect {p : String} (h : k.current.token = .punctuator p) :
    (expect p).Gives c k () (k.moved c) := by
  refine (gives_eat h).bind ?_
  exact gives_pure () c _

/-! ### Failing -/

lemma not_gives_throw (f : SyntaxFault) : ¬ (throw f : Parser α).Gives c k a k' := by
  intro h
  cases h

lemma not_gives_failAt (cause : SyntaxCause) (offset : Nat) :
    ¬ (failAt cause offset : Parser α).Gives c k a k' := by
  intro h
  rw [failAt] at h
  obtain ⟨token, k₁, -, h⟩ := exists_gives_of_bind h
  cases token with
  | fault f =>
      obtain ⟨_, k₂, -, h⟩ := exists_gives_of_bind h
      obtain ⟨_, k₃, -, h⟩ := exists_gives_of_bind h
      exact not_gives_throw _ h
  | _ => exact not_gives_throw _ h

lemma not_gives_failHere (cause : SyntaxCause) :
    ¬ (failHere cause : Parser α).Gives c k a k' := by
  intro h
  obtain ⟨offset, k₁, -, h⟩ := exists_gives_of_bind h
  exact not_gives_failAt cause offset h

lemma not_gives_failUnexpected (wanted : String) :
    ¬ (failUnexpected wanted : Parser α).Gives c k a k' := by
  intro h
  obtain ⟨token, k₁, -, h⟩ := exists_gives_of_bind h
  exact not_gives_failHere _ h

end

/-! ### Places in texts -/

/-- A cursor stands before a text that starts at an offset, with nothing but a gap between its
current token and the text. -/
def Cursor.Before (mode : LexMode) (offset : Nat) (t : List Char) (k : Cursor) : Prop :=
  ∃ before newline start gap, IsGap isLineBreak gap ∧ start + byteLength gap = offset
    ∧ k.current = lexeme mode before newline start (gap ++ t)

/-- Nothing is wrong with the first token of a text or in a gap before it. -/
def Clean (mode : LexMode) (t : List Char) : Prop :=
  ∀ before newline start gap, IsGap isLineBreak gap →
    (lexeme mode before newline start (gap ++ t)).faults = []

section

variable {mode : LexMode} {offset : Nat} {gap t : List Char} {k : Cursor} {mark : Char}

lemma Cursor.Before.behind_gap (h : k.Before mode offset (gap ++ t)) (hgap : IsGap isLineBreak gap) :
    k.Before mode (offset + byteLength gap) t := by
  obtain ⟨before, newline, start, gap', hgap', hstart, hcurrent⟩ := h
  refine ⟨before, newline, start, gap' ++ gap, hgap'.append hgap, ?_, ?_⟩
  · rw [byteLength_append, ← hstart, Nat.add_assoc]
  · rw [hcurrent, List.append_assoc]

/-- Only the current token counts. -/
lemma Cursor.Before.of_current {k' : Cursor} (h : k.Before mode offset t)
    (hcurrent : k'.current = k.current) : k'.Before mode offset t := by
  rwa [Before, hcurrent]

lemma Clean.gap_append (h : Clean mode t) (hgap : IsGap isLineBreak gap) :
    Clean mode (gap ++ t) := by
  intro before newline start gap' hgap'
  rw [← List.append_assoc]
  exact h before newline start (gap' ++ gap) (hgap'.append hgap)

lemma clean_token {first : Char} {w rest : List Char} {token : Token} (hfirst : StartsToken first)
    (htoken : readToken mode (first :: w) = ⟨token, rest, []⟩) (hfault : ∀ f, token ≠ .fault f)
    (hstop : token ≠ .stop) : Clean mode (first :: w) := by
  intro before newline start gap hgap
  obtain ⟨newline', comments, hlexeme⟩ := lexeme_append (fun _ h => h) hgap hfirst htoken hfault hstop
    before newline start
  rw [hlexeme]

/-- A cursor before a token has it for its current token. -/
lemma Cursor.Before.at_token {first : Char} {w rest : List Char} {token : Token}
    (h : k.Before mode offset (first :: w)) (hfirst : StartsToken first)
    (htoken : readToken mode (first :: w) = ⟨token, rest, []⟩) (hfault : ∀ f, token ≠ .fault f)
    (hstop : token ≠ .stop) :
    k.current.token = token
      ∧ k.current.span = ⟨offset, offset + byteLength (upTo (first :: w) rest)⟩
      ∧ k.current.after = rest := by
  obtain ⟨before, newline, start, gap, hgap, rfl, hcurrent⟩ := h
  obtain ⟨newline', comments, hlexeme⟩ := lexeme_append (fun _ h => h) hgap hfirst htoken hfault hstop
    before newline start
  rw [hcurrent, hlexeme]
  exact ⟨rfl, rfl, rfl⟩

/-- Behind its current token, the cursor stands before the text that is left. -/
lemma Cursor.before_moved {c : Context} (hstop : k.current.span.stop = offset)
    (hafter : k.current.after = t) (hclean : Clean c.lexMode t) :
    (k.moved c).Before c.lexMode offset t ∧ (k.moved c).faults = k.faults := by
  have hcurrent : (k.moved c).current
      = lexeme c.lexMode k.current.token.trailing false offset t := by
    rw [Cursor.moved, hstop, hafter]
  refine ⟨⟨_, _, _, [], .nil, rfl, hcurrent⟩, ?_⟩
  have hfaults : (k.moved c).current.faults = [] := by
    rw [hcurrent]
    exact hclean _ _ _ [] .nil
  rw [Cursor.moved] at hfaults ⊢
  simp only at hfaults ⊢
  rw [hfaults, List.append_nil, ite_self]

lemma clean_mark (hmark : IsMark mark) (mode : LexMode) (t : List Char) :
    Clean mode (mark :: t) :=
  clean_token hmark.startsToken (readToken_mark hmark mode t) (by simp) (by simp)

lemma Cursor.Before.at_mark (h : k.Before mode offset (mark :: t)) (hmark : IsMark mark) :
    k.current.token = .punctuator (String.singleton mark) ∧ k.current.span = ⟨offset, offset + 1⟩
      ∧ k.current.after = t := by
  have hsize : byteLength (upTo (mark :: t) t) = 1 := by
    have htake : upTo (mark :: t) t = [mark] := upTo_append [mark] t
    obtain rfl | rfl | rfl | rfl := hmark <;> (rw [htake]; decide)
  obtain ⟨htoken, hspan, hafter⟩ := h.at_token hmark.startsToken (readToken_mark hmark mode t)
    (by simp) (by simp)
  rw [hsize] at hspan
  exact ⟨htoken, hspan, hafter⟩

/-- Behind a mark, the cursor stands before the text behind it. -/
lemma Cursor.Before.moved {c : Context} (h : k.Before c.lexMode offset (mark :: t))
    (hmark : IsMark mark) (hclean : Clean c.lexMode t) :
    (k.moved c).Before c.lexMode (offset + 1) t ∧ (k.moved c).faults = k.faults := by
  obtain ⟨-, hspan, hafter⟩ := h.at_mark hmark
  exact Cursor.before_moved (by rw [hspan]) hafter hclean

end

/-! ### Texts that are read -/

/-- Behind a gap, a text goes on with one of these marks. -/
def GoesOn (marks : List Char) (t : List Char) : Prop :=
  ∃ gap mark rest, IsGap isLineBreak gap ∧ mark ∈ marks ∧ t = gap ++ mark :: rest

/-- In a context, a reader reads a text wherever it stands, as long as what follows is as `ends` says:
it notes no faults, gives a value that is as `good` says, and leaves the cursor behind the text. -/
structure Parser.Reads {α : Type} (r : Parser α) (c : Context) (ends : List Char → Prop)
    (w : List Char) (good : α → Prop) : Prop where
  /-- Nothing is wrong with the first token. -/
  clean : ∀ rest, ends rest → Clean c.lexMode (w ++ rest)
  /-- The value is given. -/
  gives : ∀ k offset rest, ends rest → k.Before c.lexMode offset (w ++ rest) →
    ∃ a k', r.Gives c k a k' ∧ good a ∧ k'.Before c.lexMode (offset + byteLength w) rest
      ∧ k'.faults = k.faults

section

variable {marks marks' : List Char} {gap t : List Char} {mark : Char}

lemma goesOn_mark (hgap : IsGap isLineBreak gap) (hmark : mark ∈ marks) (rest : List Char) :
    GoesOn marks (gap ++ mark :: rest) :=
  ⟨gap, mark, rest, hgap, hmark, rfl⟩

lemma GoesOn.clean (h : GoesOn marks t) (hmarks : ∀ c ∈ marks, IsMark c) (mode : LexMode) :
    Clean mode t := by
  obtain ⟨gap, mark, rest, hgap, hmark, rfl⟩ := h
  exact (clean_mark (hmarks mark hmark) mode rest).gap_append hgap

end

end SvelteStories.Script

/-
What readers of markup go over:

* `Place.Reads`: from one place to another a reader goes over a given text;
* `slice?_of_reads`: between two such places the whole text has that slice;
* `reads_braced`, `reads_run`, …: what the readers of small things go over;
* `readAttributes_reaches`: opening tags are read from left to right.
-/
import SvelteStories.Markup.Attributes
import SvelteStories.Proofs.Markup.Code
import SvelteStories.Proofs.Outcome

namespace SvelteStories.Markup

/-! ### Going over a text -/

/-- Between a place and a later one stands a text. -/
def Place.Reads (p : Place) (s : List Char) (q : Place) : Prop :=
  p.rest = s ++ q.rest ∧ q.offset = p.offset + byteLength s

/-- A place is not before another one. -/
def Place.Reaches (p q : Place) : Prop :=
  ∃ s, p.Reads s q

namespace Place

variable {p q r : Place} {s t u : List Char}

lemma Reads.refl (p : Place) : p.Reads [] p := ⟨rfl, rfl⟩

lemma Reads.trans (h : p.Reads s q) (h' : q.Reads u r) : p.Reads (s ++ u) r := by
  obtain ⟨hrest, hoffset⟩ := h
  obtain ⟨hrest', hoffset'⟩ := h'
  exact ⟨by rw [hrest, hrest', List.append_assoc], by rw [byteLength_append]; omega⟩

lemma Reads.reaches (h : p.Reads s q) : p.Reaches q := ⟨s, h⟩

lemma Reaches.refl (p : Place) : p.Reaches p := ⟨[], .refl p⟩

lemma Reaches.trans (h : p.Reaches q) (h' : q.Reaches r) : p.Reaches r := by
  obtain ⟨s, hs⟩ := h
  obtain ⟨u, hu⟩ := h'
  exact ⟨s ++ u, hs.trans hu⟩

lemma Reaches.le (h : p.Reaches q) : p.offset ≤ q.offset := by
  obtain ⟨s, -, hoffset⟩ := h
  omega

/-- Between two places of a text stands its slice. -/
lemma slice?_of_reads (hp : (Place.start t).Reaches p) (h : p.Reads s q) :
    slice? t (p.spanTo q) = some s := by
  obtain ⟨before, hrest, hoffset⟩ := hp
  refine slice?_eq_some_iff.mpr ⟨before, q.rest, ?_, ?_, h.2⟩
  · rw [← h.1]
    exact hrest
  · simpa [Place.start, spanTo] using hoffset.symm

/-! ### Small readers -/

@[simp] lemma fail_ne_ok {α : Type} {cause : MarkupCause} {a : α} : p.fail cause ≠ .ok a := by
  simp [fail]

lemma reads_after (h : p.rest = s ++ u) : p.Reads s (p.after s) :=
  ⟨by simp [after, h], rfl⟩

lemma reads_of_startsWith (h : s <+: p.rest) : p.Reads s (p.after s) := by
  obtain ⟨u, hu⟩ := h
  exact reads_after hu.symm

lemma reads_run (p : Place) (test : Char → Bool) : p.Reads (p.run test) (p.after (p.run test)) :=
  reads_after (List.takeWhile_append_dropWhile).symm

lemma reads_skipBlanks (p : Place) : p.Reads (p.run isAsciiBlank) p.skipBlanks :=
  p.reads_run isAsciiBlank

lemma reads_head {c : Char} (h : p.rest.head? = some c) : p.Reads [c] (p.after [c]) := by
  obtain ⟨rest, hrest⟩ := List.head?_eq_some_iff.mp h
  exact reads_after hrest

/-- What is gone over determines the place behind it. -/
lemma Reads.after_eq (h : p.Reads s q) : p.after s = q := by
  obtain ⟨hrest, hoffset⟩ := h
  simp [after, hrest, ← hoffset]

/-- A text is gone over in two steps. -/
lemma reads_append_iff : p.Reads (s ++ u) r ↔ ∃ q, p.Reads s q ∧ q.Reads u r := by
  constructor
  · rintro ⟨hrest, hoffset⟩
    rw [List.append_assoc] at hrest
    refine ⟨p.after s, reads_after hrest, by simp [after, hrest], ?_⟩
    rw [hoffset, byteLength_append, ← Nat.add_assoc]
    rfl
  · rintro ⟨q, h, h'⟩
    exact h.trans h'

lemma reads_cons_iff {c : Char} :
    p.Reads (c :: s) r ↔ ∃ q, p.Reads [c] q ∧ q.Reads s r :=
  reads_append_iff (s := [c])

/-- The characters that satisfy a test, up to one that does not. -/
lemma Reads.run_eq {test : Char → Bool} (h : p.Reads s q) (hs : ∀ c ∈ s, test c = true)
    (hq : ∀ c, q.rest.head? = some c → test c = false) : p.run test = s := by
  rw [run, h.1, List.takeWhile_append_of_pos hs]
  cases hrest : q.rest with
  | nil => simp
  | cons c rest => simp [hq c (by simp [hrest])]

end Place

open Place

/-- Code in braces is code indeed. -/
lemma reads_braced {p q : Place} {code : List Char} (h : braced p = .ok (code, q)) :
    p.Reads ('{' :: (code ++ ['}'])) q ∧ Code code := by
  rw [braced] at h
  split at h
  · rename_i code' rest hsplit
    split at hsplit
    · rename_i t hrest
      obtain ⟨rfl, hcode, r, rfl⟩ := split?_start_eq_some_iff.mp hsplit
      simp only [Except.ok.injEq, Prod.mk.injEq] at h
      obtain ⟨rfl, rfl⟩ := h
      exact ⟨reads_after (u := r) (by rw [hrest]; simp), hcode⟩
    · simp at hsplit
  · simp at h

/-- Code in braces is read to its closing brace. -/
lemma braced_eq_ok {p q : Place} {code : List Char} (h : p.Reads ('{' :: (code ++ ['}'])) q)
    (hcode : Code code) : braced p = .ok (code, q) := by
  have hsplit : BraceScan.start.split? (code ++ '}' :: q.rest) = some (code, '}' :: q.rest) :=
    split?_start_eq_some_iff.mpr ⟨rfl, hcode, _, rfl⟩
  have hrest : p.rest = '{' :: (code ++ '}' :: q.rest) := by simpa using h.1
  simp only [braced, hrest, hsplit]
  exact congrArg (fun r => Except.ok (code, r)) h.after_eq

/-- Before the first occurrence of a text stands another text. -/
lemma eq_append_of_splitAtFirst {sought t before rest : List Char}
    (h : splitAtFirst sought t = some (before, rest)) : t = before ++ rest ∧ sought <+: rest := by
  induction t generalizing before with
  | nil =>
      rw [splitAtFirst] at h
      split_ifs at h with hempty
      simp only [Option.some.injEq, Prod.mk.injEq] at h
      obtain ⟨rfl, rfl⟩ := h
      simpa using hempty
  | cons c t ih =>
      rw [splitAtFirst] at h
      split_ifs at h with hstarts
      · simp only [Option.some.injEq, Prod.mk.injEq] at h
        obtain ⟨rfl, rfl⟩ := h
        exact ⟨rfl, List.isPrefixOf_iff_prefix.mp hstarts⟩
      · obtain ⟨⟨before, rest⟩, hsplit, heq⟩ := Option.map_eq_some_iff.mp h
        obtain ⟨rfl, rfl⟩ := Prod.mk.inj heq
        obtain ⟨rfl, hsought⟩ := ih hsplit
        exact ⟨rfl, hsought⟩

/-! ### Values -/

lemma quotedParts_reaches {quote : Char} {opening p q : Place} {fuel : Nat}
    {parts : List (ValuePart × List Char)}
    (h : quotedParts quote opening fuel p = .ok (parts, q)) : p.Reaches q := by
  induction fuel generalizing p parts with
  | zero => simp [quotedParts] at h
  | succ fuel ih =>
      rw [quotedParts] at h
      have hrun := p.reads_run fun c => c != quote && c != '{'
      refine hrun.reaches.trans ?_
      split at h
      · simp at h
      · rename_i c rest hrest
        split_ifs at h
        · simp only [pure_eq_ok_iff, Prod.mk.injEq] at h
          obtain ⟨-, rfl⟩ := h
          exact (reads_after hrest).reaches
        · simp only [bind_eq_ok_iff, pure_eq_ok_iff, Prod.mk.injEq] at h
          obtain ⟨⟨code, behind⟩, hcode, ⟨parts', stop⟩, hparts, -, rfl⟩ := h
          exact (reads_braced hcode).1.reaches.trans (ih hparts)

lemma readValue_reaches {read : ExpressionReader} {p q : Place} {value : AttributeValue}
    (h : readValue read p = .ok (value, q)) : p.Reaches q := by
  rw [readValue] at h
  split at h
  · simp only [bind_eq_ok_iff, pure_eq_ok_iff, Prod.mk.injEq] at h
    obtain ⟨⟨code, q⟩, hcode, value, -, -, rfl⟩ := h
    exact (reads_braced hcode).1.reaches
  · rename_i c rest _ hrest
    split_ifs at h
    · simp only [bind_eq_ok_iff, pure_eq_ok_iff, Prod.mk.injEq] at h
      obtain ⟨⟨parts, q⟩, hparts, value, -, -, rfl⟩ := h
      exact (reads_after hrest).reaches.trans (quotedParts_reaches hparts)
    · -- a value without quotes may end before the slash that closes the tag
      simp only [pure_eq_ok_iff, Prod.mk.injEq] at h
      obtain ⟨-, rfl⟩ := h
      have hrun := List.takeWhile_prefix (l := p.rest) fun d => !isAsciiBlank d && d != '>'
      refine (reads_of_startsWith ?_).reaches
      split_ifs
      · exact (List.dropLast_prefix _).trans hrun
      · exact hrun
  · simp only [pure_eq_ok_iff, Prod.mk.injEq] at h
    obtain ⟨-, rfl⟩ := h
    exact .refl p

lemma readDirectiveValue_reaches {p q : Place} {span : Span}
    (h : readDirectiveValue p = .ok (span, q)) : p.Reaches q := by
  rw [readDirectiveValue] at h
  cases hquote : p.rest.head?.filter fun c => c = '"' || c = '\'' with
  | none =>
      simp only [hquote] at h
      split_ifs at h
      · exact absurd h error_bind_ne_ok
      · simp only [bind_eq_ok_iff, pure_eq_ok_iff, Prod.mk.injEq] at h
        obtain ⟨⟨code, q⟩, hcode, -, rfl⟩ := h
        exact (reads_braced hcode).1.reaches
  | some c =>
      simp only [hquote] at h
      have hopening := reads_head (Option.filter_eq_some_iff.mp hquote).1
      refine hopening.reaches.trans ?_
      split_ifs at h
      · exact absurd h error_bind_ne_ok
      · rw [bind_eq_ok_iff] at h
        obtain ⟨⟨code, q'⟩, hcode, h⟩ := h
        refine (reads_braced hcode).1.reaches.trans ?_
        split_ifs at h with hclosing
        · simp only [pure_eq_ok_iff, Prod.mk.injEq] at h
          obtain ⟨-, rfl⟩ := h
          exact (reads_head hclosing).reaches
        · simp at h

/-! ### Attributes -/

lemma reads_readBracedAttribute {read : ExpressionReader} {p q : Place} {a : AttributeNode}
    (h : readBracedAttribute read p = .ok (a, q)) : ∃ code, p.Reads ('{' :: (code ++ ['}'])) q := by
  rw [readBracedAttribute, bind_eq_ok_iff] at h
  obtain ⟨⟨code, q'⟩, hcode, h⟩ := h
  have hreads := (reads_braced hcode).1
  dsimp only at h
  split at h
  · simp only [pure_eq_ok_iff, Prod.mk.injEq] at h
    obtain ⟨-, rfl⟩ := h
    exact ⟨code, hreads⟩
  · simp only [bind_eq_ok_iff, pure_eq_ok_iff, Prod.mk.injEq] at h
    obtain ⟨value, -, -, rfl⟩ := h
    exact ⟨code, hreads⟩

lemma reaches_of_valuePlace? {p q : Place} (h : valuePlace? p = some q) : p.Reaches q := by
  simp only [valuePlace?] at h
  split_ifs at h with hequals
  obtain rfl := Option.some.inj h
  refine (reads_skipBlanks p).reaches.trans ?_
  exact (reads_head hequals).reaches.trans (reads_skipBlanks _).reaches

/-- An attribute starts with a brace or with a character of its name. -/
lemma reads_readAttribute {read : ExpressionReader} {p q : Place} {a : AttributeNode}
    (h : readAttribute read p = .ok (a, q)) :
    ∃ c s, p.Reads (c :: s) q ∧ (c = '{' ∨ isAttributeNamePart c = true) := by
  rw [readAttribute] at h
  split_ifs at h with hbrace
  · obtain ⟨code, hcode⟩ := reads_readBracedAttribute h
    exact ⟨_, _, hcode, .inl rfl⟩
  dsimp only at h
  split_ifs at h with hempty
  · exact absurd h error_bind_ne_ok
  obtain ⟨s, hs⟩ : (p.after (p.run isAttributeNamePart)).Reaches q := by
    split at h
    · rename_i hvalue
      simp only [bind_eq_ok_iff, pure_eq_ok_iff, Prod.mk.injEq] at h
      obtain ⟨⟨code, q⟩, hcode, -, rfl⟩ := h
      exact (reaches_of_valuePlace? hvalue).trans (readDirectiveValue_reaches hcode)
    · simp only [pure_eq_ok_iff, Prod.mk.injEq] at h
      obtain ⟨-, rfl⟩ := h
      exact .refl _
    · rename_i hvalue
      simp only [bind_eq_ok_iff, pure_eq_ok_iff, Prod.mk.injEq] at h
      obtain ⟨⟨value, q⟩, hread, -, rfl⟩ := h
      exact (reaches_of_valuePlace? hvalue).trans (readValue_reaches hread)
    · simp only [pure_eq_ok_iff, Prod.mk.injEq] at h
      obtain ⟨-, rfl⟩ := h
      exact .refl _
  have hname := p.reads_run isAttributeNamePart
  obtain ⟨c, name, hcons⟩ := List.exists_cons_of_ne_nil (by simpa using hempty)
  have hpart : isAttributeNamePart c = true :=
    List.all_eq_true.mp List.all_takeWhile c (hcons ▸ List.mem_cons_self)
  rw [hcons] at hname hs
  exact ⟨c, name ++ s, hname.trans hs, .inr hpart⟩

lemma readAttribute_reaches {read : ExpressionReader} {p q : Place} {a : AttributeNode}
    (h : readAttribute read p = .ok (a, q)) : p.Reaches q := by
  obtain ⟨c, s, hs, -⟩ := reads_readAttribute h
  exact hs.reaches

/-- An opening tag is read from left to right. -/
lemma readAttributes_reaches {read : ExpressionReader} {opening p q : Place} {name : List Char}
    {fuel : Nat} {attributes : List AttributeNode} {selfClosing : Bool}
    (h : readAttributes read opening name fuel p = .ok ((attributes, selfClosing), q)) :
    p.Reaches q := by
  induction fuel generalizing p attributes selfClosing with
  | zero => simp [readAttributes] at h
  | succ fuel ih =>
      rw [readAttributes] at h
      refine (reads_skipBlanks p).reaches.trans ?_
      dsimp only at h
      split at h
      · rename_i hrest
        simp only [pure_eq_ok_iff, Prod.mk.injEq] at h
        obtain ⟨-, rfl⟩ := h
        exact (reads_after (s := ['/', '>']) hrest).reaches
      · rename_i hrest
        simp only [pure_eq_ok_iff, Prod.mk.injEq] at h
        obtain ⟨-, rfl⟩ := h
        exact (reads_after (s := ['>']) hrest).reaches
      · simp at h
      · simp only [bind_eq_ok_iff, pure_eq_ok_iff, Prod.mk.injEq] at h
        obtain ⟨⟨a, q'⟩, hattribute, ⟨⟨rest, closing⟩, q''⟩, hrest, -, rfl⟩ := h
        exact (readAttribute_reaches hattribute).trans (ih hrest)

end SvelteStories.Markup

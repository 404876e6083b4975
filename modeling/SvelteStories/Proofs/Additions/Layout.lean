/-
Object literals where they stand in a text, and edits of them:

* `Layout`: a text with an object literal in it, spelled out; `Layout.reads` reads it;
* `ObjectLiteral.StandsIn`: the places in an object literal are those of its layout;
* `Layout.Edited`: a single edit makes a layout another one;
* `hasComma_of_isGap`, `hasComma_of_isSeparator`: a comma is found behind the last property if there
  is one, as long as line feeds end all comments that go to the end of their lines;
* `exists_edited_of_appendProperty`, `exists_edited_of_overwrite`: an object literal with a further
  property, and one with another body in the place of a property's.
-/
import SvelteStories.Additions.Parameters
import SvelteStories.Proofs.Edit.Regions
import SvelteStories.Proofs.Script.Objects

namespace SvelteStories

open Script

/-! ### Layouts -/

/-- A text with an object literal in it, spelled out. -/
structure Layout (g : Grammar) (c : Context) where
  /-- The text before the object literal. -/
  before : List Char
  /-- The properties with their texts. -/
  slots : List Slot
  /-- What stands between the last property and the closing brace. -/
  closing : List Char
  /-- The text behind the object literal. -/
  behind : List Char
  /-- Gaps and commas stand between the properties. -/
  separates : Separates slots closing
  /-- The texts of the properties are what they should be. -/
  texts : ∀ s ∈ slots, SlotText g c.inObject s

namespace Layout

variable {g : Grammar} {c : Context} (l : Layout g c)

/-- The text of the object literal. -/
def object : List Char :=
  objectText l.slots l.closing

/-- The whole text. -/
def text : List Char :=
  l.before ++ (l.object ++ l.behind)

/-- The place of the object literal. -/
def span : Span :=
  ⟨byteLength l.before, byteLength l.before + byteLength l.object⟩

/-- The object literal is read as what is laid out. -/
lemma reads {l : Layout g c} {o : ObjectLiteral} (hbudget : l.slots.length < c.budget)
    (ho : o.properties = l.slots.map (·.property)) :
    (readObject g).Reads c (Clean c.lexMode) l.object (·.unplaced = o.unplaced) := by
  have hreads := readObject_reads hbudget l.separates fun s hs => (l.texts s hs).reads
  refine ⟨hreads.clean, fun k offset rest hrest hk => ?_⟩
  obtain ⟨o', k', hgives, hproperties, hk', hfaults⟩ := hreads.gives k offset rest hrest hk
  refine ⟨o', k', hgives, ?_, hk', hfaults⟩
  rw [ObjectLiteral.unplaced_eq_iff, hproperties, ho, List.map_map]
  rfl

end Layout

/-- What additions replace of a property: its value, or the whole of it. -/
def Script.Property.target : Property → Span
  | .keyValue _ value => value.span
  | p => p.span

lemma target_stop (p : Property) : p.target.stop = p.span.stop := by
  cases p <;> rfl

/-- The places in an object literal are those of a layout. -/
structure Script.ObjectLiteral.StandsIn {g : Grammar} {c : Context} (o : ObjectLiteral)
    (l : Layout g c) : Prop where
  /-- The object literal is the one that is laid out. -/
  properties : o.properties = l.slots.map (·.property)
  /-- It stands in its place. -/
  span : o.span = l.span
  /-- The properties stand in theirs. -/
  targets : ∀ left s right, l.slots = left ++ s :: right →
    s.property.target = ⟨byteLength (l.before ++ '{' :: (written left ++ (s.sep ++ s.head))),
      byteLength (l.before ++ '{' :: (written left ++ (s.sep ++ s.head))) + byteLength s.body⟩

/-! ### Single edits -/

/-- An edit of a fresh draft is accepted, and the text is edited in its place. -/
lemma finish_overwrite (before old behind text : List Char) :
    (Draft.ofText (before ++ (old ++ behind))).overwrite (byteLength before)
        (byteLength before + byteLength old) text
      = .ok ⟨before ++ (old ++ behind),
          [⟨byteLength before, byteLength before + byteLength old, text⟩], []⟩
    ∧ (⟨before ++ (old ++ behind),
        [⟨byteLength before, byteLength before + byteLength old, text⟩], []⟩ : Draft).finish
      = before ++ (text ++ behind) := by
  refine ⟨?_, ?_⟩
  · refine Draft.overwrite_of_clear (fun a ha => nomatch ha) ⟨by simp, ?_, ?_, ?_⟩
      (fun a ha => nomatch ha)
    · simp only [Draft.ofText, byteLength_append]
      omega
    · exact ⟨before, old ++ behind, rfl, rfl⟩
    · exact ⟨before ++ old, behind, by simp [Draft.ofText], byteLength_append _ _⟩
  · simp [Draft.finish, applyEdits, splitAtByte_append]

/-- A single edit between the braces of an object literal makes a layout another one. -/
structure Layout.Edited {g : Grammar} {c : Context} (l l' : Layout g c)
    (result : Except Fault Draft) (e : Edit) : Prop where
  /-- The edit is the only one. -/
  accepted : result = .ok ⟨l.text, [e], []⟩
  /-- It stands in the object literal. -/
  inside : e.Inside l.span
  /-- The edited text is the other one. -/
  finish : (⟨l.text, [e], []⟩ : Draft).finish = l'.text
  /-- Nothing is changed before the object literal. -/
  before : l'.before = l.before
  /-- Nothing is changed behind it. -/
  behind : l'.behind = l.behind

section

variable {g : Grammar} {c : Context} {l l' : Layout g c} {left old new right : List Char}

/-- A stretch between the braces is replaced. -/
lemma edited_of_overwrite (hobject : l.object = '{' :: (left ++ (old ++ (right ++ ['}']))))
    (hobject' : l'.object = '{' :: (left ++ (new ++ (right ++ ['}']))))
    (hbefore : l'.before = l.before) (hbehind : l'.behind = l.behind) {start stop : Nat}
    (hstart : start = byteLength (l.before ++ '{' :: left))
    (hstop : stop = start + byteLength old) :
    l.Edited l' ((Draft.ofText l.text).overwrite start stop new) ⟨start, stop, new⟩ := by
  have htext : l.text = (l.before ++ '{' :: left) ++ (old ++ (right ++ '}' :: l.behind)) := by
    simp [Layout.text, hobject]
  have htext' : l'.text = (l.before ++ '{' :: left) ++ (new ++ (right ++ '}' :: l.behind)) := by
    simp [Layout.text, hobject', hbefore, hbehind]
  obtain ⟨haccepted, hfinish⟩ := finish_overwrite (l.before ++ '{' :: left) old
    (right ++ '}' :: l.behind) new
  rw [← htext, ← hstart, ← hstop] at haccepted hfinish
  have hsize : '{'.utf8Size = 1 := by decide
  have hsize' : '}'.utf8Size = 1 := by decide
  have hplace : l.span.start < start ∧ start ≤ stop ∧ stop < l.span.stop := by
    simp only [Layout.span, hobject, byteLength_append, byteLength_cons, byteLength_nil, hsize,
      hsize'] at hstart ⊢
    omega
  obtain ⟨hafter, hle, hbefore'⟩ := hplace
  have hwithin := And.intro (Nat.le_of_lt hafter) (And.intro hle (Nat.le_of_lt hbefore'))
  exact ⟨haccepted, ⟨hwithin, fun _ => ⟨hafter, hbefore'⟩⟩, hfinish.trans htext'.symm, hbefore,
    hbehind⟩

end

/-! ### Commas -/

section

variable {w t : List Char}

/-- What a character of its own says about commas, by what it is a part of. -/
lemma hasComma_cons (c : Char) (t : List Char) :
    (c ≠ '/' → hasComma .blank (c :: t) = (c = ',' || hasComma .blank t))
      ∧ hasComma .lineComment (c :: t) = hasComma (if c = '\n' then .blank else .lineComment) t
      ∧ ((∀ t', c = '*' → t ≠ '/' :: t') →
        hasComma .blockComment (c :: t) = hasComma .blockComment t) := by
  refine ⟨fun hslash => ?_, by rw [hasComma], fun hstar => ?_⟩
  · rw [hasComma]
    · exact fun t' h _ => hslash h
    · exact fun t' h _ => hslash h
  · rw [hasComma]
    exact hstar

/-- A line comment has no comma of its own. -/
lemma hasComma_lineComment {inside : List Char} (h : ∀ d ∈ inside, isLineBreak d = false) :
    hasComma .lineComment (inside ++ t) = hasComma .lineComment t := by
  induction inside with
  | nil => rfl
  | cons d inside ih =>
      obtain ⟨hd, hinside⟩ := List.forall_mem_cons.mp h
      have hne : d ≠ '\n' := by
        rintro rfl
        exact absurd hd (by decide)
      rw [List.cons_append, (hasComma_cons d _).2.1, if_neg hne, ih hinside]

lemma hasComma_blockComment {inside : List Char} (h : ¬ ['*', '/'] <:+: inside) :
    hasComma .blockComment (inside ++ '*' :: '/' :: t) = hasComma .blank t := by
  induction inside with
  | nil => rfl
  | cons d inside ih =>
      have hinside : ¬ ['*', '/'] <:+: inside := fun hin =>
        h (hin.trans (List.suffix_cons d inside).isInfix)
      rw [List.cons_append, (hasComma_cons d _).2.2 fun t' hd ht => ne_star_of_append h ht hd,
        ih hinside]

lemma hasComma_blank {c : Char} (hc : isScriptBlank c = true) :
    hasComma .blank (c :: t) = hasComma .blank t := by
  have hne : ∀ d : Char, ¬ isScriptBlank d = true → c ≠ d := by
    rintro d hd rfl
    exact hd hc
  rw [(hasComma_cons c t).1 (hne '/' (by decide)), decide_eq_false (hne ',' (by decide)),
    Bool.false_or]

/-- Gaps are passed over. -/
lemma hasComma_append (h : IsGap isLineFeed w) : hasComma .blank (w ++ t) = hasComma .blank t := by
  induction h with
  | nil => rfl
  | blank hc _ ih => rw [List.cons_append, hasComma_blank hc, ih]
  | line hinside hc _ ih =>
      obtain rfl : _ = '\n' := of_decide_eq_true hc
      simp only [List.cons_append, List.append_assoc]
      exact (hasComma_lineComment hinside).trans ih
  | block hinside _ ih =>
      simp only [List.cons_append, List.append_assoc]
      exact (hasComma_blockComment hinside).trans ih

lemma hasComma_of_isGap (h : IsGap isLineFeed w) : hasComma .blank w = false := by
  have happend := hasComma_append (t := []) h
  rwa [List.append_nil] at happend

lemma hasComma_of_isSeparator (h : IsSeparator isLineFeed w) : hasComma .blank w = true := by
  obtain ⟨gap, gap', hgap, -, rfl⟩ := h
  rw [hasComma_append hgap]
  rfl

end

/-! ### Edited objects -/

section

variable {g : Grammar} {c : Context} {l : Layout g c} {o : ObjectLiteral} {s s' : Slot}
  {left right : List Slot}

lemma closing_offset (l : Layout g c) :
    l.span.stop - 1 = byteLength (l.before ++ '{' :: (written l.slots ++ l.closing)) := by
  have hsize : '{'.utf8Size = 1 := by decide
  have hsize' : '}'.utf8Size = 1 := by decide
  simp only [Layout.span, Layout.object, objectText, byteLength_append, byteLength_cons,
    byteLength_nil, hsize, hsize']
  omega

/-- The last property stands right before what the closing brace is separated from it by. -/
lemma Script.ObjectLiteral.StandsIn.last_stop (ho : o.StandsIn l) (hslots : l.slots = left ++ [s]) :
    s.property.span.stop = byteLength (l.before ++ '{' :: written l.slots) := by
  rw [← target_stop, ho.targets left s [] hslots, hslots, written_append]
  simp only [written, List.flatMap_cons, List.flatMap_nil, List.append_nil, Slot.text,
    byteLength_append, byteLength_cons]
  omega

/-- A further property is put in behind a part of what stands before the closing brace. -/
lemma exists_edited_of_insert {kept rest closing new : List Char} {offset : Nat}
    (hs : SlotText g c.inObject s) (hseparates : Separates (l.slots ++ [s]) closing)
    (hclosing : l.closing = kept ++ rest)
    (hnew : s.sep ++ (s.text ++ closing) = kept ++ (new ++ rest))
    (hoffset : offset = byteLength (l.before ++ '{' :: (written l.slots ++ kept))) :
    ∃ l', l.Edited l' ((Draft.ofText l.text).insert offset new) ⟨offset, offset, new⟩
      ∧ l'.slots.map (·.property) = l.slots.map (·.property) ++ [s.property] := by
  have htexts : ∀ s' ∈ l.slots ++ [s], SlotText g c.inObject s' := by
    intro s' hs'
    obtain hs' | hs' := List.mem_append.mp hs'
    · exact l.texts s' hs'
    · exact List.mem_singleton.mp hs' ▸ hs
  let l' : Layout g c := ⟨l.before, l.slots ++ [s], closing, l.behind, hseparates, htexts⟩
  have hobject : l.object = '{' :: ((written l.slots ++ kept) ++ ([] ++ (rest ++ ['}']))) := by
    simp [Layout.object, objectText, hclosing]
  have hobject' : l'.object = '{' :: ((written l.slots ++ kept) ++ (new ++ (rest ++ ['}']))) := by
    have hend : written [s] ++ (closing ++ ['}']) = kept ++ (new ++ (rest ++ ['}'])) := by
      simpa [written] using congrArg (· ++ ['}']) hnew
    rw [Layout.object, objectText, written_append, List.append_assoc, hend]
    simp
  exact ⟨l', edited_of_overwrite hobject hobject' rfl rfl hoffset rfl, by simp [l']⟩

/-- A further property is put in at the closing brace. -/
lemma exists_edited_at_closing (hs : SlotText g c.inObject s)
    (hclosing : l.slots = [] ∨ IsSeparator isLineBreak l.closing) :
    ∃ e l', l.Edited l' ((Draft.ofText l.text).insert (l.span.stop - 1) (' ' :: s.text ++ [' '])) e
      ∧ s.text <:+: e.text
      ∧ l'.slots.map (·.property) = l.slots.map (·.property) ++ [s.property] := by
  have hspace : IsGap isLineBreak [' '] := isGap_space
  have hseparates : Separates (l.slots ++ [{ s with sep := l.closing ++ [' '] }]) [' '] := by
    by_cases hslots : l.slots = []
    · have hgap := l.separates
      rw [hslots] at hgap ⊢
      exact ⟨IsGap.append hgap hspace, Or.inl hspace⟩
    · obtain ⟨gap, gap', hgap, hgap', hclosing⟩ := hclosing.resolve_left hslots
      exact l.separates.append hslots
        ⟨gap, gap' ++ [' '], hgap, hgap'.append hspace, by simp [hclosing]⟩ hspace
  have hnew : l.closing ++ [' '] ++ (s.text ++ [' '])
      = l.closing ++ (' ' :: s.text ++ [' '] ++ []) := by simp
  obtain ⟨l', hedited, hproperties⟩ := exists_edited_of_insert (hs.sep _) hseparates
    (List.append_nil _).symm hnew (closing_offset l)
  exact ⟨_, l', hedited, ⟨[' '], [' '], rfl⟩, hproperties⟩

/-- A further property is put in behind the last one. -/
lemma exists_edited_behind_last (hs : SlotText g c.inObject s) (hslots : l.slots ≠ [])
    (hclosing : IsGap isLineBreak l.closing) :
    ∃ e l', l.Edited l' ((Draft.ofText l.text).insert
        (byteLength (l.before ++ '{' :: written l.slots)) (',' :: ' ' :: s.text)) e
      ∧ s.text <:+: e.text
      ∧ l'.slots.map (·.property) = l.slots.map (·.property) ++ [s.property] := by
  have hseparates : Separates (l.slots ++ [{ s with sep := [',', ' '] }]) l.closing :=
    l.separates.append hslots ⟨[], [' '], .nil, isGap_space, rfl⟩ hclosing
  have hnew : [',', ' '] ++ (s.text ++ l.closing) = [] ++ (',' :: ' ' :: s.text ++ l.closing) := rfl
  obtain ⟨l', hedited, hproperties⟩ := exists_edited_of_insert (hs.sep _) hseparates
    (List.nil_append _).symm hnew (by rw [List.append_nil])
  exact ⟨_, l', hedited, ⟨[',', ' '], [], by simp⟩, hproperties⟩

/-- An object literal with a further property. -/
lemma exists_edited_of_appendProperty (ho : o.StandsIn l) (hs : SlotText g c.inObject s)
    (hclosing : l.slots ≠ [] → IsGap isLineFeed l.closing ∨ IsSeparator isLineFeed l.closing) :
    ∃ e l', l.Edited l' (appendProperty (Draft.ofText l.text) o s.text) e ∧ s.text <:+: e.text
      ∧ l'.slots.map (·.property) = l.slots.map (·.property) ++ [s.property] := by
  obtain hslots | ⟨left, last, hslots⟩ := List.eq_nil_or_concat l.slots
  · have hlast : o.properties.getLast? = none := by simp [ho.properties, hslots]
    rw [appendProperty, hlast, ho.span]
    exact exists_edited_at_closing hs (Or.inl hslots)
  · have hne : l.slots ≠ [] := by simp [hslots]
    have hlast : o.properties.getLast? = some last.property := by simp [ho.properties, hslots]
    have hgap : slice? l.text
        ⟨byteLength (l.before ++ '{' :: written l.slots),
          byteLength (l.before ++ '{' :: (written l.slots ++ l.closing))⟩ = some l.closing := by
      have hslice := slice?_append (l.before ++ '{' :: written l.slots) l.closing ('}' :: l.behind)
      simpa [Layout.text, Layout.object, objectText, Nat.add_assoc] using hslice
    rw [appendProperty, hlast]
    simp only
    rw [ho.span, closing_offset, ho.last_stop (by simpa using hslots), Draft.ofText, hgap,
      ← closing_offset]
    obtain hclosing | hclosing := hclosing hne
    · rw [Option.getD_some, hasComma_of_isGap hclosing, if_neg Bool.false_ne_true]
      exact exists_edited_behind_last hs hne (hclosing.mono isLineBreak_of_isLineFeed)
    · rw [Option.getD_some, hasComma_of_isSeparator hclosing, if_pos rfl]
      obtain ⟨gap, gap', hgap, hgap', hclosing⟩ := hclosing
      exact exists_edited_at_closing hs
        (Or.inr ⟨gap, gap', hgap.mono isLineBreak_of_isLineFeed, hgap', hclosing⟩)

/-- An object literal with another body in the place of a property's. -/
lemma exists_edited_of_overwrite {new : List Char} (ho : o.StandsIn l)
    (hslots : l.slots = left ++ s :: right) (hs' : SlotText g c.inObject s') (hsep : s'.sep = s.sep)
    (htext : s'.text = s.head ++ new) :
    ∃ l', l.Edited l' ((Draft.ofText l.text).overwrite s.property.target.start
        s.property.target.stop new) ⟨s.property.target.start, s.property.target.stop, new⟩
      ∧ l'.slots.map (·.property)
        = left.map (·.property) ++ s'.property :: right.map (·.property) := by
  have hseparates : Separates (left ++ s' :: right) l.closing :=
    l.separates.of_map_sep (by simp [hslots, hsep])
  have htexts : ∀ s₁ ∈ left ++ s' :: right, SlotText g c.inObject s₁ := by
    have hmem := l.texts
    rw [hslots] at hmem
    intro s₁ hs₁
    simp only [List.mem_append, List.mem_cons] at hs₁ hmem
    obtain hs₁ | rfl | hs₁ := hs₁
    · exact hmem s₁ (Or.inl hs₁)
    · exact hs'
    · exact hmem s₁ (Or.inr (Or.inr hs₁))
  let l' : Layout g c := ⟨l.before, left ++ s' :: right, l.closing, l.behind, hseparates, htexts⟩
  have hobject : l.object = '{' :: ((written left ++ (s.sep ++ s.head))
      ++ (s.body ++ (written right ++ l.closing ++ ['}']))) := by
    simp [Layout.object, objectText, hslots, written_append, written_cons, Slot.text]
  have hobject' : l'.object = '{' :: ((written left ++ (s.sep ++ s.head))
      ++ (new ++ (written right ++ l.closing ++ ['}']))) := by
    simp [l', Layout.object, objectText, written_append, written_cons, hsep, htext]
  have htarget := ho.targets left s right hslots
  exact ⟨l', edited_of_overwrite hobject hobject' rfl rfl (by rw [htarget]) (by rw [htarget]),
    by simp [l']⟩

end

end SvelteStories

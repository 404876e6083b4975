/-
A further property behind the last one of an object literal, and the commas around it:

* `bareFrom`: a text without its blanks and comments, and what its end is a part of;
* `Spelled`: an object literal in its text, with what stands between its last property and its
  closing brace;
* `FeedsLines`: the line comments in a gap are followed by line feeds, or by no comma;
* `hasComma_of_feedsLines`: the search for a comma finds none in such a gap, if the gap has none of
  its own;
* `appendProperty_spec`: a further property is one insertion, outside of comments, and exactly one
  comma stands between it and the last property if there is one;
* `returnedGap_joins`: in another gap the search takes a comma in a comment for one of its own.
-/
import SvelteStories.Proofs.Additions.Layout

namespace SvelteStories

open Script

/-! ### Texts without blanks and comments -/

/-- A text without its blanks and comments, and what its end is a part of. -/
def bareFrom : GapMode → List Char → List Char × GapMode
  | mode, [] => ([], mode)
  | .blank, '/' :: '/' :: t => bareFrom .lineComment t
  | .blank, '/' :: '*' :: t => bareFrom .blockComment t
  | .blank, c :: t =>
    if isScriptBlank c then bareFrom .blank t
    else (c :: (bareFrom .blank t).1, (bareFrom .blank t).2)
  | .lineComment, c :: t => bareFrom (if isLineBreak c then .blank else .lineComment) t
  | .blockComment, '*' :: '/' :: t => bareFrom .blank t
  | .blockComment, _ :: t => bareFrom .blockComment t

section

variable {v w t : List Char} {c : Char}

/-- What a character of its own makes of a text, by what it is a part of. -/
lemma bareFrom_cons (c : Char) (t : List Char) :
    (c ≠ '/' → bareFrom .blank (c :: t)
        = if isScriptBlank c then bareFrom .blank t
          else (c :: (bareFrom .blank t).1, (bareFrom .blank t).2))
      ∧ bareFrom .lineComment (c :: t) = bareFrom (if isLineBreak c then .blank else .lineComment) t
      ∧ ((∀ t', c = '*' → t ≠ '/' :: t') →
        bareFrom .blockComment (c :: t) = bareFrom .blockComment t) := by
  refine ⟨fun hslash => ?_, by rw [bareFrom], fun hstar => ?_⟩
  · rw [bareFrom]
    · exact fun t' h _ => hslash h
    · exact fun t' h _ => hslash h
  · rw [bareFrom]
    exact hstar

lemma bareFrom_blank (hc : isScriptBlank c = true) :
    bareFrom .blank (c :: t) = bareFrom .blank t := by
  have hslash : c ≠ '/' := by
    rintro rfl
    exact absurd hc (by decide)
  rw [(bareFrom_cons c t).1 hslash, if_pos hc]

lemma bareFrom_lineComment {inside : List Char} (h : ∀ d ∈ inside, isLineBreak d = false)
    (hc : isLineBreak c = true) :
    bareFrom .lineComment (inside ++ c :: t) = bareFrom .blank t := by
  induction inside with
  | nil => rw [List.nil_append, (bareFrom_cons c t).2.1, if_pos hc]
  | cons d inside ih =>
      obtain ⟨hd, hinside⟩ := List.forall_mem_cons.mp h
      rw [List.cons_append, (bareFrom_cons d _).2.1, if_neg (by simp [hd]), ih hinside]

lemma bareFrom_blockComment {inside : List Char} (h : ¬ ['*', '/'] <:+: inside) :
    bareFrom .blockComment (inside ++ '*' :: '/' :: t) = bareFrom .blank t := by
  induction inside with
  | nil => rfl
  | cons d inside ih =>
      have hinside : ¬ ['*', '/'] <:+: inside := fun hin =>
        h (hin.trans (List.suffix_cons d inside).isInfix)
      rw [List.cons_append, (bareFrom_cons d _).2.2 fun t' hd ht => ne_star_of_append h ht hd,
        ih hinside]

/-- Nothing is left of a gap. -/
lemma bareFrom_gap_append (hv : IsGap isLineBreak v) :
    bareFrom .blank (v ++ t) = bareFrom .blank t := by
  induction hv with
  | nil => rfl
  | blank hc _ ih => rw [List.cons_append, bareFrom_blank hc, ih]
  | line hinside hc _ ih =>
      simp only [List.cons_append, List.append_assoc]
      exact (bareFrom_lineComment hinside hc).trans ih
  | block hinside _ ih =>
      simp only [List.cons_append, List.append_assoc]
      exact (bareFrom_blockComment hinside).trans ih

lemma bareFrom_gap (hw : IsGap isLineBreak w) : bareFrom .blank w = ([], .blank) := by
  rw [← List.append_nil w, bareFrom_gap_append hw]
  rfl

/-- A comma is left of a separator. -/
lemma bareFrom_separator (hw : IsSeparator isLineBreak w) :
    bareFrom .blank w = ([','], .blank) := by
  obtain ⟨gap, gap', hgap, hgap', rfl⟩ := hw
  rw [bareFrom_gap_append hgap]
  change (',' :: (bareFrom .blank gap').1, (bareFrom .blank gap').2) = _
  rw [bareFrom_gap hgap']

end

/-! ### The search for a comma -/

/-- Every line comment in a gap is followed by a line feed, or no comma stands behind it. -/
def FeedsLines (gap : List Char) : Prop :=
  ∀ left inside c right, IsGap isLineBreak left → (∀ d ∈ inside, isLineBreak d = false) →
    isLineBreak c = true → gap = left ++ '/' :: '/' :: (inside ++ c :: right) →
    c = '\n' ∨ right.head? = some '\n' ∨ ',' ∉ right

section

variable {v w t inside : List Char}

/-- Gaps whose only line breaks are line feeds. -/
lemma feedsLines_of_forall (h : ∀ c ∈ w, isLineBreak c = true → c = '\n') : FeedsLines w := by
  rintro left inside c right - - hc rfl
  exact Or.inl (h c (by simp) hc)

lemma FeedsLines.of_append (hv : IsGap isLineBreak v) (h : FeedsLines (v ++ w)) : FeedsLines w := by
  rintro left inside c right hleft hinside hc rfl
  exact h (v ++ left) inside c right (hv.append hleft) hinside hc (by rw [List.append_assoc])

lemma hasComma_of_notMem (mode : GapMode) (h : ',' ∉ t) : hasComma mode t = false := by
  fun_induction hasComma mode t with
  | case1 => rfl
  | case4 c t _ _ ih =>
      obtain ⟨hc, ht⟩ := not_or.mp (mt List.mem_cons.mpr h)
      rw [ih ht, Bool.or_false, decide_eq_false fun heq => hc heq.symm]
  | _ => simp_all

/-- Behind a line comment the search goes on with the next line, or finds no comma there either. -/
lemma hasComma_behind_lineComment {c : Char}
    (h : c = '\n' ∨ t.head? = some '\n' ∨ ',' ∉ t) (ht : hasComma .blank t = false) :
    hasComma .lineComment (c :: t) = false := by
  rw [hasComma]
  split
  · exact ht
  · rename_i hne
    obtain hfeed | hfeed | hcomma := h
    · exact absurd hfeed hne
    · obtain ⟨t', rfl⟩ := List.head?_eq_some_iff.mp hfeed
      rw [hasComma, if_pos rfl, ← hasComma_blank (c := '\n') (by decide), ht]
    · exact hasComma_of_notMem _ hcomma

/-- In a gap without commas of its own the search finds none, if line feeds follow the line comments
that have a comma behind them. -/
lemma hasComma_of_feedsLines (hw : IsGap isLineBreak w) (h : FeedsLines w) :
    hasComma .blank w = false := by
  induction hw with
  | nil => rfl
  | @blank c w hc hw ih =>
      rw [hasComma_blank hc]
      exact ih (h.of_append (v := [c]) (.blank hc .nil))
  | @line inside w c hinside hc hw ih =>
      have hcomment : IsGap isLineBreak ('/' :: '/' :: (inside ++ [c])) := .line hinside hc .nil
      rw [hasComma, hasComma_lineComment hinside]
      refine hasComma_behind_lineComment (h [] inside c w .nil hinside hc rfl) (ih ?_)
      exact FeedsLines.of_append hcomment (by simpa using h)
  | @block inside w hinside hw ih =>
      have hcomment : IsGap isLineBreak ('/' :: '*' :: (inside ++ ['*', '/'])) :=
        .block hinside .nil
      rw [hasComma, hasComma_blockComment hinside]
      exact ih (FeedsLines.of_append hcomment (by simpa using h))

end

/-! ### A further property -/

/-- An object literal in its text: from its opening brace to the end of its last property, and the
gap behind that, which has at most one comma, up to its closing brace. -/
structure Script.ObjectLiteral.Spelled (o : ObjectLiteral) (before body gap : List Char) :
    Prop where
  /-- It stands behind a text. -/
  span : o.span = ⟨byteLength before, byteLength (before ++ '{' :: (body ++ (gap ++ ['}'])))⟩
  /-- Without properties there is only a gap. -/
  empty : o.properties = [] → body = [] ∧ IsGap isLineBreak gap
  /-- Otherwise the gap begins where the last property ends. -/
  last : ∀ p, o.properties.getLast? = some p → p.span.stop = byteLength (before ++ '{' :: body)
    ∧ (IsGap isLineBreak gap ∨ IsSeparator isLineBreak gap)

section

variable {o : ObjectLiteral} {before body gap behind : List Char}

/-- The text that an object literal stands in. -/
def textAround (before body gap behind : List Char) : List Char :=
  before ++ '{' :: (body ++ (gap ++ '}' :: behind))

namespace Script.ObjectLiteral.Spelled

lemma closing_offset (ho : o.Spelled before body gap) :
    o.span.stop - 1 = byteLength (before ++ '{' :: (body ++ gap)) := by
  have hsize : '{'.utf8Size = 1 := by decide
  have hsize' : '}'.utf8Size = 1 := by decide
  simp only [ho.span, byteLength_append, byteLength_cons, byteLength_nil, hsize, hsize']
  omega

/-- What the search for a comma goes through is the gap. -/
lemma slice_gap (ho : o.Spelled before body gap) (behind : List Char) :
    slice? (textAround before body gap behind)
      ⟨byteLength (before ++ '{' :: body), o.span.stop - 1⟩ = some gap := by
  have hslice := slice?_append (before ++ '{' :: body) gap ('}' :: behind)
  rw [ho.closing_offset]
  simpa [textAround, Nat.add_assoc] using hslice

end Script.ObjectLiteral.Spelled

/-- A further property in an object literal: where it is put into the gap, and what is put around
it. -/
structure Appended (before body gap behind text : List Char) (result : Except Fault Draft)
    (kept lead trail rest : List Char) : Prop where
  /-- It is put in between two parts of the gap. -/
  parts : gap = kept ++ rest
  /-- A single insertion is queued. -/
  queued : result = .ok ⟨textAround before body gap behind,
    [⟨byteLength (before ++ '{' :: (body ++ kept)), byteLength (before ++ '{' :: (body ++ kept)),
      lead ++ (text ++ trail)⟩], []⟩
  /-- The edited text has all characters of the unedited one. -/
  finish : ∀ draft, result = .ok draft →
    draft.finish = textAround before body (kept ++ (lead ++ (text ++ (trail ++ rest)))) behind

/-- What is inserted into a fresh draft between two parts of a gap stands between them then. -/
lemma appended_of_insert {kept lead trail rest text : List Char} (hgap : gap = kept ++ rest)
    {offset : Nat} (hoffset : offset = byteLength (before ++ '{' :: (body ++ kept))) :
    Appended before body gap behind text
      ((Draft.ofText (textAround before body gap behind)).insert offset (lead ++ (text ++ trail)))
      kept lead trail rest := by
  have htext : textAround before body gap behind
      = (before ++ '{' :: (body ++ kept)) ++ ([] ++ (rest ++ '}' :: behind)) := by
    simp [textAround, hgap]
  obtain ⟨hqueued, hfinish⟩ := finish_overwrite (before ++ '{' :: (body ++ kept)) []
    (rest ++ '}' :: behind) (lead ++ (text ++ trail))
  rw [hoffset]
  rw [← htext] at hqueued hfinish
  refine ⟨hgap, hqueued, fun draft hdraft => ?_⟩
  obtain rfl := Except.ok.inj (hqueued.symm.trans hdraft)
  refine hfinish.trans ?_
  simp [textAround]

lemma bareFrom_append_space (h : IsGap isLineBreak gap ∨ IsSeparator isLineBreak gap) :
    bareFrom .blank (gap ++ [' ']) = bareFrom .blank gap := by
  obtain hgap | hseparator := h
  · rw [bareFrom_gap hgap, bareFrom_gap (hgap.append isGap_space)]
  · obtain ⟨v, w, hv, hw, rfl⟩ := hseparator
    rw [bareFrom_separator ⟨v, w, hv, hw, rfl⟩,
      bareFrom_separator ⟨v, w ++ [' '], hv, hw.append isGap_space, by simp⟩]

/-- **A further property of an object literal** is a single insertion behind the last property and
outside of comments, and all that was written stays. Without blanks and comments, nothing stands
between the opening brace and it if it is the only property, and exactly one comma between the last
property and it otherwise. If the gap has no comma of its own, line feeds have to follow the line
comments in it that have a comma behind them. -/
theorem appendProperty_spec (ho : o.Spelled before body gap) (behind text : List Char) :
    ∃ kept lead trail rest,
      Appended before body gap behind text
        (appendProperty (Draft.ofText (textAround before body gap behind)) o text)
        kept lead trail rest
      ∧ (bareFrom .blank (kept ++ lead)).2 = .blank
      ∧ (o.properties = [] → body = [] ∧ (bareFrom .blank (kept ++ lead)).1 = [])
      ∧ (o.properties ≠ [] → IsSeparator isLineBreak gap ∨ FeedsLines gap →
        (bareFrom .blank (kept ++ lead)).1 = [',']) := by
  have hspaced : (' ' :: text ++ [' ']) = [' '] ++ (text ++ [' ']) := rfl
  have hplace := ho.closing_offset
  rw [appendProperty, hspaced]
  cases hlast : o.properties.getLast? with
  | none =>
      have hempty := List.getLast?_eq_none_iff.mp hlast
      obtain ⟨hbody, hgap⟩ := ho.empty hempty
      have hbare : bareFrom .blank (gap ++ [' ']) = ([], .blank) :=
        bareFrom_gap (hgap.append isGap_space)
      refine ⟨gap, [' '], [' '], [], appended_of_insert (List.append_nil gap).symm hplace, ?_⟩
      rw [hbare]
      exact ⟨rfl, fun _ => ⟨hbody, rfl⟩, fun hne => absurd hempty hne⟩
  | some last =>
      obtain ⟨hstop, hgap⟩ := ho.last last hlast
      have hne : o.properties ≠ [] := by
        rintro hempty
        simp [hempty] at hlast
      have hslice : slice? (Draft.ofText (textAround before body gap behind)).unedited
          ⟨last.span.stop, o.span.stop - 1⟩ = some gap := hstop ▸ ho.slice_gap behind
      dsimp only
      rw [hslice, Option.getD_some]
      cases hcomma : hasComma .blank gap with
      | true =>
          -- it goes behind the comma that was found
          refine ⟨gap, [' '], [' '], [], appended_of_insert (List.append_nil gap).symm hplace, ?_⟩
          rw [bareFrom_append_space hgap]
          obtain hgap | hseparator := hgap
          · rw [bareFrom_gap hgap]
            refine ⟨rfl, fun h => absurd h hne, fun _ hfeeds => ?_⟩
            obtain hseparator | hfeeds := hfeeds
            · have hsame := (bareFrom_gap hgap).symm.trans (bareFrom_separator hseparator)
              exact absurd hsame (by simp)
            · exact absurd (hasComma_of_feedsLines hgap hfeeds) (by simp [hcomma])
          · rw [bareFrom_separator hseparator]
            exact ⟨rfl, fun h => absurd h hne, fun _ _ => rfl⟩
      | false =>
          -- it goes behind the last property, with a comma
          refine ⟨[], [',', ' '], [], gap, ?_, rfl, fun h => absurd h hne, fun _ _ => rfl⟩
          have hnew : ',' :: ' ' :: text = [',', ' '] ++ (text ++ []) := by simp
          rw [if_neg Bool.false_ne_true, hnew]
          exact appended_of_insert (List.nil_append gap).symm (by rw [hstop, List.append_nil])

end

/-- An object with a comma in each of two comments behind its property. -/
def commentedObject : ObjectLiteral :=
  ⟨⟨10, 33⟩, [.keyValue (.identifier ⟨12, 13⟩ "x") (.literal ⟨15, 16⟩ (.number "1"))]⟩

/-- The comments. -/
def commentedGap : List Char :=
  " /* a, */ // b,\n".toList

theorem commentedObject_appended :
    commentedObject.Spelled "const a = ".toList " x: 1".toList commentedGap
      ∧ FeedsLines commentedGap
      ∧ ∃ kept lead trail rest,
        Appended "const a = ".toList " x: 1".toList commentedGap ";".toList "y: 2".toList
          (appendProperty (Draft.ofText "const a = \x7b x: 1 /* a, */ // b,\n\x7d;".toList)
            commentedObject "y: 2".toList)
          kept lead trail rest
        ∧ bareFrom .blank (kept ++ lead) = ([','], .blank) := by
  have hgap : IsGap isLineBreak commentedGap := by
    have hblock : ¬ ['*', '/'] <:+: " a, ".toList := by decide
    have hline : ∀ d ∈ " b,".toList, isLineBreak d = false := by decide
    exact .blank (by decide) (.block hblock (.blank (by decide) (.line hline (by decide) .nil)))
  have hspelled : commentedObject.Spelled "const a = ".toList " x: 1".toList commentedGap := by
    refine ⟨by decide +kernel, fun h => (List.cons_ne_nil _ _ h).elim, fun p hp => ?_⟩
    cases hp
    exact ⟨by decide +kernel, Or.inl hgap⟩
  have hfeeds : FeedsLines commentedGap := feedsLines_of_forall (by decide)
  obtain ⟨kept, lead, trail, rest, happended, hmode, -, hcomma⟩ :=
    appendProperty_spec hspelled ";".toList "y: 2".toList
  exact ⟨hspelled, hfeeds, kept, lead, trail, rest, happended,
    Prod.ext (hcomma (List.cons_ne_nil _ _) (Or.inr hfeeds)) hmode⟩

/-! ### A gap that is misread -/

/-- An object with a line comment that a carriage return ends, and a comma in the comment behind
it. -/
def returnedObject : ObjectLiteral :=
  ⟨⟨0, 17⟩, [.shorthand ⟨2, 3⟩ "x"]⟩

/-- The comments. -/
def returnedGap : List Char :=
  " // c\r/*\n,*/ ".toList

/-- The text of the object. -/
def returnedText : List Char :=
  textAround [] " x".toList returnedGap []

/-- The search for a comma goes on in the comment behind a carriage return. So the further property
is put behind the last one without a comma. -/
theorem returnedGap_joins :
    returnedObject.Spelled [] " x".toList returnedGap
      ∧ (∃ draft,
        appendProperty (Draft.ofText returnedText) returnedObject "y: 2".toList = .ok draft
        ∧ draft.finish = "\x7b x // c\r/*\n,*/  y: 2 \x7d".toList)
      ∧ ∀ kept lead trail rest,
        Appended [] " x".toList returnedGap [] "y: 2".toList
          (appendProperty (Draft.ofText returnedText) returnedObject "y: 2".toList)
          kept lead trail rest →
        (bareFrom .blank (kept ++ lead)).1 = [] := by
  have hgap : IsGap isLineBreak returnedGap := by
    have hline : ∀ d ∈ " c".toList, isLineBreak d = false := by decide
    have hblock : ¬ ['*', '/'] <:+: "\n,".toList := by decide
    exact .blank (by decide) (.line hline (by decide) (.block hblock (.blank (by decide) .nil)))
  have hedit : appendProperty (Draft.ofText returnedText) returnedObject "y: 2".toList
      = .ok ⟨returnedText, [⟨16, 16, " y: 2 ".toList⟩], []⟩ := rfl
  refine ⟨⟨by decide +kernel, fun h => (List.cons_ne_nil _ _ h).elim, fun p hp => ?_⟩,
    ⟨_, hedit, by decide +kernel⟩, fun kept lead trail rest h => ?_⟩
  · cases hp
    exact ⟨by decide +kernel, Or.inl hgap⟩
  · have hsame := h.queued.symm.trans hedit
    simp only [Except.ok.injEq, Draft.mk.injEq, List.cons.injEq, Edit.mk.injEq] at hsame
    obtain ⟨-, ⟨⟨hplace, -, hnew⟩, -⟩, -⟩ := hsame
    have hrest : rest = [] := by
      have hlength := congrArg byteLength h.parts
      have hknown : byteLength returnedGap = 13 ∧ byteLength ('{' :: " x".toList) = 3 := by decide
      rw [byteLength_append, hknown.1] at hlength
      rw [List.nil_append, ← List.cons_append, byteLength_append, hknown.2] at hplace
      exact byteLength_eq_zero_iff.mp (by omega)
    have hlead : lead = [' '] := by
      change lead ++ 'y' :: ':' :: ' ' :: '2' :: trail = [' ', 'y', ':', ' ', '2', ' '] at hnew
      obtain _ | ⟨a, _ | ⟨b, lead⟩⟩ := lead
      · simp at hnew
      · rw [(List.cons.inj hnew).1]
      · have hlength := congrArg List.length hnew
        simp only [List.length_append, List.length_cons, List.length_nil] at hlength
        obtain rfl : lead = [] := List.length_eq_zero_iff.mp (by omega)
        simp at hnew
    have hkept : kept = returnedGap := by rw [h.parts, hrest, List.append_nil]
    rw [hkept, hlead]
    exact congrArg Prod.fst (bareFrom_gap (hgap.append isGap_space))

end SvelteStories

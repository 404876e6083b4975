/-
Opening tags, read by moving a cursor:

* `Input.attributeValue`, `directiveValue`: what stands behind an equals sign;
* `Input.attributeNode`: a named attribute, a spread or a directive;
* `Input.attributeNodes`: all of them up to the end of the tag, in a loop that nothing bounds;
* `follows_attributeNodes`: the loop ends, and as `readAttributes` does. There is such a lemma for each
  reader; loops are followed by induction on what is left of the text.
-/
import SvelteStories.Proofs.Cursor.Run
import SvelteStories.Proofs.Markup.Copied
import SvelteStories.Proofs.Markup.TagText

namespace SvelteStories.Markup.Cursor

variable (t : List Char)

/-! ### Readers -/

/-- A quote. -/
def isQuote (c : Char) : Bool :=
  c = '"' || c = '\''

/-- The value in braces with code at a span. -/
def Input.codeValue (i : Input) (code : Span) : Run AttributeValue := do
  let span ← trimSpan i.text code
  let value ← i.expression span
  return .expression span value

/-- The text between two offsets as a part of a quoted value, if there is any. -/
def textParts (start stop : Nat) : Run (List ValuePart) := do
  if start < stop then
    let data ← slice t ⟨start, stop⟩
    return [.text ⟨start, stop⟩ data]
  else return []

/-- The parts of a quoted value up to its closing quote. The opening one is at `opening`. -/
def Input.quotedValueParts (i : Input) (quote : Char) (opening : Nat) : Run (List ValuePart) := do
  let start ← cursor
  scan i.text fun c => c != quote && c != '{'
  let stop ← cursor
  match ← peek i.text 0 with
  | none => fail .openValue opening
  | some c =>
    let texts ← textParts i.text start stop
    if c = quote then
      moveTo (stop + 1)
      return texts
    else
      let closing ← bracedEnd i.text stop
      moveTo (closing + 1)
      let parts ← i |>.quotedValueParts quote opening
      return texts ++ .expression ⟨stop + 1, closing⟩ :: parts
partial_fixpoint

/-- The value that the parts of a quoted value make. -/
def Input.sequenceValue (i : Input) (opening : Nat) : List ValuePart → Run AttributeValue
  | [] => return .text ⟨opening + 1, opening + 1⟩ []
  | [.text span data] => return .text span data
  | [.expression code] => i.codeValue code
  | parts => return .sequence parts

/-- A value without quotes and braces. -/
def bareValue : Run AttributeValue := do
  let start ← cursor
  let run ← readWhile t fun c => !isAsciiBlank c && c != '>'
  let next ← peek t 0
  let data := if next = some '>' && run.getLast? = some '/' then run.dropLast else run
  moveTo (start + byteLength data)
  return .text ⟨start, start + byteLength data⟩ data

/-- The value behind an equals sign. -/
def Input.attributeValue (i : Input) : Run AttributeValue := do
  let opening ← cursor
  let next ← peek i.text 0
  match next.filter isQuote with
  | some quote =>
    advance 1
    let parts ← i.quotedValueParts quote opening
    i.sequenceValue opening parts
  | none =>
    if next = some '{' then
      let closing ← bracedEnd i.text opening
      moveTo (closing + 1)
      i.codeValue ⟨opening + 1, closing⟩
    else bareValue i.text

/-- Moves the cursor behind a quote, if there is one. -/
def enterQuote : Option Char → Run Unit
  | some _ => advance 1
  | none => return ()

/-- Moves the cursor behind the closing quote, if there was an opening one. -/
def leaveQuote (opening : Nat) : Option Char → Run Unit
  | none => return ()
  | some quote => do
    if (← peek t 0) = some quote then advance 1 else fail .openValue opening

/-- The code of a directive's value. -/
def directiveValue : Run Span := do
  let next ← peek t 0
  let quote := next.filter isQuote
  enterQuote quote
  let opening ← cursor
  let next ← peek t 0
  if next != some '{' then fail .directiveValue opening
  else
    let closing ← bracedEnd t opening
    moveTo (closing + 1)
    leaveQuote t opening quote
    return ⟨opening + 1, closing⟩

/-- Whether a value follows, and if so, moves the cursor to it. -/
def hasValue : Run Bool := do
  let checkpoint ← cursor
  scan t isAsciiBlank
  let next ← peek t 0
  if next = some '=' then
    advance 1
    scan t isAsciiBlank
    return true
  else
    moveTo checkpoint
    return false

/-- An attribute in braces. -/
def Input.bracedAttribute (i : Input) : Run AttributeNode := do
  let start ← cursor
  let closing ← bracedEnd i.text start
  moveTo (closing + 1)
  let inner ← trimSpan i.text ⟨start + 1, closing⟩
  let content ← slice i.text inner
  if ['.', '.', '.'].isPrefixOf content then
    let operand := content.drop 3
    return .spread ⟨start, closing + 1⟩ ⟨inner.stop - byteLength operand, inner.stop⟩
  else
    let value ← i.expression inner
    return .plain ⟨⟨start, closing + 1⟩, content, .expression inner value⟩

/-- Something in an opening tag. -/
def Input.attributeNode (i : Input) : Run AttributeNode := do
  let start ← cursor
  let next ← peek i.text 0
  if next = some '{' then i.bracedAttribute
  else
    let name ← readWhile i.text isAttributeNamePart
    if name.isEmpty then fail .attributeExpected start
    else
      let valued ← hasValue i.text
      match directiveOf? name, valued with
      | some (kind, name), true =>
        let code ← directiveValue i.text
        let stop ← cursor
        return .directive ⟨start, stop⟩ kind name (some code)
      | some (kind, name), false =>
        let stop ← cursor
        return .directive ⟨start, stop⟩ kind name none
      | none, true =>
        let value ← i.attributeValue
        let stop ← cursor
        return .plain ⟨⟨start, stop⟩, name, value⟩
      | none, false =>
        let stop ← cursor
        return .plain ⟨⟨start, stop⟩, name, .none⟩

/-- What stands in the opening tag at an offset, up to the end of the tag, and whether the tag closes
itself. -/
def Input.attributeNodes (i : Input) (opening : Nat) (name : List Char) :
    Run (List AttributeNode × Bool) := do
  scan i.text isAsciiBlank
  let text ← rest i.text
  if ['/', '>'].isPrefixOf text then
    advance 2
    return ([], true)
  else if ['>'].isPrefixOf text then
    advance 1
    return ([], false)
  else
    let ended ← atEnd i.text
    if ended then fail (.openOpeningTag (String.ofList name)) opening
    else
      let start ← cursor
      let a ← i.attributeNode
      partFrom start
      let (others, selfClosing) ← i |>.attributeNodes opening name
      return (a :: others, selfClosing)
partial_fixpoint

/-! ### Tests -/

lemma isAsciiTest_isAsciiBlank : IsAsciiTest isAsciiBlank :=
  isAsciiTest_of_forall false fun c hc => by simp [isAsciiBlank, ne_of_le_of_lt hc]

lemma isAsciiTest_isAttributeNamePart : IsAsciiTest isAttributeNamePart :=
  isAsciiTest_of_forall true fun c hc => by
    simp [isAttributeNamePart, isAsciiBlank, ne_of_le_of_lt hc]

lemma isAsciiTest_unquoted : IsAsciiTest fun c => !isAsciiBlank c && c != '>' :=
  isAsciiTest_of_forall true fun c hc => by simp [isAsciiBlank, ne_of_le_of_lt hc]

lemma isAsciiTest_quoted {quote : Char} (hquote : quote.toNat < 0x80) :
    IsAsciiTest fun c => c != quote && c != '{' :=
  isAsciiTest_of_forall true fun c hc => by simp [ne_of_le_of_lt hc, hquote]

lemma isQuote_of_le {c : Char} (hc : 0x80 ≤ c.toNat) : isQuote c = false := by
  simp [isQuote, ne_of_le_of_lt hc]

lemma lt_of_isQuote {c : Char} (hc : isQuote c = true) : c.toNat < 0x80 := by
  by_contra hlarge
  rw [isQuote_of_le (by omega)] at hc
  cases hc

/-! ### Values -/

variable {t} {i : Input} {α : Type} {p q : Place}

/-- Behind a character in ASCII the cursor is one byte further. -/
lemma reaches_after_head {c : Char} (hp : (Place.start t).Reaches p)
    (hc : p.rest.head? = some c) (hlt : c.toNat < 0x80) :
    (Place.start t).Reaches (p.after [c]) ∧ (p.after [c]).offset = p.offset + 1 := by
  refine ⟨hp.trans (Place.reads_head hc).reaches, ?_⟩
  have hsize : c.utf8Size = 1 := by
    rw [← length_encode, encode_of_lt hlt]
    rfl
  rw [Place.after, byteLength_cons, byteLength_nil, hsize]

lemma expressionValue_eq (read : ExpressionReader) (offset : Nat) (code : List Char) :
    expressionValue read offset code
      = (read (trimmedSpan code ⟨offset, offset + byteLength code⟩).start (trim code)).mapError
          .script >>= fun value =>
        pure (.expression (trimmedSpan code ⟨offset, offset + byteLength code⟩) value) := by
  simp only [expressionValue]
  cases read (trimmedSpan code ⟨offset, offset + byteLength code⟩).start (trim code) <;> rfl

lemma follows_codeValue {offset : Nat} {code : List Char} (hp : (Place.start i.text).Reaches p)
    (hcode : slice? i.text ⟨offset, offset + byteLength code⟩ = some code) :
    Follows i.text (i.codeValue ⟨offset, offset + byteLength code⟩) p
      (expressionValue i.read offset code >>= fun value => pure (value, p)) := by
  rw [expressionValue_eq, bind_assoc]
  refine follows_trimSpan hcode ?_
  refine follows_expression (slice?_trimmedSpan_of_slice? hcode) fun value _ => ?_
  exact follows_pure hp

lemma follows_textParts {run : List Char} {k : List ValuePart → Run α}
    {x : Except ReadFault (α × Place)} (hp : (Place.start t).Reaches p) (hrun : p.Reads run q)
    (h : Follows t (k (textPart p.offset run)) q x) :
    Follows t (textParts t p.offset q.offset >>= k) q x := by
  rw [textParts]
  rw [textPart] at h
  cases run with
  | nil =>
      have hle : ¬ p.offset < q.offset := by
        rw [hrun.2, byteLength_nil]
        omega
      rw [if_neg hle]
      exact h
  | cons c run =>
      have hlt : p.offset < q.offset := by
        rw [hrun.2, byteLength_cons]
        have hpos := c.utf8Size_pos
        omega
      rw [if_pos hlt, bind_assoc]
      refine follows_slice (Place.slice?_of_reads hp hrun) ?_
      rw [pure_bind, hrun.2]
      exact h

/-- The loop over a quoted value ends. -/
lemma follows_quotedValueParts {quote : Char} {opening : Place} {fuel : Nat}
    (hquote : quote.toNat < 0x80) (hopening : (Place.start i.text).Reaches opening)
    (hp : (Place.start i.text).Reaches p) (hfuel : p.rest.length < fuel) :
    Follows i.text (i.quotedValueParts quote opening.offset) p
      (quotedParts quote opening fuel p >>= fun r => pure (r.1.map Prod.fst, r.2)) := by
  induction fuel generalizing p with
  | zero => exact absurd hfuel (Nat.not_lt_zero _)
  | succ fuel ih =>
      rw [Input.quotedValueParts, quotedParts]
      have hrun := p.reads_run fun c => c != quote && c != '{'
      have hq := reaches_after_run hp fun c => c != quote && c != '{'
      refine follows_cursor (follows_scan (isAsciiTest_quoted hquote) hp ?_)
      refine follows_cursor (follows_peek_zero hq ?_)
      generalize hrest : (p.after (p.run fun c => c != quote && c != '{')).rest = ahead
      cases ahead with
      | nil => exact follows_fail (by rintro ⟨⟩) (boundary_of_reaches hopening)
      | cons c behind =>
          -- the scan stops at nothing but a quote or a brace
          have hstop : c = quote ∨ c = '{' := by
            have hfails := List.head?_dropWhile_not (fun c => c != quote && c != '{') p.rest
            rw [← Place.rest_after_run, hrest] at hfails
            simpa [Classical.or_iff_not_imp_left] using hfails
          have hascii : c.toNat < 0x80 := by
            rcases hstop with rfl | rfl
            · exact hquote
            · decide
          have hc : (bytesOf (c :: behind)).head? = some c :=
            (head?_bytesOf_eq_some_iff hascii).mpr rfl
          rw [hc]
          refine follows_textParts hp hrun ?_
          dsimp only
          by_cases hclose : c = quote
          · obtain ⟨hbehind, hoffset⟩ := reaches_after_head hq (by rw [hrest]; rfl) hascii
            simp only [if_pos hclose, pure_bind]
            refine follows_moveTo hbehind hoffset ?_
            simpa [Function.comp_def] using follows_pure hbehind
          · simp only [if_neg hclose, bind_assoc, pure_bind]
            refine follows_bracedEnd hq fun code after hbraced hafter hoffset => ?_
            refine follows_moveTo hafter hoffset ?_
            have hshorter : after.rest.length < fuel := by
              have hlength := (reads_braced hbraced).1.length_lt
              have hle := hrun.reaches.length_le
              omega
            refine (ih hafter hshorter).bind_map fun _ _ hstop => ?_
            simpa [Function.comp_def] using follows_pure hstop

/-- The parts of a quoted value make the value that is read. -/
lemma follows_sequenceValue {opening : Nat} {parts : List (ValuePart × List Char)}
    (hp : (Place.start i.text).Reaches p) (hkept : CodesKept ⟨"", i.text⟩ parts) :
    Follows i.text (i.sequenceValue opening (parts.map Prod.fst)) p
      (quotedValue i.read (opening + 1) parts >>= fun value => pure (value, p)) := by
  match parts with
  | [] => exact follows_pure hp
  | [(.text span data, w)] => exact follows_pure hp
  | [(.expression span, code)] =>
      have hslice : slice? i.text span = some code := hkept span code List.mem_cons_self
      have hspan : span = ⟨span.start, span.start + byteLength code⟩ := by
        obtain ⟨-, -, -, -, hstop⟩ := slice?_eq_some_iff.mp hslice
        rw [← hstop]
      rw [hspan] at hslice ⊢
      exact follows_codeValue hp hslice
  | (.text _ _, _) :: _ :: _ => exact follows_pure hp
  | (.expression _, _) :: _ :: _ => exact follows_pure hp

/-- A value without quotes, and the place behind it. It gives up the slash that closes the tag. -/
def bareData (p : Place) : List Char :=
  let run := p.run fun c => !isAsciiBlank c && c != '>'
  if (p.after run).rest.head? = some '>' && run.getLast? = some '/' then run.dropLast else run

lemma follows_bareValue (hp : (Place.start t).Reaches p) :
    Follows t (bareValue t) p
      (pure (.text (p.spanTo (p.after (bareData p))) (bareData p), p.after (bareData p))) := by
  have hdata : bareData p <+: p.rest := by
    rw [bareData]
    refine List.IsPrefix.trans ?_ (p.run_isPrefix fun c => !isAsciiBlank c && c != '>')
    split_ifs
    · exact List.dropLast_prefix _
    · exact List.prefix_rfl
  have hq : (Place.start t).Reaches (p.after (bareData p)) :=
    hp.trans (Place.reads_of_startsWith hdata).reaches
  refine follows_cursor (follows_readWhile isAsciiTest_unquoted hp ?_)
  refine follows_peek_zero (reaches_after_run hp _) ?_
  simp only [head?_bytesOf_eq_some_iff (show '>'.toNat < 0x80 by decide)]
  exact follows_moveTo hq rfl (follows_pure hq)

/-- What a value starts with tells how it is read. -/
lemma readValue_eq (read : ExpressionReader) (p : Place) :
    (p.rest.head? = some '{' ∧ readValue read p = braced p >>= fun r =>
        expressionValue read (p.offset + 1) r.1 >>= fun value => pure (value, r.2))
      ∨ (∃ c, p.rest.head? = some c ∧ isQuote c = true ∧ readValue read p =
          quotedParts c p ((p.after [c]).rest.length + 1) (p.after [c]) >>= fun r =>
            quotedValue read (p.after [c]).offset r.1 >>= fun value => pure (value, r.2))
      ∨ (p.rest.head? ≠ some '{' ∧ p.rest.head?.filter isQuote = none ∧ readValue read p =
          pure (.text (p.spanTo (p.after (bareData p))) (bareData p), p.after (bareData p))) := by
  rw [readValue]
  split
  · rename_i code hrest
    exact .inl ⟨by rw [hrest]; rfl, rfl⟩
  · rename_i c behind hother hrest
    split_ifs with hc
    · exact .inr (.inl ⟨c, by rw [hrest]; rfl, hc, rfl⟩)
    · refine .inr (.inr ⟨?_, ?_, rfl⟩)
      · rw [hrest]
        rintro ⟨⟩
        exact hother rfl
      · rw [hrest, List.head?_cons, Option.filter_some]
        exact if_neg hc
  · rename_i hrest
    have hdata : bareData p = [] := by
      simp [bareData, Place.run, hrest]
    refine .inr (.inr ⟨by simp [hrest], by simp [hrest], ?_⟩)
    rw [hdata]
    rfl

/-- The value behind an equals sign. -/
lemma follows_attributeValue (hp : (Place.start i.text).Reaches p) :
    Follows i.text i.attributeValue p (readValue i.read p) := by
  have hbrace : (bytesOf p.rest).head? = some '{' ↔ p.rest.head? = some '{' :=
    head?_bytesOf_eq_some_iff (by decide)
  refine follows_cursor (follows_peek_zero hp ?_)
  rw [filter_head?_bytesOf (fun c hc => isQuote_of_le hc)]
  rcases readValue_eq i.read p with ⟨hhead, hread⟩ | ⟨c, hhead, hc, hread⟩ | ⟨hhead, hquote, hread⟩
  · have hquote : p.rest.head?.filter isQuote = none := by
      rw [hhead]
      rfl
    simp only [hquote, if_pos (hbrace.mpr hhead), hread]
    refine follows_bracedEnd hp fun code q hbraced hq hoffset => ?_
    exact follows_moveTo hq hoffset (follows_codeValue hq (slice?_code hp hbraced))
  · have hquote : p.rest.head?.filter isQuote = some c := by
      rw [hhead, Option.filter_some, if_pos hc]
    obtain ⟨hinside, hoffset⟩ := reaches_after_head hp hhead (lt_of_isQuote hc)
    simp only [hquote, hread]
    refine follows_advance hinside hoffset ?_
    refine (follows_quotedValueParts (lt_of_isQuote hc) hp hinside
      (Nat.lt_succ_self _)).bind_map fun _ hparts hq => ?_
    have hin : (p.after [c]).In ⟨"", i.text⟩ := hinside
    obtain ⟨-, -, -, hkept⟩ := quotedText_quotedParts hin hparts
    rw [hoffset]
    exact follows_sequenceValue hq hkept
  · simp only [hquote, if_neg (mt hbrace.mp hhead), hread]
    exact follows_bareValue hp

/-! ### Directives -/

/-- The place behind a quote, if there is one. -/
def insideQuote (p : Place) : Place :=
  match p.rest.head?.filter isQuote with
  | some c => p.after [c]
  | none => p

lemma follows_enterQuote {k : Unit → Run α} {x : Except ReadFault (α × Place)}
    (hp : (Place.start t).Reaches p)
    (h : (Place.start t).Reaches (insideQuote p) → Follows t (k ()) (insideQuote p) x) :
    Follows t (enterQuote (p.rest.head?.filter isQuote) >>= k) p x := by
  rw [insideQuote] at h
  cases hquote : p.rest.head?.filter isQuote with
  | none =>
      rw [hquote] at h
      exact h hp
  | some c =>
      rw [hquote] at h
      obtain ⟨hhead, hc⟩ := Option.filter_eq_some_iff.mp hquote
      obtain ⟨hinside, hoffset⟩ := reaches_after_head hp hhead (lt_of_isQuote hc)
      exact follows_advance hinside hoffset (h hinside)

lemma follows_leaveQuote {c : Char} {code : Span} {opening : Place} (hc : isQuote c = true)
    (hopening : (Place.start t).Reaches opening) (hp : (Place.start t).Reaches p) :
    Follows t (leaveQuote t opening.offset (some c) >>= fun _ => pure code) p
      (if p.rest.head? = some c then pure (code, p.after [c]) else opening.fail .openValue) := by
  simp only [leaveQuote, bind_assoc]
  refine follows_peek_zero hp ?_
  simp only [head?_bytesOf_eq_some_iff (lt_of_isQuote hc)]
  split_ifs with hhead
  · obtain ⟨hq, hoffset⟩ := reaches_after_head hp hhead (lt_of_isQuote hc)
    exact follows_advance hq hoffset (follows_pure hq)
  · exact follows_fail_bind (by rintro ⟨⟩) (boundary_of_reaches hopening)

lemma readDirectiveValue_eq (p : Place) : readDirectiveValue p = (do
    if (insideQuote p).rest.head? != some '{' then (insideQuote p).fail .directiveValue
    let (code, q) ← braced (insideQuote p)
    let span : Span :=
      ⟨(insideQuote p).offset + 1, (insideQuote p).offset + 1 + byteLength code⟩
    match p.rest.head?.filter isQuote with
    | none => return (span, q)
    | some c =>
      if q.rest.head? = some c then return (span, q.after [c])
      else (insideQuote p).fail .openValue) :=
  rfl

/-- The code of a directive's value. -/
lemma follows_directiveValue (hp : (Place.start t).Reaches p) :
    Follows t (directiveValue t) p (readDirectiveValue p) := by
  refine follows_peek_zero hp ?_
  rw [filter_head?_bytesOf (fun c hc => isQuote_of_le hc)]
  refine follows_enterQuote hp fun hopening => ?_
  refine follows_cursor (follows_peek_zero hopening ?_)
  rw [readDirectiveValue_eq]
  have hbrace : ((bytesOf (insideQuote p).rest).head? != some '{')
      = ((insideQuote p).rest.head? != some '{') := by
    rw [Bool.eq_iff_iff, bne_iff_ne, bne_iff_ne]
    exact not_congr (head?_bytesOf_eq_some_iff (by decide))
  rw [hbrace]
  split_ifs with hother
  · exact follows_fail (by rintro ⟨⟩) (boundary_of_reaches hopening)
  · refine follows_bracedEnd hopening fun code q _ hq hoffset => ?_
    refine follows_moveTo hq hoffset ?_
    cases hquote : p.rest.head?.filter isQuote with
    | none => exact follows_pure hq
    | some c => exact follows_leaveQuote (Option.filter_eq_some_iff.mp hquote).2 hopening hq

/-! ### Attributes -/

/-- Where a value follows, the cursor is moved to it, and else it is back where it was. -/
lemma follows_hasValue {k : Bool → Run α} {x : Except ReadFault (α × Place)}
    (hp : (Place.start t).Reaches p)
    (hsome : ∀ q, valuePlace? p = some q → (Place.start t).Reaches q → Follows t (k true) q x)
    (hnone : valuePlace? p = none → Follows t (k false) p x) :
    Follows t (hasValue t >>= k) p x := by
  have hblanks : (Place.start t).Reaches p.skipBlanks := reaches_after_run hp isAsciiBlank
  simp only [hasValue, bind_assoc]
  refine follows_cursor (follows_scan isAsciiTest_isAsciiBlank hp ?_)
  refine follows_peek_zero hblanks ?_
  simp only [head?_bytesOf_eq_some_iff (show '='.toNat < 0x80 by decide)]
  split_ifs with hequals
  · obtain ⟨hbehind, hoffset⟩ := reaches_after_head hblanks hequals (by decide)
    simp only [bind_assoc, pure_bind]
    refine follows_advance hbehind hoffset (follows_scan isAsciiTest_isAsciiBlank hbehind ?_)
    exact hsome _ (if_pos hequals) (reaches_after_run hbehind isAsciiBlank)
  · simp only [bind_assoc, pure_bind]
    exact follows_moveTo hp rfl (hnone (if_neg hequals))

/-- A spread or an expression in braces. -/
lemma follows_bracedAttribute (hp : (Place.start i.text).Reaches p) :
    Follows i.text i.bracedAttribute p (readBracedAttribute i.read p) := by
  refine follows_cursor (follows_bracedEnd hp fun code q hbraced hq hoffset => ?_)
  refine follows_moveTo hq hoffset ?_
  have hcode := slice?_code hp hbraced
  have hinner := slice?_trimmedSpan_of_slice? hcode
  refine follows_trimSpan hcode (follows_slice hinner ?_)
  rw [← hoffset]
  dsimp only
  split
  · rename_i hspread
    obtain ⟨operand, hoperand⟩ := List.isPrefixOf_iff_prefix.mp hspread
    obtain ⟨-, -, -, -, hstop⟩ := slice?_eq_some_iff.mp hinner
    have hdots : byteLength ['.', '.', '.'] = 3 := by decide
    have hstart : (trimmedSpan code ⟨p.offset + 1, p.offset + 1 + byteLength code⟩).stop
        - byteLength operand
        = (trimmedSpan code ⟨p.offset + 1, p.offset + 1 + byteLength code⟩).start + 3 := by
      rw [hstop, ← hoperand, byteLength_append, hdots]
      omega
    rw [← hoperand]
    show Follows i.text (pure (AttributeNode.spread _ ⟨_ - byteLength operand, _⟩)) q _
    rw [hstart]
    exact follows_pure hq
  · rename_i hnamed
    split
    · rename_i operand hoperand
      exact absurd (by rw [hoperand]; rfl) hnamed
    · rw [expressionValue_eq, bind_assoc]
      exact follows_expression hinner fun value _ => follows_pure hq

/-- Something in an opening tag. -/
lemma follows_attributeNode (hp : (Place.start i.text).Reaches p) :
    Follows i.text i.attributeNode p (readAttribute i.read p) := by
  refine follows_cursor (follows_peek_zero hp ?_)
  simp only [head?_bytesOf_eq_some_iff (show '{'.toNat < 0x80 by decide), readAttribute]
  by_cases hbrace : p.rest.head? = some '{'
  · simp only [if_pos hbrace]
    exact follows_bracedAttribute hp
  have hname := reaches_after_run hp isAttributeNamePart
  simp only [if_neg hbrace]
  refine follows_readWhile isAsciiTest_isAttributeNamePart hp ?_
  by_cases hempty : (p.run isAttributeNamePart).isEmpty = true
  · simp only [if_pos hempty]
    exact follows_fail (by rintro ⟨⟩) (boundary_of_reaches hp)
  simp only [if_neg hempty]
  refine follows_hasValue hname (fun v hvalue hv => ?_) fun hvalue => ?_
  · rw [hvalue]
    cases directiveOf? (p.run isAttributeNamePart) with
    | some directive =>
        refine (follows_directiveValue hv).bind fun code q _ hq => ?_
        exact follows_cursor (follows_pure hq)
    | none =>
        refine (follows_attributeValue hv).bind fun value q _ hq => ?_
        exact follows_cursor (follows_pure hq)
  · rw [hvalue]
    cases directiveOf? (p.run isAttributeNamePart) with
    | some directive => exact follows_cursor (follows_pure hname)
    | none => exact follows_cursor (follows_pure hname)

/-- What is left of the text tells which of two places is further on. -/
lemma offset_lt_of_length_lt (h : p.Reaches q) (hlt : q.rest.length < p.rest.length) :
    p.offset < q.offset := by
  obtain ⟨s, hs⟩ := h
  cases s with
  | nil =>
      have hlength := hs.length_eq
      rw [List.length_nil] at hlength
      omega
  | cons c s =>
      rw [hs.2, byteLength_cons]
      have hpos := c.utf8Size_pos
      omega

/-- The loop over an opening tag ends. -/
lemma follows_attributeNodes {opening : Place} {name : List Char} {fuel : Nat}
    (hopening : (Place.start i.text).Reaches opening) (hp : (Place.start i.text).Reaches p)
    (hfuel : p.rest.length < fuel) :
    Follows i.text (i.attributeNodes opening.offset name) p
      (readAttributes i.read opening name fuel p) := by
  induction fuel generalizing p with
  | zero => exact absurd hfuel (Nat.not_lt_zero _)
  | succ fuel ih =>
      have hblanks := reaches_after_run hp isAsciiBlank
      have hlength := (p.reads_run isAsciiBlank).reaches.length_le
      rw [Input.attributeNodes, readAttributes]
      refine follows_scan isAsciiTest_isAsciiBlank hp (follows_rest hblanks ?_)
      dsimp only [Place.skipBlanks]
      generalize p.after (p.run isAsciiBlank) = here at hblanks hlength ⊢
      split
      · -- the tag closes itself
        rename_i hself
        obtain ⟨behind, hrest⟩ := List.isPrefixOf_iff_prefix.mp hself
        have hq := hblanks.trans (Place.reads_of_startsWith ⟨behind, hrest⟩).reaches
        rw [← hrest]
        exact follows_advance hq rfl (follows_pure hq)
      · rename_i hself
        split
        · -- the tag ends
          rename_i hclose
          obtain ⟨behind, hrest⟩ := List.isPrefixOf_iff_prefix.mp hclose
          have hq := hblanks.trans (Place.reads_of_startsWith ⟨behind, hrest⟩).reaches
          rw [← hrest]
          exact follows_advance hq rfl (follows_pure hq)
        · rename_i hclose
          refine follows_atEnd hblanks ?_
          split
          · -- the text ends
            rename_i hend
            rw [List.isEmpty_iff.mp hend]
            exact follows_fail (by rintro ⟨⟩) (boundary_of_reaches hopening)
          · rename_i hmore
            split
            · rename_i hrest
              exact absurd (by rw [hrest]; rfl) hself
            · rename_i hrest
              exact absurd (by rw [hrest]; rfl) hclose
            · rename_i hrest
              exact absurd (by rw [hrest]; rfl) hmore
            · refine follows_cursor ((follows_attributeNode hblanks).bind fun a q ha hq => ?_)
              obtain ⟨c, s, hreads, -⟩ := reads_readAttribute ha
              have hshorter := hreads.length_lt
              refine follows_partFrom (offset_lt_of_length_lt hreads.reaches hshorter) ?_
              exact (ih hq (by omega)).bind fun r stop _ hstop => follows_pure hstop

end SvelteStories.Markup.Cursor

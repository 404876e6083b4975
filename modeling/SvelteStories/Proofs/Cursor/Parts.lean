/-
Parts of templates without others inside, read by moving a cursor:

* `plainText`, `comment`, `expressionTag`, `tag`: such parts;
* `header`, `closingClause`, `closingTag`: what opens and closes the other parts;
* `begins`, `close`: what begins at the cursor, and whether an ending closes what encloses it;
* `textRun_bytesOf`: plain text ends at the same place for who looks at its bytes only.

Each is followed by the lemma that it ends as the reader of characters does.
-/
import SvelteStories.Proofs.Cursor.Tags
import SvelteStories.Proofs.Markup.Lossless

namespace SvelteStories.Markup.Cursor

variable (t : List Char)

/-! ### Simple parts -/

/-- Plain text. The bytes behind the first one may be in the middle of a character. -/
def plainText : Run Node := do
  let start ← cursor
  let stop := start + 1 + (textRun ((bytesOf t).drop (start + 1))).length
  moveTo stop
  let data ← slice t ⟨start, stop⟩
  return .text ⟨start, stop⟩ data

/-- A comment. -/
def comment : Run Node := do
  let start ← cursor
  let inside ← slice t ⟨start + 4, byteLength t⟩
  match splitAtFirst "-->".toList inside with
  | none => fail .openComment start
  | some (found, _) =>
    let stop := start + 4 + byteLength found
    moveTo (stop + 3)
    let data ← slice t ⟨start + 4, stop⟩
    return .comment ⟨start, stop + 3⟩ data

/-- Code in braces. -/
def expressionTag : Run Node := do
  let start ← cursor
  let closing ← bracedEnd t start
  moveTo (closing + 1)
  return .expression ⟨start, closing + 1⟩ ⟨start + 1, closing⟩

/-- The word behind the sign of a clause or tag at an offset, and the place of the code behind it. -/
def header (start closing : Nat) : Run (List Char × Span) := do
  let inside ← slice t ⟨start + 2, closing⟩
  let length := ((bytesOf inside).takeWhile isAsciiLetter).length
  let word ← slice t ⟨start + 2, start + 2 + length⟩
  let code ← trimSpan t ⟨start + 2 + length, closing⟩
  return (word, code)

/-- A tag in braces. -/
def tag : Run Node := do
  let start ← cursor
  let closing ← bracedEnd t start
  let (word, code) ← header t start closing
  moveTo (closing + 1)
  return .tag ⟨start, closing + 1⟩ word code

/-! ### Ends -/

/-- The name in the closing tag at the cursor. -/
def tagName : Run (List Char) := do
  let start ← cursor
  let _ ← rest t
  match slice? t ⟨start + 2, byteLength t⟩ with
  | none => return []
  | some behind =>
    let length := ((bytesOf behind).takeWhile fun c => !isAsciiBlank c && c != '>').length
    slice t ⟨start + 2, start + 2 + length⟩

/-- Moves the cursor behind the closing tag of an element. -/
def closingTag (name : List Char) : Run Unit := do
  let start ← cursor
  let found ← tagName t
  if found = name then
    advance (2 + byteLength found)
    scan t isAsciiBlank
    let next ← peek t 0
    if next = some '>' then advance 1
    else fail (.openClosingTag (String.ofList name)) start
  else fail (.otherClosingTag (String.ofList name) (String.ofList found)) start

/-- What a text begins with that has a certain second byte, found out by one test after the other. -/
def toldBy (ahead : List Char) (second : Option Char) : Beginning :=
  if ['<', '!', '-', '-'].isPrefixOf ahead then .node .comment
  else if ['<', '/'].isPrefixOf ahead then .ending .tag
  else if ['<'].isPrefixOf ahead && (second.filter isAsciiLetter).isSome then .node .element
  else if ['{', ':'].isPrefixOf ahead || ['{', '/'].isPrefixOf ahead then .ending .clause
  else if ['{', '#'].isPrefixOf ahead then .node .block
  else if ['{', '@'].isPrefixOf ahead then .node .tag
  else if ['{'].isPrefixOf ahead then .node .expression
  else .node .text

/-- What begins at the cursor. -/
def begins : Run Beginning := do
  let ended ← atEnd t
  if ended then return .ending .text
  else
    let ahead ← rest t
    let second ← peek t 1
    return toldBy ahead second

/-- Whether an ending at the cursor closes what encloses it. -/
def close (enclosure : Enclosure) (ending : Ending) : Run Unit :=
  match enclosure, ending with
  | .document, .text | .element _, .tag | .block, .clause => return ()
  | .element name, .text => fail (.openElement (String.ofList name)) (byteLength t)
  | .block, .text => fail .openBlock (byteLength t)
  | _, .tag => do
    let name ← tagName t
    fail (.strayClosingTag (String.ofList name)) (← cursor)
  | _, .clause => do
    fail .strayClause (← cursor)

/-- The code of the clause at an offset, which closes a block of a kind and is closed at another. -/
def closingClause (kind : List Char) (clause closing : Nat) : Run Unit := do
  let found ← slice t ⟨clause + 2, closing⟩
  if trim found = kind then return ()
  else fail (.otherClosingClause (String.ofList kind) (String.ofList (trim found))) clause

/-! ### Tests -/

lemma isAsciiLetter_of_le {c : Char} (hc : 0x80 ≤ c.toNat) : isAsciiLetter c = false := by
  rw [isAsciiLetter, Bool.or_eq_false_iff, Bool.and_eq_false_iff, Bool.and_eq_false_iff]
  simp only [decide_eq_false_iff_not]
  omega

lemma isAsciiAlphanumeric_of_le {c : Char} (hc : 0x80 ≤ c.toNat) :
    isAsciiAlphanumeric c = false := by
  rw [isAsciiAlphanumeric, isAsciiLetter_of_le hc, isAsciiDigit, Bool.false_or,
    Bool.and_eq_false_iff]
  simp only [decide_eq_false_iff_not]
  omega

lemma isAsciiTest_isAsciiLetter : IsAsciiTest isAsciiLetter :=
  isAsciiTest_of_forall false fun _ hc => isAsciiLetter_of_le hc

lemma isAsciiTest_isElementNamePart : IsAsciiTest isElementNamePart :=
  isAsciiTest_of_forall false fun c hc => by
    simp [isElementNamePart, isAsciiAlphanumeric_of_le hc, ne_of_le_of_lt hc]

lemma isAsciiTest_snippetName :
    IsAsciiTest fun c => isAsciiAlphanumeric c || c = '_' || c = '$' :=
  isAsciiTest_of_forall false fun c hc => by
    simp [isAsciiAlphanumeric_of_le hc, ne_of_le_of_lt hc]

/-! ### Simple parts -/

variable {t} {α : Type} {p q : Place} {x : Except ReadFault (α × Place)}

lemma endsText_of_le {c : Char} (hc : 0x80 ≤ c.toNat) (s : List Char) :
    endsText c s = false := by
  simp [endsText, ne_of_le_of_lt hc]

lemma endsText_bytesOf (c : Char) (s : List Char) : endsText c (bytesOf s) = endsText c s := by
  have htest : ∀ d : Char, 0x80 ≤ d.toNat → (isAsciiLetter d || d = '/' || d = '!') = false := by
    intro d hd
    simp [isAsciiLetter_of_le hd, ne_of_le_of_lt hd]
  simp only [endsText, ← Option.isSome_filter]
  rw [filter_head?_bytesOf htest]

/-- Bytes beyond ASCII belong to plain text. -/
lemma textRun_append_of_le {l : List Char} (hl : ∀ b ∈ l, 0x80 ≤ b.toNat) (s : List Char) :
    textRun (l ++ s) = l ++ textRun s := by
  induction l with
  | nil => rfl
  | cons b l ih =>
      rw [List.cons_append, textRun_cons, endsText_of_le (hl b List.mem_cons_self),
        ih fun c hc => hl c (List.mem_cons_of_mem b hc)]
      rfl

/-- The text up to the next brace or tag is found in its bytes. -/
lemma textRun_bytesOf (s : List Char) : textRun (bytesOf s) = bytesOf (textRun s) := by
  induction s with
  | nil => rfl
  | cons c s ih =>
      rw [bytesOf_cons, textRun_cons]
      by_cases hc : c.toNat < 0x80
      · rw [encode_of_lt hc, List.singleton_append, textRun_cons, endsText_bytesOf, ih]
        split_ifs
        · rfl
        · rw [bytesOf_cons, encode_of_lt hc, List.singleton_append]
      · have hle : 0x80 ≤ c.toNat := by omega
        rw [textRun_append_of_le fun b hb => le_toNat_of_mem_encode hle hb, ih,
          endsText_of_le hle]
        rfl

/-- Behind the first byte of a text, which may be in the middle of a character, the same plain text
ends as behind its first character. -/
lemma length_textRun_drop (c : Char) (s : List Char) :
    1 + (textRun ((bytesOf (c :: s)).drop 1)).length = byteLength (c :: textRun s) := by
  have hlength := length_encode c
  have hpos := c.utf8Size_pos
  cases hbytes : encode c with
  | nil =>
      rw [hbytes, List.length_nil] at hlength
      omega
  | cons b bs =>
      have hbs : ∀ d ∈ bs, 0x80 ≤ d.toNat := by
        intro d hd
        by_cases hc : c.toNat < 0x80
        · rw [encode_of_lt hc] at hbytes
          rw [← (List.cons.inj hbytes).2] at hd
          cases hd
        · refine le_toNat_of_mem_encode (c := c) (by omega) ?_
          rw [hbytes]
          exact List.mem_cons_of_mem b hd
      rw [hbytes, List.length_cons] at hlength
      rw [bytesOf_cons, hbytes, List.cons_append, List.drop_succ_cons, List.drop_zero,
        textRun_append_of_le hbs, textRun_bytesOf, List.length_append, length_bytesOf,
        byteLength_cons]
      omega

lemma follows_plainText (hp : (Place.start t).Reaches p) (hne : p.rest ≠ []) :
    Follows t (plainText t) p (pure (readText p)) := by
  obtain ⟨c, s, hrest⟩ := List.exists_cons_of_ne_nil hne
  have hdata : p.rest.take 1 ++ textRun (p.rest.drop 1) = c :: textRun s := by
    rw [hrest]
    rfl
  have hreads : p.Reads (c :: textRun s) (p.after (c :: textRun s)) := by
    refine Place.reads_of_startsWith ?_
    rw [hrest]
    exact (List.prefix_cons_inj c).mpr (isPrefix_textRun s)
  have hq := hp.trans hreads.reaches
  have hstop : (p.after (c :: textRun s)).offset
      = p.offset + 1 + (textRun ((bytesOf t).drop (p.offset + 1))).length := by
    have hlength := length_textRun_drop c s
    rw [← hrest, ← drop_bytesOf hp, List.drop_drop] at hlength
    rw [hreads.2, ← hlength]
    omega
  have hslice := Place.slice?_of_reads hp hreads
  rw [Place.spanTo, hstop] at hslice
  simp only [readText, hdata]
  refine follows_cursor (follows_moveTo hq hstop (follows_slice hslice ?_))
  rw [← hstop]
  exact follows_pure hq

lemma follows_comment (hp : (Place.start t).Reaches p) (hopen : "<!--".toList <+: p.rest) :
    Follows t (comment t) p (readComment p) := by
  have hinside := hp.trans (Place.reads_of_startsWith hopen).reaches
  have hoffset : (p.after "<!--".toList).offset = p.offset + 4 := rfl
  have hahead := slice?_rest hinside
  rw [hoffset] at hahead
  refine follows_cursor (follows_slice hahead ?_)
  simp only [readComment]
  cases hsplit : splitAtFirst "-->".toList (p.after "<!--".toList).rest with
  | none => exact follows_fail (by rintro ⟨⟩) (boundary_of_reaches hp)
  | some found =>
      obtain ⟨data, behind⟩ := found
      obtain ⟨hrest, hclose⟩ := eq_append_of_splitAtFirst hsplit
      have hdata : data ++ "-->".toList <+: (p.after "<!--".toList).rest := by
        rw [hrest]
        exact (List.prefix_append_right_inj data).mpr hclose
      have hq := hinside.trans (Place.reads_of_startsWith hdata).reaches
      have hstop : ((p.after "<!--".toList).after (data ++ "-->".toList)).offset
          = p.offset + 4 + byteLength data + 3 := by
        rw [Place.after, byteLength_append, hoffset, ← Nat.add_assoc]
        rfl
      have hslice := Place.slice?_of_reads hinside (Place.reads_after hrest)
      refine follows_moveTo hq hstop (follows_slice hslice ?_)
      rw [← hstop]
      exact follows_pure hq

lemma follows_expressionTag (hp : (Place.start t).Reaches p) :
    Follows t (expressionTag t) p (readExpressionTag p) := by
  refine follows_cursor (follows_bracedEnd hp fun code q _ hq hoffset => ?_)
  refine follows_moveTo hq hoffset ?_
  rw [← hoffset]
  exact follows_pure hq

/-! ### Headers and clauses -/

/-- In braces that open with a sign, the code stands behind the sign. -/
lemma slice?_behind_sign {code : List Char} {c : Char} (hp : (Place.start t).Reaches p)
    (hbraced : braced p = .ok (c :: code, q)) (hc : c.utf8Size = 1) :
    slice? t ⟨p.offset + 2, p.offset + 1 + byteLength (c :: code)⟩ = some code := by
  have hslice := (slice?_of_append (u := [c]) (slice?_code hp hbraced)).2
  rwa [byteLength_cons, byteLength_nil, hc] at hslice

/-- A header in braces consists of a sign, a word and code. -/
lemma ofCode_cons (offset : Nat) (c : Char) (code : List Char) :
    let word := code.takeWhile isAsciiLetter
    let behind := code.dropWhile isAsciiLetter
    let start := offset + (c.utf8Size + byteLength word)
    Header.ofCode offset (c :: code)
      = ⟨word, trim behind, trimmedSpan behind ⟨start, start + byteLength behind⟩⟩ := by
  intro word behind start
  have hsplit : code = word ++ behind := List.takeWhile_append_dropWhile.symm
  have htake : (c :: code).take (1 + word.length) = c :: word := by
    rw [Nat.add_comm, List.take_succ_cons, hsplit, List.take_left]
  have hdrop : (c :: code).drop (1 + word.length) = behind := by
    rw [Nat.add_comm, List.drop_succ_cons, hsplit, List.drop_left]
  have hword : ((c :: code).drop 1).takeWhile isAsciiLetter = word := rfl
  simp only [Header.ofCode, hword, htake, hdrop]
  rfl

/-- The pieces of a header have their slices. -/
lemma slice?_header_pieces {code : List Char} {c : Char} (hp : (Place.start t).Reaches p)
    (hbraced : braced p = .ok (c :: code, q)) (hc : c.utf8Size = 1) :
    let word := code.takeWhile isAsciiLetter
    let behind := code.dropWhile isAsciiLetter
    let start := p.offset + 1 + (c.utf8Size + byteLength word)
    slice? t ⟨p.offset + 2, p.offset + 2 + byteLength word⟩ = some word
      ∧ slice? t ⟨start, start + byteLength behind⟩ = some behind
      ∧ p.offset + 2 + byteLength word = start
      ∧ p.offset + 1 + byteLength (c :: code) = start + byteLength behind := by
  intro word behind start
  have hsplit : code = word ++ behind := List.takeWhile_append_dropWhile.symm
  have hinside := slice?_behind_sign hp hbraced hc
  have hstart : p.offset + 2 + byteLength word = start := by
    show _ = p.offset + 1 + (c.utf8Size + byteLength word)
    omega
  have hstop : p.offset + 1 + byteLength (c :: code) = start + byteLength behind := by
    rw [← hstart, byteLength_cons, hsplit, byteLength_append, hc]
    omega
  rw [hstop, hsplit] at hinside
  obtain ⟨hword, hbehind⟩ := slice?_of_append hinside
  exact ⟨hword, by rwa [hstart] at hbehind, hstart, hstop⟩

/-- The word behind the sign and the place of the code behind it are those of the header. -/
lemma follows_header {k : List Char × Span → Run α} {code : List Char} {c : Char}
    (hp : (Place.start t).Reaches p) (hbraced : braced p = .ok (c :: code, q))
    (hc : c.utf8Size = 1)
    (h : Follows t (k ((Header.ofCode (p.offset + 1) (c :: code)).word,
      (Header.ofCode (p.offset + 1) (c :: code)).span)) p x) :
    Follows t (header t p.offset (p.offset + 1 + byteLength (c :: code)) >>= k) p x := by
  obtain ⟨hword, hbehind, hstart, hstop⟩ := slice?_header_pieces hp hbraced hc
  simp only [header, bind_assoc, pure_bind]
  refine follows_slice (slice?_behind_sign hp hbraced hc) ?_
  rw [isAsciiTest_isAsciiLetter.takeWhile_bytesOf, length_bytesOf, hstart, hstop]
  rw [hstart] at hword
  refine follows_slice hword (follows_trimSpan hbehind ?_)
  rwa [ofCode_cons] at h

/-- The code of a header stands at its place. -/
lemma slice?_header {code : List Char} {c : Char} (hp : (Place.start t).Reaches p)
    (hbraced : braced p = .ok (c :: code, q)) (hc : c.utf8Size = 1) :
    slice? t (Header.ofCode (p.offset + 1) (c :: code)).span
      = some (Header.ofCode (p.offset + 1) (c :: code)).code := by
  obtain ⟨-, hbehind, -, -⟩ := slice?_header_pieces hp hbraced hc
  rw [ofCode_cons]
  exact slice?_trimmedSpan_of_slice? hbehind

lemma follows_tag (hp : (Place.start t).Reaches p) (hopen : ['{', '@'] <+: p.rest) :
    Follows t (tag t) p (readTag p) := by
  refine follows_cursor (follows_bracedEnd hp fun code q hbraced hq hoffset => ?_)
  obtain ⟨code, rfl⟩ := exists_cons_of_reads (by decide) (reads_braced hbraced).1 hopen
  refine follows_header hp hbraced (by decide) (follows_moveTo hq hoffset ?_)
  rw [← hoffset]
  exact follows_pure hq

/-- What stands behind the slash of a closing clause is looked at without its blanks. -/
lemma follows_closingClause {k : Unit → Run α} {kind word : List Char} {r : Place}
    (hp : (Place.start t).Reaches p) (hbraced : braced p = .ok ('/' :: word, q))
    (hkind : trim word = kind → Follows t (k ()) r x)
    (hother : trim word ≠ kind →
      x = p.fail (.otherClosingClause (String.ofList kind) (String.ofList (trim word)))) :
    Follows t (closingClause t kind p.offset (p.offset + 1 + byteLength ('/' :: word)) >>= k) r
      x := by
  simp only [closingClause, bind_assoc]
  refine follows_slice (slice?_behind_sign hp hbraced (by decide)) ?_
  by_cases hword : trim word = kind
  · rw [if_pos hword]
    exact hkind hword
  · rw [if_neg hword, hother hword]
    exact follows_fail_bind (by rintro ⟨⟩) (boundary_of_reaches hp)

/-! ### Closing tags -/

/-- The name in a closing tag. -/
lemma follows_tagName {k : List Char → Run α} (hp : (Place.start t).Reaches p)
    (hopen : ['<', '/'] <+: p.rest) (h : Follows t (k (closingName p.rest)) p x) :
    Follows t (tagName t >>= k) p x := by
  have hbehind := hp.trans (Place.reads_of_startsWith hopen).reaches
  have hoffset : (p.after ['<', '/']).offset = p.offset + 2 := rfl
  have hahead := slice?_rest hbehind
  rw [hoffset] at hahead
  have htest : IsAsciiTest fun c => !isAsciiBlank c && c != '>' := isAsciiTest_unquoted
  have hname : closingName p.rest
      = (p.after ['<', '/']).run fun c => !isAsciiBlank c && c != '>' := rfl
  have hslice := Place.slice?_of_reads hbehind
    ((p.after ['<', '/']).reads_run fun c => !isAsciiBlank c && c != '>')
  rw [← hname] at hslice
  simp only [tagName, bind_assoc]
  refine follows_cursor (follows_rest hp ?_)
  rw [hahead]
  dsimp only
  rw [htest.takeWhile_bytesOf, length_bytesOf]
  exact follows_slice hslice h

/-- Behind the closing tag of an element. -/
lemma follows_closingTag {name : List Char} (hp : (Place.start t).Reaches p)
    (hopen : ['<', '/'] <+: p.rest) :
    Follows t (closingTag t name) p (readClosingTag name p >>= fun q => pure ((), q)) := by
  refine follows_cursor (follows_tagName hp hopen ?_)
  simp only [readClosingTag]
  by_cases hname : closingName p.rest = name
  · have hstarts : '<' :: '/' :: name <+: p.rest := hname ▸ isPrefix_closingName hopen
    have hbehind := hp.trans (Place.reads_of_startsWith hstarts).reaches
    have hoffset : (p.after ('<' :: '/' :: name)).offset
        = p.offset + (2 + byteLength (closingName p.rest)) := by
      rw [hname, Place.after, byteLength_cons, byteLength_cons]
      show p.offset + (1 + (1 + byteLength name)) = _
      omega
    have hblanks := reaches_after_run hbehind isAsciiBlank
    simp only [if_pos hname]
    refine follows_advance hbehind hoffset (follows_scan isAsciiTest_isAsciiBlank hbehind ?_)
    refine follows_peek_zero hblanks ?_
    simp only [head?_bytesOf_eq_some_iff (show '>'.toNat < 0x80 by decide)]
    dsimp only [Place.skipBlanks]
    by_cases hclose :
        ((p.after ('<' :: '/' :: name)).after
          ((p.after ('<' :: '/' :: name)).run isAsciiBlank)).rest.head? = some '>'
    · obtain ⟨hq, hstop⟩ := reaches_after_head hblanks hclose (by decide)
      simp only [hclose, if_true]
      exact follows_advance_last hq hstop
    · simp only [hclose, if_false]
      exact follows_fail (by rintro ⟨⟩) (boundary_of_reaches hp)
  · simp only [if_neg hname]
    exact follows_fail (by rintro ⟨⟩) (boundary_of_reaches hp)

/-! ### Beginnings and endings -/

lemma isPrefixOf_eq_false {s : List Char} (u : List Char) (h : ∀ behind, s = u ++ behind → False) :
    u.isPrefixOf s = false := by
  rw [Bool.eq_false_iff, Ne, List.isPrefixOf_iff_prefix]
  rintro ⟨behind, rfl⟩
  exact h behind rfl

/-- The tests tell what a text begins with. -/
lemma toldBy_eq {s : List Char} (hs : s ≠ []) : toldBy s (bytesOf s)[1]? = beginning s := by
  rw [beginning.eq_def]
  split
  case h_1 => exact absurd rfl hs
  case h_4 c behind hcomment htag =>
    have hsecond : (bytesOf ('<' :: c :: behind))[1]?.filter isAsciiLetter
        = (some c).filter isAsciiLetter := by
      have hbytes : (bytesOf ('<' :: c :: behind))[1]? = (bytesOf (c :: behind)).head? := by
        rw [bytesOf_cons, encode_of_lt (by decide), List.head?_eq_getElem?]
        rfl
      rw [hbytes, filter_head?_bytesOf (fun d hd => isAsciiLetter_of_le hd), List.head?_cons]
    have hcomment : ['<', '!', '-', '-'].isPrefixOf ('<' :: c :: behind) = false := by
      refine isPrefixOf_eq_false _ fun tail heq => ?_
      obtain ⟨hc, hbehind⟩ := List.cons.inj (List.cons.inj heq).2
      exact hcomment tail hc hbehind
    have htag : ['<', '/'].isPrefixOf ('<' :: c :: behind) = false := by
      refine isPrefixOf_eq_false _ fun tail heq => ?_
      exact htag (List.cons.inj (List.cons.inj heq).2).1
    simp only [toldBy, hcomment, htag, hsecond, Option.filter_some]
    cases hletter : isAsciiLetter c with
    | true => rfl
    | false => rfl
  case h_9 behind hcontinues hcloses hblock htag =>
    have hsign : ∀ c : Char, (∀ tail, behind = c :: tail → False) →
        ['{', c].isPrefixOf ('{' :: behind) = false := by
      intro c hc
      exact isPrefixOf_eq_false _ fun tail heq => hc tail (List.cons.inj heq).2
    simp only [toldBy, hsign _ hcontinues, hsign _ hcloses, hsign _ hblock, hsign _ htag]
    rfl
  case h_10 hnil hcomment hclosing hother hcontinues hcloses hblock htag hbrace =>
    have helement :
        (['<'].isPrefixOf s && ((bytesOf s)[1]?.filter isAsciiLetter).isSome) = false := by
      cases hlt : ['<'].isPrefixOf s with
      | false => rfl
      | true =>
          obtain ⟨behind, rfl⟩ := List.isPrefixOf_iff_prefix.mp hlt
          cases behind with
          | nil => decide
          | cons c behind => exact (hother c behind rfl).elim
    simp only [toldBy, helement, isPrefixOf_eq_false ['<', '!', '-', '-'] hcomment,
      isPrefixOf_eq_false ['<', '/'] hclosing, isPrefixOf_eq_false ['{', ':'] hcontinues,
      isPrefixOf_eq_false ['{', '/'] hcloses, isPrefixOf_eq_false ['{', '#'] hblock,
      isPrefixOf_eq_false ['{', '@'] htag, isPrefixOf_eq_false ['{'] hbrace]
    rfl
  all_goals rfl

/-- The tests at the cursor tell what begins there. -/
lemma follows_begins {k : Beginning → Run α} (hp : (Place.start t).Reaches p)
    (h : Follows t (k (beginning p.rest)) p x) : Follows t (begins t >>= k) p x := by
  simp only [begins, bind_assoc]
  refine follows_atEnd hp ?_
  split
  · rename_i hend
    rw [List.isEmpty_iff.mp hend] at h
    rw [pure_bind]
    exact h
  · rename_i hmore
    simp only [bind_assoc, pure_bind]
    refine follows_rest hp (follows_peek hp ?_)
    rw [toldBy_eq (by simpa using hmore)]
    exact h

/-- An ending at the cursor closes what encloses it, or it is a fault there. -/
lemma follows_close {enclosure : Enclosure} {ending : Ending} (hp : (Place.start t).Reaches p)
    (hending : beginning p.rest = .ending ending) :
    Follows t (close t enclosure ending) p (enclosure.close ending p >>= fun u => pure (u, p)) := by
  have hagrees := agrees_beginning p.rest
  rw [hending] at hagrees
  cases ending with
  | text =>
      have hrest : p.rest = [] := hagrees
      have hend : byteLength t = p.offset := by
        have hlength := congrArg List.length (drop_bytesOf hp)
        have hle := (boundary_of_reaches hp).le
        rw [hrest, List.length_drop, length_bytesOf, bytesOf_nil, List.length_nil] at hlength
        omega
      cases enclosure with
      | document => exact follows_pure hp
      | element name =>
          rw [close, hend]
          exact follows_fail (by rintro ⟨⟩) (boundary_of_reaches hp)
      | block =>
          rw [close, hend]
          exact follows_fail (by rintro ⟨⟩) (boundary_of_reaches hp)
  | tag =>
      have hopen : ['<', '/'] <+: p.rest := hagrees
      cases enclosure with
      | element name => exact follows_pure hp
      | document =>
          refine follows_tagName hp hopen (follows_cursor ?_)
          exact follows_fail (by rintro ⟨⟩) (boundary_of_reaches hp)
      | block =>
          refine follows_tagName hp hopen (follows_cursor ?_)
          exact follows_fail (by rintro ⟨⟩) (boundary_of_reaches hp)
  | clause =>
      cases enclosure with
      | block => exact follows_pure hp
      | document => exact follows_cursor (follows_fail (by rintro ⟨⟩) (boundary_of_reaches hp))
      | element name => exact follows_cursor (follows_fail (by rintro ⟨⟩) (boundary_of_reaches hp))

end SvelteStories.Markup.Cursor

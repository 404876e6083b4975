/-
Tokens read from texts:

* `readWord`, `readString`, `readPunctuator`: the tokens by their first character;
* `LexMode`: what the place of a token says about it;
* `Lexeme`, `lexeme`: the next token with the gap before it;
* `readRegex?`, `readTemplateChunk?`: what only the parser can tell from other tokens.

Every reader gets the text from its first character on and gives back what is left of it. Places
of faults count from its first character.
-/
import SvelteStories.Script.Escape
import SvelteStories.Script.Numeral

namespace SvelteStories.Script

/-! ### Words -/

/-- A word up to its end, or the fault that it stops with. -/
structure WordRun where
  /-- The characters that have been read, in reverse. -/
  value : List Char
  /-- Whether one of them is escaped. -/
  isEscaped : Bool
  /-- The places of characters that belong to no name. -/
  strange : List Nat
  /-- What keeps it from being a word, and where. -/
  fault : Option SyntaxFault
  /-- The text behind it. -/
  rest : List Char

/-- The characters of a word behind those in `run`. `offset` is where the text stands in the word.
An escaped character belongs to the word whatever it is. -/
def readWordFrom : (fuel : Nat) → (offset : Nat) → WordRun → WordRun
  | 0, _, run => run
  | fuel + 1, offset, run =>
    match run.rest with
    | '\\' :: 'u' :: digits =>
      match unicodeEscape digits with
      | .error f =>
        let place := offset + byteLength (upTo run.rest f.rest)
        { run with rest := f.rest, fault := some ⟨f.cause, place⟩ }
      | .ok (code, rest) =>
        let c := (charOf? code).getD '\x00'
        let belongs := if run.value.isEmpty then isIdentifierStart c else isIdentifierPart c
        readWordFrom fuel (offset + byteLength (upTo run.rest rest))
          { value := c :: run.value, isEscaped := true, fault := none, rest
            strange := if belongs then run.strange else run.strange ++ [offset] }
    | '\\' :: rest => { run with rest, fault := some ⟨.codeExpected, offset⟩ }
    | c :: rest =>
      if isIdentifierPart c then
        readWordFrom fuel (offset + c.utf8Size) { run with value := c :: run.value, rest }
      else run
    | [] => run

/-- A word. One that is reserved may not be written with escapes. -/
def readWord (reserved : String → Bool) (t : List Char) : Scanned :=
  let run := readWordFrom t.length 0 ⟨[], false, [], none, t⟩
  let faults : List SyntaxFault := run.strange.map (⟨.strangeNameCharacter, ·⟩)
  let value := String.ofList run.value.reverse
  match run.fault with
  | some f => ⟨.fault f, run.rest, faults⟩
  | none =>
    if run.isEscaped && reserved value then .failed (.escapedWord value) 0 run.rest faults
    else ⟨.word value, run.rest, faults⟩

/-! ### Strings -/

/-- The characters of a string up to its quote. `offset` is where the text stands in the string, and
`value` holds, in reverse, what the characters before it stand for. -/
def readStringFrom (s : Strictness) (quote : Char) (whole : List Char) :
    (fuel : Nat) → (offset : Nat) → (value : List Char) → (faults : List SyntaxFault) →
      List Char → Scanned
  | 0, _, _, faults, t => .failed .openString 0 t faults
  | fuel + 1, offset, value, faults, t =>
    let finish (rest : List Char) (faults : List SyntaxFault) : Scanned :=
      ⟨.string (String.ofList value.reverse) (String.ofList (upTo whole rest)), rest, faults⟩
    match t with
    | [] => finish [] (faults ++ [⟨.openString, 0⟩])
    | '\\' :: escaped =>
      match readEscape escaped with
      | .error f => .failed f.cause offset f.rest faults
      | .ok e =>
        readStringFrom s quote whole fuel (offset + byteLength (upTo t e.rest))
          (e.value.reverse ++ value)
          (faults ++ if e.isLegacy then s.strictFault ⟨.legacyOctal, offset⟩ else []) e.rest
    | c :: rest =>
      if c = quote then finish rest faults
      else if c = '\n' || c = '\r' then finish t (faults ++ [⟨.openString, 0⟩])
      else readStringFrom s quote whole fuel (offset + c.utf8Size) (c :: value) faults rest

/-- A string, from its quote on. One that does not end on its line is a string all the same. -/
def readString (s : Strictness) (quote : Char) (t : List Char) : Scanned :=
  readStringFrom s quote t (t.length + 1) 1 [] [] (t.drop 1)

/-! ### Punctuation -/

/-- Punctuation. A question mark before `.5` is none of an optional chain. -/
def readPunctuator (t : List Char) : Scanned :=
  match punctuators.find? fun p => p.toList.isPrefixOf t with
  | some "?." =>
    if (t.drop 2).head?.any isAsciiDigit then ⟨.punctuator "?", t.drop 1, []⟩
    else ⟨.punctuator "?.", t.drop 2, []⟩
  | some p => ⟨.punctuator p, t.drop p.length, []⟩
  | none =>
    match t with
    | c :: rest => .failed (.strangeCharacter c) 0 rest []
    | [] => ⟨.stop, [], []⟩

/-! ### Tokens -/

/-- What the place of a token says about it. -/
structure LexMode where
  /-- Which old forms are faults. -/
  strictness : Strictness
  /-- Whether the script is a module. -/
  isModule : Bool
  /-- The words that are reserved. -/
  reserved : String → Bool

/-- The token that a text starts with. -/
def readToken (mode : LexMode) (t : List Char) : Scanned :=
  match t with
  | [] => ⟨.stop, [], []⟩
  | c :: rest =>
    if c = '"' || c = '\'' then readString mode.strictness c t
    else if isAsciiDigit c || (c = '.' && rest.head?.any isAsciiDigit) then
      readNumber mode.strictness t
    else if isIdentifierStart c || c = '\\' then readWord mode.reserved t
    else if c = '\x00' then ⟨.stop, [], []⟩
    else readPunctuator t

/-- A token in its place. -/
structure Lexeme where
  /-- The token. -/
  token : Token
  /-- Where it stands. -/
  span : Span
  /-- Whether a line break stands before it, or nothing. -/
  newline : Bool
  /-- The comments that belong to it. -/
  comments : List Comment
  /-- The text from its first character on. -/
  here : List Char
  /-- The text behind it. -/
  after : List Char
  /-- What is wrong in it or before it, and does not keep it from being a token. -/
  faults : List SyntaxFault

/-- A token with the place that it is reported for. -/
def Token.place (offset : Nat) : Token → Token
  | .fault f => .fault { f with offset := offset + f.offset }
  | token => token

/-- The next token of a text. `before` tells which comments on the line belong to the token before.
A character with no code ends the text, which then stands at its very end. -/
def lexeme (mode : LexMode) (before : Trailing) (newline : Bool) (offset : Nat)
    (t : List Char) : Lexeme :=
  let gap := skipGap mode.isModule before (t.length + 1) newline offset t
  let s := readToken mode gap.rest
  let stop := gap.offset + byteLength (upTo gap.rest s.rest)
  { token := s.token.place gap.offset
    span := ⟨if s.token = .stop then stop else gap.offset, stop⟩
    newline := gap.newline
    comments := gap.comments
    here := gap.rest
    after := s.rest
    faults := gap.faults ++ s.faults.map fun f => { f with offset := gap.offset + f.offset } }

/-! ### Regular expressions -/

/-- The text behind the closing slash of a regular expression, from behind its opening one. -/
def afterRegex? (isClass : Bool) : List Char → Option (List Char)
  | [] => none
  | '\\' :: c :: t => if isLineBreak c then none else afterRegex? isClass t
  | c :: t =>
    if isLineBreak c then none
    else if c = '/' && !isClass then some t
    else if c = '[' then afterRegex? true t
    else if c = ']' then afterRegex? false t
    else afterRegex? isClass t

/-- A regular expression. -/
structure Regex where
  /-- How it is written, flags included. -/
  raw : String
  /-- Its flags. -/
  flags : List Char
  /-- The text behind it. -/
  rest : List Char

/-- A regular expression with its flags, from its slash on. -/
def readRegex? (t : List Char) : Option Regex :=
  (afterRegex? false (t.drop 1)).map fun behind =>
    let flags := behind.takeWhile isIdentifierPart
    let rest := behind.drop flags.length
    ⟨String.ofList (upTo t rest), flags, rest⟩

/-- The flags that regular expressions have. -/
def regexFlags : List Char := ['d', 'g', 'i', 'm', 's', 'u', 'v', 'y']

/-- What is wrong with the flags of a regular expression. -/
def Regex.flagFaults (r : Regex) : List SyntaxCause :=
  let isRepeated (c : Char) : Bool := regexFlags.contains c && 1 < r.flags.count c
  (if r.flags.all regexFlags.contains then [] else [SyntaxCause.unknownFlag])
    ++ (match r.flags.find? isRepeated with
        | some c => [SyntaxCause.repeatedFlag c]
        | none => [])

/-! ### Template literals -/

/-- A part of a template literal, up to its end or to the next code in it. -/
structure TemplateChunk where
  /-- Its text as it is printed: line breaks are line feeds. -/
  text : List Char
  /-- Whether the literal ends with it. -/
  isLast : Bool
  /-- The last bad escape in it, with its place in the part. -/
  fault : Option SyntaxFault
  /-- The text behind it. -/
  rest : List Char

/-- What is wrong with an escape in a template literal, where old octal ones are always bad. -/
def templateEscapeFault? (t : List Char) : Option SyntaxCause :=
  match readEscape t with
  | .error f => some f.cause
  | .ok e => if e.isLegacy then some .legacyOctal else none

/-- The part of a template literal that a text starts with. `offset` is where the text stands in the
part, and `before` holds, in reverse, the text before it. -/
def readTemplateFrom (offset : Nat) (before : List Char) (fault : Option SyntaxFault) :
    List Char → Option TemplateChunk
  | [] => none
  | '\\' :: c :: t =>
    let cause := templateEscapeFault? (c :: t)
    let fault := (cause.map (⟨·, offset⟩)).or fault
    if c = '\r' then readTemplateFrom (offset + 1) ('\\' :: before) fault (c :: t)
    else readTemplateFrom (offset + 1 + c.utf8Size) (c :: '\\' :: before) fault t
  | '$' :: '{' :: t => some ⟨before.reverse, false, fault, t⟩
  | '\r' :: '\n' :: t => readTemplateFrom (offset + 2) ('\n' :: before) fault t
  | '\r' :: t => readTemplateFrom (offset + 1) ('\n' :: before) fault t
  | c :: t =>
    if c = '\x60' then some ⟨before.reverse, true, fault, t⟩
    else readTemplateFrom (offset + c.utf8Size) (c :: before) fault t

/-- The part of a template literal that a text starts with. -/
def readTemplateChunk? (t : List Char) : Option TemplateChunk :=
  readTemplateFrom 0 [] none t

end SvelteStories.Script

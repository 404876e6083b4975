/-
What the parts of the grammar need of each other:

* `Grammar`: the readers that a form may call for the forms inside it;
* `takeWord`, `takeName`, `takeBoundName`, `takePrivateName`, `takeRaw`: single tokens;
* `expectComma`: the comma between two elements of a list;
* `templateLayout`: template literals;
* `splitCloser`: the first of several closing angle brackets written together.

Each part is written against a `Grammar`, and the whole is tied together at the end, so that no part
calls itself directly.
-/
import SvelteStories.Script.Layout
import SvelteStories.Script.Parser.Cursor

namespace SvelteStories.Script

/-- The readers of the forms that stand inside other forms. -/
structure Grammar where
  /-- An expression, commas included. -/
  expression : Parser Expr
  /-- An expression without commas. -/
  assignment : Parser Expr
  /-- An operand with the operators in front of it. -/
  unary : Parser Expr
  /-- Operands and the operators between them. -/
  binary : Parser Expr
  /-- The operators behind a left operand that bind more tightly than this. -/
  binaryRest : Nat → Expr → Parser Expr
  /-- A value with its members and calls. -/
  operand : Parser Expr
  /-- A value with its members. -/
  callee : Parser Expr
  /-- The parameters of a function, up to the parenthesis behind them. -/
  parameters : Parser (List Parameter)
  /-- A pattern that binds names. -/
  pattern : Parser Pattern
  /-- A statement, which may be a declaration or not. -/
  statement : Bool → Parser Statement
  /-- An item of a module. -/
  item : Parser Item
  /-- A type. -/
  type : Parser (List Piece)
  /-- A type that is no choice. -/
  plainType : Parser (List Piece)

/-- The readers that find nothing. -/
def Grammar.empty : Grammar :=
  let nothing {α : Type} : Parser α := failHere .unexpectedEnd
  ⟨nothing, nothing, nothing, nothing, fun _ _ => nothing, nothing, nothing, nothing, nothing,
    fun _ => nothing, nothing, nothing, nothing⟩

/-! ### Names -/

/-- Whether a token can name a value. -/
def Context.isNameToken (c : Context) : Token → Bool
  | .word value => !c.reserved value
  | _ => false

/-- Whether the current token can name a value. -/
def isAtName : Parser Bool :=
  return (← read).isNameToken (← tokenHere)

/-- Whether the token behind the current one can name a value, on the same line. -/
def isBeforeName : Parser Bool := do
  let c ← read
  isFollowedBy fun l => !l.newline && c.isNameToken l.token

/-- The word at the cursor, keywords included. -/
def takeWord : Parser String := do
  match ← tokenHere with
  | .word value =>
    skip
    return value
  | .fault _ | .stop =>
    requireToken
    failHere .nameExpected
  | _ => failHere .nameExpected

/-- The words that name nothing in strict code, without being keywords. -/
def isStrictName (word : String) : Bool :=
  ["yield", "let", "static"].contains word || strictWords.contains word

/-- The name at the cursor. Words that only strict code reserves are noted and taken. -/
def takeName (mayYield mayAwait : Bool) : Parser String := do
  requireToken
  let offset ← offsetHere
  let .word name ← tokenHere | failHere .nameExpected
  let c ← read
  if name = "enum" then noteAt (.reservedName name) offset
  if isStrictName name then noteStrict (.reservedName name) offset
  skip
  if name = "await" && !c.isAmbient then
    if c.inStaticBlock then failAt .nameExpected offset
    if c.dialect.isModule || c.inAsync then failAt .awaitName offset
    unless mayAwait do failAt .nameExpected offset
  if name = "yield" && !mayYield then failAt .nameExpected offset
  if keywords.contains name && !(name = "this" && c.dialect.isTyped) then
    failAt .nameExpected offset
  if name = "arguments" && c.inField then noteAt .argumentsInField offset
  return name

/-- Whether strict code may bind no such name. -/
def isUnboundName (name : String) : Bool :=
  name = "eval" || name = "arguments"

/-- The name that is bound at the cursor. -/
def takeBoundName : Parser String := do
  let offset ← offsetHere
  let name ← takeName true true
  let c ← read
  if isUnboundName name then noteStrict .strictName offset
  if (c.inAsync || c.inStaticBlock) && name = "await" then noteAt .nameExpected offset
  if c.inGenerator && name = "yield" then noteAt .nameExpected offset
  return name

/-- The name that a declaration binds at the cursor. -/
def takeDeclaredName : Parser String := do
  requireToken
  if ← isAtWord "let" then failUnexpected "let is reserved in const, let, class declaration"
  takeBoundName

/-- The name at the cursor with the hash before it. -/
def takePrivateName : Parser String := do
  let start ← offsetHere
  expect "#"
  unless (← get).last.stop = (← get).current.span.start do failAt .gapInPrivateName start
  return "#" ++ (← takeWord)

/-- The current token as it was written, behind which the cursor moves on. -/
def takeRaw : Parser String := do
  let l ← advance
  return String.ofList (upTo l.here l.after)

/-! ### Lists -/

/-- Moves on behind the comma between two elements, unless the list ends here. -/
def expectComma (closer : String) : Parser Unit := do
  unless ← isAt closer do expect ","

/-- Notes that a comma stands before the end of what starts at an offset. -/
def noteTrailingComma (start comma : Nat) : Parser Unit :=
  modify fun cursor => { cursor with trailingCommas := (start, comma) :: cursor.trailingCommas }

/-- The comma before the end of what starts at an offset. -/
def trailingComma? (start : Nat) : Parser (Option Nat) :=
  return (← get).trailingCommas.lookup start

/-! ### Tokens of more than one form -/

/-- The text of a template literal that starts at an offset, with its delimiter, and whether the
literal ends there. `start` is where the literal starts. Bad escapes are only faults in a literal
that stands on its own. -/
def templateChunk (isTagged : Bool) (start offset : Nat) (t : List Char) :
    Parser (List Piece × Bool) := do
  match readTemplateChunk? t with
  | none =>
    moveTo ⟨start, offset + byteLength t⟩ ⟨false, false⟩ []
    throw ⟨.openTemplate, start⟩
  | some chunk =>
    moveTo ⟨start, offset + byteLength (upTo t chunk.rest)⟩
      ⟨!chunk.isLast, true⟩ chunk.rest
    if let some f := chunk.fault then
      unless isTagged do throw { f with offset := offset + f.offset }
    return ([.text (String.ofList (chunk.text ++ if chunk.isLast then ['\x60'] else ['$', '{']))],
      chunk.isLast)

/-- A template literal with `code` in it, delimiters included. -/
def templateLayout (isTagged : Bool) (code : Parser (List Piece)) : Parser (List Piece) := do
  let opening ← lexemeHere
  let start := opening.span.start
  let (first, ends) ← templateChunk isTagged start opening.span.stop opening.after
  iterate (fun ((parts, ends) : List Piece × Bool) => do
    if ends then return .inr parts
    let inner ← inContext Context.inBrackets code
    let closer ← lexemeHere
    unless closer.token = .punctuator "\x7d" do
      failHere (.expected "\x7d" closer.token.spelling)
    let (next, ends) ← templateChunk isTagged start closer.span.stop closer.after
    return .inl (parts ++ inner ++ .text "\x7d" :: next, ends)) (.text "\x60" :: first, ends)

/-- Makes the first of several angle brackets written together a token of its own. -/
def splitAngle (bracket : Char) : Parser Unit := do
  let current := (← get).current
  match current.token with
  | .punctuator p =>
    if 1 < p.length && p.toList.head? = some bracket then
      let start := current.span.start
      modify fun cursor => { cursor with current := { current with
        token := .punctuator (String.ofList [bracket]), span := ⟨start, start + 1⟩
        after := current.here.drop 1 } }
  | _ => return

/-- Makes the first of several closing angle brackets written together a token of its own. -/
def splitCloser : Parser Unit :=
  splitAngle '>'

end SvelteStories.Script

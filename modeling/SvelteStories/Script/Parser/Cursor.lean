/-
The parser's place in a script:

* `Cursor`: the current token, the one before it, and the faults noted so far;
* `Parser`: a computation that moves the cursor or fails;
* `advance`, `eat`, `expect`, `peek`, `attempt`, `iterate`: its steps.

A fault that lets the parser go on is noted; the first one counts if nothing worse happens.
-/
import SvelteStories.Script.Parser.Context

namespace SvelteStories.Script

/-- The place of a parser. -/
structure Cursor where
  /-- The current token. -/
  current : Lexeme
  /-- The place of the token before it. -/
  last : Span
  /-- The faults that have been noted, first one first. -/
  faults : List SyntaxFault
  /-- Where literals and parentheses start that have a comma before their end, and the comma. -/
  trailingCommas : List (Nat × Nat)

/-- A computation that moves the cursor or fails. -/
abbrev Parser := ReaderT Context (EStateM SyntaxFault Cursor)

/-- Runs a parser in another context. -/
def inContext {α : Type} (change : Context → Context) (p : Parser α) : Parser α :=
  withReader change p

/-! ### Looking -/

/-- The current token with its place. -/
def lexemeHere : Parser Lexeme :=
  return (← get).current

/-- The current token. -/
def tokenHere : Parser Token :=
  return (← get).current.token

/-- Where the current token starts; behind the token before once the text has ended. -/
def offsetHere : Parser Nat := do
  let cursor ← get
  return if cursor.current.token = .stop then cursor.last.stop else cursor.current.span.start

/-- Whether the current token is this punctuation. -/
def isAt (p : String) : Parser Bool :=
  return (← tokenHere) = .punctuator p

/-- Whether the current token is one of these. -/
def isAtOneOf (ps : List String) : Parser Bool :=
  return (← tokenHere).isOneOf ps

/-- Whether the current token is this word. -/
def isAtWord (w : String) : Parser Bool :=
  return (← tokenHere) = .word w

/-- Whether the current token is one of these words. -/
def isAtOneOfWords (ws : List String) : Parser Bool := do
  match ← tokenHere with
  | .word w => return ws.contains w
  | _ => return false

/-- Whether the current token is a word of any kind. -/
def isAtAnyWord : Parser Bool :=
  return (← tokenHere).isWord

/-- Whether the text ends here. -/
def isAtEnd : Parser Bool :=
  return (← tokenHere) = .stop

/-- Whether a line break stands before the current token. -/
def isOnNewLine : Parser Bool :=
  return (← get).current.newline

/-- Whether types may be written. -/
def isTyped : Parser Bool :=
  return (← read).dialect.isTyped

/-- Whether a statement may end here without a semicolon of its own. -/
def isAtTerminator : Parser Bool := do
  let current := (← get).current
  return current.newline || current.token = .punctuator ";" || current.token = .punctuator "\x7d"
    || current.token = .stop

/-- The place from an offset to the end of the token before. -/
def spanFrom (start : Nat) : Parser Span :=
  return ⟨start, (← get).last.stop⟩

/-! ### Moving -/

/-- Moves on to the token that a text starts with. `last` is the place of what has been read. -/
def moveTo (last : Span) (before : Trailing) (t : List Char) : Parser Unit := do
  let c ← read
  let next := lexeme c.lexMode before false last.stop t
  modify fun cursor =>
    { cursor with
      current := next
      last := last
      faults := if c.isQuiet then cursor.faults else cursor.faults ++ next.faults }

/-- Moves on behind the current token and gives it back. -/
def advance : Parser Lexeme := do
  let current := (← get).current
  moveTo current.span current.token.trailing current.after
  return current

/-- Moves on behind the current token. -/
def skip : Parser Unit := do
  let _ ← advance

/-- The token behind the current one. -/
def peek : Parser Lexeme := do
  let current := (← get).current
  return lexeme (← read).lexMode current.token.trailing false current.span.stop current.after

/-- Whether the token behind the current one satisfies a test. -/
def isFollowedBy (test : Lexeme → Bool) : Parser Bool :=
  return test (← peek)

/-! ### Failing -/

/-- Notes a fault, unless the place is only tried. -/
def note (f : SyntaxFault) : Parser Unit := do
  unless (← read).isQuiet do
    modify fun cursor => { cursor with faults := cursor.faults ++ [f] }

/-- Notes a fault at an offset. -/
def noteAt (cause : SyntaxCause) (offset : Nat) : Parser Unit :=
  note ⟨cause, offset⟩

/-- Notes a fault at an offset that only counts in strict code. -/
def noteStrict (cause : SyntaxCause) (offset : Nat) : Parser Unit := do
  if (← read).isStrict then noteAt cause offset

/-- Where faults at the current token are reported: at its start, and at the start of the token
before once the text has ended. -/
def faultOffset : Parser Nat := do
  let cursor ← get
  return if cursor.current.token = .stop then cursor.last.start else cursor.current.span.start

/-- Fails at an offset. Text at the cursor that is no token is a fault of its own. -/
def failAt {α : Type} (cause : SyntaxCause) (offset : Nat) : Parser α := do
  if let .fault f ← tokenHere then
    note f
    skip
  throw ⟨cause, offset⟩

/-- Fails at the current token. -/
def failHere {α : Type} (cause : SyntaxCause) : Parser α := do
  failAt cause (← faultOffset)

/-- Fails at the current token, which stands where something else has to. -/
def failUnexpected {α : Type} (wanted : String) : Parser α := do
  failHere (.unexpectedToken (← tokenHere).spelling wanted)

/-- Fails if the text ends here or goes on with no token. -/
def requireToken : Parser Unit := do
  match ← tokenHere with
  | .stop => throw ⟨.unexpectedEnd, (← get).current.span.stop⟩
  | .fault f =>
    skip
    throw f
  | _ => return

/-! ### Single tokens -/

/-- Moves on behind this punctuation, if it is here. -/
def eat (p : String) : Parser Bool := do
  if ← isAt p then
    skip
    return true
  return false

/-- Moves on behind this word, if it is here. -/
def eatWord (w : String) : Parser Bool := do
  if ← isAtWord w then
    skip
    return true
  return false

/-- Moves on behind this punctuation, or fails. -/
def expect (p : String) : Parser Unit := do
  unless ← eat p do
    failHere (.expected p (← tokenHere).spelling)

/-- Moves on behind this word, or fails. -/
def expectWord (w : String) : Parser Unit := do
  unless ← eatWord w do
    failHere (.expected w (← tokenHere).spelling)

/-- Ends a statement by its semicolon or by what may stand for one, if it does end. -/
def eatTerminator : Parser Bool := do
  if ← eat ";" then return true
  isAtTerminator

/-- Ends a statement, or fails. -/
def expectTerminator : Parser Unit := do
  unless ← eatTerminator do
    failHere (.expected ";" (← tokenHere).spelling)

/-! ### Combining -/

/-- Runs a parser on trial, and takes everything back if it fails or finds nothing. -/
def attempt {α : Type} (p : Parser (Option α)) : Parser (Option α) := do
  let before ← get
  let found ← tryCatch (inContext (fun c => { c with isQuiet := true }) p) fun _ => return none
  if found.isNone then set before
  return found

/-- What a parser gives, without moving. Faults are not noted; failing counts as `otherwise`. -/
def lookAhead {α : Type} (otherwise : α) (p : Parser α) : Parser α := do
  let before ← get
  let found ← tryCatch (inContext (fun c => { c with isQuiet := true }) p) fun _ =>
    return otherwise
  set before
  return found

/-- Repeats a step until it yields a result. The budget suffices for a step that always moves
on. -/
def iterate {σ α : Type} (step : σ → Parser (σ ⊕ α)) (s : σ) : Parser α := do
  go (← read).budget s
where
  /-- At most so many steps. -/
  go : Nat → σ → Parser α
    | 0, _ => do throw ⟨.unexpectedEnd, (← get).current.span.stop⟩
    | n + 1, s => do
      match ← step s with
      | .inl s => go n s
      | .inr a => return a

/-- Runs a parser on a text that starts at an offset, and moves nowhere in case of a fault. -/
def Parser.run {α : Type} (p : Parser α) (dialect : Dialect) (offset : Nat) (t : List Char) :
    Except SyntaxFault α :=
  let context := Context.top dialect (t.length + 2)
  let first := lexeme context.lexMode ⟨false, false⟩ true offset t
  match ReaderT.run p context |>.run ⟨first, ⟨offset, offset⟩, first.faults, []⟩ with
  | .ok a cursor =>
    match cursor.faults with
    | [] => .ok a
    | f :: _ => .error f
  | .error f _ => .error f

end SvelteStories.Script

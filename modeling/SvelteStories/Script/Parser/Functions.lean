/-
Functions of scripts:

* `itemsToBrace`, `readBlock`, `readBody`: statements in braces;
* `readFunctionParts`, `readFunction`: what follows the name of a function, and a function with its
  keyword;
* `arrowBody`, `finishArrow`: arrow functions behind their parameters.
-/
import SvelteStories.Script.Parser.Targets

namespace SvelteStories.Script

/-! ### Blocks -/

/-- Items up to a closing brace. That the text ends before it is noted. -/
def itemsToBrace {α : Type} (item : Parser α) : Parser (List α) :=
  iterate (fun (found : List α) => do
    if ← eat "\x7d" then return .inr found.reverse
    if ← isAtEnd then
      noteAt (.expected "\x7d" Token.stop.spelling) (← faultOffset)
      return .inr found.reverse
    return .inl ((← item) :: found)) []

/-- Statements in braces. -/
def readBlock (g : Grammar) : Parser (List Statement) := do
  expect "\x7b"
  itemsToBrace (g.statement true)

/-- Whether a statement is the directive that makes code strict. -/
def Statement.isStrictDirective : Statement → Bool
  | .expression _ (.literal _ (.string _ raw)) => raw = "'use strict'" || raw = "\"use strict\""
  | _ => false

/-- Statements in braces of which the first one may make the others strict. Only parameters that are
all names leave it that choice. -/
def readBody (g : Grammar) (parameters : List Parameter) : Parser (List Statement) := do
  expect "\x7b"
  if (← isAt "\x7d") || (← isAtEnd) then return ← itemsToBrace (g.statement true)
  let first ← g.statement true
  let isDirective := first.isStrictDirective
  let others ← inContext (fun c => { c with isStrict := c.isStrict || isDirective }) do
    itemsToBrace (g.statement true)
  unless parameters.all (fun p => p.target matches .identifier _ _ _) do
    if isDirective then noteAt .strictDirective first.span.start
  return first :: others

/-- The body of a function, unless what is implemented elsewhere has one. -/
def noteAmbientBody : Parser Unit := do
  let c ← read
  if c.isAmbient && c.dialect.isTyped && (← isAt "\x7b") then
    noteAt .ambientBody (← offsetHere)

/-! ### Functions -/

/-- The defaults of parameters, which a function without a body cannot have. -/
def noteDefaults (parameters : List Parameter) : Parser Unit :=
  parameters.forM fun p => do
    if let .withDefault span _ _ := p.target then noteAt .defaultInSignature span.start

/-- Type parameters, if types may be written and there are any. -/
def ownTypeParameters (g : Grammar) (inTypes : Bool) : Parser (List Piece) := do
  if ← isTyped then typeParameters? g inTypes true else return []

/-- The body of a function with a keyword or a key. With types, it may be missing. -/
def functionBody? (g : Grammar) (isAsync isGenerator : Bool) (parameters : List Parameter) :
    Parser (Option (List Statement)) := do
  noteAmbientBody
  inContext (fun c => (c.inFunctionBody isAsync isGenerator false).withIn) do
    let isMissing ← if ← isTyped then pure !(← isAt "\x7b") else pure false
    if isMissing then
      if ← eatTerminator then return none
    return some (← readBody g parameters)

/-- What follows the name of a function. `check` looks at its parameters. -/
def readFunctionParts (g : Grammar) (isAsync isGenerator : Bool)
    (check : List Parameter → Parser Unit) : Parser FunctionParts :=
  inContext (fun c => { c with inAsync := isAsync, inGenerator := isGenerator }) do
    let types ← ownTypeParameters g false
    expect "("
    let parameters ← inContext (fun c => c.inParameterList isAsync isGenerator) do
      let parameters ← g.parameters
      check parameters
      return parameters
    expect ")"
    let result ← if ← isTyped then resultType? g else pure []
    let body ← functionBody? g isAsync isGenerator parameters
    if body.isNone then noteDefaults parameters
    return ⟨types, parameters, result, body.map blockLayout⟩

/-- All parameters are fine. -/
def anyParameters : List Parameter → Parser Unit :=
  fun _ => return

/-- Whether a parameter is one of the function's own, and not the value that it is called on. -/
def Parameter.isOwn (p : Parameter) : Bool :=
  match p.target with
  | .identifier _ name _ => name != "this"
  | _ => true

/-- Notes the parameters of a getter, whose key starts at an offset. -/
def checkGetter (offset : Nat) (parameters : List Parameter) : Parser Unit := do
  if parameters.any Parameter.isOwn then noteAt .getterParameters offset

/-- Notes what is wrong with the parameters of a setter, whose key starts at an offset. -/
def checkSetter (offset : Nat) (parameters : List Parameter) : Parser Unit := do
  unless (parameters.filter Parameter.isOwn).length = 1 do noteAt .setterParameters offset
  if let some p := parameters.head? then
    if let .rest span _ _ := p.target then noteAt .restInSetter span.start

/-- A function with its keyword. -/
structure NamedFunction where
  /-- Its name. -/
  name : Option String
  /-- Its layout. -/
  parts : List Piece
  /-- Whether it has a body. -/
  hasBody : Bool

/-- Whether a function has to have a name. -/
inductive NameDuty
  /-- It has to, and the name belongs to the place around it. -/
  | required
  /-- It may do without, and the name belongs to the place around it. -/
  | optional
  /-- It may do without, and the name is its own. -/
  | own
deriving DecidableEq, Repr

/-- The name of a function or a class, if there is one. -/
def optionalName (take : Parser String) : Parser (Option String) := do
  let isNamed ← if ← isAtName then pure true
    else if ← isTyped then isAtWord "this"
    else pure false
  if isNamed then return some (← take)
  return none

/-- A function, from its keyword on. -/
def readFunction (g : Grammar) (duty : NameDuty) : Parser NamedFunction := do
  let isAsync ← eatWord "async"
  expectWord "function"
  let isGenerator ← eat "*"
  let name ← inContext Context.inKeywordFunction do
    match duty with
    | .required => pure (some (← takeBoundName))
    | .optional => optionalName takeBoundName
    | .own =>
      inContext (fun c => { c with inAsync := isAsync, inGenerator := isGenerator })
        (optionalName takeBoundName)
  let parts ← inContext Context.inKeywordFunction do
    readFunctionParts g isAsync isGenerator anyParameters
  return ⟨name, functionLayout isAsync isGenerator name parts, parts.body.isSome⟩

/-- Whether a function starts here with its keyword. -/
def isAtFunction : Parser Bool := do
  if ← isAtWord "function" then return true
  if ← isAtWord "async" then
    isFollowedBy fun l => l.token = .word "function" && !l.newline
  else return false

/-! ### Arrow functions -/

/-- The body of an arrow function: statements in braces, or an expression. -/
def arrowBody (g : Grammar) (isAsync : Bool) (parameters : List Parameter) : Parser ArrowBody := do
  noteAmbientBody
  inContext (fun c => c.inFunctionBody isAsync false true) do
    if ← isAt "\x7b" then
      return .statements (← inContext Context.withIn (readBody g parameters))
    return .expression (← g.assignment)

/-- An arrow function behind its arrow. -/
def finishArrow (g : Grammar) (start : Nat) (isAsync : Bool) (head : FunctionParts) :
    Parser Expr := do
  let body ← arrowBody g isAsync head.parameters
  return .arrow (← spanFrom start) (arrowLayout isAsync head body)

/-- The parameter of an arrow function that is a name without parentheses. -/
def nameParameter (span : Span) (name : String) : FunctionParts :=
  ⟨[], [⟨span.start, "", .identifier span name []⟩], [], none⟩

/-- Type parameters, parameters and result of an arrow function, up to and including the arrow. -/
def arrowHead (g : Grammar) (types : List Piece) : Parser FunctionParts := do
  expect "("
  let parameters ← g.parameters
  expect ")"
  let result ← resultType? g
  expect "=>"
  return ⟨types, parameters, result, none⟩

end SvelteStories.Script

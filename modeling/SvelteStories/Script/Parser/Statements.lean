/-
Statements of scripts:

* `readFor`: loops with a head;
* `readSwitch`, `readTry`, `readReturn`, `readJump` and their companions: the statements with a
  keyword;
* `readExpressionStatement`: expressions, labels, and declarations that start with a name;
* `readStatement`: a statement.
-/
import SvelteStories.Script.Parser.Declarations

namespace SvelteStories.Script

/-! ### Parts of statements -/

/-- An expression, commas included, in which `in` is an operator. -/
def wholeExpression (g : Grammar) : Parser Expr :=
  inContext Context.withIn g.expression

/-- A condition in parentheses. -/
def readCondition (g : Grammar) : Parser Expr := do
  expect "("
  let test ← wholeExpression g
  expect ")"
  return test

/-- The body of a loop. -/
def loopBody (g : Grammar) : Parser Statement :=
  inContext Context.inLoopBody (g.statement false)

/-! ### Loops with a head -/

/-- What the head of a loop says. -/
inductive LoopHead
  /-- How it starts, when it goes on, and what is done between two rounds. -/
  | counted (start test step : List Piece)
  /-- Which keys it goes over. -/
  | keys (target : List Piece) (value : Expr)
  /-- Which elements it goes over. -/
  | elements (target : List Piece) (value : Expr)

/-- The head of a loop over keys or elements, from its word on. -/
def eachHead (g : Grammar) (target : List Piece) : Parser LoopHead := do
  if ← eatWord "of" then return .elements target (← bracketed g)
  skip
  return .keys target (← wholeExpression g)

/-- The head of a loop that counts, behind its first clause. -/
def countedHead (g : Grammar) (start : List Piece) : Parser LoopHead := do
  let test ← if ← eat ";" then pure [] else do
    let test ← wholeExpression g
    expect ";"
    pure [Piece.expr test]
  let step ← if ← isAt ")" then pure [] else pure [Piece.expr (← wholeExpression g)]
  return .counted start test step

/-- What is said about the type of a pattern. -/
def Pattern.typing : Pattern → List Piece
  | .identifier _ _ said | .array _ _ said | .rest _ _ said => said
  | .object o => o.typing
  | .withDefault _ _ _ | .target _ => []

/-- Notes what is wrong with the variables of a loop over keys or elements. -/
def checkLoopVariables (d : VariableDeclaration) : Parser Unit := do
  match d.declarators with
  | [v] =>
    let start := v.target.span.start
    let refusesValue ← if (← read).isStrict then pure true else isAtWord "of"
    if refusesValue && v.init.isSome then noteAt .loopVariableValue start
    if !v.target.typing.isEmpty && (← isTyped) then noteAt .loopVariableType start
  | vs => (vs.drop 1).forM fun v => noteAt .manyLoopVariables v.target.span.start

/-- The head of a loop that starts with an expression. -/
def expressionHead (g : Grammar) : Parser LoopHead := do
  let first ← inContext (fun c => { c with inOperator := false }) g.expression
  unless ← isAtOneOfWords ["of", "in"] do
    expect ";"
    return ← countedHead g [.expr first]
  let target ← assignmentPattern first
  if (← isTyped) && (← isAtWord "in") then
    match target with
    | .object _ | .array _ _ _ => noteAt .loopVariablePattern target.span.start
    | _ => pure ()
  eachHead g [.pattern target]

/-- The head of a loop in its parentheses. -/
def readLoopHead (g : Grammar) : Parser LoopHead := do
  let isDeclaration ← if ← isAtOneOfWords ["const", "var"] then pure true else isAtLet
  if isDeclaration then
    let d ← inContext (fun c => { c with inOperator := false }) (readLoopVariables g)
    if ← isAtOneOfWords ["of", "in"] then
      checkLoopVariables d
      return ← eachHead g [.declaration d]
    expect ";"
    return ← countedHead g [.declaration d]
  if ← eat ";" then return ← countedHead g []
  expressionHead g

/-- A loop that starts with `for`. -/
def readFor (g : Grammar) : Parser (List Piece) := do
  expectWord "for"
  let wait ← takeWordAt? "await"
  expect "("
  let head ← inContext
    (fun c => { c with inLoopHead := true, inWaitingHead := wait.isSome }) (readLoopHead g)
  expect ")"
  let body ← loopBody g
  let refuseWait : Parser Unit := wait.forM fun span => failAt .awaitLoop span.start
  match head with
  | .counted start test step =>
    refuseWait
    return forLayout start test step body
  | .keys target value =>
    refuseWait
    return forInLayout target value body
  | .elements target value => return forOfLayout wait.isSome target value body

/-! ### Other statements with a keyword -/

/-- A condition with its branches. -/
def readIf (g : Grammar) : Parser (List Piece) := do
  expectWord "if"
  let test ← readCondition g
  let yes ← g.statement false
  let no ← if ← eatWord "else" then pure (some (← g.statement false)) else pure none
  return ifLayout test yes no

/-- The statements of a case. -/
def caseBody (g : Grammar) : Parser (List Statement) :=
  iterate (fun (found : List Statement) => do
    if (← isAt "\x7d") || (← isAtEnd) || (← isAtOneOfWords ["case", "default"]) then
      return .inr found.reverse
    return .inl ((← g.statement true) :: found)) []

/-- A choice between cases. -/
def readSwitch (g : Grammar) : Parser (List Piece) := do
  expectWord "switch"
  let value ← readCondition g
  expect "\x7b"
  let cases ← inContext (fun c => { c with mayBreak := true }) do
    iterate (fun ((found, hasDefault) : List (List Piece) × Bool) => do
      if ← eatWord "case" then
        let test ← wholeExpression g
        expect ":"
        return .inl (caseLayout (some test) (← caseBody g) :: found, hasDefault)
      if ← eatWord "default" then
        if hasDefault then failHere .secondDefault
        expect ":"
        return .inl (caseLayout none (← caseBody g) :: found, true)
      return .inr found.reverse) ([], false)
  expect "\x7d"
  return switchLayout value cases

/-- What catches a failure, if there is something. -/
def readCatch? (g : Grammar) : Parser (Option (Option Pattern × List Statement)) := do
  unless ← eatWord "catch" do return none
  let parameter ← if ← eat "(" then do
      let target ← g.pattern
      let typing ← annotation? g
      expect ")"
      pure (some (target.withTyping typing))
    else pure none
  return some (parameter, ← readBlock g)

/-- What is done in any case, if there is something. -/
def readFinally? (g : Grammar) : Parser (Option (List Statement)) := do
  if ← eatWord "finally" then return some (← readBlock g) else return none

/-- A block with what catches its failures and what ends it. That it has neither is noted. -/
def readTry (g : Grammar) : Parser (List Piece) := do
  expectWord "try"
  let body ← readBlock g
  let afterBody ← offsetHere
  let handler ← readCatch? g
  let finalizer ← readFinally? g
  if handler.isNone && finalizer.isNone then noteAt .semicolonExpected afterBody
  return tryLayout body handler finalizer

/-- A handler with no block before it, which is noted and passed over. -/
def readLoneHandler (g : Grammar) : Parser (List Piece) := do
  noteAt .semicolonExpected (← offsetHere)
  tryCatch (do let _ ← readCatch? g) fun _ => return
  tryCatch (do let _ ← readFinally? g) fun _ => return
  return []

/-- A word that leaves a function, with a value or without. -/
def readReturn (g : Grammar) : Parser (List Piece) := do
  let start ← offsetHere
  expectWord "return"
  let value ← if ← isAtTerminator then pure none else pure (some (← wholeExpression g))
  expectTerminator
  unless (← read).inFunction do noteAt .returnOutside start
  return valueLayout "return" value

/-- A word that raises a failure, which stands on the same line. -/
def readThrow (g : Grammar) : Parser (List Piece) := do
  expectWord "throw"
  if ← isOnNewLine then failHere .lineBreakAfterThrow
  let value ← wholeExpression g
  expectTerminator
  return valueLayout "throw" (some value)

/-- Notes what is wrong with leaving a loop or a round of it. -/
def checkJump (isBreak : Bool) (label : Option String) (start : Nat) : Parser Unit := do
  let c ← read
  let isUnknown := label.any fun name => !c.labels.contains name
  if isBreak then
    if isUnknown then noteAt .breakLabel start
    else unless c.mayBreak do noteAt .breakOutside start
  else unless c.mayContinue do noteAt .continueOutside start
  if !isBreak && c.mayContinue && isUnknown then noteAt .continueLabel start

/-- A word that leaves a loop or a round of it, and the label of the loop, if it has one. -/
def readJump : Parser (List Piece) := do
  let start ← offsetHere
  let keyword ← takeWord
  let label ← if ← eatTerminator then pure none
    else do
      let label ← takeName true true
      expectTerminator
      pure (some label)
  checkJump (keyword = "break") label start
  return [.text (keyword ++ (label.map (" " ++ ·)).getD "" ++ ";")]

/-- Statements under a value whose members count as names. -/
def readWith (g : Grammar) : Parser (List Piece) := do
  let start ← offsetHere
  if ← isTyped then noteAt .withTypes start
  noteStrict .withStrict start
  skip
  let value ← readCondition g
  let body ← inContext (fun c => { c with inFunction := true }) (g.statement false)
  return [.text "with(", .expr value, .text ")", .statement body]

/-- A loop that tests in front of its body. -/
def readWhile (g : Grammar) : Parser (List Piece) := do
  expectWord "while"
  let test ← readCondition g
  return whileLayout test (← loopBody g)

/-- A loop that tests behind its body. -/
def readDoWhile (g : Grammar) : Parser Statement := do
  let start ← offsetHere
  expectWord "do"
  let body ← loopBody g
  expectWord "while"
  let test ← readCondition g
  let _ ← eatTerminator
  return .doWhile (← spanFrom start) body test

/-! ### Labels and expressions -/

/-- A labelled statement behind its label. -/
def readLabelled (g : Grammar) (start : Nat) (label : String) : Parser Statement := do
  let isRepeated := (← read).labels.contains label
  inContext (fun c => { c with mayBreak := true, labels := label :: c.labels }) do
    let offset ← offsetHere
    let body ← if ← isAtWord "function" then do
        let isGenerator ← isFollowedBy (·.token = .punctuator "*")
        let f ← readFunctionDeclaration g
        noteStrict .labelledFunction offset
        if isGenerator then noteAt .labelledGenerator offset
        pure f
      else g.statement false
    if isRepeated then noteAt (.repeatedLabel label) start
    return .compound (← spanFrom start) [.text (label ++ ": "), .statement body]

/-- A declaration that starts with a name that has been read, if types may be written and there is
one. -/
def declarationBehind? (g : Grammar) (start : Nat) (name : String) :
    Parser (Option Statement) := do
  unless ← isTyped do return none
  match name with
  | "declare" => readDeclared? g start
  | "global" =>
    unless ← isAt "\x7b" do return none
    return some (← laidOut start do return .text "global" :: (← namespaceBody g))
  | _ => typedDeclaration? g start name false

/-- What a name that stands for a statement turns out to be, if it is no expression. -/
def nameStatement? (g : Grammar) (start : Nat) (name : String) : Parser (Option Statement) := do
  if ← eat ":" then return some (← readLabelled g start name)
  if let some s ← declarationBehind? g start name then return some s
  if name = "enum" || name = "interface" then noteStrict (.reservedName name) start
  let isModifier := ["public", "static", "abstract"].contains name
  if (← isTyped) && isModifier then
    if ← eatWord "interface" then
      noteAt .builtInName start
      return some (← laidOut start (readInterface g))
  return none

/-- An expression that stands for a statement, or what starts like one. An operator behind it is
noted as a missing end. -/
def readExpressionStatement (g : Grammar) : Parser Statement := do
  let start ← offsetHere
  let value ← wholeExpression g
  if let .identifier _ name := value then
    if let some s ← nameStatement? g start name then return s
  if ← eatTerminator then return .expression (← spanFrom start) value
  unless (← tokenHere).isBinaryOperator do failHere .terminatorExpected
  noteAt .semicolonExpected (← offsetHere)
  let value ← g.binaryRest 0 value
  return .expression (← spanFrom start) value

/-- Whether an import or export starts here. -/
def isAtModuleItem : Parser Bool :=
  isAtOneOfWords ["import", "export"]

/-- Whether an expression starts here with the keyword of imports. -/
def isAtImportExpression : Parser Bool := do
  if ← isAtWord "import" then isFollowedBy (·.token.isOneOf ["(", "."]) else return false

/-- An expression that starts with the keyword of imports and stands for a statement. -/
def readImportStatement (g : Grammar) : Parser Statement := do
  let start ← offsetHere
  let value ← g.expression
  let _ ← eatTerminator
  return .expression (← spanFrom start) value

/-- Whether managed resources are declared here, behind `await` or not. -/
def isAtResources : Parser Bool := do
  if ← isAtWord "using" then return ← isBeforeName
  unless ← isAtWord "await" do return false
  lookAhead false do
    skip
    if ← isAtWord "using" then isBeforeName else return false

/-- A declaration of managed resources. -/
def readResourceDeclaration (g : Grammar) : Parser Statement := do
  let start ← offsetHere
  if ← eatWord "await" then readResources g start "await using"
  else readResources g start "using"

/-! ### Statements -/

/-- A statement by the keyword that it starts with, if it starts with one. -/
def keywordStatement? (g : Grammar) (mayDeclare : Bool) (start : Nat) (word : String) :
    Parser (Option Statement) := do
  let refuseDeclaration : Parser Unit := do
    unless mayDeclare do noteAt .declarationNotAllowed start
  let laid (p : Parser (List Piece)) : Parser (Option Statement) := some <$> laidOut start p
  match word with
  | "break" | "continue" => laid readJump
  | "debugger" => laid do
      skip
      expectTerminator
      return [.text "debugger;"]
  | "do" => some <$> readDoWhile g
  | "for" => laid (readFor g)
  | "function" =>
    refuseDeclaration
    some <$> readFunctionDeclaration g
  | "class" =>
    refuseDeclaration
    some <$> readClassDeclaration g start false
  | "if" => laid (readIf g)
  | "return" => laid (readReturn g)
  | "switch" => laid (readSwitch g)
  | "throw" => laid (readThrow g)
  | "catch" | "finally" => laid (readLoneHandler g)
  | "try" => laid (readTry g)
  | "with" => laid (readWith g)
  | "while" => laid (readWhile g)
  | "var" => return some (.variables (← readVariables g))
  | "const" => if mayDeclare then return some (.variables (← readVariables g)) else return none
  | "let" =>
    if mayDeclare && (← isAtLet) then return some (.variables (← readVariables g))
    else return none
  | "using" | "await" =>
    if mayDeclare && (← isAtResources) then some <$> readResourceDeclaration g else return none
  | "interface" | "type" | "enum" =>
    if (← isTyped) && (← isBeforeName) then
      typedDeclaration? g start word true
    else return none
  | "async" => if ← isAtFunction then some <$> readFunctionDeclaration g else return none
  | _ => return none

/-- A statement. `mayDeclare` tells whether it may be a declaration of any kind. -/
def readStatement (g : Grammar) (mayDeclare : Bool) : Parser Statement :=
  inContext (fun c => { c with beforeColon := false }) do
    if ← isAtImportExpression then return ← readImportStatement g
    if ← isAtModuleItem then failHere .moduleItemInStatement
    let start ← offsetHere
    if (← isTyped) && (← isAtConstEnum) then
      skip
      skip
      return ← laidOut start (readEnum g true)
    requireToken
    match ← tokenHere with
    | .punctuator "\x7b" =>
      let body ← readBlock g
      return .block (← spanFrom start) body
    | .punctuator ";" =>
      skip
      return .compound (← spanFrom start) [.text ";"]
    | .word word =>
      match ← keywordStatement? g mayDeclare start word with
      | some s => return s
      | none => readExpressionStatement g
    | _ => readExpressionStatement g

end SvelteStories.Script

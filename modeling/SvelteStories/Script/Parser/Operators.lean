/-
Operators, and expressions as a whole:

* `readUnary`: operators in front of and behind one operand;
* `operatorStrength`, `readBinaryRest`, `readBinary`: operators between two operands;
* `readConditional`: choices;
* `readAssignment`, `readExpression`: assignments, and expressions with commas between them.
-/
import SvelteStories.Script.Parser.Operands

namespace SvelteStories.Script

/-! ### Operators of one operand -/

/-- Operators in front of their operand that are punctuation. -/
def signOperators : List String := ["+", "-", "~", "!"]

/-- Operators in front of their operand that are words. -/
def wordOperators : List String := ["delete", "void", "typeof"]

/-- An expression without the parentheses around it. -/
def Expr.unwrapped : Expr → Expr
  | .paren _ inner => inner.unwrapped
  | e => e

/-- Whether an expression is something that can be deleted. -/
def Expr.isDeletable : Expr → Bool
  | .member _ _ _ => true
  | .compound _ form _ => form = .optionalMember
  | _ => false

/-- Notes what is wrong with a deleted value. -/
def checkDeleted (e : Expr) : Parser Unit := do
  if let .identifier span _ := e then noteStrict .deletedName span.start
  if ← isTyped then
    unless e.unwrapped.isDeletable do noteAt .deletedValue e.unwrapped.span.start

/-- An operator in front of its operand. A fault in the operand is noted, and the operator stands
alone then. -/
def readPrefix (g : Grammar) (operator : String) : Parser Expr := do
  let l ← advance
  -- two signs of one kind are kept apart
  let apart ← match ← tokenHere with
    | .punctuator q => pure (operator != "!" && operator != "~" && q.startsWith operator)
    | _ => pure (wordOperators.contains operator)
  let operand ← tryCatch (do return some (← g.unary)) fun f => do
    note f
    return none
  if operator = "delete" then operand.forM checkDeleted
  return .compound (← spanFrom l.span.start) .unary
    (.text (if apart || wordOperators.contains operator then operator ++ " " else operator)
      :: (operand.map Piece.expr).toList)

/-- A value that is waited for, or the name `await`. -/
def readAwait (g : Grammar) : Parser Expr := do
  let l ← advance
  let start := l.span.start
  let c ← read
  if ← isAt "*" then failHere .awaitStar
  let isName ← if c.inAsync then pure false
    else if ← isAtTerminator then pure true
    else isAtOneOf [")", "]", ","]
  if isName then
    if c.dialect.isModule then noteAt .awaitName start
    return .identifier l.span "await"
  if !c.inFunction && !c.dialect.isModule then noteAt .awaitOutside start
  if c.inFunction && !c.inAsync then noteAt .awaitInFunction start
  if c.inParameters && !c.inFunction then noteAt .awaitInParameters start
  let value ← g.unary
  return .compound (← spanFrom start) .await [.text "await ", .expr value]

/-- A type in angle brackets and the value that it is stated for. A constant has no type. -/
def readCast (g : Grammar) : Parser Expr := do
  let start ← offsetHere
  expect "<"
  if ← eatWord "const" then
    splitCloser
    expect ">"
    let value ← g.unary
    return .annotated (← spanFrom start) .constant [] value [.text " as const"]
  let type ← g.type
  splitCloser
  expect ">"
  let value ← g.unary
  return .annotated (← spanFrom start) .cast (.text "<" :: type ++ [Piece.text ">"]) value []

/-- A value that is counted up or down in front of itself. -/
def readPrefixUpdate (g : Grammar) (operator : String) : Parser Expr := do
  let l ← advance
  let value ← g.unary
  noteTarget false value
  return .compound (← spanFrom l.span.start) .update [.text operator, .expr value]

/-- A value, and what counts it up or down behind itself. -/
def readPostfix (g : Grammar) : Parser Expr := do
  let value ← g.operand
  if value.isArrow || (← isOnNewLine) then return value
  match ← tokenHere with
  | .punctuator p =>
    unless p = "++" || p = "--" do return value
    noteTarget false value
    skip
    return .compound (← spanFrom value.span.start) .update [.expr value, .text p]
  | _ => return value

/-- An operand with the operators in front of it and behind it. -/
def readUnary (g : Grammar) : Parser Expr := do
  match ← tokenHere with
  | .punctuator p =>
    if p = "<" && (← isTyped) then readCast g
    else if p = "++" || p = "--" then readPrefixUpdate g p
    else if signOperators.contains p then readPrefix g p
    else readPostfix g
  | .word w =>
    if wordOperators.contains w then readPrefix g w
    else if w = "await" then readAwait g
    else readPostfix g
  | _ => readPostfix g

/-! ### Operators between two operands -/

/-- How tightly an operator that is a word binds, and one of types. -/
def relationStrength : Nat := 7

/-- How tightly an operator between two operands binds. -/
def operatorStrength (inOperator : Bool) : Token → Option Nat
  | .punctuator p =>
    if p = "??" || p = "||" then some 1
    else if p = "&&" then some 2
    else if p = "|" then some 3
    else if p = "^" then some 4
    else if p = "&" then some 5
    else if ["==", "!=", "===", "!=="].contains p then some 6
    else if ["<", ">", "<=", ">="].contains p then some relationStrength
    else if ["<<", ">>", ">>>"].contains p then some 8
    else if p = "+" || p = "-" then some 9
    else if ["*", "/", "%"].contains p then some 10
    else if p = "**" then some 11
    else none
  | .word "instanceof" => some relationStrength
  | .word "in" => if inOperator then some relationStrength else none
  | _ => none

/-- The operator of an expression with two operands. -/
def Expr.operator? : Expr → Option String
  | .compound _ (.binary operator) _ => some operator
  | _ => none

/-- The operator of the left operand of an expression with two operands. -/
def Expr.leftOperator? : Expr → Option String
  | .compound _ (.binary _) (.expr left :: _) => left.operator?
  | _ => none

/-- Whether an expression is a logical one: a conjunction or an alternative. -/
def Expr.isLogical (e : Expr) : Bool :=
  e.operator? = some "&&" || e.operator? = some "||"

/-- Whether an operator for powers may not stand behind an expression. -/
def Expr.isNoBase : Expr → Bool
  | .compound _ form _ => form = .unary || form = .await
  | _ => false

/-- What is said about the type of a left operand, if something is. -/
def ascription? (g : Grammar) (left : Expr) : Parser (Option Expr) := do
  unless (← isTyped) && !(← isOnNewLine) do return none
  let span : Parser Span := spanFrom left.span.start
  if ← eatWord "as" then
    if ← eatWord "const" then
      return some (.annotated (← span) .constant [] left [.text " as const"])
    let type ← g.type
    return some (.annotated (← span) .ascribed [] left (.text " as " :: type))
  if ← eatWord "satisfies" then
    let type ← g.type
    return some (.annotated (← span) .satisfying [] left (.text " satisfies " :: type))
  return none

/-- An operator and its right operand behind a left one, if it binds more tightly than `above`. -/
def binaryStep (g : Grammar) (above : Nat) (left : Expr) : Parser (Option Expr) := do
  let token ← tokenHere
  let some strength := operatorStrength (← read).inOperator token | return none
  if strength ≤ above then return none
  skip
  let operator := token.spelling
  if operator = "**" && left.isNoBase then failHere .unaryInPower
  let first ← g.unary
  let right ← g.binaryRest (if operator = "**" then strength - 1 else strength) first
  if operator = "??" then
    for side in [left, right] do
      if side.isLogical then noteAt .mixedCoalescing side.span.start
  let value := Expr.compound ⟨left.span.start, right.span.stop⟩ (.binary operator)
    [.expr left, .text s!" {operator} ", .expr right]
  if value.isLogical && value.leftOperator? = some "??" then
    noteAt .mixedCoalescing value.span.start
  return some value

/-- The operators behind a left operand that bind more tightly than `above`. -/
def readBinaryRest (g : Grammar) (above : Nat) (left : Expr) : Parser Expr :=
  iterate (fun (left : Expr) => do
    if above < relationStrength then
      if let some value ← ascription? g left then return .inl value
    match ← binaryStep g above left with
    | some value => return .inl value
    | none => return .inr left) left

/-- The left operand where none can be read. An operator in its place is noted, and the operand is
missing then. -/
def missingOperand (f : SyntaxFault) : Parser Expr := do
  requireToken
  let token ← tokenHere
  let c ← read
  unless token.isBinaryOperator || token = .word "instanceof"
      || (token = .word "in" && c.inOperator) do throw f
  let start ← offsetHere
  noteAt .expressionExpected start
  return .compound ⟨start, start⟩ .missing []

/-- Operands and the operators between them. -/
def readBinary (g : Grammar) : Parser Expr := do
  let first ← tryCatch g.unary missingOperand
  if first.isArrow then return first
  g.binaryRest 0 first

/-! ### Expressions as a whole -/

/-- An expression with a choice at its end, if there is one. -/
def readConditional (g : Grammar) : Parser Expr := do
  let start ← offsetHere
  let test ← g.binary
  if test.isArrow then return test
  if ← eat "?" then choiceBranches g start test else return test

/-- A value handed out by a generator. -/
def readYield (g : Grammar) : Parser Expr := do
  let l ← advance
  let start := l.span.start
  let c ← read
  if c.inParameters && !c.inFunction then failAt .yieldInParameters start
  let isBare ← if ← isAtTerminator then pure true
    else if ← isAt "*" then pure false
    else pure !(← isAtExpression)
  if isBare then return .compound (← spanFrom start) .yield [.text "yield"]
  let all ← eat "*"
  let value ← g.assignment
  return .compound (← spanFrom start) .yield
    [.text (if all then "yield* " else "yield "), .expr value]

/-- An arrow function with type parameters, if one starts here. -/
def typedArrow? (g : Grammar) : Parser (Option Expr) := do
  unless (← isTyped) && (← isAt "<") && (← isFollowedBy (·.token.isWord)) do return none
  attempt do
    let start ← offsetHere
    let types ← typeParameters g false true
    let arrow ← g.assignment
    match arrow with
    | .arrow span parts => return some (.arrow ⟨start, span.stop⟩ (withTypeParameters types parts))
    | _ => return none
where
  /-- The layout of an arrow function with type parameters, which stand behind `async`. -/
  withTypeParameters (types : List Piece) : List Piece → List Piece
    | .text "async " :: parts => .text "async " :: types ++ parts
    | parts => types ++ parts

/-- Whether an expression cannot be assigned to, so that no assignment is looked for behind it. -/
def Expr.endsAssignment : Expr → Bool
  | .arrow _ _ => true
  | .compound _ form _ =>
    match form with
    | .conditional | .unary | .update | .binary _ => true
    | _ => false
  | _ => false

/-- Whether an arrow function may start with a token. -/
def Token.startsArrow : Token → Bool
  | .word w => !isKeyword w || w = "yield"
  | .punctuator p => p = "("
  | _ => false

/-- Fails at a regular expression that does not end. -/
def refuseOpenRegex : Parser Unit := do
  let l ← lexemeHere
  if l.token.isOneOf ["/", "/="] && (readRegex? l.here).isNone then
    throw ⟨.openRegex, l.span.start⟩

/-- An expression without commas. -/
def readAssignment (g : Grammar) : Parser Expr := do
  if let some arrow ← typedArrow? g then return arrow
  if (← read).inGenerator && (← isAtWord "yield") then return ← readYield g
  requireToken
  refuseOpenRegex
  let start ← offsetHere
  let arrowStart := if (← tokenHere).startsArrow then some start else none
  let value ← inContext (fun c => { c with arrowStart }) (readConditional g)
  if value.endsAssignment then return value
  finishAssignment g start value

/-- An expression, commas included. -/
def readExpression (g : Grammar) : Parser Expr := do
  let start ← offsetHere
  let first ← g.assignment
  unless ← isAt "," do return first
  let parts ← iterate (fun (parts : List (List Piece)) => do
    if ← eat "," then return .inl ([.expr (← g.assignment)] :: parts)
    return .inr parts.reverse) [[.expr first]]
  return .compound (← spanFrom start) .sequence (commaPieces parts)

end SvelteStories.Script

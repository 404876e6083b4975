/-
Members and calls:

* `readArguments`: the arguments of a call;
* `readTemplate`: template literals;
* `expressionTypes?`: type arguments within expressions;
* `chainLink`, `readChain`: members, calls and what else stands behind a value.
-/
import SvelteStories.Script.Parser.Functions

namespace SvelteStories.Script

/-! ### Arguments and templates -/

/-- An argument of a call. -/
def readArgument (g : Grammar) : Parser Argument := do
  if ← eat "..." then return .spread (← g.assignment)
  return .plain (← g.assignment)

/-- Arguments in parentheses. The source of a loaded module has no comma behind it, unless it may
say how the module is to be read. -/
def readArguments (g : Grammar) (isImport : Bool) : Parser (List Argument) :=
  inContext Context.inBrackets do
    let start ← offsetHere
    expect "("
    let found ← iterate (fun (found : List Argument) => do
      if (← isAt ")") || (← isAtEnd) then return .inr found.reverse
      unless found.isEmpty do
        expect ","
        if ← isAt ")" then
          if isImport && !(← isTyped) then failAt .commaInImport start
          return .inr found.reverse
      return .inl ((← readArgument g) :: found)) []
    expect ")"
    return found

/-- A template literal. -/
def readTemplate (g : Grammar) (isTagged : Bool) : Parser Expr := do
  let start := (← lexemeHere).span.start
  let parts ← templateLayout isTagged do return [.expr (← g.expression)]
  return .template (← spanFrom start) parts

/-! ### Type arguments -/

/-- Whether a token starts an expression. -/
def Context.startsExpression (c : Context) : Token → Bool
  | .string _ _ | .number _ _ | .bigint _ _ => true
  | .punctuator p =>
    ["\x60", "(", "[", "\x7b", "/", "/=", "+", "-", "~", "!", "++", "--", "<", "#"].contains p
  | .word w =>
    ["this", "super", "null", "true", "false", "function", "class", "new", "delete", "typeof",
      "void", "await", "yield"].contains w || !c.reserved w
  | .fault _ | .stop => false

/-- Whether an expression starts at the cursor. -/
def isAtExpression : Parser Bool := do
  if ← isAtWord "import" then
    return ← isFollowedBy (·.token.isOneOf ["(", "<", "."])
  return (← read).startsExpression (← tokenHere)

/-- Punctuation behind which angle brackets are no type arguments that stand alone. -/
def refusedBehindTypes : List String := ["<", ">", "+", "-", "(", "\x60"]

/-- Type arguments within an expression that are not those of a call. -/
def expressionTypes? (g : Grammar) : Parser (Option (List Piece)) := do
  unless (← isTyped) && (← isAt "<") do return none
  attempt do
    let types ← typeArguments g
    let token ← tokenHere
    if token.isOneOf refusedBehindTypes then return none
    if (← isOnNewLine) || token.isBinaryOperator || !(← isAtExpression) then return some types
    return none

/-- A value with type arguments, if there are any. -/
def withTypes (g : Grammar) (start : Nat) (value : Expr) : Parser Expr := do
  match ← expressionTypes? g with
  | some types => return .annotated (← spanFrom start) .instantiated [] value types
  | none => return value

/-! ### Links -/

/-- What a chain has become by one more link. -/
structure Link where
  /-- The value of the chain. -/
  value : Expr
  /-- Whether there may be more links. -/
  goesOn : Bool

/-- Whether an expression is an optional chain, marked as a value or not. -/
def Expr.continuesChain : Expr → Bool
  | .annotated _ .nonNull _ inner _ => inner.continuesChain
  | e => e.isChain

/-- Whether an expression is one of the words that only count with what stands behind them. -/
def Expr.isWordForm (form : Form) : Expr → Bool
  | .compound _ f _ => f = form
  | _ => false

/-- The layout of a member's name. -/
def memberKeyPieces : MemberKey → List Piece
  | .name name => [.text ("." ++ name)]
  | .privateName name => [.text (".#" ++ name)]
  | .computed key => [.text "[", .expr key, .text "]"]

/-- The layout of a member's name behind the mark of an optional chain. -/
def optionalKeyPieces : MemberKey → List Piece
  | .name name => [.text ("?." ++ name)]
  | .privateName name => [.text ("?.#" ++ name)]
  | .computed key => [.text "?.[", .expr key, .text "]"]

/-- A member of `super`. `offset` is where a misplaced one is reported. -/
def superMember (start offset : Nat) (isOptional calls : Bool) (key : MemberKey) :
    Parser Expr := do
  let c ← read
  unless c.mayUseSuper || c.dialect.isTyped do failAt .superOutside offset
  if isOptional then failAt (if calls then .superOutside else .superCall) start
  if let .privateName _ := key then failHere .privateSuper
  return .compound (← spanFrom start) .superMember (.text "super" :: memberKeyPieces key)

/-- A member of a value. -/
def memberOf (start offset : Nat) (isOptional calls : Bool) (value : Expr) (key : MemberKey) :
    Parser Expr := do
  if value.isWordForm .superWord then return ← superMember start offset isOptional calls key
  let span ← spanFrom start
  if isOptional then
    return .compound span .optionalMember (.expr value :: optionalKeyPieces key)
  if value.continuesChain then
    return .compound span .optionalMember (.expr value :: memberKeyPieces key)
  return .member span value key

/-- A call of a value with arguments that have been read. -/
def callOf (start : Nat) (isOptional : Bool) (value : Expr) (types : List Piece)
    (arguments : List Argument) : Parser Expr := do
  let span ← spanFrom start
  if isOptional || value.continuesChain then
    if (value.isWordForm .superWord) || (value.isWordForm .importWord) then
      failHere .optionalSuperCall
    return .compound span .optionalCall (.expr value :: textPieces (if isOptional then "?." else "")
      ++ types ++ argumentsPieces arguments)
  return .call ⟨span, value, types, arguments⟩

/-- A template literal behind a function. -/
def taggedTemplate (g : Grammar) (start : Nat) (value : Expr) (types : List Piece) :
    Parser Expr := do
  let template ← readTemplate g true
  if value.isChain then noteAt .templateInChain start
  return .compound (← spanFrom start) .tagged (.expr value :: types ++ [Piece.expr template])

/-- A link that starts with type arguments, if there is one. -/
def typedLink? (g : Grammar) (start : Nat) (calls : Bool) (value : Expr) :
    Parser (Option Link) := do
  unless (← isTyped) && (← isAt "<") do return none
  attempt do
    let types ← typeArguments g
    if calls && (← isAt "(") then
      let arguments ← readArguments g false
      return some ⟨← callOf start false value types arguments, true⟩
    if ← isAt "\x60" then
      return some ⟨← taggedTemplate g start value types, true⟩
    if (← isAt "=") || (← isAtOneOfWords ["as", "satisfies"]) then
      return some ⟨.annotated (← spanFrom start) .instantiated [] value types, false⟩
    return none

/-- The name of a member behind its dot. -/
def dottedKey : Parser MemberKey := do
  if ← isAt "#" then
    let name ← takePrivateName
    return .privateName (String.ofList (name.toList.drop 1))
  return .name (← takeWord)

/-- One more link of a chain that starts at an offset. `calls` and `keys` tell whether calls and
keys in brackets are links. -/
def chainLink (g : Grammar) (start : Nat) (calls keys : Bool) (value : Expr) : Parser Link := do
  let isSuper := value.isWordForm .superWord
  let isImport := value.isWordForm .importWord
  if (← isTyped) && !(← isOnNewLine) then
    if ← eat "!" then
      return ⟨.annotated (← spanFrom start) .nonNull [] value [.text "!"], true⟩
  unless isSuper || isImport do
    if let some link ← typedLink? g start calls value then return link
  let isOptional ← eat "?."
  if keys then
    if ← eat "[" then
      let key ← inContext Context.withIn g.expression
      expect "]"
      let member ← memberOf start start isOptional calls value (.computed key)
      return ⟨← withTypes g start member, true⟩
  let types ← if isOptional && (← isTyped) && (← isAt "<") then typeArguments g else pure []
  if (isOptional || calls) && (← isAt "(") then
    let arguments ← readArguments g isImport
    return ⟨← callOf start isOptional value types arguments, true⟩
  let isDotted ← if isOptional then pure true else eat "."
  if isDotted then
    let offset ← offsetHere
    let key ← dottedKey
    let member ← memberOf start offset isOptional calls value key
    return ⟨← withTypes g start member, true⟩
  if isSuper then failHere (if calls then .superOutside else .superCall)
  if isImport then failHere .importNotAllowed
  if ← isAt "\x60" then return ⟨← taggedTemplate g start value [], true⟩
  return ⟨value, false⟩

/-- A value with the links behind it. -/
def readChain (g : Grammar) (start : Nat) (calls keys : Bool) (value : Expr) : Parser Expr :=
  iterate (fun (value : Expr) => do
    let link ← chainLink g start calls keys value
    return if link.goesOn then .inl link.value else .inr link.value) value

end SvelteStories.Script

/-
What operators apply to, from the inside out:

* `readArray`, `readObject`, `readRegexLiteral`: literals;
* `readNameOrArrow`: names and the arrow functions that start with one;
* `readPrimary`: an expression that stands on its own;
* `readCallee`, `readOperand`: values with their members, constructed ones, and their calls.
-/
import SvelteStories.Script.Parser.Parentheses

namespace SvelteStories.Script

/-! ### Literals -/

/-- A regular expression. What is wrong with its flags is noted. -/
def readRegexLiteral : Parser Expr := do
  let l ← lexemeHere
  match readRegex? l.here with
  | none =>
    noteAt .openRegex l.span.start
    failHere .expressionExpected
  | some r =>
    let span : Span := ⟨l.span.start, l.span.start + byteLength (upTo l.here r.rest)⟩
    moveTo span ⟨true, true⟩ r.rest
    r.flagFaults.forM fun cause => noteAt cause span.start
    return .literal span (.regex r.raw)

/-- An element of an array literal. -/
def readElement (g : Grammar) : Parser Element := do
  let start ← offsetHere
  if ← eat "..." then
    let value ← g.assignment
    return .spread (← spanFrom start) value
  return .plain (← g.assignment)

/-- An array literal. -/
def readArray (g : Grammar) : Parser Expr :=
  inContext Context.inBrackets do
    let start ← offsetHere
    expect "["
    let elements ← iterate (fun (found : List Element) => do
      if ← eat "]" then return .inr found.reverse
      if ← eat "," then return .inl (.hole :: found)
      let element ← readElement g
      if let some comma ← lastComma? "]" then noteTrailingComma start comma
      return .inl (element :: found)) []
    return .array (← spanFrom start) elements

/-! ### Object literals -/

/-- What may follow the name of a property, for messages. -/
def propertyContinuations (typed : Bool) : String :=
  if typed then
    "... , *,  (, [, :, , ?, =, an identifier, public, protected, private, readonly, <."
  else "... , *,  (, [, :, , ?, = or an identifier"

/-- A method or an accessor behind its key. The body of a setter follows its parameters directly. -/
def readMethod (g : Grammar) (start : Nat) (kind : MethodKind) (key : PropertyKey) :
    Parser Property :=
  inContext (fun c => { c with mayUseSuper := true, inField := false }) do
    let parts ← readFunctionParts g kind.isAsync kind.isGenerator kind.check
    let gap := if kind.accessor = some "set" then "" else " "
    return .method (← spanFrom start) kind.text key (.text " " :: parts.layout gap)

/-- Whether a token goes on with a property whose key has been read, where types may be written. -/
def continuesProperty : Token → Bool
  | .word _ | .string _ _ | .number _ _ | .bigint _ _ => true
  | .punctuator p => ["(", "[", ":", ",", "?", "=", "*", "<"].contains p
  | .fault _ | .stop => false

/-- An accessor or an asynchronous method behind the word that says so. `modifier` is where a word
stands before it that cannot. -/
def readAccessor (g : Grammar) (start : Nat) (modifier : Option Nat) (word : String) :
    Parser Property := do
  if let some offset := modifier then noteAt .modifiedMethod offset
  let isGenerator ← if word = "async" then eat "*" else pure false
  let key ← readKey g
  let offset := key.span.start
  if word = "async" then readMethod g start { isAsync := true, isGenerator } key
  else
    let check := if word = "get" then checkGetter offset else checkSetter offset
    readMethod g start { accessor := some word, check } key

/-- A property of an object literal that is a name alone, with a default or without, or an accessor
or an asynchronous method. -/
def readNamedProperty (g : Grammar) (start : Nat) (modifier : Option Nat) (span : Span)
    (name : String) : Parser Property := do
  if ← eat "?" then noteAt .optionalProperty (← get).last.start
  if ← eat "=" then
    let value ← bracketed g
    return .initialized (← spanFrom start) name value
  if ← isAtOneOf [",", "\x7d"] then return .shorthand span name
  if ["get", "set", "async"].contains name then
    return ← readAccessor g start modifier name
  failUnexpected (propertyContinuations (← isTyped))

/-- A property of an object literal. -/
def readProperty (g : Grammar) : Parser Property := do
  let start ← offsetHere
  if ← eat "..." then
    let value ← bracketed g
    return .spread (← spanFrom start) value
  if ← eat "*" then
    let key ← readKey g
    return ← readMethod g start { isGenerator := true } key
  let typed ← isTyped
  let isModified ← if typed then eatParameterModifier else pure false
  let word := (← get).last.start
  let modifier := if isModified then some word else none
  let key ← readKey g
  let isName := key matches .identifier _ _
  let token ← tokenHere
  if typed && !continuesProperty token && !(isName && token = .punctuator "\x7d") then
    noteAt .semicolonExpected (← faultOffset)
    let span ← spanFrom start
    return .keyValue key (.compound span .missing [])
  if ← eat ":" then return .keyValue key (← bracketed g)
  if ← isAtMethod then return ← readMethod g start {} key
  match key with
  | .identifier span name => readNamedProperty g start modifier span name
  | _ => failUnexpected "identifier"

/-- An object literal. -/
def readObject (g : Grammar) : Parser ObjectLiteral :=
  inContext (fun c => { c with beforeColon := false }) do
    let start ← offsetHere
    expect "\x7b"
    let properties ← iterate (fun (found : List Property) => do
      if ← eat "\x7d" then return .inr found.reverse
      let p ← readProperty g
      if let some comma ← lastComma? "\x7d" then noteTrailingComma start comma
      return .inl (p :: found)) []
    return ⟨← spanFrom start, properties⟩

/-! ### Names and arrow functions -/

/-- An asynchronous arrow function with type parameters, if one starts here. -/
def typedAsyncArrow? (g : Grammar) (start : Nat) : Parser (Option Expr) :=
  attempt do
    skip
    let types ← typeParameters g false false
    let head ← arrowHead g types
    return some (← finishArrow g start true head)

/-- What `async` means before a name on its line: an arrow function, or a name of its own in the
head of a loop or before a type. -/
def asyncBeforeName (g : Grammar) (start : Nat) (async : Expr) : Parser Expr := do
  let c ← read
  let isLoop ← if c.inLoopHead && (← isAtWord "of") then
      isFollowedBy (·.token != .punctuator "=>")
    else pure false
  if isLoop then
    unless c.inWaitingHead do noteAt .asyncLoopVariable (← get).last.start
    return async
  let nameStart ← offsetHere
  let name ← takeBoundName
  let span ← spanFrom nameStart
  if c.dialect.isTyped && name = "as" && !(← isAt "=>") then
    let type ← g.type
    return .annotated (← spanFrom start) .ascribed [] async (.text " as " :: type)
  expect "=>"
  finishArrow g start true (nameParameter span name)

/-- A name, or an arrow function that starts with one. -/
def readNameOrArrow (g : Grammar) (start : Nat) (mayBeArrow : Bool) : Parser Expr := do
  let c ← read
  let name ← takeName (!c.inGenerator) (!c.inAsync)
  let span ← spanFrom start
  let value := Expr.identifier span name
  unless mayBeArrow && !(← isOnNewLine) do return value
  if name = "async" && (← isAtName) then return ← asyncBeforeName g start value
  if ← eat "=>" then
    if isUnboundName name then noteStrict .strictName start
    return ← finishArrow g start false (nameParameter span name)
  return value

/-! ### Expressions that stand on their own -/

/-- A function as an expression. -/
def readFunctionExpression (g : Grammar) : Parser Expr := do
  let start ← offsetHere
  let f ← readFunction g .own
  unless f.hasBody do failUnexpected "\x7b"
  return .function (← spanFrom start) f.parts

/-- A class as an expression. -/
def readClassExpression (g : Grammar) : Parser Expr := do
  let start ← offsetHere
  let c ← readClass g false false
  return .classes (← spanFrom start) c.head c.heritage c.body

/-- An expression that starts with a word. -/
def readWordExpression (g : Grammar) (l : Lexeme) (word : String) (mayBeArrow : Bool) :
    Parser Expr := do
  let literal (value : Literal) : Parser Expr := do
    skip
    return .literal l.span value
  match word with
  | "null" => literal .null
  | "true" => literal (.boolean true)
  | "false" => literal (.boolean false)
  | "this" =>
    skip
    return .compound l.span .this [.text "this"]
  | "class" => readClassExpression g
  | _ =>
    if ← isAtFunction then return ← readFunctionExpression g
    if word = "async" && mayBeArrow then
      if (← isTyped) && (← isFollowedBy (·.token = .punctuator "<")) then
        if let some arrow ← typedAsyncArrow? g l.span.start then return arrow
      if ← isFollowedBy (·.token = .punctuator "(") then
        skip
        return ← readParentheses g mayBeArrow (some l.span)
    if word = "let" || (← isAtName) then readNameOrArrow g l.span.start mayBeArrow
    else failHere .expressionExpected

/-- An expression that stands on its own. -/
def readPrimary (g : Grammar) : Parser Expr := do
  let l ← lexemeHere
  let start := l.span.start
  let mayBeArrow := (← read).arrowStart = some start
  let literal (value : Literal) : Parser Expr := do
    skip
    return .literal l.span value
  match l.token with
  | .string value raw => literal (.string value raw)
  | .number _ raw => literal (.number raw)
  | .bigint _ raw => literal (.bigint raw)
  | .word word => readWordExpression g l word mayBeArrow
  | .punctuator "(" => readParentheses g mayBeArrow none
  | .punctuator "[" => readArray g
  | .punctuator "\x7b" => return .object (← readObject g)
  | .punctuator "\x60" => inContext Context.inBrackets (readTemplate g false)
  | .punctuator "/" | .punctuator "/=" => readRegexLiteral
  | .punctuator "#" =>
    let name ← takePrivateName
    return .compound (← spanFrom start) .privateName [.text name]
  | _ => failHere .expressionExpected

/-! ### Values with their members and calls -/

/-- Whether an expression is an arrow function, which has no members. -/
def Expr.isArrow : Expr → Bool
  | .arrow _ _ => true
  | _ => false

/-- What starts with the keyword of imports: a loaded module, or what is known of this one. -/
def readImportExpression (g : Grammar) (calls : Bool) : Parser Expr := do
  let start ← offsetHere
  skip
  let word (text : String) : Parser Expr := do
    return .compound (← spanFrom start) .importWord [.text text]
  unless ← eat "." do return ← readChain g start calls true (← word "import")
  let name ← takeWord
  match name with
  | "meta" =>
    unless (← read).dialect.isModule do noteAt .metaOutside start
    let value := Expr.compound (← spanFrom start) .metaProperty [.text "import.meta"]
    readChain g start calls true value
  | "defer" | "source" => readChain g start calls true (← word ("import." ++ name))
  | _ => failUnexpected "meta"

/-- What is known of a call with `new`, behind its dot. -/
def readNewTarget (g : Grammar) (start : Nat) : Parser Expr := do
  unless ← eatWord "target" do failUnexpected "target"
  let c ← read
  unless c.inPlainFunction || c.inParameters || c.inClass do noteAt .newTargetOutside start
  let value := Expr.compound (← spanFrom start) .metaProperty [.text "new.target"]
  readChain g start false true value

/-- The optional chain that is constructed by mistake. -/
def Expr.constructedChain? : Expr → Option Expr
  | .member _ inner _ => if inner.isChain then some inner else none
  | e => if e.isChain then some e else none

/-- The type arguments of a call, if there are any. -/
def callTypes? (g : Grammar) : Parser (Option (List Piece)) := do
  unless (← isTyped) && (← isAt "<") do return none
  attempt do
    let types ← typeArguments g
    return if ← isAt "(" then some types else none

/-- A constructed object: what is made, and the arguments, if there are any. -/
def readNew (g : Grammar) : Parser Expr := do
  let start ← offsetHere
  skip
  if ← eat "." then return ← readNewTarget g start
  let callee ← g.callee
  if callee.isArrow then return callee
  if let some chain := callee.constructedChain? then failAt .constructedChain chain.span.start
  let types ← callTypes? g
  let made := [Piece.text "new ", .expr callee] ++ types.getD []
  unless ← isAt "(" do return .compound (← spanFrom start) .bareConstruction made
  let arguments ← readArguments g false
  let value := Expr.compound (← spanFrom start) .construction (made ++ argumentsPieces arguments)
  readChain g start false true value

/-- `super` with what stands behind it. -/
def readSuper (g : Grammar) (calls : Bool) : Parser Expr := do
  let l ← advance
  readChain g l.span.start calls true (.compound l.span .superWord [.text "super"])

/-- A value with its members. -/
def readCallee (g : Grammar) : Parser Expr := do
  match ← tokenHere with
  | .word "new" => readNew g
  | .word "super" => readSuper g false
  | .word "import" => readImportExpression g false
  | _ =>
    let start ← offsetHere
    let value ← readPrimary g
    if value.isArrow then return value
    readChain g start false true (← withTypes g start value)

/-- A value with its members and calls. -/
def readOperand (g : Grammar) : Parser Expr := do
  match ← tokenHere with
  | .word "super" => readSuper g true
  | .word "import" => readImportExpression g true
  | _ =>
    let start ← offsetHere
    let callee ← g.callee
    if callee.isArrow then return callee
    let types ← callTypes? g
    if callee.isWordForm .bareConstruction then return callee
    unless ← isAt "(" do return callee
    let arguments ← readArguments g false
    readChain g start true true (← callOf start false callee (types.getD []) arguments)

end SvelteStories.Script

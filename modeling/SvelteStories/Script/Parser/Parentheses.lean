/-
Parentheses, which hold an expression or the parameters of an arrow function:

* `ParenItem`, `readParenItems`: what stands in parentheses, before it is known which it is;
* `parenParameters`, `parenExpression`: what it turns out to be;
* `readParentheses`: parentheses with what belongs to them.
-/
import SvelteStories.Script.Parser.Classes

namespace SvelteStories.Script

/-! ### Choices -/

/-- The two branches of a choice behind its question mark. -/
def choiceBranches (g : Grammar) (start : Nat) (test : Expr) : Parser Expr := do
  let yes ← inContext
    (fun c => { c with inChoice := true, beforeColon := true, inOperator := true }) g.assignment
  expect ":"
  let no ← inContext (fun c => { c with inChoice := true, beforeColon := false }) g.assignment
  return .compound (← spanFrom start) .conditional
    [.expr test, .text " ? ", .expr yes, .text " : ", .expr no]

/-! ### Assignments -/

/-- An assignment behind its left side. -/
def finishAssignment (g : Grammar) (start : Nat) (left : Expr) : Parser Expr := do
  match ← tokenHere with
  | .punctuator operator =>
    let target ← if operator = "=" then do
        let target ← assignmentPattern left
        unless target.isAssignable do failAt .invalidTarget left.span.start
        pure target
      else if updateOperators.contains operator then do
        let c ← read
        unless left.isSimpleTarget c.isStrict do
          noteAt (if c.dialect.isTyped then .notVariable else .notAssignable) left.span.start
        if c.dialect.isTyped && left.isUnboundName then
          noteStrict .strictTarget left.span.start
        unless left.hasTargetForm do failAt .invalidTarget left.span.start
        pure (.target left)
      else return left
    skip
    let value ← g.assignment
    return .assign (← spanFrom start) target operator value
  | _ => return left

/-! ### Items -/

/-- What stands between two commas in parentheses. -/
inductive ParenItem
  /-- An expression. -/
  | plain (value : Expr)
  /-- An expression behind dots. -/
  | spread (span : Span) (value : Expr)
  /-- What can only be a parameter. -/
  | parameter (start : Nat) (value : Pattern)

namespace ParenItem

/-- Where an item starts. -/
def start : ParenItem → Nat
  | plain value => value.span.start
  | spread span _ => span.start
  | parameter offset _ => offset

/-- Whether an item can only be a parameter. -/
def isParameter : ParenItem → Bool
  | parameter _ _ => true
  | plain _ | spread _ _ => false

/-- The properties with defaults of an item that is an object literal, which make no expression. -/
def shorthandDefaults : ParenItem → List Span
  | plain (.object o) | spread _ (.object o) => o.properties.filterMap fun
    | .initialized span _ _ => some span
    | _ => none
  | _ => []

end ParenItem

/-- An expression in parentheses that may be a parameter. With types, a question mark behind a name
says that the parameter may be left out, so it is not read as that of a choice. -/
def parenValue (g : Grammar) (start : Nat) : Parser ParenItem := do
  let isTypedName ← if ← isTyped then
      (do if ← isAtName then return true
          if ← isAt "..." then isFollowedBy (·.token.isWord) else return false)
    else pure false
  if ← eat "..." then
    let value ← if isTypedName then g.binary else g.assignment
    return .spread (← spanFrom start) value
  if isTypedName then return .plain (← finishAssignment g start (← g.binary))
  return .plain (← g.assignment)

/-- What stands behind an item and makes it a parameter that may be left out, if it does. An item
that is the test of a choice takes the branches. -/
def parenMark (g : Grammar) (start : Nat) (item : ParenItem) : Parser (ParenItem × Bool) := do
  unless (← isTyped) && (← isAt "?") do return (item, false)
  if ← isFollowedBy (·.token.isOneOf [",", ":", ")", "="]) then
    skip
    match item with
    | .plain (.identifier _ _) => return (item, true)
    | .spread _ (.identifier _ _) =>
      noteAt .optionalRest (← get).last.start
      return (item, true)
    | _ => failAt .optionalPattern item.start
  match item with
  | .plain test =>
    skip
    return (.plain (← choiceBranches g start test), false)
  | _ => return (item, false)

/-- The parameter that an item is, with what is said about its type. -/
def typedItem (g : Grammar) (start : Nat) (isOptional : Bool) (item : ParenItem) :
    Parser ParenItem := do
  let target ← match item with
    | .plain value => value.toPattern .parameter
    | .spread span value => do
      let target ← value.toPattern .parameter
      pure (.rest span target [])
    | .parameter _ value => pure value
  let mark := textPieces (if isOptional then "?" else "")
  let target ← match target with
    | .withDefault _ _ _ | .target _ => pure target
    | _ => pure (target.withTyping (mark ++ (← annotation? g)))
  if ← eat "=" then
    let value ← g.assignment
    return .parameter start (.withDefault (← spanFrom start) target value)
  return .parameter start target

/-- An item in parentheses. -/
def readParenItem (g : Grammar) : Parser ParenItem := do
  let first ← offsetHere
  inContext (fun c => { c with arrowStart := some first }) do
    let typed ← isTyped
    let isModified ← if typed then eatParameterModifier else pure false
    let start ← offsetHere
    let value ← parenValue g start
    let (item, isOptional) ← parenMark g start value
    let item ← if isOptional || (typed && (← isAt ":")) then typedItem g start isOptional item
      else pure item
    if isModified then noteAt .parameterModifier first
    return item

/-- What stands in parentheses, and where a comma before their end stands. -/
def readParenItems (g : Grammar) : Parser (List ParenItem × Option Nat) :=
  inContext Context.inBrackets do
    expect "("
    let items ← iterate (fun ((found, comma) : List ParenItem × Option Nat) => do
      if (← isAt ")") || (← isAtEnd) then return .inr (found.reverse, comma)
      let item ← readParenItem g
      return .inl (item :: found, ← lastComma? ")")) ([], none)
    expect ")"
    return items

/-! ### What parentheses turn out to be -/

/-- The parameter that the last item in parentheses is, before a comma or not. -/
def lastParameter (comma : Option Nat) : ParenItem → Parser Parameter
  | .plain value => return ⟨value.span.start, "", ← value.toPattern .parameter⟩
  | .spread span value => do
    if value.isAssignment then noteAt .defaultOfRest span.start
    if let some offset := comma then noteAt .commaAfterRest offset
    return ⟨span.start, "", .rest span (← value.toPattern .parameter) []⟩
  | .parameter start value => do
    if let .rest _ _ _ := value then
      if let some offset := comma then noteAt .commaAfterRest offset
    return ⟨start, "", value⟩

/-- The parameters that items in parentheses are. -/
def itemParameters (comma : Option Nat) : List ParenItem → Parser (List Parameter)
  | [] => return []
  | [item] => return [← lastParameter comma item]
  | .plain value :: items => do
    let first ← value.toPattern .parameter
    return ⟨value.span.start, "", first⟩ :: (← itemParameters comma items)
  | .spread span _ :: items => do
    noteAt .restParameterNotLast span.start
    itemParameters comma items
  | .parameter start value :: items => do
    if let .rest _ _ _ := value then
      noteAt .restParameterNotLast start
      itemParameters comma items
    else return ⟨start, "", value⟩ :: (← itemParameters comma items)

/-- The parameters that parentheses hold. -/
def parenParameters (comma : Option Nat) (items : List ParenItem) : Parser (List Parameter) := do
  let parameters ← itemParameters comma items
  parameters.forM fun p => noteStrictNames p.target
  return parameters

/-- The expressions that items in parentheses are. -/
def parenArguments : List ParenItem → Parser (List Argument)
  | [] => return []
  | .plain value :: items => return .plain value :: (← parenArguments items)
  | .spread _ value :: items => return .spread value :: (← parenArguments items)
  | .parameter start _ :: _ => failAt .notExpression start

/-- The expression that parentheses hold. -/
def parenExpression (start : Nat) (arguments : List Argument) : Parser Expr := do
  let values ← arguments.mapM fun
    | .plain value => (pure value : Parser Expr)
    | .spread value => failAt .spreadInParentheses value.span.start
  match values with
  | [] => failAt .emptyParentheses start
  | [value] => return .paren (← spanFrom start) value
  | first :: others =>
    let stop := (others.getLast?.getD first).span.stop
    let inner := Expr.compound ⟨first.span.start, stop⟩ .sequence
      (commaPieces (values.map fun value => [.expr value]))
    return .paren (← spanFrom start) inner

/-! ### Arrow functions with parentheses -/

/-- An arrow function within a choice whose result has a type, if there is one. Before the colon of
the choice, that colon has to follow. -/
def arrowInChoice? (g : Grammar) (start : Nat) (isAsync : Bool) (items : List ParenItem) :
    Parser (Option Expr) := do
  let c ← read
  unless c.dialect.isTyped && c.inChoice && (← isAt ":") do return none
  attempt do
    let result ← resultBehind g ":" ": "
    expect "=>"
    let parameters ← parenParameters none items
    let arrow ← finishArrow g start isAsync ⟨[], parameters, result, none⟩
    if c.beforeColon && !(← isAt ":") then return none
    return some arrow

/-- The type of what an arrow function gives back, if there is one before its arrow. -/
def arrowResult? (g : Grammar) : Parser (Option (List Piece)) := do
  let c ← read
  unless c.dialect.isTyped && !c.beforeColon && (← isAt ":") do return none
  attempt do
    let result ← resultBehind g ":" ": "
    return if ← isAt "=>" then some result else none

/-- An arrow function from its arrow on. An operator behind its block is noted. -/
def arrowBehind (g : Grammar) (start : Nat) (mayBeArrow isAsync : Bool) (items : List ParenItem)
    (comma : Option Nat) (result : List Piece) : Parser Expr := do
  if ← isOnNewLine then failAt .lineBreakBeforeArrow start
  unless mayBeArrow do failAt .arrowNotAllowed start
  expect "=>"
  let parameters ← parenParameters comma items
  let hasBlock ← isAt "\x7b"
  let arrow ← finishArrow g start isAsync ⟨[], parameters, result, none⟩
  unless hasBlock && (← tokenHere).isBinaryOperator do return arrow
  noteAt .semicolonExpected (← offsetHere)
  let value ← g.binaryRest 0 arrow
  unless ← isAtTerminator do noteAt .semicolonExpected (← offsetHere)
  return value

/-- Parentheses: an expression, the arguments of a call of `async`, whose place is given, or an
arrow function. -/
def readParentheses (g : Grammar) (mayBeArrow : Bool) (async : Option Span) : Parser Expr := do
  let start := (async.map Span.start).getD (← offsetHere)
  let (items, comma) ← readParenItems g
  if let some arrow ← arrowInChoice? g start async.isSome items then return arrow
  let result ← arrowResult? g
  if items.any ParenItem.isParameter || result.isSome || (← isAt "=>") then
    return ← arrowBehind g start mayBeArrow async.isSome items comma (result.getD [])
  (items.flatMap ParenItem.shorthandDefaults).forM fun span =>
    noteAt .shorthandDefault span.start
  let arguments ← parenArguments items
  match async with
  | some span => callOf start false (.identifier span "async") [] arguments
  | none => parenExpression start arguments

end SvelteStories.Script

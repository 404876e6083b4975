/-
Patterns of scripts:

* `readKey`: the key of a property;
* `readPattern`, `patternElement`: a pattern, alone and with its default;
* `readParameters`, `constructorParameters`: the parameters of functions.
-/
import SvelteStories.Script.Parser.Types

namespace SvelteStories.Script

/-! ### Keys -/

/-- What the key of a property may be, for messages. -/
def keyStarts : String :=
  "identifier, string literal, numeric literal or [ for the computed key"

/-- An expression without commas, in brackets. -/
def bracketed (g : Grammar) : Parser Expr :=
  inContext Context.withIn g.assignment

/-- A key in brackets, behind the opening one. With types, commas in it are noted. -/
def computedKey (g : Grammar) : Parser Expr := do
  let start ← offsetHere
  let first ← bracketed g
  if !(← isTyped) || !(← isAt ",") then return first
  let parts ← iterate (fun (parts : List (List Piece)) => do
    if ← eat "," then return .inl ([.expr (← bracketed g)] :: parts)
    return .inr parts.reverse) [[.expr first]]
  noteAt .commaInKey start
  return .compound (← spanFrom start) .sequence (commaPieces parts)

/-- The key of a property. -/
def readKey (g : Grammar) : Parser PropertyKey := do
  requireToken
  let l ← lexemeHere
  match l.token with
  | .word value =>
    skip
    return .identifier l.span value
  | .string value raw =>
    skip
    return .string l.span value raw
  | .number value raw =>
    skip
    return .number l.span value raw
  | .bigint _ raw =>
    skip
    return .bigint l.span raw
  | .punctuator "[" =>
    skip
    let key ← computedKey g
    expect "]"
    return .computed (← spanFrom l.span.start) key
  | _ => failUnexpected keyStarts

/-! ### Patterns -/

/-- A default behind an equals sign, if there is one. -/
def default? (g : Grammar) : Parser (Option Expr) := do
  if ← eat "=" then return some (← bracketed g)
  return none

/-- A pattern with the default behind it, if there is one. What is implemented elsewhere has no
defaults. -/
def patternElement (g : Grammar) : Parser Pattern := do
  let start ← offsetHere
  let target ← g.pattern
  match ← default? g with
  | some value =>
    if (← read).isAmbient then noteAt .defaultInSignature start
    return .withDefault (← spanFrom start) target value
  | none => return target

/-- Moves on behind the comma between two elements, unless the list ends here, and tells where the
comma stands if it is the last one. -/
def lastComma? (closer : String) : Parser (Option Nat) := do
  if ← isAt closer then return none
  expect ","
  if ← isAt closer then return some (← get).last.start
  return none

/-- A property of an object pattern. -/
def patternProperty (g : Grammar) : Parser PatternProperty := do
  let start ← offsetHere
  if ← eat "..." then
    let target ← g.pattern
    return .rest (← spanFrom start) target
  let key ← readKey g
  if ← eat ":" then return .keyValue key (← patternElement g)
  match key with
  | .identifier _ name =>
    let default ← default? g
    return .shorthand (← spanFrom start) name default
  | _ => failUnexpected "an identifier"

/-- Notes or fails on rest elements that are not last or that name nothing. -/
def checkPatternProperties (comma : Option Nat) : List PatternProperty → Parser Unit
  | [] => return
  | [.rest _ (.identifier _ _ _)] => do
    if let some offset := comma then noteAt .commaAfterRest offset
  | [.rest span _] => failAt .restWithoutName span.start
  | p :: ps => do
    if let .rest span _ := p then noteAt .restNotLast span.start
    checkPatternProperties comma ps

/-- An object pattern without what is said about its type. -/
def objectPattern (g : Grammar) : Parser ObjectPattern :=
  inContext (fun c => { c with beforeColon := false }) do
    let start ← offsetHere
    expect "\x7b"
    let (properties, comma) ← iterate
      (fun ((found, comma) : List PatternProperty × Option Nat) => do
        if ← eat "\x7d" then return .inr (found.reverse, comma)
        let p ← patternProperty g
        return .inl (p :: found, ← lastComma? "\x7d")) ([], none)
    let span ← spanFrom start
    checkPatternProperties comma properties
    return ⟨span, properties, []⟩

/-- An element of an array pattern, and where it starts if it takes all that is left. -/
def arrayPatternElement (g : Grammar) : Parser (PatternElement × Option Nat) := do
  let start ← offsetHere
  if ← eat "..." then
    let target ← g.pattern
    return (.bound (.rest (← spanFrom start) target []), some start)
  return (.bound (← patternElement g), none)

/-- The elements of an array pattern, up to its bracket. -/
def patternElements (g : Grammar) : Parser (List PatternElement) :=
  iterate (fun ((found, rest) : List PatternElement × Option Nat) => do
    if (← isAt "]") || (← isAtEnd) then return .inr found.reverse
    if ← eat "," then return .inl (.hole :: found, rest)
    if let some offset := rest then noteAt .restNotLast offset
    let (element, start) ← arrayPatternElement g
    if let some offset ← lastComma? "]" then
      if start.isSome then noteAt .commaAfterRest offset
    return .inl (element :: found, start.or rest)) ([], none)

/-- A question mark behind a pattern of something that is implemented elsewhere. -/
def ambientMark : Parser (List Piece) := do
  if (← read).isAmbient then
    if ← eat "?" then return [.text "?"]
  return []

/-- A pattern that binds names, without what is said about its type. -/
def readPattern (g : Grammar) : Parser Pattern := do
  requireToken
  let start ← offsetHere
  match ← tokenHere with
  | .punctuator "\x7b" =>
    let o ← objectPattern g
    return .object { o with typing := ← ambientMark }
  | .punctuator "[" =>
    skip
    let elements ← patternElements g
    expect "]"
    let span ← spanFrom start
    return .array span elements (← ambientMark)
  | .word _ =>
    let name ← takeBoundName
    return .identifier (← spanFrom start) name []
  | _ => failUnexpected "yield, an identifier, [ or \x7b"

/-- A pattern of a declaration. -/
def declaredPattern (g : Grammar) : Parser Pattern := do
  if ← isAtWord "let" then
    let _ ← takeDeclaredName
  g.pattern

/-- A pattern with more said about its type. -/
def Pattern.withTyping (typing : List Piece) : Pattern → Pattern
  | .identifier s name said => .identifier s name (said ++ typing)
  | .object ⟨s, properties, said⟩ => .object ⟨s, properties, said ++ typing⟩
  | .array s elements said => .array s elements (said ++ typing)
  | .rest s inner said => .rest s inner (said ++ typing)
  | p => p

/-! ### Parameters -/

/-- A parameter that takes all that is left, behind its dots. -/
def restParameter (g : Grammar) (start : Nat) : Parser Pattern := do
  let target ← g.pattern
  let target ← if ← eat "=" then do
      let value ← g.assignment
      noteAt .defaultOfRest target.span.start
      pure (.withDefault (← spanFrom target.span.start) target value)
    else pure target
  let typing ← annotation? g
  let span ← spanFrom start
  if ← isTyped then
    if ← eat "?" then noteAt .optionalRest (← get).last.start
  return .rest span target typing

/-- A parameter that takes one value. -/
def plainParameter (g : Grammar) : Parser Pattern := do
  let start ← offsetHere
  let isModified ← if ← isTyped then eatParameterModifier else pure false
  let target ← g.pattern
  let isOptional ← if ← isTyped then eat "?" else pure false
  let typing ← annotation? g
  let target := target.withTyping (textPieces (if isOptional then "?" else "") ++ typing)
  let target ← if ← eat "=" then do
      if isOptional then noteAt .optionalWithDefault target.span.start
      let value ← g.assignment
      if (← read).isAmbient then noteAt .defaultInSignature start
      pure (.withDefault (← spanFrom start) target value)
    else pure target
  if isModified then noteAt .parameterModifier start
  return target

/-- Parameters up to the parenthesis behind them. One that takes all that is left has to be the last
one. -/
def parameterList (rest : Nat → Parser Pattern) (plain : Parser Parameter) :
    Parser (List Parameter) :=
  iterate (fun ((found, taken) : List Parameter × Option Nat) => do
    if (← isAt ")") || (← isAtEnd) then return .inr found.reverse
    if let some offset := taken then noteAt .restParameterNotLast offset
    let start ← offsetHere
    let isRest ← eat "..."
    let p ← if isRest then pure ⟨start, "", ← rest start⟩ else plain
    if let some offset ← lastComma? ")" then
      if isRest then noteAt .commaAfterRest offset
    return .inl (p :: found, if isRest then some start else taken)) ([], none)

/-- The parameters of a function. -/
def readParameters (g : Grammar) : Parser (List Parameter) :=
  parameterList (restParameter g) do return ⟨← offsetHere, "", ← plainParameter g⟩

/-- The access modifier at the cursor, if there is one. -/
def accessModifier? : Parser (Option String) := do
  match ← takeModifier? ["public", "protected", "private", "in", "out"] with
  | some w =>
    if w = "in" || w = "out" then
      noteAt (.varianceModifier w) (← get).last.start
      return none
    return some w
  | none => return none

/-- Whether a pattern is a name, with a default or without. -/
def Pattern.isProperty : Pattern → Bool
  | .identifier _ _ _ | .withDefault _ _ _ => true
  | .object _ | .array _ _ _ | .rest _ _ _ | .target _ => false

/-- A parameter of a constructor, which may be a property as well. -/
def constructorParameter (g : Grammar) : Parser Parameter := do
  let start ← offsetHere
  unless ← isTyped do return ⟨start, "", ← plainParameter g⟩
  let access := (← accessModifier?).toList
  let overrides := (← takeModifier? ["override"]).toList
  let readonly := (← takeModifier? ["readonly"]).toList
  let words := access ++ overrides ++ readonly
  let target ← plainParameter g
  unless words.isEmpty || target.isProperty do failAt .propertyPattern target.span.start
  return ⟨start, String.join (words.map (· ++ " ")), target⟩

/-- The parameters of a constructor. -/
def constructorParameters (g : Grammar) : Parser (List Parameter) :=
  parameterList (fun start => do
    let target ← g.pattern
    let typing ← annotation? g
    return .rest (← spanFrom start) target typing) (constructorParameter g)

end SvelteStories.Script

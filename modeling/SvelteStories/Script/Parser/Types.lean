/-
Types of scripts. A type is only ever printed, so it is read as a layout:

* `typeArguments`, `typeParameters`: types in angle brackets;
* `annotation?`, `resultType?`: types behind a colon;
* `typeMembers`: what an object type holds;
* `readType`: a type.
-/
import SvelteStories.Script.Parser.Grammar

namespace SvelteStories.Script

/-! ### Words before other forms -/

/-- Whether a token can stand behind a modifier. -/
def followsModifier (l : Lexeme) : Bool :=
  !l.newline && match l.token with
    | .punctuator p => ["[", "\x7b", "*", "...", "#"].contains p
    | .word _ | .string _ _ | .number _ _ | .bigint _ _ => true
    | .fault _ | .stop => false

/-- One of these words, if it stands before something that it modifies. -/
def takeModifier? (words : List String) : Parser (Option String) := do
  match ← tokenHere with
  | .word w =>
    if words.contains w && (!isKeyword w || w = "in" || w = "const")
        && (← isFollowedBy followsModifier) then
      skip
      return some w
    return none
  | _ => return none

/-- Moves on behind a word that makes a parameter a property as well, if one stands here. -/
def eatParameterModifier : Parser Bool := do
  let modifies ← if ← isAtOneOfWords ["public", "protected", "private", "readonly"] then
      isFollowedBy fun l => l.token.isWord || l.token.isOneOf ["[", "\x7b"]
    else pure false
  if modifies then skip
  return modifies

/-- What a message says about a token that a type does not start with. -/
def optionalSpelling : Token → String
  | .stop => "None"
  | token => "Some(" ++ token.spelling ++ ")"

/-! ### Lists -/

/-- Whether the current token is the closing angle bracket of a list. -/
def isAtCloser : Parser Bool := do
  splitCloser
  isAt ">"

/-- Whether the current token is the opening angle bracket of a list. -/
def isAtOpener : Parser Bool := do
  splitAngle '<'
  isAt "<"

/-- Members with commas between them, up to what ends the list. -/
def typeList {α : Type} (ends : Parser Bool) (member : Parser α) : Parser (List α) :=
  iterate (fun (found : List α) => do
    if ← ends then return .inr found.reverse
    let m ← member
    unless ← eat "," do
      unless ← ends do expect ","
    return .inl (m :: found)) []

/-- The members of a list in angle brackets. -/
def angleList (member : Parser (List Piece)) : Parser (List Piece) := do
  let members ← typeList isAtCloser member
  splitCloser
  expect ">"
  return .text "<" :: commaPieces members ++ [Piece.text ">"]

/-- Types in angle brackets. -/
def typeArguments (g : Grammar) : Parser (List Piece) := do
  splitAngle '<'
  expect "<"
  angleList g.type

/-- Type arguments on the same line, if there are any. -/
def typeArguments? (g : Grammar) : Parser (List Piece) := do
  if !(← isOnNewLine) && (← isAtOpener) then typeArguments g else return []

/-- A type behind this word or punctuation, if it stands here. -/
def typeBehind? (g : Grammar) (mark : Token) (lead : String) : Parser (List Piece) := do
  if (← tokenHere) = mark then
    skip
    return .text lead :: (← g.type)
  return []

/-- A type behind this word or punctuation, or a fault. -/
def typeBehind (g : Grammar) (mark : Token) (lead : String) : Parser (List Piece) := do
  let token ← tokenHere
  unless token = mark do
    failHere (.unexpectedToken (optionalSpelling token) mark.spelling)
  skip
  return .text lead :: (← g.type)

/-- The modifiers of a type parameter, and where they may stand: `in` and `out` on parameters of
types, `const` on parameters of functions. -/
def typeParameterModifiers (inTypes inFunctions : Bool) : Parser (List String) :=
  iterate (fun (found : List String) => do
    let some word ← takeModifier? ["public", "private", "protected", "readonly", "abstract",
        "const", "override", "in", "out"] | return .inr found
    let offset := (← get).last.start
    if word = "const" then
      unless inFunctions do noteAt (.constModifier word) offset
    else if word = "in" || word = "out" then
      unless inTypes do noteAt (.varianceModifier word) offset
      if inTypes && found.contains word then noteAt (.repeatedModifier word) offset
      else if inTypes && word = "in" && found.contains "out" then
        noteAt (.modifierOrder "in" "out") offset
    else noteAt (.typeModifier word) offset
    return .inl (word :: found)) []

/-- Type parameters in angle brackets. -/
def typeParameters (g : Grammar) (inTypes inFunctions : Bool) : Parser (List Piece) := do
  splitAngle '<'
  unless ← eat "<" do failUnexpected "< (jsx tag start)"
  angleList do
    let words ← typeParameterModifiers inTypes inFunctions
    let name ← takeWord
    let bound ← typeBehind? g (.word "extends") " extends "
    let default ← typeBehind? g (.punctuator "=") " = "
    let lead := String.join ((["const", "in", "out"].filter words.contains).map (· ++ " "))
    return .text (lead ++ name) :: bound ++ default

/-- Type parameters, if there are any. -/
def typeParameters? (g : Grammar) (inTypes inFunctions : Bool) : Parser (List Piece) := do
  if ← isAtOpener then typeParameters g inTypes inFunctions else return []

/-! ### Annotations -/

/-- A type behind a colon, if types may be written and there is one. -/
def annotation? (g : Grammar) : Parser (List Piece) := do
  if ← isTyped then typeBehind? g (.punctuator ":") ": " else return []

/-- What a function gives back: a type, or what its result says about a parameter. -/
def resultType (g : Grammar) : Parser (List Piece) := do
  let c ← read
  let asserts ← if ← isAtWord "asserts" then
      isFollowedBy fun l => c.isNameToken l.token
    else pure false
  if asserts then skip
  let decides ← if ← isAtName then
      isFollowedBy fun l => l.token = .word "is" && !l.newline
    else pure false
  unless asserts || decides do return ← g.type
  let lead := (if asserts then "asserts " else "") ++ (← takeWord)
  if decides then
    skip
    return .text (lead ++ " is ") :: (← g.type)
  return [.text lead]

/-- What a function gives back, behind a colon or an arrow. -/
def resultBehind (g : Grammar) (mark lead : String) : Parser (List Piece) := do
  unless ← eat mark do
    failHere (.expected mark (optionalSpelling (← tokenHere)))
  return .text lead :: (← resultType g)

/-- What a function gives back, behind a colon, if there is one. -/
def resultType? (g : Grammar) : Parser (List Piece) := do
  if ← isAt ":" then resultBehind g ":" ": " else return []

/-! ### Signatures -/

/-- Whether a pattern can stand in a signature: one without a default. -/
def Pattern.isSignature : Pattern → Bool
  | .identifier _ _ _ | .object _ | .array _ _ _ | .rest _ _ _ => true
  | .withDefault _ _ _ | .target _ => false

/-- The parameters of a signature, behind their parenthesis. -/
def signatureParameters (g : Grammar) : Parser (List Parameter) := do
  let parameters ← g.parameters
  unless parameters.all fun p => p.target.isSignature do
    failUnexpected ("an identifier, [ for an array pattern, \x7b for an object patter or ... " ++
      "for a rest pattern")
  expect ")"
  return parameters

/-- Type parameters and parameters of a signature. -/
def signature (g : Grammar) : Parser (List Piece) := do
  let types ← typeParameters? g false true
  expect "("
  return types ++ parametersLayout (← signatureParameters g)

/-- The end of a member of a type. -/
def endTypeMember : Parser Unit := do
  unless ← eat "," do expectTerminator

/-! ### Members of object types -/

/-- The key of a member of an object type. -/
def typeKey (g : Grammar) : Parser (List Piece) := do
  if ← eat "[" then
    let key ← g.assignment
    expect "]"
    return [.text "[", .expr key, .text "]"]
  match ← tokenHere with
  | .string _ _ | .number _ _ => return [.expr (← g.callee)]
  | .punctuator "#" =>
    let start ← offsetHere
    let name ← takePrivateName
    noteAt .privateInType start
    return [.text name]
  | _ => return [.text (← takeWord)]

/-- Whether an index stands here: a name in brackets and a colon behind it. -/
def isAtIndex : Parser Bool := do
  unless ← isAt "[" do return false
  lookAhead false do
    skip
    unless ← isAtName do return false
    skip
    isAtOneOf [":", ","]

/-- An index of an object type. -/
def indexMember (g : Grammar) : Parser (List Piece) := do
  expect "["
  let start ← offsetHere
  let name ← takeWord
  if ← eat "," then noteAt .indexParameters start else expect ":"
  let range ← g.type
  expect "]"
  let type ← annotation? g
  endTypeMember
  return .text s!"[{name}: " :: range ++ .text "]" :: type ++ [Piece.text ";"]

/-- A member that can be called or constructed, behind `lead`. -/
def callableMember (g : Grammar) (lead colon : String) : Parser (List Piece) := do
  let parameters ← signature g
  let result ← if ← isAt ":" then resultBehind g ":" colon else pure []
  endTypeMember
  return textPieces lead ++ parameters ++ result ++ [Piece.text ";"]

/-- An accessor of an object type, if one stands here. -/
def typeAccessor? (g : Grammar) (isReadonly : Bool) : Parser (Option (List Piece)) :=
  attempt do
    if isReadonly then failHere .readonlyAccessor
    let isGetter ← eatWord "get"
    unless isGetter do expectWord "set"
    let key ← typeKey g
    expect "("
    if isGetter then
      expect ")"
      let type ← annotation? g
      endTypeMember
      return some (.text "get " :: key ++ .text "()" :: type ++ [Piece.text ";"])
    let parameters ← signatureParameters g
    if parameters.isEmpty then failHere .setterParameterExpected
    endTypeMember
    return some (.text "set " :: key ++ parametersLayout (parameters.take 1) ++ [Piece.text ";"])

/-- A property or a method of an object type. -/
def keyedMember (g : Grammar) (isReadonly : Bool) : Parser (List Piece) := do
  let key ← typeKey g
  let mark := if ← eat "?" then "?" else ""
  if (← isAt "(") || (← isAtOpener) then
    if isReadonly then failHere .readonlyMethod
    return key ++ (← callableMember g mark ": ")
  let type ← annotation? g
  endTypeMember
  return key ++ textPieces mark ++ type ++ [Piece.text ";"]

/-- A member of an object type. -/
def typeMember (g : Grammar) : Parser (List Piece) := do
  if (← isAt "(") || (← isAtOpener) then return ← callableMember g "" " : "
  if (← isAtWord "new") && (← isFollowedBy (·.token.isOneOf ["(", "<"])) then
    skip
    return ← callableMember g "new" ": "
  let isReadonly := (← takeModifier? ["readonly"]).isSome
  let lead := textPieces (if isReadonly then "readonly " else "")
  if ← isAtIndex then return lead ++ (← indexMember g)
  match ← typeAccessor? g isReadonly with
  | some accessor => return lead ++ accessor
  | none => return lead ++ (← keyedMember g isReadonly)

/-- Members of an object type in braces. -/
def typeMembers (g : Grammar) : Parser (List Piece) := do
  expect "\x7b"
  let members ← iterate (fun (found : List (List Piece)) => do
    if ← isAt "\x7d" then return .inr found.reverse
    return .inl ((← typeMember g) :: found)) []
  expect "\x7d"
  return membersLayout members

/-! ### Mapped types -/

/-- Whether a mapped type starts here: braces around a name that goes over the members of a type. -/
def isAtMapped : Parser Bool :=
  lookAhead false do
    expect "\x7b"
    if ← eat "+" then return ← isAtWord "readonly"
    if ← eat "-" then return ← isAtWord "readonly"
    let _ ← eatWord "readonly"
    unless ← eat "[" do return false
    unless ← isAtName do return false
    skip
    isAtWord "in"

/-- A mark with a sign before it, if either stands here. -/
def signedMark (mark : Token) : Parser String := do
  for sign in ["+", "-"] do
    if ← eat sign then
      let token ← tokenHere
      unless token = mark do failHere (.expected mark.spelling token.spelling)
      skip
      return sign ++ mark.spelling
  if (← tokenHere) = mark then
    skip
    return mark.spelling
  return ""

/-- A mapped type. -/
def mappedType (g : Grammar) : Parser (List Piece) := do
  expect "\x7b"
  let readonly ← signedMark (.word "readonly")
  expect "["
  let name ← takeWord
  let range ← typeBehind g (.word "in") s!"[{name} in "
  let other ← typeBehind? g (.word "as") " as "
  expect "]"
  let optional ← signedMark (.punctuator "?")
  let type ← typeBehind? g (.punctuator ":") ": "
  expectTerminator
  expect "\x7d"
  return membersLayout
    [textPieces (if readonly.isEmpty then "" else readonly ++ " ") ++ range ++ other
      ++ .text ("]" ++ optional) :: type ++ [Piece.text ";"]]

/-! ### Names of types -/

/-- Names with dots between them. A dot with no name behind it is noted. -/
def qualifiedName : Parser String := do
  let first ← takeWord
  iterate (fun (name : String) => do
    unless ← eat "." do return .inr name
    unless (← isAtAnyWord) || (← isAt "#") do
      noteAt .identifierExpected (← offsetHere)
      return .inr name
    return .inl (name ++ "." ++ (← takeWord))) first

/-- A type that is known by its name. -/
def namedType (g : Grammar) : Parser (List Piece) := do
  let start ← offsetHere
  let isModified ← eatParameterModifier
  let name ← qualifiedName
  let arguments ← typeArguments? g
  if isModified then noteAt .parameterModifier start
  return .text name :: arguments

/-- How the module of an imported type is to be read. -/
def importOptions (g : Grammar) : Parser (List Piece) := do
  expect "\x7b"
  expectWord "with"
  expect ":"
  let options ← g.callee
  let _ ← eat ","
  expect "\x7d"
  return [.text ", \x7b with: ", .expr options, .text " \x7d"]

/-- The type of a module, or one that it exports. -/
def importedType (g : Grammar) : Parser (List Piece) := do
  expectWord "import"
  expect "("
  let source ← lexemeHere
  let raw ← takeRaw
  unless source.token.isString do noteAt .importedTypeSource source.span.start
  let options ← if ← eat "," then
      (do if ← isAt "\x7b" then importOptions g else pure [])
    else pure []
  expect ")"
  let path ← if ← eat "." then pure [Piece.text ("." ++ (← qualifiedName))] else pure []
  let arguments ← if ← isAtOpener then typeArguments g else pure []
  return .text ("import(" ++ raw) :: options ++ .text ")" :: path ++ arguments

/-- The type of a value. -/
def typeQuery (g : Grammar) : Parser (List Piece) := do
  expectWord "typeof"
  let value ← if ← isAtWord "import" then importedType g else pure [.text (← qualifiedName)]
  return .text "typeof " :: value ++ (← typeArguments? g)

/-! ### Types -/

/-- The label of an element of a tuple type, if there is one. -/
def tupleLabel? : Parser (Option String) :=
  attempt do
    let lead := if ← eat "..." then "..." else ""
    let name ← takeWord
    let mark := if ← eat "?" then "?" else ""
    expect ":"
    return some (lead ++ name ++ mark ++ ": ")

/-- How an element of a tuple type counts. -/
inductive TupleElementKind
  /-- It has to be there. -/
  | required
  /-- It may be left out. -/
  | optional
  /-- It stands for all that is left. -/
  | rest
deriving DecidableEq, Repr

/-- An element of a tuple type. -/
def tupleElement (g : Grammar) : Parser (TupleElementKind × List Piece) := do
  let label := textPieces ((← tupleLabel?).getD "")
  if ← eat "..." then return (.rest, label ++ .text "..." :: (← g.type))
  let type ← g.type
  if ← eat "?" then return (.optional, label ++ type ++ [Piece.text "?"])
  return (.required, label ++ type)

/-- A tuple type. Elements that have to be there come before those that may be left out. -/
def tupleType (g : Grammar) : Parser (List Piece) := do
  let start ← offsetHere
  expect "["
  let elements ← typeList (isAt "]") (tupleElement g)
  expect "]"
  let behindOptional := (elements.map Prod.fst).dropWhile (· != .optional)
  if behindOptional.contains .required then failAt .requiredElement start
  return .text "[" :: commaPieces (elements.map Prod.snd) ++ [Piece.text "]"]

/-- The words that are types of their own. -/
def typeWords : List String :=
  ["void", "null", "any", "boolean", "bigint", "never", "number", "object", "string", "symbol",
   "unknown", "undefined", "intrinsic"]

/-- What a type may start with, for messages. -/
def typeStarts : String :=
  "an identifier, void, yield, null, await, break, a string literal, a numeric literal, true, " ++
    "false, \x60, -, import, this, typeof, \x7b, [, ("

/-- What a type says about the value that its member belongs to, behind `this`. -/
def thisPredicate (g : Grammar) (asserts : String) : Parser (List Piece) := do
  expectWord "this"
  unless ← isOnNewLine do
    if ← eatWord "is" then return .text (asserts ++ "this is ") :: (← g.type)
  return [.text (asserts ++ "this")]

/-- A type that no operator applies to. -/
def primaryType (g : Grammar) : Parser (List Piece) := do
  requireToken
  match ← tokenHere with
  | .punctuator "(" =>
    skip
    let inner ← g.type
    expect ")"
    return .text "(" :: inner ++ [Piece.text ")"]
  | .punctuator "[" => tupleType g
  | .punctuator "\x7b" => if ← isAtMapped then mappedType g else typeMembers g
  | .punctuator "\x60" => templateLayout false g.type
  | .punctuator "-" =>
    skip
    requireToken
    match ← tokenHere with
    | .number _ _ | .bigint _ _ => return [.text ("-" ++ (← takeRaw))]
    | _ => failUnexpected "numeric literal or bigint literal"
  | .string _ _ | .number _ _ | .bigint _ _ | .word "true" | .word "false" =>
    return [.text (← takeRaw)]
  | .word "typeof" => typeQuery g
  | .word "import" => importedType g
  | .word "this" => thisPredicate g ""
  | .word w =>
    if isKeyword w && !(["void", "yield", "null", "await", "break"].contains w) then
      failUnexpected typeStarts
    if w = "asserts" && (← isFollowedBy (·.token = .word "this")) then
      skip
      return ← thisPredicate g "asserts "
    if typeWords.contains w && !(← isFollowedBy (·.token = .punctuator ".")) then
      skip
      return [.text w]
    namedType g
  | _ => failUnexpected typeStarts

/-- A type and the brackets behind it. -/
def postfixType (g : Grammar) : Parser (List Piece) := do
  let first ← primaryType g
  iterate (fun (type : List Piece) => do
    unless ← isOnNewLine do
      if ← eat "[" then
        if ← eat "]" then return .inl (type ++ [Piece.text "[]"])
        let index ← g.type
        expect "]"
        return .inl (type ++ .text "[" :: index ++ [Piece.text "]"])
    return .inr type) first

/-- Types with an operator between each two, which may stand before the first one as well. -/
def typeChain (operator : String) (member : Parser (List Piece)) : Parser (List Piece) := do
  let _ ← eat operator
  let first ← member
  iterate (fun (type : List Piece) => do
    if ← eat operator then
      return .inl (type ++ .text s!" {operator} " :: (← member))
    return .inr type) first

/-- The bound of an inferred part of a type, if there is one. A choice that would follow it takes it
away, unless types may not end with a choice here. -/
def inferredBound? (g : Grammar) : Parser (List Piece) := do
  let bound ← attempt do
    expectWord "extends"
    let bound ← g.plainType
    return if (← read).noTypeChoice || !(← isAt "?") then some bound else none
  return match bound with
    | some bound => .text " extends " :: bound
    | none => []

/-- The words that stand before a type, and then the type. -/
def operatorType (g : Grammar) : Parser (List Piece) := do
  let words ← iterate (fun (words : String) => do
    match ← tokenHere with
    | .word w =>
      if ["keyof", "unique", "readonly"].contains w then
        skip
        return .inl (words ++ w ++ " ")
      return .inr words
    | _ => return .inr words) ""
  if ← eatWord "infer" then
    let name ← takeWord
    return .text (words ++ "infer " ++ name) :: (← inferredBound? g)
  return textPieces words ++ (← postfixType g)

/-- Whether a function type starts here: type parameters, or parentheses that can only be those of
parameters. -/
def isAtFunctionType (g : Grammar) : Parser Bool := do
  if ← isAtOpener then return true
  unless ← isAt "(" do return false
  lookAhead false do
    skip
    if ← isAtOneOf [")", "..."] then return true
    let _ ← eatParameterModifier
    let isParameter ← if ← isAtAnyWord then do
        skip
        pure true
      else if ← isAtOneOf ["\x7b", "["] then do
        let _ ← g.pattern
        pure true
      else pure false
    unless isParameter do return false
    if ← isAtOneOf [":", ",", "=", "?"] then return true
    if ← eat ")" then isAt "=>" else return false

/-- A function type behind the words before it. -/
def functionType (g : Grammar) (lead : String) : Parser (List Piece) := do
  let head ← signature g
  return textPieces lead ++ head ++ (← resultBehind g "=>" " => ")

/-- A type that is no choice. -/
def readPlainType (g : Grammar) : Parser (List Piece) := do
  if ← isAtFunctionType g then return ← functionType g ""
  if ← eatWord "new" then return ← functionType g "new "
  if (← isAtWord "abstract") && (← isFollowedBy (·.token = .word "new")) then
    skip
    skip
    return ← functionType g "abstract new "
  typeChain "|" (typeChain "&" (operatorType g))

/-- A type. -/
def readType (g : Grammar) : Parser (List Piece) :=
  inContext (fun c => { c with noTypeChoice := false }) do
    let type ← g.plainType
    if ← isOnNewLine then return type
    unless ← eatWord "extends" do return type
    let bound ← inContext (fun c => { c with noTypeChoice := true }) g.plainType
    expect "?"
    let yes ← g.type
    expect ":"
    let no ← g.type
    return type ++ .text " extends " :: bound ++ .text " ? " :: yes ++ .text " : " :: no

end SvelteStories.Script

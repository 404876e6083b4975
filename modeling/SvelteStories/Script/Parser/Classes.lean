/-
Classes of scripts:

* `heritage`: names that a class implements or an interface extends;
* `ClassKey`, `readClassKey`: the keys of members;
* `MemberHead`: the words before a member;
* `propertyMember`, `methodMember`, `constructorMember`: the kinds of members;
* `readClass`: a class.
-/
import SvelteStories.Script.Parser.Chains

namespace SvelteStories.Script

/-! ### Heritage -/

/-- Whether an expression can stand for an interface. -/
def Expr.isInterface : Expr → Bool
  | .identifier _ _ | .member _ _ _ => true
  | .annotated _ about _ _ _ => about = .instantiated
  | _ => false

/-- One name in a list of interfaces, with its type arguments and where it starts. -/
def heritageElement (g : Grammar) : Parser (Nat × List Piece) := do
  let start ← offsetHere
  let name ← takeWord
  let value ← readChain g start false false (.identifier (← spanFrom start) name)
  unless value.isInterface do noteAt .interfaceBase start
  match value with
  | .annotated _ .instantiated _ _ _ => return (start, [.expr value])
  | _ =>
    let types ← if ← isAtOpener then typeArguments g else pure []
    return (start, .expr value :: types)

/-- Names of interfaces with commas between them. -/
def heritage (g : Grammar) : Parser (List (Nat × List Piece)) :=
  typeList (do if ← isAt "\x7b" then return true else isAtOneOfWords ["implements", "extends"])
    (heritageElement g)

/-- The layout of a list of interfaces. -/
def heritageLayout (word : String) (elements : List (Nat × List Piece)) : List Piece :=
  .text s!" {word} " :: commaPieces (elements.map Prod.snd)

/-- What a class extends, with its type arguments. -/
def baseClass (g : Grammar) : Parser (List Piece) := do
  let base ← g.operand
  match base with
  | .annotated _ .instantiated _ _ _ => return [.expr base]
  | _ =>
    let types ← if (← isTyped) && (← isAt "<") then typeArguments g else pure []
    return .expr base :: types

/-- What a class extends and implements. -/
structure ClassHeritage where
  /-- Whether it extends another class. -/
  hasBase : Bool
  /-- The layout. -/
  layout : List Piece

/-- What stands between the name of a class and its body. Clauses in wrong places are noted. -/
def classHeritage (g : Grammar) : Parser ClassHeritage := do
  let typed ← isTyped
  let hasBase ← eatWord "extends"
  let base ← if hasBase then do
      let base ← baseClass g
      if typed then
        if ← eat "," then (← heritage g).forM fun (start, _) => noteAt .manyBases start
      pure (.text " extends " :: base)
    else pure []
  if ← eatWord "extends" then
    noteAt .secondExtends (← get).last.start
    let _ ← baseClass g
  unless typed do return ⟨hasBase, base⟩
  let interfaces ← if ← eatWord "implements" then
      pure (heritageLayout "implements" (← heritage g))
    else pure []
  if ← eatWord "implements" then
    noteAt .secondImplements (← get).last.start
    let _ ← heritage g
  let isLate ← eatWord "extends"
  if isLate then
    noteAt .lateExtends (← get).last.start
    let _ ← baseClass g
  return ⟨hasBase || isLate, base ++ interfaces⟩

/-! ### Keys -/

/-- The key of a member of a class. -/
inductive ClassKey
  /-- A key that is known outside of the class. -/
  | visible (key : PropertyKey)
  /-- A private name, with its hash. -/
  | hidden (offset : Nat) (name : String)

namespace ClassKey

/-- Where a key starts. -/
def start : ClassKey → Nat
  | visible key => key.span.start
  | hidden offset _ => offset

/-- The layout of a key. -/
def layout : ClassKey → List Piece
  | visible key => [.key key]
  | hidden _ name => [.text name]

/-- Whether a key is this word. -/
def isWord (word : String) : ClassKey → Bool
  | visible (.identifier _ name) => name = word
  | _ => false

/-- Whether a key is the name of the constructor. -/
def isConstructor : ClassKey → Bool
  | visible (.identifier _ name) => name = "constructor"
  | visible (.string _ value _) => value = "constructor"
  | _ => false

/-- How messages name the member of a key. -/
def name : ClassKey → String
  | visible key => key.name?.getD ""
  | hidden _ name => name

end ClassKey

/-- The key of a member of a class. -/
def readClassKey (g : Grammar) : Parser ClassKey := do
  unless ← isAt "#" do return .visible (← readKey g)
  let start ← offsetHere
  let name ← takePrivateName
  if name = "#constructor" then noteAt .privateConstructor start
  return .hidden start name

/-! ### Members -/

/-- The words before a member of a class. -/
structure MemberHead where
  /-- Where the member starts. -/
  start : Nat
  /-- Where `declare` stands. -/
  declared : Option Nat := none
  /-- Who may use the member. -/
  access : Option String := none
  /-- Where `static` stands. -/
  isStatic : Option Nat := none
  /-- Whether derived classes define it. -/
  isAbstract : Bool := false
  /-- Whether it takes the place of one in the base class. -/
  overrides : Bool := false
  /-- Where `readonly` stands. -/
  isReadonly : Option Nat := none
  /-- Whether it is kept behind a getter and a setter. -/
  isAccessor : Bool := false
  /-- Where the last modifier stands. -/
  lastModifier : Option Nat := none

/-- The words in the order that they are printed in. -/
def MemberHead.text (h : MemberHead) : String :=
  let words := (if h.declared.isSome then ["declare"] else []) ++ h.access.toList
    ++ (if h.isStatic.isSome then ["static"] else []) ++ (if h.isAbstract then ["abstract"] else [])
    ++ (if h.overrides then ["override"] else [])
    ++ (if h.isReadonly.isSome then ["readonly"] else [])
    ++ (if h.isAccessor then ["accessor"] else [])
  String.join (words.map (· ++ " "))

/-- A member of a class. -/
structure ClassMember where
  /-- Its layout. -/
  layout : List Piece
  /-- Where it starts, if it is abstract and known outside of the class. -/
  isAbstract : Option Nat := none
  /-- Where it starts, if it is a constructor with a body. -/
  isConstructor : Option Nat := none

/-- Where a member starts, if it is abstract and known outside of the class. -/
def MemberHead.abstractStart (h : MemberHead) : ClassKey → Option Nat
  | .visible _ => if h.isAbstract then some h.start else none
  | .hidden _ _ => none

/-- Whether the parameters of a method stand at the cursor. -/
def isAtMethod : Parser Bool := do
  if ← isAt "(" then return true
  return (← isTyped) && (← isAt "<")

/-- Whether a property goes on or ends at the cursor, behind its key. `mayEnd` tells that a line
break ends it, too. -/
def isAtProperty (mayEnd : Bool) : Parser Bool := do
  if (← isTyped) && (← isAtOneOf ["!", ":"]) then return true
  if ← isAtOneOf ["=", "\x7d"] then return true
  if mayEnd then isAtTerminator else isAt ";"

/-- A question mark behind a key, if types may be written. -/
def eatOptional : Parser Bool := do
  if ← isTyped then eat "?" else return false

/-- Notes modifiers that private members cannot have. -/
def checkHidden (h : MemberHead) (key : ClassKey) : Parser Unit := do
  if let .hidden offset _ := key then
    if h.declared.isSome then noteAt (.privateModifier "declare") offset
    if h.isAbstract then noteAt (.privateModifier "abstract") offset

/-- A property of a class behind its key. -/
def propertyMember (g : Grammar) (h : MemberHead) (key : ClassKey) (isOptional : Bool) :
    Parser ClassMember := do
  if key.isConstructor then failAt .propertyConstructor key.start
  checkHidden h key
  let isDefinite ← if (← isTyped) && !isOptional then eat "!" else pure false
  let typing ← annotation? g
  let value ← inContext (fun c => { c with inField := true, inOperator := true }) do
    if ← eat "=" then return some (← g.assignment) else return none
  unless ← eatTerminator do noteAt .semicolonExpected (← faultOffset)
  match key with
  | .hidden _ _ => if h.access.isSome then noteAt .privateAccess h.start
  | .visible _ => if h.isAbstract && value.isSome then noteAt (.abstractValue key.name) h.start
  let mark := if isOptional then "?" else if isDefinite then "!" else ""
  return {
    layout := textPieces h.text ++ key.layout ++ textPieces mark ++ typing
      ++ (match value with
          | some value => [.text " = ", .expr value]
          | none => []) ++ [.text ";"]
    isAbstract := h.abstractStart key }

/-- How a method is run. -/
structure MethodKind where
  /-- Whether it is asynchronous. -/
  isAsync : Bool := false
  /-- Whether it is a generator. -/
  isGenerator : Bool := false
  /-- The word that makes it an accessor. -/
  accessor : Option String := none
  /-- What looks at its parameters. -/
  check : List Parameter → Parser Unit := anyParameters

/-- The words and marks before the key. -/
def MethodKind.text (k : MethodKind) : String :=
  (if k.isAsync then "async " else "") ++ (k.accessor.map (· ++ " ")).getD ""
    ++ (if k.isGenerator then "*" else "")

/-- A method or an accessor of a class behind its key. -/
def methodMember (g : Grammar) (h : MemberHead) (kind : MethodKind) (key : ClassKey)
    (isOptional : Bool) : Parser ClassMember := do
  let parts ← inContext (fun c => { c with inField := false }) do
    readFunctionParts g kind.isAsync kind.isGenerator kind.check
  match key with
  | .hidden _ _ => if h.access.isSome then noteAt .privateAccess h.start
  | .visible _ =>
    if h.isAbstract && parts.body.isSome then noteAt (.abstractBody key.name) h.start
  return {
    layout := textPieces (h.text ++ kind.text) ++ key.layout
      ++ textPieces (if isOptional then "?" else "") ++ parts.layout " "
    isAbstract := h.abstractStart key }

/-- Notes type parameters of a constructor. -/
def checkConstructorTypes (g : Grammar) : Parser Unit := do
  unless (← isTyped) && (← isAt "<") do return
  let start ← offsetHere
  if ← isFollowedBy (·.token = .punctuator ">") then
    skip
    let closer ← offsetHere
    skip
    noteAt .noTypeParameters start
    noteAt .constructorTypes closer
  else
    let first := (← peek).span.start
    let _ ← typeParameters g false true
    noteAt .constructorTypes first

/-- A constructor behind its key. -/
def constructorMember (g : Grammar) (h : MemberHead) : Parser ClassMember := do
  let typed ← isTyped
  if typed && h.overrides then noteAt (.modifiedConstructor "override") h.start
  checkConstructorTypes g
  expect "("
  let parameters ← constructorParameters g
  expect ")"
  if typed then
    if ← eat ":" then
      let offset ← offsetHere
      let _ ← g.type
      noteAt .constructorResult offset
  let body ← functionBody? g false false parameters
  if body.isNone then
    parameters.forM fun p => unless p.modifiers.isEmpty do noteAt .parameterModifier p.start
    noteDefaults parameters
  if let some offset := h.isStatic then noteAt (.modifiedConstructor "static") offset
  if let some offset := h.lastModifier then
    if h.isAbstract then noteAt .abstractElsewhere offset
  return {
    layout := .text (h.access.elim "" (· ++ " ") ++ "constructor")
      :: FunctionParts.layout ⟨[], parameters, [], body.map blockLayout⟩ ""
    isConstructor := if body.isSome then some h.start else none }

/-- A member that is named by a word that may be a modifier, if it is. -/
def wordMember? (g : Grammar) (h : MemberHead) (mayEnd : Bool) (word : String) (span : Span) :
    Parser (Option ClassMember) := do
  let key := ClassKey.visible (.identifier span word)
  if ← isAtMethod then return some (← methodMember g h {} key false)
  let isOptional ← if ← isTyped then isAt "?" else pure false
  unless isOptional || (← isAtProperty mayEnd) do return none
  return some (← propertyMember g h key (← eatOptional))

/-- The word at the cursor and its place, if it is this one. -/
def takeWordAt? (word : String) : Parser (Option Span) := do
  if ← eatWord word then return some (← get).last
  return none

/-- The words before a member that may stand in any order, and what is wrong with their order. -/
def readModifiers (head : MemberHead) : Parser MemberHead :=
  iterate (fun (h : MemberHead) => do
    let startsBlock ← if ← isAtWord "static" then isFollowedBy (·.token = .punctuator "\x7b")
      else pure false
    if startsBlock || !(← isTyped) then return .inr h
    let some word ← takeModifier? ["abstract", "readonly", "override", "static"] | return .inr h
    let offset := (← get).last.start
    let h := { h with lastModifier := some offset }
    match word with
    | "abstract" =>
      if h.isAbstract then noteAt (.repeatedModifier word) offset
      else if h.overrides then noteAt (.modifierOrder word "override") offset
      else if h.isReadonly.isSome then noteAt (.modifierOrder word "readonly") offset
      return .inl { h with isAbstract := true }
    | "override" =>
      if h.overrides then noteAt (.repeatedModifier word) offset
      else if h.isReadonly.isSome then noteAt (.modifierOrder word "readonly") offset
      else if h.declared.isSome then noteAt (.modifierConflict word "declare") offset
      else unless (← read).hasBase do noteAt .overrideWithoutBase offset
      return .inl { h with overrides := true }
    | "readonly" =>
      if h.isReadonly.isSome then
        noteAt (.repeatedModifier word) offset
        return .inl h
      return .inl { h with isReadonly := some offset }
    | _ =>
      if h.overrides then noteAt (.modifierOrder word "override") offset
      return .inl { h with isStatic := some offset }) head

/-- A block of a class that runs once. -/
def staticBlock (g : Grammar) (h : MemberHead) : Parser ClassMember := do
  if let some offset := h.declared then noteAt .misplacedModifier offset
  if h.access.isSome then noteAt .misplacedModifier (← offsetHere)
  let body ← inContext (fun c => { c with inStaticBlock := true, inField := true }) (readBlock g)
  return { layout := .text "static" :: blockLayout body }

/-- A method that is asynchronous, behind the word that says so. -/
def asyncMember (g : Grammar) (head : MemberHead) (isOptional : Bool) : Parser ClassMember := do
  let overrides ← if ← isTyped then takeModifier? ["override"] else pure none
  if overrides.isSome then
    noteAt (.modifierOrder "override" "async") (← get).last.start
  let h := { head with overrides := head.overrides || overrides.isSome }
  let isGenerator ← eat "*"
  let key ← readClassKey g
  if key.isConstructor then failAt .asyncConstructor key.start
  if h.isReadonly.isSome then noteAt .readonlyMethod h.start
  let isOptional ← if isOptional then pure true else eatOptional
  methodMember g h { isAsync := true, isGenerator } key isOptional

/-- A getter or a setter behind the word that says so, which starts at an offset. -/
def accessorMember (g : Grammar) (h : MemberHead) (word : String) (offset : Nat)
    (isOptional : Bool) : Parser ClassMember := do
  let key ← readClassKey g
  if h.isReadonly.isSome then noteAt .readonlyAccessor offset
  if key.isConstructor then noteAt .accessorConstructor offset
  let check := if word = "get" then checkGetter offset else checkSetter offset
  methodMember g h { accessor := some word, check } key isOptional

/-- A member behind its modifiers. -/
def memberBehindHead (g : Grammar) (h : MemberHead) : Parser ClassMember := do
  if ← eat "*" then
    let key ← readClassKey g
    if h.isReadonly.isSome then noteAt .readonlyMethod h.start
    if key.isConstructor then noteAt .generatorConstructor h.start
    return ← methodMember g h { isGenerator := true } key false
  let key ← match h.isReadonly with
    | some offset =>
      if ← isAtOneOf ["!", ":"] then
        pure (ClassKey.visible (.identifier ⟨offset, offset + 8⟩ "readonly"))
      else readClassKey g
    | none => readClassKey g
  let isOptional ← eatOptional
  if ← isAtMethod then
    if let some offset := h.declared then noteAt .declaredMethod offset
    if h.isReadonly.isSome then failAt .readonlyMethod h.start
    if key.isConstructor then return ← constructorMember g h
    return ← methodMember g h {} key isOptional
  let isNextGenerator := (← isOnNewLine) && (← isAt "*")
  let accessor ← match ["get", "set"].find? key.isWord with
    | some word => pure (if (← isAtProperty false) || isNextGenerator then none else some word)
    | none => pure none
  if accessor.isNone && (← isAtProperty true) then return ← propertyMember g h key isOptional
  if key.isWord "async" && !(← isOnNewLine) then return ← asyncMember g h isOptional
  match accessor with
  | some word => accessorMember g h word key.start isOptional
  | none => failUnexpected "* for generator, private key, identifier or async"

/-- A member of a class. -/
def readClassMember (g : Grammar) : Parser ClassMember := do
  let typed ← isTyped
  let start ← offsetHere
  let takeTyped? (word : String) : Parser (Option Span) :=
    if typed then takeWordAt? word else return none
  let h : MemberHead := { start }
  let early ← takeTyped? "declare"
  if let some span := early then
    if let some m ← wordMember? g h true "declare" span then return m
  let access ← if typed then accessModifier? else pure none
  let h := { h with access }
  let late ← if early.isSome then pure none else takeTyped? "declare"
  if let some span := late then
    if let some m ← wordMember? g h true "declare" span then return m
  let h := { h with declared := (early.or late).map Span.start }
  let static ← takeWordAt? "static"
  let accessor ← takeTyped? "accessor"
  if let some span := static then
    unless accessor.isSome do
      if let some m ← wordMember? g h false "static" span then return m
  let h := { h with isStatic := static.map Span.start }
  if let some span := accessor then
    if let some m ← wordMember? g h false "accessor" span then return m
  let h ← readModifiers { h with isAccessor := accessor.isSome }
  let h ← if typed && !h.isAccessor && h.isReadonly.isNone then
      pure { h with isAccessor := ← eatWord "accessor" }
    else pure h
  if h.isStatic.isSome && (← isAt "\x7b") then return ← staticBlock g h
  if typed && !h.isAbstract && !h.overrides && h.access.isNone && (← isAtIndex) then
    return { layout := textPieces h.text ++ (← indexMember g) }
  memberBehindHead g h

/-! ### Classes -/

/-- A class. -/
structure ClassParts where
  /-- Its name. -/
  name : Option String
  /-- What stands before `extends`. -/
  head : List Piece
  /-- What it extends and implements. -/
  heritage : List Piece
  /-- Its body. -/
  body : List Piece

/-- The members of a class. A second constructor is noted, unless constructors are implemented
elsewhere. -/
def classMembers (g : Grammar) : Parser (List ClassMember) := do
  iterate (fun ((found, hasConstructor) : List ClassMember × Bool) => do
    if (← isAt "\x7d") || (← isAtEnd) then return .inr found.reverse
    if ← eat ";" then return .inl ({ layout := [.text ";"] } :: found, hasConstructor)
    let m ← readClassMember g
    if let some offset := m.isConstructor then
      if hasConstructor && !(← read).isAmbient then noteAt .secondConstructor offset
    return .inl (m :: found, hasConstructor || m.isConstructor.isSome)) ([], false)

/-- The names of types that are built in. -/
def builtInTypes : List String :=
  ["string", "null", "number", "object", "any", "unknown", "boolean", "bigint", "symbol", "void",
   "never", "intrinsic"]

/-- A class, from its keyword on. `isNamed` tells that it has to have a name, and `isAbstract` that
it may have abstract members. -/
def readClass (g : Grammar) (isNamed isAbstract : Bool) : Parser ClassParts :=
  inContext (fun c => { c with isStrict := true, inClass := true }) do
    expectWord "class"
    let start ← offsetHere
    let name ← if isNamed then pure (some (← takeDeclaredName))
      else optionalName takeDeclaredName
    let typed ← isTyped
    if typed && name.any builtInTypes.contains then noteAt .className start
    let types ← ownTypeParameters g true
    let above ← classHeritage g
    expect "\x7b"
    let members ← inContext
      (fun c => { c with mayUseSuper := true, hasBase := above.hasBase }) (classMembers g)
    if ← isAtEnd then noteAt (.expected "\x7d" Token.stop.spelling) (← faultOffset)
    else expect "\x7d"
    unless isAbstract do
      members.forM fun m => do
        if let some offset := m.isAbstract then noteAt .abstractOutside offset
    let head := "class" ++ (name.map (" " ++ ·)).getD ""
    return ⟨name, .text head :: types, above.layout,
      .text " " :: membersLayout (members.map ClassMember.layout)⟩

end SvelteStories.Script

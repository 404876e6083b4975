/-
Imports of modules:

* `readNamePair`: names in the braces of imports and exports;
* `readSource`: the module that names come from;
* `readImport`: an import.
-/
import SvelteStories.Script.Parser.Statements

namespace SvelteStories.Script

/-! ### Names in braces -/

/-- Whether a name is this word. -/
def ExternalName.isWord (w : String) : ExternalName → Bool
  | word _ v => v = w
  | string _ _ _ => false

/-- The name of an export at the cursor. -/
def readExternalName : Parser ExternalName := do
  let l ← lexemeHere
  match l.token with
  | .word value =>
    skip
    return .word l.span value
  | .string value raw =>
    skip
    return .string l.span value raw
  | _ => failUnexpected "identifier or string"

/-- The name at the cursor, which is bound. -/
def takeBoundWord : Parser ExternalName := do
  let start ← offsetHere
  let name ← takeBoundName
  return .word (← spanFrom start) name

/-- A name in braces. -/
structure NamePair where
  /-- The name. -/
  name : ExternalName
  /-- The name that it gets instead. -/
  other : Option ExternalName
  /-- Whether it only matters as a type. -/
  typeOnly : Bool

/-- A name in braces, whose new name is read by `take`. The word `type` marks the name behind it,
unless that is the word `as` with a new name for `type` itself; `mark` looks at where the mark
stands. -/
def readNamePair (take : Parser ExternalName) (mark : Nat → Parser Unit) : Parser NamePair := do
  let newName : Parser (Option ExternalName) := do
    if ← eatWord "as" then return some (← take) else return none
  let first ← readExternalName
  unless (← isTyped) && first.isWord "type" && (← isAtAnyWord) do
    return ⟨first, ← newName, false⟩
  let second ← readExternalName
  unless second.isWord "as" do
    mark first.span.start
    return ⟨second, ← newName, true⟩
  unless ← isAtAnyWord do
    mark first.span.start
    return ⟨second, none, true⟩
  let third ← take
  unless third.isWord "as" && (← isAtAnyWord) do return ⟨first, some third, false⟩
  let fourth ← take
  mark first.span.start
  return ⟨second, some fourth, true⟩

/-- Names in braces with commas between them. -/
def bracedNames {α : Type} (name : Parser α) : Parser (List α) := do
  expect "\x7b"
  let names ← iterate (fun (found : List α) => do
    if (← isAt "\x7d") || (← isAtEnd) then return .inr found.reverse
    let a ← name
    expectComma "\x7d"
    return .inl (a :: found)) []
  expect "\x7d"
  return names

/-! ### Sources -/

/-- The module that names come from, and the end of the item. With types, it may be said how the
module is to be read. -/
def readSource (g : Grammar) : Parser String := do
  requireToken
  let .string source _ ← tokenHere | failUnexpected "a string literal"
  skip
  if (← isTyped) && !(← isOnNewLine) && (← isAtOneOfWords ["assert", "with"]) then
    skip
    let _ ← readObject g
  expectTerminator
  return source

/-! ### Imports -/

/-- A name with its place. -/
structure PlacedName where
  /-- Where it stands. -/
  span : Span
  /-- The name. -/
  name : String

/-- A name that an import binds outside of braces. -/
def takeImportedName : Parser PlacedName :=
  inContext (fun c => { c with inAsync := false, inGenerator := false }) do
    let start ← offsetHere
    let name ← takeBoundName
    return ⟨← spanFrom start, name⟩

/-- Whether a name is bound here, behind a word that marks an import. The word `from` only is one if
it stands twice. -/
def isAtMarkedName : Parser Bool := do
  unless ← isAtName do return false
  unless ← isAtWord "from" do return true
  isFollowedBy (·.token = .word "from")

/-- What an import says before its braces. -/
structure ImportLead where
  /-- Whether only types are meant. -/
  typeOnly : Bool
  /-- The word that says when the module runs. -/
  phase : Option String
  /-- The name of the default export. -/
  name : Option PlacedName

/-- What an import says before its braces, behind the word `type`. -/
def typedLead (word : PlacedName) : Parser ImportLead := do
  requireToken
  if ← isAtOneOf ["\x7b", "*"] then return ⟨true, none, none⟩
  let isMark ← if ← isAtMarkedName then pure true
    else if ← isAtWord "from" then isFollowedBy (·.token = .punctuator "=")
    else pure false
  if isMark then return ⟨true, none, some (← takeImportedName)⟩
  return ⟨false, none, some word⟩

/-- What an import says before its braces, behind a word that may say when the module runs. -/
def phasedLead (lead : ImportLead) (word : String) : Parser ImportLead := do
  requireToken
  if ← isAtMarkedName then
    return { lead with phase := some word, name := some (← takeImportedName) }
  if word = "defer" && (← isAt "*") then return { lead with phase := some word, name := none }
  return lead

/-- The names that an import brings in besides the default export. -/
def importedNames (lead : ImportLead) : Parser (List ImportSpecifier) := do
  let mark (offset : Nat) : Parser Unit := do
    if lead.typeOnly then noteAt .typeInTypeImport offset
  let start ← offsetHere
  if lead.phase != some "source" then
    if ← eat "*" then
      expectWord "as"
      let name ← takeImportedName
      return [.all (← spanFrom start) name.name]
  unless lead.phase.isNone && (← isAt "\x7b") do return []
  bracedNames do
    let pair ← readNamePair takeBoundWord mark
    match pair.name, pair.other with
    | imported, some name => return .named imported.value name.value pair.typeOnly
    | .word _ value, none => return .named value value pair.typeOnly
    | .string span value _, none => failAt (.importedString value) span.start

/-- A name for a part of a namespace or for what another module exports, from the equals sign on.
`lead` stands before the sign. -/
def importEquals (lead : String) : Parser ItemForm := do
  expect "="
  let isCall ← if ← isAtWord "require" then isFollowedBy (·.token = .punctuator "(")
    else pure false
  let value ← if isCall then do
      skip
      skip
      requireToken
      unless (← tokenHere).isString do failUnexpected "a string literal"
      let raw ← takeRaw
      expect ")"
      pure ("require(" ++ raw ++ ")")
    else qualifiedName
  expectTerminator
  return .other [.text (lead ++ " = " ++ value ++ ";")]

/-- What an import says before its braces. -/
def importLead : Parser ImportLead := do
  unless ← isAtName do return ⟨false, none, none⟩
  let word ← takeImportedName
  if (← isTyped) && word.name = "type" then typedLead word else return ⟨false, none, some word⟩

/-- An import behind what it says before its braces. -/
def finishImport (g : Grammar) (lead : ImportLead) : Parser ItemForm := do
  let lead ← match lead.name.map PlacedName.name with
    | some "source" => phasedLead lead "source"
    | some "defer" => phasedLead lead "defer"
    | _ => pure lead
  if lead.name.isSome then
    unless ← isAtWord "from" do expect ","
  let names ← importedNames lead
  let leading := lead.name.toList.map fun n => ImportSpecifier.default n.span n.name
  expectWord "from"
  return .imports lead.typeOnly (leading ++ names) (← readSource g)

/-- An import. -/
def readImport (g : Grammar) : Parser ItemForm := do
  expectWord "import"
  if (← tokenHere).isString then return .imports false [] (← readSource g)
  let lead ← importLead
  if let some name := lead.name then
    if (← isTyped) && (← isAt "=") then
      return ← importEquals ("import " ++ (if lead.typeOnly then "type " else "") ++ name.name)
  finishImport g lead

end SvelteStories.Script

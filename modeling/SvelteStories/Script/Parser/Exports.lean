/-
Exports of modules:

* `readDefaultExport`: the default export;
* `exportedList`, `readExportAll`: names in braces, and all names of another module;
* `exportedDeclaration?`, `typedExport?`: declarations, and exports that only matter with types;
* `readExport`: an export.
-/
import SvelteStories.Script.Parser.Imports

namespace SvelteStories.Script

/-! ### Default exports -/

/-- A class that a module exports by default, from its keyword on. -/
def defaultClass (g : Grammar) (isAbstract : Bool) : Parser DefaultExport := do
  let c ← readClass g false isAbstract
  let head := textPieces (if isAbstract then "abstract " else "") ++ c.head
  return .classes c.name head c.heritage c.body

/-- A default export that only matters with types, if there is one. -/
def typedDefault? (g : Grammar) : Parser (Option DefaultExport) := do
  unless ← isTyped do return none
  if ← isAtWord "abstract" then
    if ← isFollowedBy (fun l => l.token = .word "class" && !l.newline) then
      skip
      return some (← defaultClass g true)
    if ← isFollowedBy (·.token = .word "interface") then
      noteAt .abstractElsewhere (← offsetHere)
      skip
  unless ← eatWord "interface" do return none
  let _ ← readInterface g
  return some .interfaces

/-- The default export behind its keywords. -/
def readDefaultExport (g : Grammar) : Parser DefaultExport := do
  if let some value ← typedDefault? g then return value
  if ← isAtWord "class" then return ← defaultClass g false
  if ← isAtFunction then
    let f ← readFunction g .optional
    return .function f.name f.parts
  let value ← inContext Context.withIn g.assignment
  expectTerminator
  return .expression value

/-! ### Exported names -/

/-- Notes the names of a list that stand for no local names, which a list without a source needs. -/
def checkLocalNames (pairs : List NamePair) : Parser Unit :=
  pairs.forM fun pair =>
    match pair.name with
    | .word span value => do
      if value = "enum" || keywords.contains value || value = "package" then
        noteAt (.exportedWord value) span.start
    | .string span _ _ => noteAt .exportedString span.start

/-- Exported names in braces, and the module that they come from if they are no local ones. -/
def exportedList (g : Grammar) (typeOnly : Bool) : Parser ItemForm := do
  let mark (offset : Nat) : Parser Unit := do
    if typeOnly then noteAt .typeInTypeExport offset
  let pairs ← bracedNames (readNamePair readExternalName mark)
  let source ← if ← eatWord "from" then pure (some (← readSource g)) else do
    checkLocalNames pairs
    let _ ← eatTerminator
    pure none
  unless typeOnly || pairs.any NamePair.typeOnly do
    return .exportNames (pairs.map fun p => (p.name, p.other.getD p.name)) source
  let names := pairs.map fun p =>
    (if p.typeOnly then "type " else "") ++ renamed p.name.text (p.other.getD p.name).text
  let behind := (source.map fun s => " from " ++ quotedSource s).getD ""
  return .other
    [.text ("export " ++ (if typeOnly then "type " else "") ++ braced names ++ behind ++ ";")]

/-- All names of another module. -/
def readExportAll (g : Grammar) (typeOnly : Bool) : Parser ItemForm := do
  expect "*"
  let name ← if ← eatWord "as" then pure (some (← readExternalName)) else pure none
  expectWord "from"
  return .exportAll typeOnly name (← readSource g)

/-! ### Exported declarations -/

/-- A declaration that exists without types, if there is one. -/
def exportedDeclaration? (g : Grammar) : Parser (Option Statement) := do
  let start ← offsetHere
  if ← isAtWord "class" then return some (← readClassDeclaration g start false)
  if ← isAtFunction then return some (← readFunctionDeclaration g)
  if (← isTyped) && (← isAtConstEnum) then
    skip
    skip
    return some (← laidOut start (readEnum g true))
  let isVariables ← if ← isAtOneOfWords ["var", "const"] then pure true else isAtLet
  if isVariables then return some (.variables (← readVariables g))
  return none

/-- An export that only matters with types, if there is one. -/
def typedExport? (g : Grammar) : Parser (Option ItemForm) := do
  unless ← isTyped do return none
  let start ← offsetHere
  if ← eatWord "declare" then
    if let some s ← readDeclared? g start then return some (.exportDeclaration s)
  if let .word word ← tokenHere then
    if let some s ← attempt (typedDeclaration? g start word true) then
      return some (.exportDeclaration s)
  if ← eatWord "import" then
    let isMarked ← if ← isAtWord "type" then
        (do let c ← read; isFollowedBy fun l => c.isNameToken l.token)
      else pure false
    if isMarked then skip
    let name ← takeWord
    return some (← importEquals ("export import " ++ (if isMarked then "type " else "") ++ name))
  if ← eat "=" then
    let value ← g.expression
    expectTerminator
    return some (.other [.text "export = ", .expr value, .text ";"])
  if ← eatWord "as" then
    expectWord "namespace"
    let name ← takeName false false
    expectTerminator
    return some (.other [.text ("export as namespace " ++ name ++ ";")])
  return none

/-! ### Exports -/

/-- An export. -/
def readExport (g : Grammar) : Parser ItemForm := do
  expectWord "export"
  requireToken
  if let some form ← typedExport? g then return form
  let typeOnly ← if ← isTyped then eatWord "type" else pure false
  unless typeOnly do
    if ← eatWord "default" then return .exportDefault (← readDefaultExport g)
    if let some s ← exportedDeclaration? g then return .exportDeclaration s
  if ← isAt "*" then return ← readExportAll g typeOnly
  exportedList g typeOnly

end SvelteStories.Script

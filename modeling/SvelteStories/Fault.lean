/-
Everything that can go wrong on the way from a stories file to a catalog entry or a stories
module:

* `Fault`: the causes, with the data that their messages name;
* `Fault.message`: the wording of each cause;
* `Fault.stage`, `Fault.number`, `Fault.code`: the stable code of each cause;
* `Fault.concern`: who is expected to act;
* `Report`: a fault in a file, at a position if one is known; `Report.display` is the text that a
  reader sees, and `errorCode?` finds the code in it again.
-/

namespace SvelteStories

/-- A position in a stories file. Lines and columns count from one, columns in characters. -/
structure Location where
  /-- Byte offset. -/
  offset : Nat
  /-- Line. -/
  line : Nat
  /-- Column. -/
  column : Nat
deriving DecidableEq, Repr, Inhabited

/-- The position as `line:column`. -/
def Location.text (l : Location) : String :=
  s!"{l.line}:{l.column}"

/-- The causes of failure. -/
inductive Fault
  /-- The file has no module script. -/
  | missingModuleScript
  /-- The addon package is imported by a default or namespace import. -/
  | unnamedImport (package : String)
  /-- The module script does not import the meta function. -/
  | missingImport
  /-- No variable is initialised with a call of the meta function. -/
  | missingDeclaration (callee : String)
  /-- The call's result is destructured without the story component. -/
  | storyNotDestructured (callee : String)
  /-- The meta function is called with something else than one object literal. -/
  | invalidArgument (callee found : String)
  /-- The call's result is bound by something else than an object pattern. -/
  | notDestructured (found : String)
  /-- Two top-level snippets have one name. -/
  | duplicateSnippet (name : String)
  /-- A story's template is not the plain name of a snippet. -/
  | invalidTemplate (story : String)
  /-- A story's template names no top-level snippet. -/
  | missingTemplate (story snippet : String)
  /-- The markup cannot be read. -/
  | markupSyntax (message : String)
  /-- A script or an attribute expression cannot be read. -/
  | scriptSyntax (message : String)
  /-- The compiled module cannot be read. -/
  | compiledSyntax (message : String)
  /-- The compiled module declares no meta. -/
  | missingCompiledMeta
  /-- The compiled module has no default export. -/
  | noDefaultExport
  /-- The compiled module has several default exports. -/
  | ambiguousDefaultExport (count : Nat)
  /-- The default export names a function that is not declared. -/
  | missingStoriesFunction (name : String)
  /-- The default export is neither a named function nor a name. -/
  | unsupportedDefaultExport (found : String)
  /-- A compiled story call has no object literal for its properties. -/
  | missingStoryProps (index : Nat)
  /-- A meta property is no string literal. -/
  | propertyNotString (property found : String)
  /-- A meta property is no array of string literals. -/
  | propertyNotStrings (property found : String)
  /-- The meta object is bound by something else than an identifier. -/
  | metaNotIdentifier
  /-- A story attribute is no string literal. -/
  | attributeNotString (attr found : String)
  /-- A story attribute is no array of string literals. -/
  | attributeNotStrings (attr found : String)
  /-- A story has neither a name nor an export name. -/
  | unnamedStory
  /-- An export name is no identifier, or a reserved word. -/
  | invalidExportName (exportName : String)
  /-- Two stories have one export name. -/
  | duplicateExportName (exportName first second : String)
  /-- An export name is one that the stories module needs for itself. -/
  | reservedExportName (exportName : String)
  /-- The source and the compiled module have different numbers of stories. -/
  | storyCountMismatch (inSource inCompiled : Nat)
  /-- Two edits touch one range. -/
  | overlappingEdits (start stop : Nat)
  /-- Generated code could not be printed. -/
  | printing (message : String)
  /-- An edit's range is outside of the text or cuts a character. -/
  | invalidEditRange (start stop length : Nat)
  /-- The component compiler failed. -/
  | componentCompiler (message : String)
  /-- The file uses the legacy template interface, which is not enabled. -/
  | legacyNotEnabled
deriving DecidableEq, Repr

/-- The stage of the work that a fault belongs to. -/
inductive Stage
  /-- Reading the stories file. -/
  | source
  /-- Reading the compiled module. -/
  | compiled
  /-- Reading the argument of the meta function. -/
  | metaArgument
  /-- Reading the attributes of a story. -/
  | storyAttributes
  /-- Editing the compiled module. -/
  | edits
  /-- Running the component compiler. -/
  | component
  /-- Meeting the legacy interface. -/
  | legacy
deriving DecidableEq, Repr

/-- Who is expected to act on a fault. -/
inductive Concern
  /-- The author: the file does not follow the contract for stories. -/
  | structural
  /-- The author: a value has to be a literal. -/
  | literals
  /-- The maintainers: the compiled module is not what the transform expects. -/
  | internal
  /-- The author: the file is of the legacy kind. -/
  | legacy
  /-- The author: the component compiler refused the file. -/
  | external
deriving DecidableEq, Repr

namespace Fault

/-- The wording of a fault. -/
def message : Fault → String
  | missingModuleScript =>
    "The stories file must declare its meta inside a module script (`<script module>`)."
  | unnamedImport package =>
    s!"Only named imports are supported from '{package}'. " ++
      s!"Use `import \x7b defineMeta \x7d from '{package}'`."
  | missingImport => "The module script does not import `defineMeta` from the addon package."
  | missingDeclaration callee =>
    s!"Could not find a variable declaration initialised with a `{callee}(...)` call in the " ++
      "module script."
  | storyNotDestructured callee =>
    s!"The `Story` component was not destructured from the `{callee}(...)` call, e.g. " ++
      s!"`const \x7b Story \x7d = {callee}(\x7b...\x7d)`."
  | invalidArgument callee found =>
    s!"`{callee}(...)` must be called with exactly one object literal argument, found {found}."
  | notDestructured found =>
    "The meta declaration must destructure its call result with an object pattern, " ++
      s!"found {found}."
  | duplicateSnippet name =>
    s!"The snippet `{name}` is declared more than once at the top level of the stories file."
  | invalidTemplate story =>
    s!"The `template` attribute of story '{story}' must reference a top-level snippet by name, " ++
      "e.g. `template=\x7bmySnippet\x7d`."
  | missingTemplate story snippet =>
    s!"Story '{story}' references the snippet `{snippet}`, which is not declared at the top level."
  | markupSyntax message => s!"Markup syntax error: {message}"
  | scriptSyntax message => s!"Script syntax error: {message}"
  | compiledSyntax message => s!"The compiled output is not a valid ES module: {message}"
  | missingCompiledMeta => "Could not find the meta declaration in the compiled output."
  | noDefaultExport => "The compiled output has no default export."
  | ambiguousDefaultExport count =>
    s!"The compiled output has {count} default exports, expected exactly one."
  | missingStoriesFunction name =>
    s!"Could not find the stories function declaration `{name}` in the compiled output."
  | unsupportedDefaultExport found =>
    s!"Unsupported default export shape in the compiled output: {found}."
  | missingStoryProps index =>
    s!"The compiled call of story #{index} has no props object literal as its second argument."
  | propertyNotString property found =>
    s!"The `{property}` property of the meta declaration must be a static string literal, " ++
      s!"found {found}."
  | propertyNotStrings property found =>
    s!"The `{property}` property of the meta declaration must be a static array of string " ++
      s!"literals, found {found}."
  | metaNotIdentifier =>
    "The `meta` property of the meta declaration must be bound to a plain identifier."
  | attributeNotString attr found =>
    s!"The `{attr}` attribute of a story must be a static string literal, found {found}. " ++
      "Stories are analysed at build time, so the value cannot be computed."
  | attributeNotStrings attr found =>
    s!"The `{attr}` attribute of a story must be a static array of string literals, " ++
      s!"found {found}. Stories are analysed at build time, so the value cannot be computed."
  | unnamedStory => "A story must have a `name` or an `exportName` attribute."
  | invalidExportName exportName =>
    s!"'{exportName}' is not a valid export name. It must be a non-reserved JavaScript identifier."
  | duplicateExportName exportName first second =>
    s!"Stories '{first}' and '{second}' both resolve to the export name `{exportName}`. " ++
      "Set a distinct `exportName` on one of them."
  | reservedExportName exportName =>
    s!"The export name `{exportName}` is reserved by the produced stories module. " ++
      "Set a different `exportName`."
  | storyCountMismatch inSource inCompiled =>
    s!"Found {inSource} story tags in the source but {inCompiled} story calls in the compiled " ++
      "output."
  | overlappingEdits start stop =>
    s!"Overlapping edits queued on the compiled output at {start}..{stop}."
  | printing message => s!"Failed to print generated code: {message}"
  | invalidEditRange start stop length =>
    s!"Invalid edit range {start}..{stop} on a text of {length} bytes."
  | componentCompiler message => s!"The component compiler failed: {message}"
  | legacyNotEnabled =>
    "This stories file uses the legacy template API, which is not enabled. " ++
      "Migrate it to `defineMeta` or enable the `legacyTemplate` option."

/-- The stage that a fault belongs to. -/
def stage : Fault → Stage
  | missingModuleScript | unnamedImport _ | missingImport | missingDeclaration _
  | storyNotDestructured _ | invalidArgument _ _ | notDestructured _ | duplicateSnippet _
  | invalidTemplate _ | missingTemplate _ _ | markupSyntax _ | scriptSyntax _ => .source
  | compiledSyntax _ | missingCompiledMeta | noDefaultExport | ambiguousDefaultExport _
  | missingStoriesFunction _ | unsupportedDefaultExport _ | missingStoryProps _ => .compiled
  | propertyNotString _ _ | propertyNotStrings _ _ | metaNotIdentifier => .metaArgument
  | attributeNotString _ _ | attributeNotStrings _ _ | unnamedStory | invalidExportName _
  | duplicateExportName _ _ _ | reservedExportName _ => .storyAttributes
  | storyCountMismatch _ _ | overlappingEdits _ _ | printing _ | invalidEditRange _ _ _ => .edits
  | componentCompiler _ => .component
  | legacyNotEnabled => .legacy

/-- The number of a fault within its stage. -/
def number : Fault → Nat
  | missingModuleScript => 1
  | unnamedImport _ => 2
  | missingImport => 3
  | missingDeclaration _ => 4
  | storyNotDestructured _ => 5
  | invalidArgument _ _ => 6
  | notDestructured _ => 7
  | duplicateSnippet _ => 8
  | invalidTemplate _ => 9
  | missingTemplate _ _ => 10
  | markupSyntax _ => 11
  | scriptSyntax _ => 12
  | compiledSyntax _ => 1
  | missingCompiledMeta => 2
  | noDefaultExport => 3
  | ambiguousDefaultExport _ => 4
  | missingStoriesFunction _ => 5
  | unsupportedDefaultExport _ => 6
  | missingStoryProps _ => 7
  | propertyNotString _ _ => 1
  | propertyNotStrings _ _ => 2
  | metaNotIdentifier => 3
  | attributeNotString _ _ => 1
  | attributeNotStrings _ _ => 2
  | unnamedStory => 3
  | invalidExportName _ => 4
  | duplicateExportName _ _ _ => 5
  | reservedExportName _ => 6
  | storyCountMismatch _ _ => 1
  | overlappingEdits _ _ => 2
  | printing _ => 3
  | invalidEditRange _ _ _ => 4
  | componentCompiler _ => 1
  | legacyNotEnabled => 1

end Fault

/-- The part of an error code that names the stage. -/
def Stage.segment : Stage → String
  | source => "PARSER_EXTRACT_SVELTE"
  | compiled => "PARSER_EXTRACT_COMPILED"
  | metaArgument => "PARSER_ANALYSE_DEFINE_META"
  | storyAttributes => "PARSER_ANALYSE_STORY"
  | edits => "COMPILER"
  | component => "COMPONENT_COMPILER"
  | legacy => "LEGACY_API"

/-- What every error code starts with. -/
def codeHead : String := "SB_SVELTE_CSF_"

/-- A number below ten thousand with four digits. -/
def fourDigits (n : Nat) : String :=
  String.ofList <| [n / 1000 % 10, n / 100 % 10, n / 10 % 10, n % 10].map fun d =>
    Char.ofNat (48 + d)

/-- The page that explains the error codes. -/
def docsPage : String :=
  "https://github.com/storybookjs/addon-svelte-csf/blob/main/ERRORS.md"

/-- The text with its ASCII capitals lowered. -/
def lowerAscii (s : String) : String :=
  String.ofList <| s.toList.map fun c =>
    if 65 ≤ c.toNat && c.toNat ≤ 90 then Char.ofNat (c.toNat + 32) else c

namespace Fault

/-- The stable code of a fault. -/
def code (f : Fault) : String :=
  s!"{codeHead}{f.stage.segment}_{fourDigits f.number}"

/-- The entry of a fault on the page that explains the codes. -/
def docs (f : Fault) : String :=
  s!"{docsPage}#{lowerAscii f.code}"

/-- Who is expected to act on a fault. -/
def concern : Fault → Concern
  | propertyNotString _ _ | propertyNotStrings _ _ | attributeNotString _ _
  | attributeNotStrings _ _ => .literals
  | legacyNotEnabled => .legacy
  | componentCompiler _ => .external
  | f => if f.stage = .compiled || f.stage = .edits then .internal else .structural

/-- Whether a fault hints at a file of the legacy kind. -/
def hintsLegacy : Fault → Bool
  | missingModuleScript | notDestructured _ | storyNotDestructured _ => true
  | _ => false

end Fault

/-- A fault in a file. -/
structure Report where
  /-- What went wrong. -/
  fault : Fault
  /-- The file it went wrong in. -/
  filename : String
  /-- Where, if that is known. -/
  location : Option Location
deriving DecidableEq, Repr

namespace Report

/-- Whether the fault is one of the transform and not of the file. -/
def isInternal (r : Report) : Bool :=
  r.fault.concern = .internal

/-- The note added to internal faults. -/
def defectNote (r : Report) : String :=
  if r.isInternal then
    "\n\nThis is a defect in the stories transform, not in your file. " ++
      "Please report it along with the component compiler version."
  else ""

/-- The position behind the file name, if it is known. -/
def position (r : Report) : String :=
  match r.location with
  | some l => s!":{l.text}"
  | none => ""

/-- The report as a reader sees it: code, message, place and documentation. -/
def display (r : Report) : String :=
  s!"[{r.fault.code}] {r.fault.message}\n\nIn the stories file: {r.filename}{r.position}" ++
    s!"{r.defectNote}\n\nMore info: {r.fault.docs}"

end Report

/-- The error code that a displayed report starts with: the bracketed word at its beginning, if
that word has the form of a code. -/
def errorCode? (message : String) : Option String :=
  match message.toList with
  | '[' :: rest =>
    let word := rest.takeWhile (· != ']')
    if word.length < rest.length && codeHead.toList.isPrefixOf word then some (String.ofList word)
    else none
  | _ => none

end SvelteStories

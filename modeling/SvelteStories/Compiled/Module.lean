/-
A compiled module, and what the transform reads in it:

* `CompiledModule`, `CompiledModule.parse`: the text and its items;
* `CompiledModule.metaFunction?`, `CompiledModule.metaDeclaration?`: the local name of the meta
  function, and the declaration that binds its result;
* `CompiledModule.component`: the function that the module exports by default;
* `CompiledModule.read`: all of it as a `CompiledStories`.

The compiler chooses the names in its output anew from version to version. So the function is found
by the default export, and story calls by the name that the declaration binds.
-/
import SvelteStories.Compiled.StoryCall
import SvelteStories.Script.Parser.Modules
import SvelteStories.Source
import SvelteStories.Story.MetaFunction

namespace SvelteStories

open Script

/-- A module as the component compiler wrote it. -/
structure CompiledModule where
  /-- The text. -/
  source : Source
  /-- Its items. -/
  items : Program

/-- The declaration of the meta object in a compiled module. -/
structure CompiledDeclaration where
  /-- The declaration. -/
  declaration : VariableDeclaration
  /-- What the result of the call is destructured into. -/
  pattern : ObjectPattern
  /-- The object that the meta function is called with. -/
  argument : ObjectLiteral

/-- How a module exports its component. -/
inductive ComponentExport
  /-- The function is declared where it is exported. -/
  | function (span : Span)
  /-- The export names a function that is declared elsewhere. -/
  | identifier (span : Span)
deriving DecidableEq, Repr

/-- The place of the export. -/
def ComponentExport.span : ComponentExport → Span
  | function s | identifier s => s

/-- The function of the component. -/
structure Component where
  /-- How it is exported. -/
  exported : ComponentExport
  /-- Its name. -/
  name : String
  /-- The function itself. -/
  body : List Piece

/-- What the transform reads in a compiled module. -/
structure CompiledStories where
  /-- The declaration of the meta object. -/
  metaDeclaration : CompiledDeclaration
  /-- The local name of the story component. -/
  storyName : String
  /-- The local name of the meta object, if it is bound. -/
  metaName : Option String
  /-- The function of the component. -/
  component : Component
  /-- The story calls in that function. -/
  stories : List StoryCall

/-- The local name of the meta function, if an import brings it in. -/
def importedMetaName? (specifiers : List ImportSpecifier) : Option String :=
  specifiers.findSome? fun
    | .named imported name _ => if imported = metaFunctionName then some name else none
    | .default _ _ | .all _ _ => none

namespace CompiledModule

/-- The module that a text is. -/
def parse (filename : String) (code : List Char) : Except Report CompiledModule :=
  let source : Source := ⟨filename, code⟩
  match parseModule .plainModule 0 code with
  | .ok items => .ok ⟨source, items⟩
  | .error f => .error (source.report (.compiledSyntax f.cause.message))

/-- The local name of the meta function. -/
def metaFunction? (m : CompiledModule) : Option String :=
  m.items.findSome? fun item =>
    match item.form with
    | .imports _ specifiers package =>
      if package = addonPackage then importedMetaName? specifiers else none
    | _ => none

/-- What a variable says about the meta object, if it is bound to a call of the meta function. -/
def metaOf? (name : String) (d : VariableDeclaration) (v : Declarator) :
    Option (Except Fault CompiledDeclaration) :=
  (v.callOf? name).map fun call =>
    match v.target, call.objectArgument? with
    | .object pattern, some argument => .ok ⟨d, pattern, argument⟩
    | .object _, none => .error .missingCompiledMeta
    | target, _ => .error (.notDestructured target.describe)

/-- The declaration of the meta object, if there is one. -/
def metaDeclaration? (m : CompiledModule) (name : String) :
    Option (Except Fault CompiledDeclaration) :=
  m.items.findSome? fun item =>
    item.form.variables?.bind fun d => d.declarators.findSome? (metaOf? name d)

/-- The default exports, with the places of their items. -/
def defaultExports (m : CompiledModule) : List (Span × DefaultExport) :=
  m.items.filterMap fun item =>
    match item.form with
    | .exportDefault value => some (item.span, value)
    | _ => none

/-- The function that is declared under a name at the top level. -/
def function? (m : CompiledModule) (name : String) : Option (List Piece) :=
  m.items.findSome? fun item =>
    match item.form with
    | .statement (.function _ n parts) => if n = name then some parts else none
    | _ => none

/-- The function that a default export stands for. -/
def exportedComponent (m : CompiledModule) (span : Span) : DefaultExport → Except Fault Component
  | .function (some name) parts => .ok ⟨.function span, name, parts⟩
  | .function none _ => .error (.unsupportedDefaultExport "an anonymous function")
  | .classes _ _ _ _ => .error (.unsupportedDefaultExport "a class")
  | .interfaces => .error (.unsupportedDefaultExport "an interface")
  | .expression (.identifier _ name) =>
    match m.function? name with
    | some parts => .ok ⟨.identifier span, name, parts⟩
    | none => .error (.missingStoriesFunction name)
  | .expression value => .error (.unsupportedDefaultExport value.describe)

/-- The function of the component: the one that the only default export stands for. -/
def component (m : CompiledModule) : Except Fault Component :=
  match m.defaultExports with
  | [] => .error .noDefaultExport
  | [(span, value)] => m.exportedComponent span value
  | many => .error (.ambiguousDefaultExport many.length)

/-- What the transform needs of a compiled module, or the fault that keeps it from being found. -/
def stories (m : CompiledModule) : Except Fault CompiledStories := do
  let some metaFunction := m.metaFunction? | throw .missingCompiledMeta
  let some found := m.metaDeclaration? metaFunction | throw .missingCompiledMeta
  let declared ← found
  let storyName ← match declared.pattern.binding storyKey with
    | .name name => pure name
    | .missing | .complex => throw (.storyNotDestructured metaFunction)
  let metaName ← match declared.pattern.binding metaKey with
    | .name name => pure (some name)
    | .missing => pure none
    | .complex => throw .metaNotIdentifier
  let component ← m.component
  return ⟨declared, storyName, metaName, component, storyCallsOfPieces storyName component.body⟩

/-- What the transform needs of a compiled module. -/
def read (m : CompiledModule) : Except Report CompiledStories :=
  m.stories.mapError m.source.report

end CompiledModule

end SvelteStories

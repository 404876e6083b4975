/-
Stories files:

* `MetaDeclaration`: the declaration of the meta object in the module script;
* `StoryTag`, `storyTags`: the story tags of a template in document order, each with the comment
  above it;
* `StoriesFile`, `readStoriesFile`: what a document says about its stories.

A comment is about a story if nothing but blanks stands between the two.
-/
import SvelteStories.Markup.Document
import SvelteStories.Story.MetaFunction

namespace SvelteStories

open Script Markup

/-! ### The meta declaration -/

/-- The declaration of the meta object. -/
structure MetaDeclaration where
  /-- The declaration. -/
  declaration : VariableDeclaration
  /-- What the result of the call is destructured into. -/
  pattern : ObjectPattern
  /-- The call of the meta function. -/
  call : Call
  /-- The object that the function is called with. -/
  argument : ObjectLiteral
  /-- The comments right before the declaration. -/
  comments : List Comment

/-- The name that an import gives to the meta function, or the place where the import has no name
for it. -/
def Script.ImportSpecifier.metaFunction? : ImportSpecifier → Option (Except Nat String)
  | .named imported name typeOnly =>
    if !typeOnly && imported = metaFunctionName then some (.ok name) else none
  | .default span _ | .all span _ => some (.error span.start)

/-- The name that an item gives to the meta function, if it is an import that is about it. -/
def Script.Item.metaFunction? (item : Item) : Option (Except Nat String) :=
  match item.form with
  | .imports false specifiers package =>
    if package = addonPackage then specifiers.findSome? ImportSpecifier.metaFunction? else none
  | _ => none

/-- The local name of the meta function in a module script. -/
def metaFunction (source : Source) (script : ScriptBlock) : Except Report String :=
  match script.items.findSome? Item.metaFunction? with
  | some (.ok name) => .ok name
  | some (.error offset) => .error (source.reportAt (.unnamedImport addonPackage) offset)
  | none => .error (source.reportAt .missingImport script.content.start)

/-- What the arguments of a call are called, if they are not one object. -/
def Script.Call.describeArguments (c : Call) : String :=
  match c.arguments with
  | [] => "no arguments"
  | [a] => a.value.describe
  | many => s!"{many.length} arguments"

/-- What a variable says about the meta object, if it is initialised with a call of the meta
function. A fault comes with its place. -/
def metaOfVariable? (name : String) (comments : List Comment) (d : VariableDeclaration)
    (v : Declarator) : Option (Except (Fault × Nat) MetaDeclaration) :=
  (v.callOf? name).map fun call =>
    match v.target, call.objectArgument? with
    | .object pattern, some argument => .ok ⟨d, pattern, call, argument, comments⟩
    | .object _, none => .error (.invalidArgument name call.describeArguments, call.span.start)
    | target, _ => .error (.notDestructured target.describe, d.span.start)

/-- What an item says about the meta object, if it declares it. -/
def metaOfItem? (name : String) (item : Item) :
    Option (Except (Fault × Nat) MetaDeclaration) :=
  item.form.variables?.bind fun d => d.declarators.findSome? (metaOfVariable? name item.comments d)

/-- The first declaration of the meta object in a module script. -/
def metaDeclaration (source : Source) (script : ScriptBlock) (name : String) :
    Except Report MetaDeclaration :=
  match script.items.findSome? (metaOfItem? name) with
  | some (.ok declared) => .ok declared
  | some (.error (fault, offset)) => .error (source.reportAt fault offset)
  | none => .error (source.reportAt (.missingDeclaration name) script.content.start)

/-! ### Story tags -/

/-- A comment in a template. -/
structure TemplateComment where
  /-- From the sign that opens it to the end of the one that closes it. -/
  span : Span
  /-- The text between these signs. -/
  data : List Char
deriving DecidableEq, Repr

/-- A story in a template. -/
structure StoryTag where
  /-- The element. -/
  element : Markup.Element
  /-- The comment above it. -/
  comment : Option TemplateComment

/-- Whether an element is a component of a name. -/
def Markup.Element.isComponent (name : List Char) (e : Markup.Element) : Bool :=
  e.kind = .component && e.name = name

mutual

/-- The story tags in parts of a template. `pending` is the comment that only blanks have followed
so far. Stories are not looked for inside of stories and snippets. -/
def storyTags (story : List Char) :
    (pending : Option TemplateComment) → List Node → List StoryTag
  | _, [] => []
  | _, .comment span data :: rest => storyTags story (some ⟨span, data⟩) rest
  | pending, .text span data :: rest =>
    storyTags story (if (Node.text span data).isBlank then pending else none) rest
  | pending, .element e :: rest =>
    (if e.isComponent story then [⟨e, pending⟩] else e.storyTags story) ++ storyTags story none rest
  | _, .block b :: rest => b.storyTags story ++ storyTags story none rest
  | _, .snippet _ :: rest | _, .expression _ _ :: rest | _, .tag _ _ _ :: rest =>
    storyTags story none rest

/-- The story tags in an element. -/
def Markup.Element.storyTags (story : List Char) : Markup.Element → List StoryTag
  | ⟨_, _, _, _, fragment, _⟩ => fragment.storyTags story

/-- The story tags in a fragment. -/
def Markup.Fragment.storyTags (story : List Char) : Fragment → List StoryTag
  | ⟨_, nodes⟩ => SvelteStories.storyTags story none nodes

/-- The story tags in a block. -/
def Markup.Block.storyTags (story : List Char) : Block → List StoryTag
  | ⟨_, _, _, branches⟩ => storyTagsOfBranches story branches

/-- The story tags in the branches of a block. -/
def storyTagsOfBranches (story : List Char) : List Fragment → List StoryTag
  | [] => []
  | f :: fs => f.storyTags story ++ storyTagsOfBranches story fs

end

/-! ### Snippets -/

/-- The snippet that a part of a template is. -/
def Markup.Node.snippet? : Node → Option Snippet
  | .snippet s => some s
  | _ => none

/-- The first snippet whose name is among `names` or is the one of a snippet before it. -/
def repeatedSnippet? (names : List (List Char)) : List Snippet → Option Snippet
  | [] => none
  | s :: rest => if names.contains s.name then some s else repeatedSnippet? (s.name :: names) rest

/-- The snippets at the top level of a document. Each has a name of its own. -/
def topSnippets (d : Document) : Except Report (List Snippet) :=
  let snippets := d.fragment.nodes.filterMap Node.snippet?
  match repeatedSnippet? [] snippets with
  | none => .ok snippets
  | some s =>
    .error (d.source.reportAt (.duplicateSnippet (String.ofList s.name)) s.span.start)

/-! ### The file -/

/-- A stories file. -/
structure StoriesFile where
  /-- The document. -/
  document : Document
  /-- The script of the module. -/
  script : ScriptBlock
  /-- The local name of the meta function. -/
  metaFunction : String
  /-- The declaration of the meta object. -/
  declared : MetaDeclaration
  /-- The local name of the story component. -/
  storyName : String
  /-- The local name of the meta object, if it is bound. -/
  metaName : Option String
  /-- The story tags in document order. -/
  stories : List StoryTag
  /-- The snippets at the top level, in document order. -/
  snippets : List Snippet

/-- The file that the stories are read from. -/
def StoriesFile.source (f : StoriesFile) : Source :=
  f.document.source

/-- What a document says about its stories. -/
def readStoriesFile (d : Document) : Except Report StoriesFile := do
  let some script := d.scripts.ofModule | throw (d.source.reportAt .missingModuleScript 0)
  let name ← metaFunction d.source script
  let declared ← metaDeclaration d.source script name
  let fail {α : Type} (fault : Fault) : Except Report α :=
    .error (d.source.reportAt fault declared.declaration.span.start)
  let storyName ← match declared.pattern.binding storyKey with
    | .name bound => pure bound
    | .missing | .complex => fail (.storyNotDestructured name)
  let metaName ← match declared.pattern.binding metaKey with
    | .name bound => pure (some bound)
    | .missing => pure none
    | .complex => fail .metaNotIdentifier
  let stories := storyTags storyName.toList none d.fragment.nodes
  let snippets ← topSnippets d
  return ⟨d, script, name, declared, storyName, metaName, stories, snippets⟩

end SvelteStories

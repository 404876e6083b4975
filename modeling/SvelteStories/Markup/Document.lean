/-
Component files:

* `ScriptBlock`: a script of a component file;
* `Document`: its scripts, the places of its styles, and the rest of its template;
* `readDocument`: the document that a file holds, or the report of why it holds none;
* `readExpression`: an expression in a file.

The whole template is read before any script is, so a fault in the markup wins over one in a script
before it.
-/
import SvelteStories.Markup.Template
import SvelteStories.Script.Parser.Modules
import SvelteStories.Source

namespace SvelteStories

open Script

namespace Markup

/-! ### Scripts -/

/-- What a script belongs to. -/
inductive ScriptRole
  /-- The script runs once for the module. -/
  | ofModule
  /-- The script runs for every instance of the component. -/
  | ofInstance
deriving DecidableEq, Repr

/-- The language of a script. -/
inductive ScriptLanguage
  /-- Without types. -/
  | plain
  /-- With types. -/
  | typed
deriving DecidableEq, Repr

/-- How a language is read. -/
def ScriptLanguage.dialect : ScriptLanguage → Dialect
  | plain => .plainModule
  | typed => .typedModule

/-- A script of a component file. -/
structure ScriptBlock where
  /-- From the opening tag to the end of the closing one. -/
  span : Span
  /-- Between the tags. -/
  content : Span
  /-- What it belongs to. -/
  role : ScriptRole
  /-- Its language. -/
  language : ScriptLanguage
  /-- What it holds. -/
  items : Program

/-- The named attributes of an element. -/
def Element.namedAttributes (e : Element) : List Attribute :=
  e.attributes.filterMap fun
    | .plain a => some a
    | .spread _ _ | .directive _ _ _ _ => none

/-- Whether an attribute makes a script one of the module. -/
def Attribute.marksModule (a : Attribute) : Bool :=
  match a.value with
  | .none => a.name = "module".toList
  | .text _ data => a.name = "context".toList && data = "module".toList
  | .expression _ _ | .sequence _ => false

/-- Whether an attribute makes a script one with types. -/
def Attribute.marksTypes (a : Attribute) : Bool :=
  match a.value with
  | .text _ data =>
    a.name = "lang".toList && (data = "ts".toList || data = "typescript".toList)
  | .none | .expression _ _ | .sequence _ => false

/-- What a script element belongs to. -/
def Element.scriptRole (e : Element) : ScriptRole :=
  if e.namedAttributes.any Attribute.marksModule then .ofModule else .ofInstance

/-- The language of a script element. -/
def Element.scriptLanguage (e : Element) : ScriptLanguage :=
  if e.namedAttributes.any Attribute.marksTypes then .typed else .plain

/-! ### Documents -/

/-- The scripts of a component file. -/
structure Scripts where
  /-- The one of the module. -/
  ofModule : Option ScriptBlock
  /-- The one of the instances. -/
  ofInstance : Option ScriptBlock

/-- A component file that is read. -/
structure Document where
  /-- The file. -/
  source : Source
  /-- The scripts. -/
  scripts : Scripts
  /-- The places of the styles at the top level. -/
  styles : List Span
  /-- The template without the scripts and the styles at its top level. -/
  fragment : Fragment

/-- The element of a name that a part of a template is. -/
def Node.elementNamed? (name : String) : Node → Option Element
  | .element e => if e.name = name.toList then some e else none
  | _ => none

/-- The report of a fault. -/
def ReadFault.report (source : Source) : ReadFault → Report
  | markup cause offset => source.reportAt (.markupSyntax cause.message) offset
  | script f => source.reportAt (.scriptSyntax f.cause.message) f.offset

/-- The script that an element holds. -/
def readScript (source : Source) (e : Element) : Except Report ScriptBlock :=
  let content := e.fragment.span
  match parseModule e.scriptLanguage.dialect content.start (source.slice content) with
  | .ok items => .ok ⟨e.span, content, e.scriptRole, e.scriptLanguage, items⟩
  | .error f => .error ((ReadFault.script f).report source)

/-- The scripts with another one, unless there is one of its role. -/
def Scripts.add (source : Source) (scripts : Scripts) (e : Element) : Except Report Scripts := do
  let script ← readScript source e
  let duplicate := source.reportAt (.markupSyntax MarkupCause.duplicateScript.message) e.span.start
  match script.role with
  | .ofModule =>
    if scripts.ofModule.isSome then .error duplicate
    else .ok { scripts with ofModule := some script }
  | .ofInstance =>
    if scripts.ofInstance.isSome then .error duplicate
    else .ok { scripts with ofInstance := some script }

/-- Reads the expression that an attribute's value starts with. -/
def readAttributeExpression : ExpressionReader :=
  parseExpression .markupExpression

end Markup

open Markup

/-- The expression under a span of a file. -/
def readExpression (source : Source) (span : Span) : Except Report Expr :=
  (readAttributeExpression span.start (source.slice span)).mapError fun f =>
    (ReadFault.script f).report source

/-- The document that a file holds. -/
def readDocument (source : Source) : Except Report Document := do
  let nodes ← (readTemplate readAttributeExpression source.text).mapError (·.report source)
  let scripts ← (nodes.filterMap (Node.elementNamed? "script")).foldlM (Scripts.add source)
    ⟨none, none⟩
  let styles := (nodes.filterMap (Node.elementNamed? "style")).map Element.span
  let rest := nodes.filter fun n =>
    (n.elementNamed? "script").isNone && (n.elementNamed? "style").isNone
  return ⟨source, scripts, styles, ⟨⟨0, source.length⟩, rest⟩⟩

end SvelteStories

/-
The binding of the meta object:

* `ObjectPattern.bindMeta`: a pattern that binds the meta object, and the name it binds it to;
* `VariableDeclaration.changeAt`: a declaration with a change to one of its variables;
* `reprintDeclaration`: a declaration printed over the one that stands in a text.
-/
import SvelteStories.Edit
import SvelteStories.Script.Printer
import SvelteStories.Story.MetaFunction

namespace SvelteStories

open Script

/-- Whether a property of a pattern takes what the others leave. -/
def Script.PatternProperty.isRest : PatternProperty → Bool
  | .rest _ _ => true
  | .keyValue _ _ | .shorthand _ _ _ => false

/-- The properties with one more in front of the first that takes what the others leave, or at the
end. -/
def insertBeforeRest (p : PatternProperty) (ps : List PatternProperty) : List PatternProperty :=
  ps.takeWhile (fun q => !q.isRest) ++ p :: ps.dropWhile fun q => !q.isRest

/-- A pattern together with the name that it binds the meta object to. -/
structure MetaBinding where
  /-- The pattern. -/
  pattern : ObjectPattern
  /-- The local name of the meta object. -/
  name : String
  /-- Whether the binding had to be added. -/
  isNew : Bool

/-- The pattern with a binding of the meta object, under its own name if it had none. A pattern that
takes the meta object apart is refused. -/
def Script.ObjectPattern.bindMeta (p : ObjectPattern) : Except Fault MetaBinding :=
  match p.binding metaKey with
  | .name name => .ok ⟨p, name, false⟩
  | .complex => .error .metaNotIdentifier
  | .missing =>
    let added := insertBeforeRest (.shorthand ⟨0, 0⟩ metaKey none) p.properties
    .ok ⟨{ p with properties := added }, metaKey, true⟩

/-- Whether a pattern is an object pattern that stands at a place. -/
def Script.Pattern.isObjectAt (place : Span) : Pattern → Bool
  | .object o => o.span = place
  | _ => false

/-- The declaration with a change to the variable whose object pattern stands at a place. -/
def Script.VariableDeclaration.changeAt (place : Span) (change : Declarator → Declarator)
    (d : VariableDeclaration) : VariableDeclaration :=
  { d with declarators := d.declarators.map fun v =>
    if v.target.isObjectAt place then change v else v }

/-- A variable with another pattern. -/
def Script.Declarator.withPattern (p : ObjectPattern) (v : Declarator) : Declarator :=
  { v with target := .object p }

/-- Prints a declaration over the span of another one. It ends with a semicolon if the other one
did. -/
def reprintDeclaration (draft : Draft) (span : Span) (d : VariableDeclaration) :
    Except Fault Draft :=
  let replaced := trimEnd ((slice? draft.unedited span).getD [])
  let ending := if replaced.getLast? = some ';' then [';'] else []
  draft.overwrite span.start span.stop (d.text ++ ending)

end SvelteStories

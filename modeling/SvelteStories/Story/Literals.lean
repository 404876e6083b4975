/-
Values that authors have to write as literals, because a stories file is read and not run:

* `stringProperty`, `stringsProperty`: properties of the meta object;
* `stringAttribute`, `stringsAttribute`: attributes of stories.

A report of another value names what was found.
-/
import SvelteStories.Markup.Node
import SvelteStories.Script.Static
import SvelteStories.Source

namespace SvelteStories

open Script Markup

/-! ### Properties of the meta object -/

/-- The value of a property that has to be a string. -/
def stringProperty (source : Source) (name : String) (p : Property) : Except Report String :=
  match p.value?.bind Expr.string? with
  | some value => .ok value
  | none => .error (source.reportAt (.propertyNotString name p.describe) p.span.start)

/-- The value of a property that has to be an array of strings. -/
def stringsProperty (source : Source) (name : String) (p : Property) :
    Except Report (List String) :=
  match p.value?.bind Expr.strings? with
  | some values => .ok values
  | none => .error (source.reportAt (.propertyNotStrings name p.describe) p.span.start)

/-! ### Attributes of stories -/

/-- What the value of an attribute is called. -/
def Markup.Attribute.describe (a : Attribute) : String :=
  match a.value with
  | .none => "a boolean attribute without a value"
  | .text _ _ => "plain text"
  | .expression _ value => value.describe
  | .sequence _ => "text with interpolated expressions"

/-- The text that the value of an attribute is, plain or as a literal in braces. -/
def Markup.Attribute.string? (a : Attribute) : Option String :=
  match a.value with
  | .text _ data => some (String.ofList data)
  | .expression _ value => value.string?
  | .none | .sequence _ => none

/-- The array of strings that the value of an attribute is. -/
def Markup.Attribute.strings? (a : Attribute) : Option (List String) :=
  match a.value with
  | .expression _ value => value.strings?
  | .none | .text _ _ | .sequence _ => none

/-- The value of an attribute that has to be a string. -/
def stringAttribute (source : Source) (a : Attribute) : Except Report String :=
  match a.string? with
  | some value => .ok value
  | none =>
    .error (source.reportAt (.attributeNotString (String.ofList a.name) a.describe) a.span.start)

/-- The value of an attribute that has to be an array of strings. -/
def stringsAttribute (source : Source) (a : Attribute) : Except Report (List String) :=
  match a.strings? with
  | some values => .ok values
  | none =>
    .error (source.reportAt (.attributeNotStrings (String.ofList a.name) a.describe) a.span.start)

end SvelteStories

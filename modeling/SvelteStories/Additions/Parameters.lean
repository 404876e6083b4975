/-
What the transform adds to the `parameters` of a story and of the meta object:

* `ParameterAdditions`: the additions;
* `ParameterAdditions.addTo`: a `parameters` object with the additions;
* `ParameterAdditions.addToOwner`: an object whose `parameters` property has them;
* `ParameterAdditions.editOwner`: the same as edits of the text that the object stands in;
* `appendProperty`: a further property of an object, as an edit.

What the author wrote stays: an object is extended, any other value is spread into a new one, and a
description that is set is kept. `Notice` tells the author about additions that could not be made.
-/
import SvelteStories.Edit
import SvelteStories.Script.Build
import SvelteStories.Script.Printer
import SvelteStories.Script.Static

namespace SvelteStories

open Script

/-- The property that holds the parameters. -/
def parametersKey : String := "parameters"

/-- The parameter that is set for the runtime alone. -/
def internalKey : String := "__svelteCsf"

/-- What a description is about. -/
inductive Described
  /-- The component, on the meta object. -/
  | component
  /-- A story. -/
  | story
deriving DecidableEq, Repr

/-- The key of a description. -/
def Described.key : Described → String
  | component => "component"
  | story => "story"

/-- What an author is told about an addition that was not made. -/
inductive Notice
  /-- The documentation parameter is no object that could be extended. -/
  | docsNotObject
  /-- The description is set already. -/
  | descriptionSet (about : Described)
  /-- The parameters are computed. -/
  | parametersComputed
deriving DecidableEq, Repr

/-- The wording of a notice. -/
def Notice.message : Notice → String
  | docsNotObject =>
    "`parameters.docs` is not an object literal; the description comment is not added"
  | descriptionSet about =>
    s!"`parameters.docs.description.{about.key}` is set explicitly and takes precedence over " ++
      "the comment"
  | parametersComputed =>
    "`parameters` is declared as a method or accessor and is left untouched"

/-- Additions to parameters. -/
structure ParameterAdditions where
  /-- The value for the runtime, which replaces an older one. -/
  internal : Option Expr
  /-- A description, which does not replace another one. -/
  description : Option (Described × String)

/-- A value together with notices for the author. -/
structure Noted (α : Type) where
  /-- The value. -/
  value : α
  /-- The notices. -/
  notices : List Notice
deriving Repr

/-- The last element that satisfies a test, with what stands before and behind it. -/
def splitLast? {α : Type} (test : α → Bool) : List α → Option (List α × α × List α)
  | [] => none
  | a :: as =>
    match splitLast? test as with
    | some (before, b, behind) => some (a :: before, b, behind)
    | none => if test a then some ([], a, as) else none

/-- Whether a property has a name. -/
def Script.Property.isNamed (name : String) (p : Property) : Bool :=
  p.name? = some name

/-- Whether a property has a name and is written with a value. -/
def Script.Property.isEntry (name : String) (p : Property) : Bool :=
  p.isNamed name && p.value?.isSome

/-- An object with one more property. -/
def Script.ObjectLiteral.push (o : ObjectLiteral) (p : Property) : ObjectLiteral :=
  { o with properties := o.properties ++ [p] }

/-- A property with another value. -/
def Script.Property.withValue (value : Expr) : Property → Property
  | .keyValue key _ => .keyValue key value
  | p => p

namespace ParameterAdditions

/-- Whether there is nothing to add. -/
def isEmpty (p : ParameterAdditions) : Bool :=
  p.internal.isNone && p.description.isNone

/-- Parameters with a value for the runtime. -/
def setInternal (value : Expr) (o : ObjectLiteral) : ObjectLiteral :=
  match splitLast? (·.isEntry internalKey) o.properties with
  | some (before, p, behind) => { o with properties := before ++ p.withValue value :: behind }
  | none => o.push (entry internalKey value)

/-- A description object with a description, unless it has one. -/
def describe (about : Described) (text : String) (o : ObjectLiteral) : Noted ObjectLiteral :=
  if o.properties.any (·.isNamed about.key) then ⟨o, [.descriptionSet about]⟩
  else ⟨o.push (entry about.key (stringExpr text)), []⟩

/-- An object whose last property of a name, an object itself, is changed; an empty object is added
under the name first if it has none. Any other value under the name is left as it is. -/
def inside (name : String) (change : ObjectLiteral → Noted ObjectLiteral) (o : ObjectLiteral) :
    Noted ObjectLiteral :=
  match splitLast? (·.isNamed name) o.properties with
  | none =>
    let inner := change (objectOf [])
    ⟨o.push (entry name (.object inner.value)), inner.notices⟩
  | some (before, .keyValue key (.object inner), behind) =>
    let inner := change inner
    ⟨{ o with properties := before ++ .keyValue key (.object inner.value) :: behind },
      inner.notices⟩
  | some _ => ⟨o, [.docsNotObject]⟩

/-- Parameters with a description in their documentation. -/
def addDescription (about : Described) (text : String) (o : ObjectLiteral) :
    Noted ObjectLiteral :=
  inside "docs" (inside "description" (describe about text)) o

/-- Parameters with the additions. -/
def addTo (p : ParameterAdditions) (o : ObjectLiteral) : Noted ObjectLiteral :=
  let o := match p.internal with
    | some value => setInternal value o
    | none => o
  match p.description with
  | some (about, text) => addDescription about text o
  | none => ⟨o, []⟩

/-- What a property makes of parameters: the object that the additions go into. Nothing if the
property computes its value. -/
def base? : Property → Option ObjectLiteral
  | .keyValue _ (.object o) => some o
  | .keyValue _ value => some (spreadOf value)
  | .shorthand span name => some (spreadOf (.identifier span name))
  | .initialized _ _ _ | .method _ _ _ _ | .spread _ _ => none

/-- An object whose parameters have the additions. -/
def addToOwner (p : ParameterAdditions) (o : ObjectLiteral) : Noted ObjectLiteral :=
  if p.isEmpty then ⟨o, []⟩
  else
    match splitLast? (·.isNamed parametersKey) o.properties with
    | none =>
      let parameters := p.addTo (objectOf [])
      ⟨o.push (entry parametersKey (.object parameters.value)), parameters.notices⟩
    | some (before, property, behind) =>
      match base? property with
      | none => ⟨o, [.parametersComputed]⟩
      | some base =>
        let parameters := p.addTo base
        let merged := match property with
          | .keyValue key _ => .keyValue key (.object parameters.value)
          | _ => entry parametersKey (.object parameters.value)
        ⟨{ o with properties := before ++ merged :: behind }, parameters.notices⟩

end ParameterAdditions

/-! ### As edits -/

/-- What a text between a property and a brace is a part of. -/
inductive GapMode
  /-- Blanks and commas. -/
  | blank
  /-- A comment up to the end of the line. -/
  | lineComment
  /-- A comment up to `*/`. -/
  | blockComment
deriving DecidableEq, Repr

/-- Whether a comma stands in a text outside of comments. -/
def hasComma : GapMode → List Char → Bool
  | _, [] => false
  | .blank, '/' :: '/' :: t => hasComma .lineComment t
  | .blank, '/' :: '*' :: t => hasComma .blockComment t
  | .blank, c :: t => c = ',' || hasComma .blank t
  | .lineComment, c :: t => hasComma (if c = '\n' then .blank else .lineComment) t
  | .blockComment, '*' :: '/' :: t => hasComma .blank t
  | .blockComment, _ :: t => hasComma .blockComment t

/-- Inserts a property at the end of an object that stands in the text. -/
def appendProperty (draft : Draft) (o : ObjectLiteral) (text : List Char) :
    Except Fault Draft :=
  let closing := o.span.stop - 1
  let spaced := ' ' :: text ++ [' ']
  match o.properties.getLast? with
  | none => draft.insert closing spaced
  | some last =>
    let gap := (slice? draft.unedited ⟨last.span.stop, closing⟩).getD []
    if hasComma .blank gap then draft.insert closing spaced
    else draft.insert last.span.stop (',' :: ' ' :: text)

/-- The property that holds the parameters, as text. -/
def parametersText (o : ObjectLiteral) : List Char :=
  parametersKey.toList ++ ':' :: ' ' :: o.print 0

/-- The edits that make the additions to the parameters of an object that stands in the text. The
notices hold whether or not the draft accepts the edits. -/
def ParameterAdditions.editOwner (p : ParameterAdditions) (draft : Draft) (o : ObjectLiteral) :
    Noted (Except Fault Draft) :=
  if p.isEmpty then ⟨.ok draft, []⟩
  else
    match splitLast? (·.isNamed parametersKey) o.properties with
    | none =>
      let parameters := p.addTo (objectOf [])
      ⟨appendProperty draft o (parametersText parameters.value), parameters.notices⟩
    | some (_, property, _) =>
      match base? property with
      | none => ⟨.ok draft, [.parametersComputed]⟩
      | some base =>
        let parameters := p.addTo base
        let edited := match property with
          | .keyValue _ value =>
            draft.overwrite value.span.start value.span.stop (parameters.value.print 0)
          | _ =>
            draft.overwrite property.span.start property.span.stop
              (parametersText parameters.value)
        ⟨edited, parameters.notices⟩

end SvelteStories

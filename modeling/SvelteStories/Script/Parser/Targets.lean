/-
Expressions that turn out to be assigned to:

* `Expr.isSimpleTarget`: whether an expression stands for one variable or member;
* `noteTarget`: what is wrong with an expression that is assigned to or counted;
* `PatternRole`, `Expr.toPattern`: the pattern that an expression was meant to be;
* `assignmentPattern`: the left side of an assignment;
* `noteStrictNames`: names that no parameter may have in strict code.
-/
import SvelteStories.Script.Parser.Patterns

namespace SvelteStories.Script

/-! ### Simple targets -/

/-- Whether an expression is a member of an object, outside of optional chains. -/
def Expr.isMember : Expr → Bool
  | .member _ _ _ => true
  | _ => false

/-- Whether an expression is an optional chain. -/
def Expr.isChain : Expr → Bool
  | .compound _ form _ => form = .optionalMember || form = .optionalCall
  | _ => false

/-- Whether an expression stands for something that a single value can be assigned to. -/
def Expr.isSimpleTarget (isStrict : Bool) : Expr → Bool
  | .identifier _ name => !(isStrict && isUnboundName name)
  | .paren _ inner => inner.isSimpleTarget isStrict
  | .member _ inner _ => if inner.isMember then inner.isSimpleTarget isStrict else !inner.isChain
  | .annotated _ .constant _ _ _ => false
  | .annotated _ _ _ inner _ => inner.isSimpleTarget isStrict
  | .compound _ .superMember _ => true
  | _ => false

/-- Whether an expression has the form of something that a single value can be assigned to. -/
def Expr.hasTargetForm : Expr → Bool
  | .identifier _ _ | .member _ _ _ | .paren _ _ => true
  | .annotated _ about _ _ _ => about != .constant
  | .compound _ form _ => [Form.superMember, .optionalMember, .optionalCall].contains form
  | _ => false

/-- Whether an expression is `eval` or `arguments`. -/
def Expr.isUnboundName : Expr → Bool
  | .identifier _ name => Script.isUnboundName name
  | _ => false

/-- Whether a typed script is told that an expression is no variable. -/
def Expr.isDeniedTarget (deniesCalls : Bool) : Expr → Bool
  | .literal _ _ | .compound _ (.binary _) _ => false
  | .call _ => deniesCalls
  | .paren _ inner => inner.isDeniedTarget deniesCalls
  | _ => true

/-- Notes what is wrong with an expression that is assigned to, or that is counted up or down. -/
def noteTarget (isAssigned : Bool) (e : Expr) : Parser Unit := do
  let c ← read
  let isSimple := e.isSimpleTarget c.isStrict
  let start := e.span.start
  if c.dialect.isTyped then
    if e.isUnboundName then noteStrict .strictTarget start
    else unless isSimple || !e.isDeniedTarget isAssigned do noteAt .notVariable start
  else unless isSimple do
    noteAt (if isAssigned then .notVariable else .notAssignable) start

/-! ### Patterns -/

/-- What a pattern is for. -/
inductive PatternRole
  /-- A parameter. -/
  | parameter
  /-- A part of a parameter. -/
  | part
  /-- A part of the left side of an assignment. -/
  | assignedPart
deriving DecidableEq, Repr

/-- The role of the parts of a pattern. -/
def PatternRole.forParts : PatternRole → PatternRole
  | parameter | part => part
  | assignedPart => assignedPart

/-- Whether an expression that is assigned to as a part is looked at as a whole. -/
def Expr.isWholePart : Expr → Bool
  | .identifier _ _ | .literal _ _ | .template _ _ | .paren _ _ | .member _ _ _ | .call _
  | .function _ _ | .classes _ _ _ _ | .annotated _ .ascribed _ _ _ => true
  | .compound _ form _ => [Form.superMember, .construction, .bareConstruction].contains form
  | _ => false

/-- A pattern that an expression is not, which is noted. -/
def refusedPattern (e : Expr) : Parser Pattern := do
  noteAt .notPattern e.span.start
  return .target e

/-- A pattern for an expression that has no parts, by its role. -/
def simplePattern (role : PatternRole) (e : Expr) : Parser Pattern := do
  if role = .assignedPart && e.isWholePart then
    unless e.isSimpleTarget (← read).isStrict do noteAt .notAssignable e.span.start
    match e with
    | .identifier span name => return .identifier span name []
    | _ => return .target e
  match e with
  | .identifier span name => return .identifier span name []
  | _ => refusedPattern e

/-- Whether an element of an array literal is none. -/
def Element.isHole : Element → Bool
  | .hole => true
  | .plain _ | .spread _ _ => false

/-- Whether an expression is an assignment. -/
def Expr.isAssignment : Expr → Bool
  | .assign _ _ _ _ => true
  | _ => false

mutual

/-- The pattern that an expression was meant to be. -/
def Expr.toPattern (role : PatternRole) : Expr → Parser Pattern
  | .object ⟨span, properties⟩ => do
    return .object ⟨span, ← toPatternProperties role (← trailingComma? span.start) properties, []⟩
  | .array span elements => do
    return .array span (← toPatternElements role (← trailingComma? span.start) elements) []
  | .assign span target operator value =>
    if operator = "=" then return .withDefault span target value
    else refusedPattern (.assign span target operator value)
  | e => simplePattern role e

/-- The properties of the pattern that an object literal was meant to be. -/
def toPatternProperties (role : PatternRole) (comma : Option Nat) :
    List Property → Parser (List PatternProperty)
  | [] => return []
  | p :: ps => do
    let first ← p.toPattern role (if ps.isEmpty then comma else none) (!ps.isEmpty)
    return first :: (← toPatternProperties role comma ps)

/-- The property of a pattern that one of an object literal was meant to be. `comma` is a comma
behind it that ends the literal, and `isFollowed` tells whether there are others behind it. -/
def Property.toPattern (role : PatternRole) (comma : Option Nat) (isFollowed : Bool) :
    Property → Parser PatternProperty
  | .keyValue key value => return .keyValue key (← value.toPattern role.forParts)
  | .shorthand span name => return .shorthand span name none
  | .initialized span name value => return .shorthand span name (some value)
  | .spread span value => do
    if isFollowed then noteAt .restNotLast span.start
    else if let some offset := comma then noteAt .commaAfterRest offset
    match role.forParts, value with
    | .part, .identifier inner name => return .rest span (.identifier inner name [])
    | .part, _ =>
      noteAt .restWithoutName span.start
      return .rest span (.target value)
    | role, _ =>
      let target ← value.toPattern role
      if let .withDefault _ _ _ := target then noteAt .defaultOfRest span.start
      return .rest span target
  | .method span _ _ _ => failAt .notPattern span.start

/-- The elements of the pattern that an array literal was meant to be. Holes at its end count for
nothing but that no rest element may stand before them. -/
def toPatternElements (role : PatternRole) (comma : Option Nat) :
    List Element → Parser (List PatternElement)
  | [] => return []
  | e :: es => do
    if (e :: es).all Element.isHole then return []
    let first ← e.toPattern role comma (!es.isEmpty)
    return first ++ (← toPatternElements role comma es)

/-- The element of a pattern that one of an array literal was meant to be. -/
def Element.toPattern (role : PatternRole) (comma : Option Nat) (isFollowed : Bool) :
    Element → Parser (List PatternElement)
  | .hole => return [.hole]
  | .plain value => return [.bound (← value.toPattern role.forParts)]
  | .spread span value => do
    if isFollowed then
      noteAt .restNotLast span.start
      return []
    if value.isAssignment then noteAt .defaultOfRest span.start
    if let some offset := comma then noteAt .commaAfterRest offset
    return [.bound (.rest span (← value.toPattern role.forParts) [])]

end

/-- The left side of an assignment that stands for an expression. -/
def assignmentPattern (e : Expr) : Parser Pattern := do
  match e with
  | .object _ | .array _ _ => e.toPattern .assignedPart
  | _ =>
    noteTarget true e
    match e with
    | .identifier span name => return .identifier span name []
    | _ => return .target e

/-- Whether a pattern can be assigned to. -/
def Pattern.isAssignable : Pattern → Bool
  | .identifier _ _ _ | .object _ | .array _ _ _ => true
  | .target e => e.hasTargetForm
  | .withDefault _ _ _ | .rest _ _ _ => false

/-! ### Names in strict code -/

mutual

/-- Notes the names that no parameter may have in strict code. -/
def noteStrictNames : Pattern → Parser Unit
  | .identifier span name _ => do
    if isUnboundName name then noteStrict .strictName span.start
  | .object ⟨_, properties, _⟩ => noteStrictPropertyNames properties
  | .array _ elements _ => noteStrictElementNames elements
  | .withDefault _ target _ | .rest _ target _ => noteStrictNames target
  | .target _ => return

/-- Notes the names that no parameter may have, in the properties of a pattern. -/
def noteStrictPropertyNames : List PatternProperty → Parser Unit
  | [] => return
  | p :: ps => do
    p.noteStrictNames
    noteStrictPropertyNames ps

/-- Notes the names that no parameter may have, in a property of a pattern. -/
def PatternProperty.noteStrictNames : PatternProperty → Parser Unit
  | .keyValue _ value => Script.noteStrictNames value
  | .shorthand span name _ => do
    if isUnboundName name then noteStrict .strictName span.start
  | .rest _ target => Script.noteStrictNames target

/-- Notes the names that no parameter may have, in the elements of a pattern. -/
def noteStrictElementNames : List PatternElement → Parser Unit
  | [] => return
  | e :: es => do
    e.noteStrictNames
    noteStrictElementNames es

/-- Notes the names that no parameter may have, in an element of a pattern. -/
def PatternElement.noteStrictNames : PatternElement → Parser Unit
  | .hole => return
  | .bound target => Script.noteStrictNames target

end

end SvelteStories.Script

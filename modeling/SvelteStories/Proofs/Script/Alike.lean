/-
What is read off a script whatever its places are:

* `Expr.string?_unplaced`, `Expr.strings?_unplaced`, `Expr.describe_unplaced`: the value of a
  literal, and what an expression is called;
* `ObjectPattern.binding_unplaced`, `Declarator.callOf?_unplaced`: bindings and calls;
* `ItemForm.unplaced`: what an item of a module does, without its places.

Each is the same for two trees that differ in their places only.
-/
import SvelteStories.Proofs.Script.Unplaced
import SvelteStories.Story.MetaFunction

namespace SvelteStories.Script

/-! ### Lists without their places -/

lemma unplacedElements_eq_map (es : List Element) :
    unplacedElements es = es.map Element.unplaced := by
  induction es with
  | nil => rfl
  | cons e es ih => rw [unplacedElements, ih, List.map_cons]

lemma unplacedPatternProperties_eq_map (ps : List PatternProperty) :
    unplacedPatternProperties ps = ps.map PatternProperty.unplaced := by
  induction ps with
  | nil => rfl
  | cons p ps ih => rw [unplacedPatternProperties, ih, List.map_cons]

lemma unplacedDeclarators_eq_map (ds : List Declarator) :
    unplacedDeclarators ds = ds.map Declarator.unplaced := by
  induction ds with
  | nil => rfl
  | cons d ds ih => rw [unplacedDeclarators, ih, List.map_cons]

/-! ### Values -/

lemma Expr.string?_unplaced (e : Expr) : e.unplaced.string? = e.string? := by
  cases e with
  | literal span value => cases value <;> rfl
  | paren span inner => exact inner.string?_unplaced
  | _ => rfl

lemma Element.string?_unplaced (e : Element) : e.unplaced.string? = e.string? := by
  cases e with
  | plain value => exact value.string?_unplaced
  | _ => rfl

lemma Expr.strings?_unplaced (e : Expr) : e.unplaced.strings? = e.strings? := by
  cases e with
  | array span elements =>
      rw [unplaced, strings?, strings?, unplacedElements_eq_map, List.mapM_map]
      exact congrArg (List.mapM · elements) (funext Element.string?_unplaced)
  | paren span inner => exact inner.strings?_unplaced
  | _ => rfl

lemma Expr.describe_unplaced (e : Expr) : e.unplaced.describe = e.describe := by
  cases e with
  | paren span inner => exact inner.describe_unplaced
  | _ => rfl

/-! ### Bindings -/

lemma PropertyKey.name?_unplaced (k : PropertyKey) : k.unplaced.name? = k.name? := by
  cases k <;> rfl

lemma Pattern.binding_unplaced (p : Pattern) : p.unplaced.binding = p.binding := by
  cases p with
  | withDefault span bound value => cases bound <;> rfl
  | _ => rfl

lemma PatternProperty.binding?_unplaced (key : String) (p : PatternProperty) :
    p.unplaced.binding? key = p.binding? key := by
  cases p with
  | keyValue k value =>
      rw [unplaced, binding?, binding?, k.name?_unplaced, value.binding_unplaced]
  | shorthand span name default => cases default <;> rfl
  | rest span bound => rfl

/-- A pattern binds a key whatever its places are. -/
lemma ObjectPattern.binding_unplaced (p : ObjectPattern) (key : String) :
    p.unplaced.binding key = p.binding key := by
  obtain ⟨span, properties, typing⟩ := p
  rw [unplaced, binding, binding, unplacedPatternProperties_eq_map, List.findSome?_map]
  exact congrArg (fun f => (properties.findSome? f).getD .missing)
    (funext (PatternProperty.binding?_unplaced key))

/-! ### Calls -/

lemma Call.calleeName?_unplaced (c : Call) : c.unplaced.calleeName? = c.calleeName? := by
  obtain ⟨span, callee, types, arguments⟩ := c
  cases callee <;> rfl

lemma Call.objectArgument?_unplaced (c : Call) :
    c.unplaced.objectArgument? = c.objectArgument?.map ObjectLiteral.unplaced := by
  obtain ⟨span, callee, types, _ | ⟨first, others⟩⟩ := c
  · rfl
  · cases first with
    | spread value => cases others <;> rfl
    | plain value => cases others <;> cases value <;> rfl

lemma Declarator.call?_unplaced (v : Declarator) :
    v.unplaced.call? = v.call?.map Call.unplaced := by
  obtain ⟨bound, _ | init⟩ := v
  · rfl
  · cases init <;> rfl

lemma Declarator.target_unplaced (v : Declarator) : v.unplaced.target = v.target.unplaced := by
  obtain ⟨bound, _ | init⟩ := v <;> rfl

lemma Declarator.callOf?_unplaced (name : String) (v : Declarator) :
    v.unplaced.callOf? name = (v.callOf? name).map Call.unplaced := by
  rw [callOf?, callOf?, call?_unplaced, Option.filter_map]
  simp only [Function.comp_def, Call.calleeName?_unplaced]

/-! ### Items -/

/-- The name of an export without its place. -/
def ExternalName.unplaced : ExternalName → ExternalName
  | word _ value => .word nowhere value
  | string _ value raw => .string nowhere value raw

/-- What an import brings in, without its place. -/
def ImportSpecifier.unplaced : ImportSpecifier → ImportSpecifier
  | named imported name typeOnly => .named imported name typeOnly
  | default _ name => .default nowhere name
  | all _ name => .all nowhere name

/-- A default export without its places. -/
def DefaultExport.unplaced : DefaultExport → DefaultExport
  | function name parts => .function name (unplacedPieces parts)
  | classes name head heritage body =>
    .classes name (unplacedPieces head) (unplacedPieces heritage) (unplacedPieces body)
  | interfaces => .interfaces
  | expression value => .expression value.unplaced

/-- What an item does, without its places. -/
def ItemForm.unplaced : ItemForm → ItemForm
  | imports typeOnly specifiers source =>
    .imports typeOnly (specifiers.map ImportSpecifier.unplaced) source
  | statement value => .statement value.unplaced
  | exportDeclaration value => .exportDeclaration value.unplaced
  | exportDefault value => .exportDefault value.unplaced
  | exportNames names source =>
    .exportNames (names.map fun n => (n.1.unplaced, n.2.unplaced)) source
  | exportAll typeOnly name source => .exportAll typeOnly (name.map ExternalName.unplaced) source
  | other parts => .other (unplacedPieces parts)

lemma ItemForm.variables?_unplaced (form : ItemForm) :
    form.unplaced.variables? = form.variables?.map VariableDeclaration.unplaced := by
  cases form with
  | statement value => cases value <;> rfl
  | exportDeclaration value => cases value <;> rfl
  | _ => rfl

end SvelteStories.Script

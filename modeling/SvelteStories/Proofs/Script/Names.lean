/-
The names of a module:

* `Pattern.names`, `VariableDeclaration.names`: the names that a pattern and a declaration bind;
* `declaredNames`, `exportedNames`: the names that the items of a module declare, and those that
  they export;
* `namesOfProperties_insertBeforeRest`, `names_changeAt`: a pattern with one more property, and a
  declaration with such a pattern, bind the names of that property besides their own.
-/
import Mathlib.Data.List.Perm.Basic
import SvelteStories.Additions.Binding

namespace SvelteStories

/-- What is made of a list grows by as much as what is made of the element that is exchanged. -/
lemma flatMap_exchange_perm {α β : Type} {f : α → List β} {a b : α} {more : List β}
    (h : (f b).Perm (f a ++ more)) (before behind : List α) :
    ((before ++ b :: behind).flatMap f).Perm ((before ++ a :: behind).flatMap f ++ more) := by
  simp only [List.flatMap_append, List.flatMap_cons, List.append_assoc]
  refine List.Perm.append_left _ ((h.append_right _).trans ?_)
  rw [List.append_assoc]
  exact List.perm_append_comm.append_left _

namespace Script

/-! ### Patterns -/

mutual

/-- The names that a pattern binds, in order. -/
def Pattern.names : Pattern → List String
  | .identifier _ name _ => [name]
  | .object o => o.names
  | .array _ elements _ => namesOfElements elements
  | .withDefault _ target _ => target.names
  | .rest _ target _ => target.names
  | .target _ => []

/-- The names that an object pattern binds. -/
def ObjectPattern.names : ObjectPattern → List String
  | ⟨_, properties, _⟩ => namesOfProperties properties

/-- The names that properties of a pattern bind. -/
def namesOfProperties : List PatternProperty → List String
  | [] => []
  | p :: ps => p.names ++ namesOfProperties ps

/-- The names that a property of a pattern binds. -/
def PatternProperty.names : PatternProperty → List String
  | .keyValue _ value => value.names
  | .shorthand _ name _ => [name]
  | .rest _ target => target.names

/-- The names that elements of a pattern bind. -/
def namesOfElements : List PatternElement → List String
  | [] => []
  | e :: es => e.names ++ namesOfElements es

/-- The names that an element of a pattern binds. -/
def PatternElement.names : PatternElement → List String
  | .hole => []
  | .bound target => target.names

end

lemma ObjectPattern.names_eq (p : ObjectPattern) : p.names = namesOfProperties p.properties := by
  cases p
  rw [ObjectPattern.names]

lemma namesOfProperties_append (ps qs : List PatternProperty) :
    namesOfProperties (ps ++ qs) = namesOfProperties ps ++ namesOfProperties qs := by
  induction ps with
  | nil => rw [List.nil_append, namesOfProperties, List.nil_append]
  | cons p ps ih => rw [List.cons_append, namesOfProperties, namesOfProperties, ih, List.append_assoc]

/-- One more property binds its names besides the others. -/
lemma namesOfProperties_insertBeforeRest (p : PatternProperty) (ps : List PatternProperty) :
    (namesOfProperties (insertBeforeRest p ps)).Perm (namesOfProperties ps ++ p.names) := by
  have hparts : namesOfProperties ps = namesOfProperties (ps.takeWhile fun q => !q.isRest)
      ++ namesOfProperties (ps.dropWhile fun q => !q.isRest) := by
    rw [← namesOfProperties_append, List.takeWhile_append_dropWhile]
  rw [insertBeforeRest, namesOfProperties_append, namesOfProperties, hparts, List.append_assoc]
  exact List.perm_append_comm.append_left _

/-! ### Declarations -/

namespace VariableDeclaration

/-- The names that a declaration binds. -/
def names (d : VariableDeclaration) : List String :=
  d.declarators.flatMap fun v => v.target.names

/-- A change to the variables at a place changes nothing where there are none. -/
lemma map_change_of_none {place : Span} {vs : List Declarator} (change : Declarator → Declarator)
    (h : vs.countP (fun w => w.target.isObjectAt place) = 0) :
    vs.map (fun w => if w.target.isObjectAt place then change w else w) = vs := by
  have hnone := List.countP_eq_zero.mp h
  rw [List.map_congr_left fun w hw => if_neg (hnone w hw), List.map_id']

/-- Where only one variable has its object pattern at a place, a declaration with another one there
binds what this binds more than before, and the rest as before. -/
lemma names_changeAt {d : VariableDeclaration} {place : Span} {change : Declarator → Declarator}
    {v : Declarator} {added : List String} (hv : v ∈ d.declarators)
    (hplace : v.target.isObjectAt place = true)
    (halone : d.declarators.countP (fun w => w.target.isObjectAt place) = 1)
    (hchange : (change v).target.names.Perm (v.target.names ++ added)) :
    (d.changeAt place change).names.Perm (d.names ++ added) := by
  obtain ⟨before, behind, hsplit⟩ := List.append_of_mem hv
  rw [hsplit, List.countP_append, List.countP_cons_of_pos (by exact hplace)] at halone
  have hbefore := map_change_of_none change
    (show before.countP (fun w => w.target.isObjectAt place) = 0 by omega)
  have hbehind := map_change_of_none change
    (show behind.countP (fun w => w.target.isObjectAt place) = 0 by omega)
  have hchanged : (d.changeAt place change).declarators = before ++ change v :: behind := by
    rw [changeAt, hsplit, List.map_append, List.map_cons, if_pos hplace, hbefore, hbehind]
  rw [names, names, hchanged, hsplit]
  exact flatMap_exchange_perm (f := fun w : Declarator => w.target.names) hchange before behind

end VariableDeclaration

/-! ### Items -/

/-- The local name of a name that an import brings in. -/
def ImportSpecifier.localName : ImportSpecifier → String
  | .named _ name _ | .default _ name | .all _ name => name

/-- The names that a statement declares. What is declared in the blocks of it is not among them. -/
def Statement.declaredNames : Statement → List String
  | .variables d => d.names
  | .function _ name _ | .classes _ name _ _ _ => [name]
  | .expression _ _ | .block _ _ | .doWhile _ _ _ | .compound _ _ => []

/-- The names that a default export declares. -/
def DefaultExport.declaredNames : DefaultExport → List String
  | .function name _ | .classes name _ _ _ => name.toList
  | .interfaces | .expression _ => []

namespace ItemForm

/-- The names that an item declares. -/
def declaredNames : ItemForm → List String
  | .imports _ specifiers _ => specifiers.map ImportSpecifier.localName
  | .statement s | .exportDeclaration s => s.declaredNames
  | .exportDefault value => value.declaredNames
  | .exportNames _ _ | .exportAll _ _ _ | .other _ => []

/-- The names that an item exports. -/
def exportedNames : ItemForm → List String
  | .exportDeclaration s => s.declaredNames
  | .exportDefault _ => ["default"]
  | .exportNames names _ => names.map fun pair => pair.2.value
  | .exportAll _ name _ => (name.map ExternalName.value).toList
  | .imports _ _ _ | .statement _ | .other _ => []

/-- The item with another variable declaration. -/
def withVariables (d : VariableDeclaration) : ItemForm → ItemForm
  | .statement _ => .statement (.variables d)
  | .exportDeclaration _ => .exportDeclaration (.variables d)
  | form => form

/-- Whether an item exports what it declares. -/
def isExported : ItemForm → Bool
  | .exportDeclaration _ => true
  | _ => false

end ItemForm

/-- The names that the items of a module declare. -/
def declaredNames (forms : List ItemForm) : List String :=
  forms.flatMap ItemForm.declaredNames

/-- The names that the items of a module export. -/
def exportedNames (forms : List ItemForm) : List String :=
  forms.flatMap ItemForm.exportedNames

lemma declaredNames_append (forms forms' : List ItemForm) :
    declaredNames (forms ++ forms') = declaredNames forms ++ declaredNames forms' :=
  List.flatMap_append

lemma exportedNames_append (forms forms' : List ItemForm) :
    exportedNames (forms ++ forms') = exportedNames forms ++ exportedNames forms' :=
  List.flatMap_append

end Script

end SvelteStories

/-
Where the story calls of a compiled module stand:

* `outermost_of_wellNested`: the calls that a walk through a well-nested tree collects stand in the
  tree, apart from one another, since no call is looked for inside of another one;
* `StoryCall.within_props`: so do the objects that carry their properties;
* `CompiledStories.Placed`: the places of all that the transform edits, which
  `CompiledModule.placed_of_stories` reads off a well-nested module;
* `CompiledStories.props`: the objects with the properties of the stories, and where they stand.
-/
import Mathlib.Data.List.Pairwise
import SvelteStories.Compiled.Module
import SvelteStories.Proofs.Compiled.Walk
import SvelteStories.Proofs.Outcome
import SvelteStories.Proofs.Script.WellNested

namespace SvelteStories

open Script

/-! ### Calls in a tree -/

/-- Story calls that stand in a range, well-nested themselves and apart from one another. -/
structure Outermost (t : List Char) (s : Span) (calls : List StoryCall) : Prop where
  /-- The calls are well-nested trees. -/
  wellNested : ∀ c ∈ calls, (Tree.expr (.call c.call)).WellNested t
  /-- They stand in the range. -/
  inside : ∀ c ∈ calls, s.contains c.call.span = true
  /-- They are apart. -/
  apart : calls.Pairwise fun a b => a.call.span.Apart b.call.span

/-- Calls in trees that are apart are apart. -/
lemma Outermost.flatMap {t : List Char} {s : Span} {trees : List Tree} {story : String}
    (hencloses : Encloses t s trees)
    (h : ∀ n ∈ trees, Outermost t n.span (n.storyCalls story)) :
    Outermost t s (trees.flatMap (Tree.storyCalls story)) := by
  refine ⟨?_, ?_, ?_⟩
  · intro c hc
    obtain ⟨n, hn, hc⟩ := List.mem_flatMap.mp hc
    exact (h n hn).wellNested c hc
  · intro c hc
    obtain ⟨n, hn, hc⟩ := List.mem_flatMap.mp hc
    exact Span.contains_trans (hencloses.inside n hn) ((h n hn).inside c hc)
  · refine List.pairwise_flatMap.mpr ⟨fun n hn => (h n hn).apart, ?_⟩
    refine hencloses.apart.imp_of_mem fun {m n} hm hn hapart a ha b hb => ?_
    exact hapart.mono ((h m hm).inside a ha) ((h n hn).inside b hb)

lemma Outermost.mono {t : List Char} {s s' : Span} {calls : List StoryCall}
    (h : Outermost t s calls) (hs : s'.contains s = true) : Outermost t s' calls :=
  ⟨h.wellNested, fun c hc => Span.contains_trans hs (h.inside c hc), h.apart⟩

lemma Outermost.singleton {t : List Char} {s : Span} {c : StoryCall}
    (h : (Tree.expr (.call c.call)).WellNested t) (hs : s.contains c.call.span = true) :
    Outermost t s [c] :=
  ⟨by simpa using h, by simpa using hs, List.pairwise_singleton _ _⟩

/-- The story calls in a well-nested tree stand in it, apart from one another. -/
theorem outermost_of_wellNested {t : List Char} {n : Tree} (story : String)
    (h : n.WellNested t) : Outermost t n.span (n.storyCalls story) := by
  induction h with
  | @intro n hencloses hbraced hchildren ih =>
      have h : n.WellNested t := .intro hencloses hbraced hchildren
      rcases storyCalls_cases story n with hwalk | ⟨-, c, hcalls, hn | hchild⟩
      · rw [hwalk]
        exact Outermost.flatMap hencloses ih
      · subst hn
        rw [hcalls]
        exact .singleton h (Span.contains_refl _)
      · rw [hcalls]
        exact .singleton (hchildren _ hchild) (hencloses.inside _ hchild)

/-! ### Objects in a call -/

/-- An object literal that a well-nested tree holds. -/
structure Script.ObjectLiteral.Within (t : List Char) (s : Span) (o : ObjectLiteral) : Prop where
  /-- The object is a well-nested tree. -/
  wellNested : (Tree.expr (.object o)).WellNested t
  /-- It stands in the range. -/
  inside : s.contains o.span = true

/-- An argument is one of the trees in a call. -/
lemma mem_children_of_argument {c : Call} {a : Argument} (ha : a ∈ c.arguments) :
    a.tree ∈ (Tree.expr (.call c)).children :=
  List.mem_cons_of_mem _ (List.mem_map_of_mem ha)

lemma within_of_argument {t : List Char} {c : Call} {o : ObjectLiteral}
    (h : (Tree.expr (.call c)).WellNested t) (ho : .plain (.object o) ∈ c.arguments) :
    o.Within t c.span := by
  have hchild := mem_children_of_argument ho
  exact ⟨h.child hchild, h.contains hchild⟩

/-- The properties of a story stand in its call. -/
lemma StoryCall.within_props {t : List Char} {s : StoryCall} {o : ObjectLiteral}
    (h : (Tree.expr (.call s.call)).WellNested t) (ho : s.props? = some o) :
    o.Within t s.call.span := by
  rw [StoryCall.props?] at ho
  split at ho
  · rename_i a o' rest hargs
    obtain rfl := Option.some.inj ho
    exact within_of_argument h (by simp [hargs])
  · -- the object is an argument of a call that is the second argument
    rename_i a c rest hargs
    have hargument : .plain (.call c) ∈ s.call.arguments := by simp [hargs]
    have hchild := mem_children_of_argument hargument
    obtain ⟨b, hb, hobject⟩ := List.exists_of_findSome?_eq_some ho
    have hb : .plain (.object o) ∈ c.arguments := by
      split at hobject
      · obtain rfl := Option.some.inj hobject
        exact hb
      · simp at hobject
    have hwithin := within_of_argument (h.child hchild) hb
    exact ⟨hwithin.wellNested, Span.contains_trans (h.contains hchild) hwithin.inside⟩
  · simp at ho

/-! ### A compiled module -/

/-- An export admits what does not begin before it, if it declares a function, and what has no byte
in common with it otherwise. -/
def ComponentExport.Admits (s : Span) : ComponentExport → Prop
  | .function span => span.start ≤ s.start
  | .identifier span => span.Apart s

lemma ComponentExport.Admits.mono {s s' : Span} {exported : ComponentExport}
    (h : exported.Admits s) (hs : s.contains s' = true) : exported.Admits s' := by
  cases exported with
  | function span => exact Nat.le_trans h (Span.contains_iff.mp hs).1
  | identifier span => exact Span.Apart.mono h (Span.contains_refl _) hs

/-- The places of what the transform edits in a compiled module. -/
structure CompiledStories.Placed (t : List Char) (found : CompiledStories) : Prop where
  /-- The story calls are well-nested trees. -/
  calls : ∀ s ∈ found.stories, (Tree.expr (.call s.call)).WellNested t
  /-- They are apart. -/
  callsApart : found.stories.Pairwise fun a b => a.call.span.Apart b.call.span
  /-- The declaration of the meta object is a well-nested tree. -/
  declaration : (Tree.declaration found.metaDeclaration.declaration).WellNested t
  /-- The argument of the meta function stands in it. -/
  argument : found.metaDeclaration.argument.Within t found.metaDeclaration.declaration.span
  /-- No story call does. -/
  declarationApart : ∀ s ∈ found.stories,
    found.metaDeclaration.declaration.span.Apart s.call.span
  /-- The default export does not either. -/
  exportApart : found.metaDeclaration.declaration.span.Apart found.component.exported.span
  /-- The default export has its place in the text. -/
  exported : Encloses t found.component.exported.span []
  /-- It admits the story calls. -/
  exportAdmits : ∀ s ∈ found.stories, found.component.exported.Admits s.call.span

namespace CompiledModule

variable {m : CompiledModule} {t : List Char}

/-- Two items of different forms are apart. -/
lemma apart_of_mem {i j : Item} (hm : m.items.WellNested t) (hi : i ∈ m.items) (hj : j ∈ m.items)
    (hij : i.form ≠ j.form) : i.span.Apart j.span := by
  have hsymm : Std.Symm fun i j : Item => i.span.Apart j.span := ⟨fun _ _ h => h.symm⟩
  refine hm.apart.forall hi hj ?_
  rintro rfl
  exact hij rfl

/-- The declaration of the meta object binds the result of a call with an object. -/
lemma exists_call_of_metaOf? {name : String} {declaration : VariableDeclaration} {v : Declarator}
    {d : CompiledDeclaration} (h : metaOf? name declaration v = some (.ok d)) :
    d.declaration = declaration
      ∧ ∃ c, v.init = some (.call c) ∧ .plain (.object d.argument) ∈ c.arguments := by
  obtain ⟨c, hc, h⟩ := Option.map_eq_some_iff.mp h
  have hinit : v.init = some (.call c) := by
    have hcall := (Option.filter_eq_some_iff.mp hc).1
    rw [Declarator.call?] at hcall
    split at hcall
    · rename_i hinit
      rw [hinit, Option.some.inj hcall]
    · simp at hcall
  split at h
  · rename_i pattern argument _ hargument
    obtain rfl := Except.ok.inj h
    refine ⟨rfl, c, hinit, ?_⟩
    rw [Call.objectArgument?] at hargument
    split at hargument
    · rename_i hargs
      simp [hargs, Option.some.inj hargument]
    · simp at hargument
  · simp at h
  · simp at h

/-- The declaration of the meta object is one of the items, exported or not. -/
lemma exists_item_of_metaDeclaration? {name : String} {d : CompiledDeclaration}
    (h : m.metaDeclaration? name = some (.ok d)) :
    ∃ i ∈ m.items, i.form.variables? = some d.declaration
      ∧ ∃ v ∈ d.declaration.declarators, ∃ c, v.init = some (.call c)
        ∧ .plain (.object d.argument) ∈ c.arguments := by
  obtain ⟨i, hi, h⟩ := List.exists_of_findSome?_eq_some h
  obtain ⟨declaration, hvariables, h⟩ := Option.bind_eq_some_iff.mp h
  obtain ⟨v, hv, h⟩ := List.exists_of_findSome?_eq_some h
  obtain ⟨rfl, c, hinit, hargument⟩ := exists_call_of_metaOf? h
  exact ⟨i, hi, hvariables, v, hv, c, hinit, hargument⟩

/-- A function that is declared at the top level is one of the items. -/
lemma exists_item_of_function? {name : String} {parts : List Piece}
    (h : m.function? name = some parts) :
    ∃ j ∈ m.items, ∃ span n, j.form = .statement (.function span n parts) := by
  obtain ⟨j, hj, h⟩ := List.exists_of_findSome?_eq_some h
  split at h
  · rename_i span n parts' hform
    split_ifs at h
    obtain rfl := Option.some.inj h
    exact ⟨j, hj, span, n, hform⟩
  · simp at h

/-- The component is the function in the default export, or one that the default export names. -/
lemma component_cases {c : Component} (h : m.component = .ok c) :
    ∃ i ∈ m.items, (∃ name, i.form = .exportDefault (.function (some name) c.body)
        ∧ c.exported = .function i.span)
      ∨ ((∃ span name, i.form = .exportDefault (.expression (.identifier span name)))
        ∧ c.exported = .identifier i.span
        ∧ ∃ j ∈ m.items, ∃ span name, j.form = .statement (.function span name c.body)) := by
  rw [component] at h
  split at h
  · simp at h
  · rename_i span value hexports
    have hmem : (span, value) ∈ m.defaultExports := by simp [hexports]
    obtain ⟨i, hi, hform⟩ := List.mem_filterMap.mp hmem
    refine ⟨i, hi, ?_⟩
    split at hform
    · rename_i value' hform'
      simp only [Option.some.injEq, Prod.mk.injEq] at hform
      obtain ⟨rfl, rfl⟩ := hform
      rw [exportedComponent.eq_def] at h
      split at h
      · rename_i name parts
        obtain rfl := Except.ok.inj h
        exact Or.inl ⟨name, hform', rfl⟩
      · simp at h
      · simp at h
      · simp at h
      · rename_i span name
        split at h
        · rename_i parts hfunction
          obtain rfl := Except.ok.inj h
          exact Or.inr ⟨⟨span, name, hform'⟩, rfl, exists_item_of_function? hfunction⟩
        · simp at h
      · simp at h
    · simp at hform
  · simp at h

/-- The calls in the component stand in an item that declares no variables, and so does the default
export. -/
lemma outermost_component {c : Component} (story : String) (hm : m.items.WellNested t)
    (h : m.component = .ok c) :
    ∃ i ∈ m.items, i.form.variables? = none
      ∧ Outermost t i.span (storyCallsOfPieces story c.body)
      ∧ ∃ e ∈ m.items, e.form.variables? = none
        ∧ (c.exported = .function e.span ∧ e.span = i.span
          ∨ c.exported = .identifier e.span ∧ e.span.Apart i.span) := by
  obtain ⟨e, he, ⟨name, hform, hexported⟩ | ⟨⟨span, name, hform⟩, hexported, hdeclared⟩⟩ :=
    component_cases h
  · -- the function is the item's own
    refine ⟨e, he, by simp [hform, ItemForm.variables?], ?_, e, he,
      by simp [hform, ItemForm.variables?], Or.inl ⟨hexported, rfl⟩⟩
    have htrees : e.trees = treesOfPieces c.body := by simp [Item.trees, hform, DefaultExport.trees]
    have hitem := hm.items e he
    rw [storyCallsOfPieces_eq, ← htrees]
    exact .flatMap hitem.encloses fun n hn => outermost_of_wellNested story (hitem.trees n hn)
  · -- the function is declared by another item
    obtain ⟨j, hj, span', n, hj'⟩ := hdeclared
    have hne : e.form ≠ j.form := by simp [hform, hj']
    refine ⟨j, hj, by simp [hj', ItemForm.variables?], ?_, e, he,
      by simp [hform, ItemForm.variables?], Or.inr ⟨hexported, apart_of_mem hm he hj hne⟩⟩
    have htrees : j.trees = [.statement (.function span' n c.body)] := by simp [Item.trees, hj']
    have hitem := hm.items j hj
    have hmem : Tree.statement (.function span' n c.body) ∈ j.trees := by simp [htrees]
    have hfunction := hitem.trees _ hmem
    have hcalls : Outermost t (Tree.statement (.function span' n c.body)).span
        (storyCallsOfPieces story c.body) := by
      rw [storyCallsOfPieces_eq]
      refine .flatMap hfunction.encloses fun k hk => ?_
      exact outermost_of_wellNested story (hfunction.child hk)
    exact hcalls.mono (hitem.encloses.inside _ hmem)

/-- What an item declares stands in it. -/
lemma wellNested_of_variables? {i : Item} {d : VariableDeclaration} (hm : m.items.WellNested t)
    (hi : i ∈ m.items) (h : i.form.variables? = some d) :
    (Tree.declaration d).WellNested t ∧ i.span.contains d.span = true := by
  have hitem := hm.items i hi
  have hmem : Tree.statement (.variables d) ∈ i.trees := by
    rw [ItemForm.variables?.eq_def] at h
    split at h
    · rename_i d' hform
      simp [Item.trees, hform, Option.some.inj h]
    · rename_i d' hform
      simp [Item.trees, hform, Option.some.inj h]
    · simp at h
  have hchild : Tree.declaration d ∈ (Tree.statement (.variables d)).children := by
    simp [Tree.children, Statement.children]
  exact ⟨(hitem.trees _ hmem).child hchild, hitem.encloses.inside _ hmem⟩

/-- The argument of the call that a variable is initialised with stands in the declaration. -/
lemma within_of_declarator {d : VariableDeclaration} {v : Declarator} {c : Call}
    {o : ObjectLiteral} (hd : (Tree.declaration d).WellNested t) (hv : v ∈ d.declarators)
    (hinit : v.init = some (.call c)) (ho : .plain (.object o) ∈ c.arguments) :
    o.Within t d.span := by
  have hchild : Tree.expr (.call c) ∈ (Tree.declaration d).children :=
    List.mem_flatMap.mpr ⟨v, hv, by simp [Declarator.trees, hinit]⟩
  have hwithin := within_of_argument (hd.child hchild) ho
  exact ⟨hwithin.wellNested, Span.contains_trans (hd.contains hchild) hwithin.inside⟩

/-- What the transform needs of a compiled module, step by step. -/
lemma steps_of_stories {found : CompiledStories} (h : m.stories = .ok found) :
    ∃ name, m.metaFunction? = some name
      ∧ m.metaDeclaration? name = some (.ok found.metaDeclaration)
      ∧ m.component = .ok found.component
      ∧ found.stories = storyCallsOfPieces found.storyName found.component.body
      ∧ found.metaDeclaration.pattern.binding metaKey ≠ .complex := by
  rw [CompiledModule.stories] at h
  split at h
  · rename_i name hname
    split at h
    · rename_i declared hdeclared
      rw [bind_eq_ok_iff] at h
      obtain ⟨declared, rfl, h⟩ := h
      dsimp only at h
      split at h
      · rename_i storyName _
        rw [bind_eq_ok_iff] at h
        obtain ⟨storyName, -, h⟩ := h
        split at h
        · rename_i hbinding
          simp only [bind_eq_ok_iff, pure_eq_ok_iff] at h
          obtain ⟨-, -, component, hcomponent, rfl⟩ := h
          exact ⟨name, hname, hdeclared, hcomponent, rfl, by simp [hbinding]⟩
        · rename_i hbinding
          simp only [bind_eq_ok_iff, pure_eq_ok_iff] at h
          obtain ⟨-, -, component, hcomponent, rfl⟩ := h
          exact ⟨name, hname, hdeclared, hcomponent, rfl, by simp [hbinding]⟩
        · exact absurd h error_bind_ne_ok
      · exact absurd h error_bind_ne_ok
      · exact absurd h error_bind_ne_ok
    · exact absurd h throw_ne_ok
  · exact absurd h throw_ne_ok

/-- The same, whatever the local name of the meta function is. -/
lemma stories_eq_ok {found : CompiledStories} (h : m.stories = .ok found) :
    ∃ name, m.metaDeclaration? name = some (.ok found.metaDeclaration)
      ∧ m.component = .ok found.component
      ∧ found.stories = storyCallsOfPieces found.storyName found.component.body
      ∧ found.metaDeclaration.pattern.binding metaKey ≠ .complex := by
  obtain ⟨name, -, hsteps⟩ := steps_of_stories h
  exact ⟨name, hsteps⟩

/-- In a well-nested module all that the transform edits has a place of its own. -/
theorem placed_of_stories {found : CompiledStories} (hm : m.items.WellNested t)
    (h : m.stories = .ok found) : found.Placed t := by
  obtain ⟨name, hdeclared, hcomponent, hstories, -⟩ := stories_eq_ok h
  obtain ⟨i, hi, hvariables, v, hv, c, hinit, hargument⟩ :=
    exists_item_of_metaDeclaration? hdeclared
  obtain ⟨hd, hdi⟩ := wellNested_of_variables? hm hi hvariables
  obtain ⟨j, hj, hjform, hcalls, e, he, heform, hexported⟩ :=
    outermost_component found.storyName hm hcomponent
  rw [← hstories] at hcalls
  have hij : i.span.Apart j.span := apart_of_mem hm hi hj fun heq => by
    rw [heq, hjform] at hvariables
    exact absurd hvariables (by simp)
  have hie : i.span.Apart e.span := apart_of_mem hm hi he fun heq => by
    rw [heq, heform] at hvariables
    exact absurd hvariables (by simp)
  have hspan : found.component.exported.span = e.span := by
    rcases hexported with ⟨hexported, -⟩ | ⟨hexported, -⟩ <;> rw [hexported] <;> rfl
  have hitem := (hm.items e he).encloses
  refine ⟨hcalls.wellNested, hcalls.apart, hd, within_of_declarator hd hv hinit hargument,
    fun s hs => hij.mono hdi (hcalls.inside s hs), ?_, ?_, ?_⟩
  · rw [hspan]
    exact hie.mono hdi (Span.contains_refl _)
  · rw [hspan]
    exact ⟨hitem.ordered, hitem.start, hitem.stop, by simp, List.Pairwise.nil⟩
  · intro s hs
    rcases hexported with ⟨hexported, heq⟩ | ⟨hexported, hapart⟩
    · rw [hexported]
      rw [← heq] at hcalls
      exact (Span.contains_iff.mp (hcalls.inside s hs)).1
    · rw [hexported]
      exact hapart.mono (Span.contains_refl _) (hcalls.inside s hs)

end CompiledModule

/-! ### The properties of the stories -/

/-- The objects that carry the properties of the stories. -/
def CompiledStories.props (found : CompiledStories) : List ObjectLiteral :=
  found.stories.filterMap StoryCall.props?

namespace CompiledStories.Placed

variable {t : List Char} {found : CompiledStories}

/-- Each of the objects stands in a story call. -/
lemma exists_call (h : found.Placed t) {o : ObjectLiteral} (ho : o ∈ found.props) :
    ∃ s ∈ found.stories, o.Within t s.call.span := by
  obtain ⟨s, hs, hprops⟩ := List.mem_filterMap.mp ho
  exact ⟨s, hs, StoryCall.within_props (h.calls s hs) hprops⟩

lemma wellNested_props (h : found.Placed t) {o : ObjectLiteral} (ho : o ∈ found.props) :
    (Tree.expr (.object o)).WellNested t := by
  obtain ⟨s, -, hwithin⟩ := h.exists_call ho
  exact hwithin.wellNested

lemma propsApart (h : found.Placed t) :
    found.props.Pairwise fun a b => a.span.Apart b.span := by
  refine List.pairwise_filterMap.mpr ?_
  refine h.callsApart.imp_of_mem fun {s s'} hs hs' hapart o ho o' ho' => ?_
  have hwithin := StoryCall.within_props (h.calls s hs) ho
  have hwithin' := StoryCall.within_props (h.calls s' hs') ho'
  exact hapart.mono hwithin.inside hwithin'.inside

/-- None of the objects has a byte in common with the declaration of the meta object. -/
lemma props_apart_declaration (h : found.Placed t) {o : ObjectLiteral} (ho : o ∈ found.props) :
    o.span.Apart found.metaDeclaration.declaration.span := by
  obtain ⟨s, hs, hwithin⟩ := h.exists_call ho
  exact (h.declarationApart s hs).symm.mono hwithin.inside (Span.contains_refl _)

/-- The default export admits the objects. -/
lemma exportAdmits_props (h : found.Placed t) {o : ObjectLiteral} (ho : o ∈ found.props) :
    found.component.exported.Admits o.span := by
  obtain ⟨s, hs, hwithin⟩ := h.exists_call ho
  exact (h.exportAdmits s hs).mono hwithin.inside

end CompiledStories.Placed

end SvelteStories

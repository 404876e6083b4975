/-
The meta declaration of a stories file, and that of the module which the file is compiled to:

* `MetaVariable`: the variable that items bind the result of the meta function to, the first one that
  is initialised with a call of it;
* `findSome?_callOf?`: a search for calls of the meta function ends at this variable;
* `MetaVariable.of_unplaced`: items that differ in their places only have it at the same position;
* `metaDeclarations_agree`: a stories file and a module that has the items of its script find the same
  declaration of the meta object.

The stories file is searched with an eye to its faults and the module is not. So the two searches are
written apart, and what the one binds to a name is what the other looks for under this name.
-/
import SvelteStories.Proofs.Transform.Restated

namespace SvelteStories

open Script Markup

/-! ### The meta function -/

namespace Script

/-- Whether an import is one of a type. -/
def ImportSpecifier.isType : ImportSpecifier → Bool
  | .named _ _ typeOnly => typeOnly
  | .default _ _ | .all _ _ => false

/-- An item that imports no types. -/
def ItemForm.ImportsNoTypes : ItemForm → Prop
  | .imports typeOnly specifiers _ => typeOnly = false ∧ ∀ s ∈ specifiers, s.isType = false
  | _ => True

/-- An item that neither imports anything from the addon package nor declares variables. -/
def ItemForm.IsAside : ItemForm → Prop
  | .imports _ _ package => package ≠ addonPackage
  | form => form.variables? = none

/-- The name that an item of a compiled module imports the meta function under. -/
def ItemForm.importedMetaName? : ItemForm → Option String
  | .imports _ specifiers package =>
    if package = addonPackage then SvelteStories.importedMetaName? specifiers else none
  | _ => none

end Script

lemma metaFunction?_eq (m : CompiledModule) :
    m.metaFunction? = m.items.findSome? fun i => i.form.importedMetaName? := by
  rw [CompiledModule.metaFunction?]
  refine congrArg (List.findSome? · m.items) (funext fun item => ?_)
  cases item.form <;> rfl

/-- A search that reports no faults ends where one that does ends without any. -/
lemma findSome?_of_ok {α β ε : Type} {f : α → Option (Except ε β)} {g : α → Option β} {l : List α}
    (h : ∀ a ∈ l, (f a = none → g a = none) ∧ ∀ b, f a = some (.ok b) → g a = some b) :
    (l.findSome? f = none → l.findSome? g = none)
      ∧ ∀ b, l.findSome? f = some (.ok b) → l.findSome? g = some b := by
  induction l with
  | nil => exact ⟨fun _ => rfl, fun _ hb => nomatch hb⟩
  | cons a l ih =>
      obtain ⟨⟨hnone, hsome⟩, hl⟩ := List.forall_mem_cons.mp h
      obtain ⟨ihnone, ihsome⟩ := ih hl
      rw [List.findSome?_cons, List.findSome?_cons]
      cases ha : f a with
      | none => rw [hnone ha]; exact ⟨ihnone, ihsome⟩
      | some found =>
          refine ⟨fun hcontra => absurd hcontra (by simp), fun b hb => ?_⟩
          obtain rfl := Option.some.inj hb
          rw [hsome b ha]

/-- An import of the meta function is one for the stories file and for the module. -/
lemma importedMetaName?_of_metaFunction? {item : Item} (h : item.form.ImportsNoTypes) :
    (item.metaFunction? = none → item.form.importedMetaName? = none)
      ∧ ∀ name, item.metaFunction? = some (.ok name) → item.form.importedMetaName? = some name := by
  obtain ⟨span, comments, form⟩ := item
  cases form with
  | imports typeOnly specifiers package =>
      obtain ⟨rfl, hspecifiers⟩ := h
      simp only [Item.metaFunction?, ItemForm.importedMetaName?]
      split_ifs with hpackage
      · refine findSome?_of_ok fun s hs => ?_
        cases s with
        | named imported name typeOnly =>
            obtain rfl : typeOnly = false := hspecifiers _ hs
            simp only [ImportSpecifier.metaFunction?, Bool.not_false, Bool.true_and]
            split_ifs <;> simp_all
        | default => simp [ImportSpecifier.metaFunction?]
        | all => simp [ImportSpecifier.metaFunction?]
      · exact ⟨fun _ => rfl, fun name hname => by cases hname⟩
  | _ => exact ⟨fun _ => rfl, fun name hname => by cases hname⟩

lemma importedMetaName?_unplaced (form : ItemForm) :
    form.unplaced.importedMetaName? = form.importedMetaName? := by
  cases form with
  | imports typeOnly specifiers package =>
      simp only [ItemForm.unplaced, ItemForm.importedMetaName?, importedMetaName?,
        List.findSome?_map]
      refine congrArg (fun f => if package = addonPackage then specifiers.findSome? f else none)
        (funext fun s => ?_)
      cases s <;> rfl
  | _ => rfl

lemma none_of_isAside {form : ItemForm} (h : form.IsAside) :
    form.importedMetaName? = none ∧ form.variables? = none := by
  cases form with
  | imports => exact ⟨if_neg h, rfl⟩
  | _ => exact ⟨rfl, h⟩

/-! ### The meta variable -/

/-- The variable that items bind the result of the meta function to: the first one that is initialised
with a call of it. So many items stand before its declaration, and so many variables before it. -/
structure MetaVariable (name : String) (items : Program) (itemsBefore variablesBefore : Nat)
    (d : VariableDeclaration) (v : Declarator) (call : Call) : Prop where
  /-- An item declares it. -/
  declares : (items[itemsBefore]?.bind fun i => i.form.variables?) = some d
  /-- It is a variable of this declaration. -/
  has : d.declarators[variablesBefore]? = some v
  /-- It is initialised with a call of the meta function. -/
  calls : v.callOf? name = some call
  /-- No variable of an item before is. -/
  first_declares : ∀ i ∈ items.take itemsBefore, ∀ d ∈ i.form.variables?, ∀ w ∈ d.declarators,
    w.callOf? name = none
  /-- No variable before it in its declaration is. -/
  first : ∀ w ∈ d.declarators.take variablesBefore, w.callOf? name = none

/-- A search ends where it first finds something. -/
lemma findSome?_eq_some_iff_getElem? {α β : Type} {f : α → Option β} {l : List α} {b : β} :
    l.findSome? f = some b
      ↔ ∃ k, l[k]?.bind f = some b ∧ ∀ a ∈ l.take k, f a = none := by
  constructor
  · intro h
    obtain ⟨before, a, behind, rfl, ha, hbefore⟩ := List.findSome?_eq_some_iff.mp h
    exact ⟨before.length, by simpa using ha, by simpa using hbefore⟩
  · rintro ⟨k, hk, hbefore⟩
    obtain ⟨a, hget, ha⟩ := Option.bind_eq_some_iff.mp hk
    obtain ⟨hlt, rfl⟩ := List.getElem?_eq_some_iff.mp hget
    rw [← List.take_append_drop k l, List.findSome?_append, List.findSome?_eq_none_iff.mpr hbefore,
      Option.none_or, List.drop_eq_getElem_cons hlt, List.findSome?_cons, ha]

section

variable {name : String} {items items' : Program} {k j : Nat} {d : VariableDeclaration}
  {v : Declarator} {call : Call}

/-- A search for calls of the meta function ends at the meta variable. -/
lemma findSome?_callOf? {β : Type} {told : Item → VariableDeclaration → Declarator → Call → β}
    {b : β} :
    (items.findSome? fun i => i.form.variables?.bind fun d => d.declarators.findSome? fun v =>
        (v.callOf? name).map (told i d v)) = some b
      ↔ ∃ k j i d v call, MetaVariable name items k j d v call ∧ items[k]? = some i
        ∧ told i d v call = b := by
  rw [findSome?_eq_some_iff_getElem?]
  constructor
  · rintro ⟨k, hk, hbefore⟩
    obtain ⟨i, hi, hk⟩ := Option.bind_eq_some_iff.mp hk
    obtain ⟨d, hd, hk⟩ := Option.bind_eq_some_iff.mp hk
    obtain ⟨j, hj, hearlier⟩ := findSome?_eq_some_iff_getElem?.mp hk
    obtain ⟨v, hv, hj⟩ := Option.bind_eq_some_iff.mp hj
    obtain ⟨call, hcall, hb⟩ := Option.map_eq_some_iff.mp hj
    refine ⟨k, j, i, d, v, call, ⟨by rw [hi, Option.bind_some, hd], hv, hcall, ?_, ?_⟩, hi, hb⟩
    · intro i' hi' d' hd' w hw
      have hnone := hbefore i' hi'
      rw [Option.mem_def.mp hd', Option.bind_some, List.findSome?_eq_none_iff] at hnone
      exact Option.map_eq_none_iff.mp (hnone w hw)
    · exact fun w hw => Option.map_eq_none_iff.mp (hearlier w hw)
  · rintro ⟨k, j, i, d, v, call, h, hi, rfl⟩
    have hd : i.form.variables? = some d := by
      have := h.declares
      rwa [hi, Option.bind_some] at this
    refine ⟨k, ?_, fun i' hi' => ?_⟩
    · rw [hi, Option.bind_some, hd, Option.bind_some, findSome?_eq_some_iff_getElem?]
      refine ⟨j, by rw [h.has, Option.bind_some, h.calls, Option.map_some], fun w hw => ?_⟩
      rw [h.first w hw, Option.map_none]
    · cases hd' : i'.form.variables? with
      | none => rfl
      | some d' =>
          rw [Option.bind_some, List.findSome?_eq_none_iff]
          intro w hw
          rw [h.first_declares i' hi' d' hd' w hw, Option.map_none]

/-- What holds of all elements of a list holds of those of a list that is told alike. -/
lemma forall_mem_of_map_eq {α β : Type} {f : α → β} {P : α → Prop} {l l' : List α}
    (h : l'.map f = l.map f) (hP : ∀ a a', f a' = f a → P a → P a') (hl : ∀ a ∈ l, P a) :
    ∀ a ∈ l', P a := by
  intro a' ha'
  have hmem : f a' ∈ l.map f := h ▸ List.mem_map_of_mem ha'
  obtain ⟨a, ha, hfa⟩ := List.mem_map.mp hmem
  exact hP a a' hfa.symm (hl a ha)

lemma exists_getElem?_of_map_eq {α β : Type} {f : α → β} {l l' : List α} {a : α} {k : Nat}
    (h : l'.map f = l.map f) (hk : l[k]? = some a) : ∃ a', l'[k]? = some a' ∧ f a' = f a := by
  have hget := congrArg (·[k]?) h
  simp only [List.getElem?_map, hk, Option.map_some] at hget
  exact Option.map_eq_some_iff.mp hget

section

variable {form form' : ItemForm} {d d' : VariableDeclaration} {v v' : Declarator}

lemma exists_variables?_of_unplaced (h : form'.unplaced = form.unplaced)
    (hd : form.variables? = some d) : ∃ d', form'.variables? = some d' ∧ d'.unplaced = d.unplaced := by
  have hvariables := congrArg ItemForm.variables? h
  rw [ItemForm.variables?_unplaced, ItemForm.variables?_unplaced, hd] at hvariables
  exact Option.map_eq_some_iff.mp hvariables

lemma map_unplaced_declarators (h : d'.unplaced = d.unplaced) :
    d'.declarators.map Declarator.unplaced = d.declarators.map Declarator.unplaced := by
  obtain ⟨span, keyword, declarators⟩ := d
  obtain ⟨span', keyword', declarators'⟩ := d'
  simp only [VariableDeclaration.unplaced, unplacedDeclarators_eq_map,
    VariableDeclaration.mk.injEq] at h
  exact h.2.2

lemma map_unplaced_callOf? (name : String) (h : v'.unplaced = v.unplaced) :
    (v'.callOf? name).map Call.unplaced = (v.callOf? name).map Call.unplaced := by
  rw [← Declarator.callOf?_unplaced, ← Declarator.callOf?_unplaced, h]

end

namespace MetaVariable

/-- Items that declare no variables can stand before it, and any items behind it. -/
lemma append {before behind : Program} (h : MetaVariable name items k j d v call)
    (hbefore : ∀ i ∈ before, i.form.variables? = none) :
    MetaVariable name (before ++ (items ++ behind)) (before.length + k) j d v call := by
  obtain ⟨i, hi, hd⟩ := Option.bind_eq_some_iff.mp h.declares
  have hlt : k < items.length := (List.getElem?_eq_some_iff.mp hi).1
  have hget : (before ++ (items ++ behind))[before.length + k]? = some i := by
    rw [List.getElem?_append_right (by omega), Nat.add_sub_cancel_left,
      List.getElem?_append_left hlt, hi]
  have htake : (before ++ (items ++ behind)).take (before.length + k) = before ++ items.take k := by
    rw [List.take_length_add_append, List.take_append_of_le_length (by omega)]
  refine ⟨by rw [hget, Option.bind_some, hd], h.has, h.calls, ?_, h.first⟩
  rw [htake]
  intro i' hi' d' hd'
  rcases List.mem_append.mp hi' with hi' | hi'
  · rw [hbefore i' hi'] at hd'
    cases hd'
  · exact h.first_declares i' hi' d' hd'

/-- There is one only at a position. -/
lemma unique {d' : VariableDeclaration} {v' : Declarator} {call' : Call}
    (h : MetaVariable name items k j d v call) (h' : MetaVariable name items k j d' v' call') :
    d = d' ∧ v = v' ∧ call = call' := by
  obtain rfl := Option.some.inj (h.declares.symm.trans h'.declares)
  obtain rfl := Option.some.inj (h.has.symm.trans h'.has)
  exact ⟨rfl, rfl, Option.some.inj (h.calls.symm.trans h'.calls)⟩

/-- Items that are the same but for their places have it at the same position. -/
lemma of_unplaced (h : MetaVariable name items k j d v call)
    (hsame : items'.map (fun i => i.form.unplaced) = items.map fun i => i.form.unplaced) :
    ∃ d' v' call', MetaVariable name items' k j d' v' call' ∧ d'.unplaced = d.unplaced
      ∧ v'.unplaced = v.unplaced ∧ call'.unplaced = call.unplaced := by
  have hnone (w w' : Declarator) (hw : w'.unplaced = w.unplaced) (hcall : w.callOf? name = none) :
      w'.callOf? name = none := by
    simpa [hcall] using map_unplaced_callOf? name hw
  obtain ⟨i, hi, hd⟩ := Option.bind_eq_some_iff.mp h.declares
  obtain ⟨i', hi', hform⟩ := exists_getElem?_of_map_eq hsame hi
  obtain ⟨d', hd', hdeclaration⟩ := exists_variables?_of_unplaced hform hd
  obtain ⟨v', hv', hvariable⟩ :=
    exists_getElem?_of_map_eq (map_unplaced_declarators hdeclaration) h.has
  have hcalls := map_unplaced_callOf? name hvariable
  rw [h.calls, Option.map_some] at hcalls
  obtain ⟨call', hcall', hcall⟩ := Option.map_eq_some_iff.mp hcalls
  refine ⟨d', v', call', ⟨by rw [hi', Option.bind_some, hd'], hv', hcall', ?_, ?_⟩, hdeclaration,
    hvariable, hcall⟩
  · have htake : (items'.take k).map (fun i => i.form.unplaced)
        = (items.take k).map fun i => i.form.unplaced := by
      rw [List.map_take, List.map_take, hsame]
    refine forall_mem_of_map_eq htake (fun i i' hform hi d' hd' => ?_) h.first_declares
    obtain ⟨d, hd, hdeclaration⟩ := exists_variables?_of_unplaced hform.symm hd'
    exact forall_mem_of_map_eq (map_unplaced_declarators hdeclaration.symm) hnone (hi d hd)
  · have htake : (d'.declarators.take j).map Declarator.unplaced
        = (d.declarators.take j).map Declarator.unplaced := by
      rw [List.map_take, List.map_take, map_unplaced_declarators hdeclaration]
    exact forall_mem_of_map_eq htake hnone h.first

end MetaVariable

/-! ### The meta declaration -/

variable {source : Source} {script : ScriptBlock} {m : CompiledModule} {declared : MetaDeclaration}
  {found : CompiledDeclaration}

/-- A meta declaration is the one of a meta variable, which is destructured from a call with one
object. -/
lemma exists_metaVariable (h : metaDeclaration source script name = .ok declared) :
    ∃ k j v, MetaVariable name script.items k j declared.declaration v declared.call
      ∧ v.target = .object declared.pattern
      ∧ declared.call.objectArgument? = some declared.argument := by
  obtain ⟨k, j, i, d, v, call, hvariable, -, htold⟩ :=
    findSome?_callOf?.mp (metaDeclaration_eq_ok_iff.mp h)
  split at htold
  · rename_i pattern argument hpattern hargument
    obtain rfl := Except.ok.inj htold
    exact ⟨k, j, v, hvariable, hpattern, hargument⟩
  · cases htold
  · cases htold

/-- The module finds what such a variable declares. -/
lemma metaDeclaration?_of_metaVariable {pattern : ObjectPattern} {argument : ObjectLiteral}
    (h : MetaVariable name m.items k j d v call) (htarget : v.target = .object pattern)
    (hargument : call.objectArgument? = some argument) :
    m.metaDeclaration? name = some (.ok ⟨d, pattern, argument⟩) := by
  obtain ⟨i, hi, -⟩ := Option.bind_eq_some_iff.mp h.declares
  refine findSome?_callOf?.mpr ⟨k, j, i, d, v, call, h, hi, ?_⟩
  rw [htarget, hargument]

/-- A variable and a call that are the same as these but for their places. -/
lemma exists_object_of_unplaced {v' : Declarator} {call' : Call} {pattern : ObjectPattern}
    {argument : ObjectLiteral} (hv : v'.unplaced = v.unplaced) (hcall : call'.unplaced = call.unplaced)
    (htarget : v.target = .object pattern) (hargument : call.objectArgument? = some argument) :
    ∃ pattern' argument', v'.target = .object pattern' ∧ call'.objectArgument? = some argument'
      ∧ pattern'.unplaced = pattern.unplaced ∧ argument'.unplaced = argument.unplaced := by
  have hpattern := congrArg Declarator.target hv
  rw [v'.target_unplaced, v.target_unplaced, htarget] at hpattern
  have hobject := congrArg Call.objectArgument? hcall
  rw [call'.objectArgument?_unplaced, call.objectArgument?_unplaced, hargument] at hobject
  obtain ⟨argument', hargument', hsame⟩ := Option.map_eq_some_iff.mp hobject
  cases hv' : v'.target with
  | object pattern' =>
      rw [hv'] at hpattern
      exact ⟨pattern', argument', rfl, hargument', Pattern.object.inj hpattern, hsame⟩
  | _ => rw [hv'] at hpattern; cases hpattern

/-- The import of the meta function that a stories file finds is found in the module. -/
lemma metaFunction?_of_items {before behind : Program}
    (hplain : ∀ i ∈ script.items, i.form.ImportsNoTypes)
    (hname : metaFunction source script = .ok name) (hitems : m.items = before ++ (items ++ behind))
    (hsame : items.map (fun i => i.form.unplaced) = script.items.map fun i => i.form.unplaced)
    (hbefore : ∀ i ∈ before, i.form.IsAside) : m.metaFunction? = some name := by
  have hfound : script.items.findSome? Item.metaFunction? = some (.ok name) := by
    rw [metaFunction] at hname
    split at hname
    · rename_i h
      rw [h, Except.ok.inj hname]
    · cases hname
    · cases hname
  have himported : script.items.findSome? (fun i => i.form.importedMetaName?) = some name :=
    (findSome?_of_ok fun i hi => importedMetaName?_of_metaFunction? (hplain i hi)).2 name hfound
  have hplaces (items : Program) : items.findSome? (fun i => i.form.importedMetaName?)
      = (items.map fun i => i.form.unplaced).findSome? ItemForm.importedMetaName? := by
    rw [List.findSome?_map]
    exact congrArg (List.findSome? · items) (funext fun i => (importedMetaName?_unplaced i.form).symm)
  have hnone : before.findSome? (fun i => i.form.importedMetaName?) = none :=
    List.findSome?_eq_none_iff.mpr fun i hi => (none_of_isAside (hbefore i hi)).1
  rw [metaFunction?_eq, hitems, List.findSome?_append, hnone, Option.none_or, List.findSome?_append,
    hplaces items, hsame, ← hplaces, himported, Option.some_or]

/-- A module that finds a declaration with a pattern that binds the story component. -/
lemma stories_of_found {storyName : String} {metaName : Option String}
    (hname : m.metaFunction? = some name) (hfound : m.metaDeclaration? name = some (.ok found))
    (hstory : found.pattern.binding storyKey = .name storyName)
    (hmeta : found.pattern.binding metaKey = metaName.elim .missing .name) :
    m.stories = m.component.map fun component =>
      ⟨found, storyName, metaName, component, storyCallsOfPieces storyName component.body⟩ := by
  rw [CompiledModule.stories, hname]
  simp only [hfound, ok_bind, hstory, hmeta]
  cases metaName <;> cases m.component <;> rfl

end

/-- What a compiled module would tell of the meta declaration of a stories file. -/
def MetaDeclaration.compiled (d : MetaDeclaration) : CompiledDeclaration :=
  ⟨d.declaration, d.pattern, d.argument⟩

/-- A meta declaration without its places. -/
def CompiledDeclaration.unplaced (d : CompiledDeclaration) : CompiledDeclaration :=
  ⟨d.declaration.unplaced, d.pattern.unplaced, d.argument.unplaced⟩

/-- **Both sides find the same meta declaration.** If a stories file finds its meta function and its
meta declaration, then so does a module that has the items of the module script, which import no types,
among its own, with nothing before them that imports from the addon package or declares variables, and
whatever behind them. It finds the same name for the meta function, and the same variable of the same
declaration, with the same pattern and the same object, up to the places that they have in the two
texts; if the items are those of the script itself, then the very same. So it binds the story component
and the meta object to the same names. -/
theorem metaDeclarations_agree {source : Source} {script : ScriptBlock} {name : String}
    {declared : MetaDeclaration} {m : CompiledModule} {before items behind : Program}
    (hplain : ∀ i ∈ script.items, i.form.ImportsNoTypes)
    (hname : metaFunction source script = .ok name)
    (hdeclared : metaDeclaration source script name = .ok declared)
    (hitems : m.items = before ++ (items ++ behind))
    (hsame : items.map (fun i => i.form.unplaced) = script.items.map fun i => i.form.unplaced)
    (hbefore : ∀ i ∈ before, i.form.IsAside) :
    m.metaFunction? = some name
      ∧ ∃ found, m.metaDeclaration? name = some (.ok found)
        ∧ (∃ k j v v' call', MetaVariable name script.items k j declared.declaration v declared.call
          ∧ MetaVariable name items k j found.declaration v' call'
          ∧ v.target = .object declared.pattern ∧ v'.target = .object found.pattern
          ∧ declared.call.objectArgument? = some declared.argument
          ∧ call'.objectArgument? = some found.argument)
        ∧ found.unplaced = declared.compiled.unplaced
        ∧ (items = script.items → found = declared.compiled)
        ∧ (∀ key, found.pattern.binding key = declared.pattern.binding key)
        ∧ ∀ storyName metaName, declared.pattern.binding storyKey = .name storyName →
          declared.pattern.binding metaKey = metaName.elim .missing .name →
          m.stories = m.component.map fun component =>
            ⟨found, storyName, metaName, component, storyCallsOfPieces storyName component.body⟩ := by
  have hfunction := metaFunction?_of_items hplain hname hitems hsame hbefore
  obtain ⟨k, j, v, hvariable, htarget, hargument⟩ := exists_metaVariable hdeclared
  obtain ⟨d', v', call', hvariable', hd, hv, hcall⟩ := hvariable.of_unplaced hsame
  obtain ⟨pattern', argument', htarget', hargument', hpattern, hobject⟩ :=
    exists_object_of_unplaced hv hcall htarget hargument
  -- behind what stands before the items, the module finds the variable of the items
  have hinside : MetaVariable name m.items (before.length + k) j d' v' call' := by
    rw [hitems]
    exact hvariable'.append fun i hi => (none_of_isAside (hbefore i hi)).2
  have hfound := metaDeclaration?_of_metaVariable hinside htarget' hargument'
  have hbinding (key : String) : pattern'.binding key = declared.pattern.binding key := by
    rw [← pattern'.binding_unplaced, hpattern, declared.pattern.binding_unplaced]
  refine ⟨hfunction, ⟨d', pattern', argument'⟩, hfound,
    ⟨k, j, v, v', call', hvariable, hvariable', htarget, htarget', hargument, hargument'⟩,
    by rw [CompiledDeclaration.unplaced, CompiledDeclaration.unplaced, hd, hpattern, hobject]; rfl,
    ?_, hbinding, ?_⟩
  · rintro rfl
    obtain ⟨rfl, rfl, rfl⟩ := hvariable.unique hvariable'
    obtain rfl := Pattern.object.inj (htarget.symm.trans htarget')
    obtain rfl := Option.some.inj (hargument.symm.trans hargument')
    rfl
  · intro storyName metaName hstory hmeta
    exact stories_of_found hfunction hfound ((hbinding storyKey).trans hstory)
      ((hbinding metaKey).trans hmeta)

/-- A variable that is bound to a call of the meta function, all of it at one place. -/
def boundAt (s : Span) : Declarator :=
  ⟨.object ⟨s, [.shorthand s storyKey none], []⟩,
    some (.call ⟨s, .identifier s "dm", [], [.plain (.object ⟨s, []⟩)]⟩)⟩

/-- Items that import the meta function twice and call it twice, in an exported declaration with
another variable before the calls. -/
def aliasedItems (s : Span) : Program :=
  [⟨s, [], .imports false [.named metaFunctionName "dm" false, .named metaFunctionName "again" false]
      addonPackage⟩,
    ⟨s, [], .statement (.variables ⟨s, "let", [⟨.identifier s "x" [], none⟩]⟩)⟩,
    ⟨s, [], .exportDeclaration (.variables
      ⟨s, "const", [⟨.identifier s "y" [], some (.identifier s "x")⟩, boundAt s, boundAt s]⟩)⟩]

/-- A module script of these items. -/
def aliasedScript : ScriptBlock :=
  ⟨⟨0, 70⟩, ⟨15, 60⟩, .ofModule, .plain, aliasedItems ⟨20, 50⟩⟩

/-- A compiled module that has them elsewhere. -/
def aliasedModule : CompiledModule :=
  ⟨⟨"A.stories.svelte", []⟩,
    [⟨⟨0, 9⟩, [], .imports false [.all ⟨7, 8⟩ "$"] "svelte/internal/client"⟩]
      ++ (aliasedItems ⟨10, 30⟩
        ++ [⟨⟨40, 50⟩, [], .exportDefault (.function (some "A") [])⟩])⟩

theorem aliasedItems_agree :
    (∀ i ∈ aliasedScript.items, i.form.ImportsNoTypes)
      ∧ metaFunction aliasedModule.source aliasedScript = .ok "dm"
      ∧ ∃ declared found, metaDeclaration aliasedModule.source aliasedScript "dm" = .ok declared
        ∧ aliasedModule.metaFunction? = some "dm"
        ∧ aliasedModule.metaDeclaration? "dm" = some (.ok found)
        ∧ found.unplaced = declared.compiled.unplaced
        ∧ ∃ stories, aliasedModule.stories = .ok stories
          ∧ stories.storyName = "Story" ∧ stories.metaName = none := by
  have hplain : ∀ i ∈ aliasedScript.items, i.form.ImportsNoTypes := by
    simp [aliasedScript, aliasedItems, ItemForm.ImportsNoTypes, ImportSpecifier.isType]
  have hname : metaFunction aliasedModule.source aliasedScript = .ok "dm" := by decide
  obtain ⟨declared, hdeclared⟩ : ∃ declared,
      metaDeclaration aliasedModule.source aliasedScript "dm" = .ok declared := ⟨_, rfl⟩
  have hitems : aliasedModule.items
      = [⟨⟨0, 9⟩, [], .imports false [.all ⟨7, 8⟩ "$"] "svelte/internal/client"⟩]
        ++ (aliasedItems ⟨10, 30⟩ ++ [⟨⟨40, 50⟩, [], .exportDefault (.function (some "A") [])⟩]) := rfl
  have hsame : (aliasedItems ⟨10, 30⟩).map (fun i => i.form.unplaced)
      = aliasedScript.items.map fun i => i.form.unplaced := rfl
  obtain ⟨hfunction, found, hfound, -, hunplaced, -, -, hstories⟩ :=
    metaDeclarations_agree hplain hname hdeclared hitems hsame
      (by simp [ItemForm.IsAside, addonPackage])
  obtain rfl : _ = declared := Except.ok.inj hdeclared
  exact ⟨hplain, hname, _, found, rfl, hfunction, hfound, hunplaced, _,
    hstories "Story" none rfl rfl, rfl, rfl⟩

end SvelteStories

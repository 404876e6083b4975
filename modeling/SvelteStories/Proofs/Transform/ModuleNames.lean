/-
The names of a stories module:

* `CompiledModule.itemsWithStories`: the items of a stories module: those of the compiled one, with
  the emitted meta declaration and without the default export, and the export surface;
* `addedNames`, `addedExports`: the names that such a module declares and exports besides those of
  the compiled one (`declaredNames_itemsWithStories`, `exportedNames_itemsWithStories`);
* `storiesModule_names`: so its names are distinct if the compiled module has none of these;
* `collidingModule_exports_twice`: nothing is reported if it has.
-/
import SvelteStories.Proofs.Transform.Surface

namespace SvelteStories

open Script

/-! ### The meta declaration -/

namespace Script

/-- The items with another declaration in place of the first one that a test singles out. -/
def restated (test : VariableDeclaration → Bool) (d : VariableDeclaration) :
    List ItemForm → List ItemForm
  | [] => []
  | form :: forms =>
    if form.variables?.any test then form.withVariables d :: forms
    else form :: restated test d forms

section

variable {test : VariableDeclaration → Bool} {d d' : VariableDeclaration} {form : ItemForm}
  {before behind : List ItemForm} {added : List String}

lemma restated_append (hbefore : ∀ f ∈ before, f.variables?.any test = false)
    (hform : form.variables?.any test = true) :
    restated test d (before ++ form :: behind) = before ++ form.withVariables d :: behind := by
  induction before with
  | nil => rw [List.nil_append, restated, if_pos hform, List.nil_append]
  | cons f before ih =>
      obtain ⟨hf, hbefore⟩ := List.forall_mem_cons.mp hbefore
      rw [List.cons_append, restated, hf, if_neg Bool.false_ne_true, ih hbefore, List.cons_append]

/-- An item with another declaration declares the names of that. -/
lemma names_withVariables (h : form.variables? = some d) :
    form.declaredNames = d.names ∧ (form.withVariables d').declaredNames = d'.names
      ∧ form.exportedNames = (if form.isExported then d.names else [])
      ∧ (form.withVariables d').exportedNames = if form.isExported then d'.names else [] := by
  rw [ItemForm.variables?.eq_def] at h
  split at h
  · obtain rfl := Option.some.inj h
    exact ⟨rfl, rfl, rfl, rfl⟩
  · obtain rfl := Option.some.inj h
    exact ⟨rfl, rfl, rfl, rfl⟩
  · simp at h

end

end Script

/-! ### The default export -/

namespace Script.ItemForm

/-- What is left of an item without the default export: a function stays declared. -/
def unexported : ItemForm → List ItemForm
  | .exportDefault (.function (some name) parts) => [.statement (.function nowhere name parts)]
  | .exportDefault _ => []
  | form => [form]

/-- The name of the default export, if an item makes it. -/
def defaultNames : ItemForm → List String
  | .exportDefault _ => ["default"]
  | _ => []

end Script.ItemForm

/-- Without the default export, its name is exported no more. -/
lemma exportedNames_unexported (forms : List ItemForm) :
    (exportedNames forms).Perm (exportedNames (forms.flatMap ItemForm.unexported)
      ++ forms.flatMap ItemForm.defaultNames) := by
  have hform : ∀ form : ItemForm,
      form.exportedNames = exportedNames form.unexported ++ form.defaultNames := by
    intro form
    cases form with
    | exportDefault value =>
        cases value with
        | function name parts => cases name <;> rfl
        | _ => rfl
    | _ => simp [exportedNames, ItemForm.unexported, ItemForm.defaultNames]
  rw [exportedNames, List.flatMap_congr fun form _ => hform form, exportedNames,
    List.flatMap_assoc]
  exact (List.flatMap_append_perm forms _ _).symm

/-- The items that the transform reads declare as much without the default export as with it. -/
lemma declaredNames_unexported {forms : List ItemForm}
    (h : ∀ form ∈ forms, declaredNames form.unexported = form.declaredNames) :
    declaredNames (forms.flatMap ItemForm.unexported) = declaredNames forms := by
  rw [declaredNames, List.flatMap_assoc]
  exact List.flatMap_congr h

/-- An item that declares variables is no default export. -/
lemma unexported_withVariables {form : ItemForm} {d : VariableDeclaration}
    (h : form.variables? = some d) (d' : VariableDeclaration) :
    (form.withVariables d').unexported = [form.withVariables d']
      ∧ (form.withVariables d').defaultNames = form.defaultNames := by
  rw [ItemForm.variables?.eq_def] at h
  split at h
  · exact ⟨rfl, rfl⟩
  · exact ⟨rfl, rfl⟩
  · simp at h

/-! ### The items of a stories module -/

namespace CompiledModule

/-- What the items of a module do. -/
def forms (m : CompiledModule) : List ItemForm :=
  m.items.map Item.form

/-- Whether a declaration has a variable that is initialised with a call of the meta function. -/
def callsMeta (m : CompiledModule) (d : VariableDeclaration) : Bool :=
  m.metaFunction?.any fun name => d.declarators.any fun v => (v.callOf? name).isSome

/-- Whether the meta declaration is exported. -/
def exportsMeta (m : CompiledModule) : Bool :=
  (m.forms.find? fun form => form.variables?.any m.callsMeta).any ItemForm.isExported

/-- The items of the stories module that a compiled module becomes. What the stories are told inside
the function of the component is left out. -/
def itemsWithStories (m : CompiledModule) (found : CompiledStories) (bound : MetaBinding)
    (additions : ParameterAdditions) (surface : ExportSurface) : List ItemForm :=
  (restated m.callsMeta (found.metaDeclaration.emitted bound additions) m.forms).flatMap
    ItemForm.unexported ++ surface.items

end CompiledModule

/-- The place of its pattern tells which variable of the meta declaration is meant. -/
def CompiledDeclaration.Locates (d : CompiledDeclaration) : Prop :=
  d.declaration.declarators.countP (fun v => v.target.isObjectAt d.pattern.span) = 1

instance (d : CompiledDeclaration) : Decidable d.Locates := by
  unfold CompiledDeclaration.Locates
  infer_instance

/-- The name that the binding of the meta object declares anew. -/
def MetaBinding.newNames (b : MetaBinding) : List String :=
  if b.isNew then [metaKey] else []

/-- The names that the transform declares besides those of the compiled module. -/
def addedNames (bound : MetaBinding) (exportNames : List String) : List String :=
  bound.newNames ++ runtimeHelper :: storiesName :: exportsOrderName
    :: exportNames.map storyLocalName

/-- The names that it exports besides those. -/
def addedExports (bound : MetaBinding) (exportsMeta : Bool) (exportNames : List String) :
    List String :=
  (if exportsMeta then bound.newNames else []) ++ exportsOrderName :: exportNames

section

variable {m : CompiledModule} {found : CompiledStories} {bound : MetaBinding}

/-- A pattern that was made to bind the meta object binds its names and, if it is new, that of the
meta object. -/
lemma names_bindMeta {p : ObjectPattern} (h : p.bindMeta = .ok bound) :
    bound.pattern.names.Perm (p.names ++ bound.newNames) := by
  rw [MetaBinding.newNames]
  rcases bindMeta_cases h with ⟨hnew, rfl, -⟩ | ⟨hnew, -, -, hpattern⟩
  · simp [hnew]
  · have hadded := namesOfProperties_insertBeforeRest (.shorthand nowhere metaKey none) p.properties
    rw [← ObjectPattern.names_eq p] at hadded
    rw [hnew, if_pos rfl, hpattern, ObjectPattern.names_eq]
    exact hadded

/-- The emitted meta declaration binds the names of the compiled one and, if it is new, that of the
meta object. -/
lemma names_emitted {name : String} {d : CompiledDeclaration}
    (hd : m.metaDeclaration? name = some (.ok d)) (hlocates : d.Locates)
    (hbound : d.pattern.bindMeta = .ok bound) (additions : ParameterAdditions) :
    (d.emitted bound additions).names.Perm (d.declaration.names ++ bound.newNames) := by
  obtain ⟨v, hv, htarget, hcall⟩ := exists_declarator_of_metaDeclaration? hd
  refine VariableDeclaration.names_changeAt hv ?_ hlocates ?_
  · simp [htarget, Pattern.isObjectAt]
  · rw [(withArgument_withPattern hcall).1, htarget]
    exact names_bindMeta hbound

lemma callsMeta_eq {name : String} (hname : m.metaFunction? = some name)
    (d : VariableDeclaration) :
    m.callsMeta d = (d.declarators.findSome? (CompiledModule.metaOf? name d)).isSome := by
  rw [CompiledModule.callsMeta, hname, Option.any_some, List.isSome_findSome?]
  refine congrArg (List.any d.declarators) (funext fun v => ?_)
  rw [CompiledModule.metaOf?, Option.isSome_map]

/-- The meta declaration is the first that calls the meta function. -/
lemma exists_forms_eq {name : String} {d : CompiledDeclaration} (hname : m.metaFunction? = some name)
    (hd : m.metaDeclaration? name = some (.ok d)) :
    ∃ (before : List ItemForm) (form : ItemForm) (behind : List ItemForm),
      m.forms = before ++ form :: behind
      ∧ (∀ f ∈ before, f.variables?.any m.callsMeta = false)
      ∧ form.variables?.any m.callsMeta = true ∧ form.variables? = some d.declaration := by
  obtain ⟨before, i, behind, hitems, hi, hbefore⟩ := List.findSome?_eq_some_iff.mp hd
  obtain ⟨declaration, hvariables, hfound⟩ := Option.bind_eq_some_iff.mp hi
  obtain ⟨v, -, hv⟩ := List.exists_of_findSome?_eq_some hfound
  obtain ⟨rfl, -⟩ := CompiledModule.exists_call_of_metaOf? hv
  refine ⟨before.map Item.form, i.form, behind.map Item.form, ?_, fun f hf => ?_, ?_, hvariables⟩
  · rw [CompiledModule.forms, hitems, List.map_append, List.map_cons]
  · obtain ⟨j, hj, rfl⟩ := List.mem_map.mp hf
    cases hnone : j.form.variables? with
    | none => rfl
    | some other =>
        have hother := hbefore j hj
        rw [hnone, Option.bind_some] at hother
        rw [Option.any_some, callsMeta_eq hname, hother]
        rfl
  · rw [hvariables, Option.any_some, callsMeta_eq hname, hfound]
    rfl

/-- The only default export is that of a function with a name or of an expression. -/
lemma defaultExports_of_component {c : Component} (h : m.component = .ok c) :
    ∃ span value, m.defaultExports = [(span, value)]
      ∧ ((∃ name parts, value = .function (some name) parts) ∨ ∃ e, value = .expression e) := by
  rw [CompiledModule.component] at h
  split at h
  · simp at h
  · rename_i span value hexports
    refine ⟨span, value, hexports, ?_⟩
    rw [CompiledModule.exportedComponent.eq_def] at h
    split at h
    · exact Or.inl ⟨_, _, rfl⟩
    · simp at h
    · simp at h
    · simp at h
    · exact Or.inr ⟨_, rfl⟩
    · simp at h
  · simp at h

/-- The name of the default export is exported once. -/
lemma defaultNames_forms {c : Component} (h : m.component = .ok c) :
    m.forms.flatMap ItemForm.defaultNames = ["default"] := by
  obtain ⟨span, value, hexports, -⟩ := defaultExports_of_component h
  have hnames : m.forms.flatMap ItemForm.defaultNames
      = m.defaultExports.map fun _ => "default" := by
    rw [CompiledModule.forms, CompiledModule.defaultExports, List.filterMap_eq_flatMap_toList,
      List.map_flatMap, List.flatMap_map]
    refine List.flatMap_congr fun item _ => ?_
    cases item.form <;> rfl
  rw [hnames, hexports]
  rfl

/-- A function that is exported by default stays declared, and an expression declares nothing. -/
lemma declaredNames_unexported_of_mem {c : Component} (h : m.component = .ok c) {form : ItemForm}
    (hform : form ∈ m.forms) : declaredNames form.unexported = form.declaredNames := by
  obtain ⟨span, value, hexports, hvalue⟩ := defaultExports_of_component h
  cases form with
  | exportDefault value' =>
      obtain ⟨item, hitem, heq⟩ := List.mem_map.mp hform
      have hmem : (item.span, value') ∈ m.defaultExports :=
        List.mem_filterMap.mpr ⟨item, hitem, by rw [heq]⟩
      rw [hexports, List.mem_singleton] at hmem
      obtain ⟨-, rfl⟩ := Prod.mk.inj hmem
      rcases hvalue with ⟨name, parts, rfl⟩ | ⟨e, rfl⟩
      · rfl
      · rfl
  | _ => simp [declaredNames, ItemForm.unexported]

/-- The emitted meta declaration takes the place of the compiled one. -/
lemma exists_restated (hfound : m.stories = .ok found) (d : VariableDeclaration) :
    ∃ (before : List ItemForm) (form : ItemForm) (behind : List ItemForm),
      m.forms = before ++ form :: behind
      ∧ restated m.callsMeta d m.forms = before ++ form.withVariables d :: behind
      ∧ form.variables? = some found.metaDeclaration.declaration
      ∧ m.exportsMeta = form.isExported := by
  obtain ⟨name, hname, hdeclared, -⟩ := CompiledModule.steps_of_stories hfound
  obtain ⟨before, form, behind, hforms, hbefore, hform, hvariables⟩ :=
    exists_forms_eq hname hdeclared
  have hfirst : m.forms.find? (fun form => form.variables?.any m.callsMeta) = some form :=
    List.find?_eq_some_iff_append.mpr ⟨hform, before, behind, hforms, by simpa using hbefore⟩
  refine ⟨before, form, behind, hforms, ?_, hvariables, ?_⟩
  · rw [hforms, restated_append hbefore hform]
  · rw [CompiledModule.exportsMeta, hfirst, Option.any_some]

variable (hfound : m.stories = .ok found) (hlocates : found.metaDeclaration.Locates)
  (hbound : found.metaDeclaration.pattern.bindMeta = .ok bound) (additions : ParameterAdditions)
  (surface : ExportSurface)

include hfound hlocates hbound

/-- A stories module declares what the compiled one does, and what is added. -/
theorem declaredNames_itemsWithStories :
    (declaredNames (m.itemsWithStories found bound additions surface)).Perm
      (declaredNames m.forms ++ addedNames bound surface.exportNames) := by
  obtain ⟨name, -, hdeclared, hcomponent, -⟩ := CompiledModule.steps_of_stories hfound
  set emitted := found.metaDeclaration.emitted bound additions with hemitted
  obtain ⟨before, form, behind, hforms, hrestated, hvariables, -⟩ := exists_restated hfound emitted
  obtain ⟨hold, hnew, -⟩ := names_withVariables hvariables
  have hexchange : (declaredNames (before ++ form.withVariables emitted :: behind)).Perm
      (declaredNames m.forms ++ bound.newNames) := by
    rw [hforms]
    refine flatMap_exchange_perm ?_ before behind
    rw [hold, hnew]
    exact names_emitted hdeclared hlocates hbound additions
  have hunexported : ∀ f ∈ before ++ form.withVariables emitted :: behind,
      declaredNames f.unexported = f.declaredNames := by
    intro f hf
    rcases List.mem_append.mp hf with hf | hf
    · exact declaredNames_unexported_of_mem hcomponent (by simp [hforms, hf])
    rcases List.mem_cons.mp hf with rfl | hf
    · rw [(unexported_withVariables hvariables emitted).1]
      simp [declaredNames]
    · exact declaredNames_unexported_of_mem hcomponent (by simp [hforms, hf])
  rw [CompiledModule.itemsWithStories, declaredNames_append, hrestated,
    declaredNames_unexported hunexported, ExportSurface.declaredNames_items, addedNames,
    ← List.append_assoc]
  exact hexchange.append_right _

/-- A stories module exports what the compiled one does, and what is added. -/
theorem exportedNames_itemsWithStories :
    (exportedNames (m.itemsWithStories found bound additions surface)).Perm
      (exportedNames m.forms ++ addedExports bound m.exportsMeta surface.exportNames) := by
  obtain ⟨name, -, hdeclared, hcomponent, -⟩ := CompiledModule.steps_of_stories hfound
  set emitted := found.metaDeclaration.emitted bound additions with hemitted
  obtain ⟨before, form, behind, hforms, hrestated, hvariables, hexports⟩ :=
    exists_restated hfound emitted
  obtain ⟨-, -, hold, hnew⟩ := names_withVariables hvariables
  have hexchange : (exportedNames (before ++ form.withVariables emitted :: behind)).Perm
      (exportedNames m.forms ++ if m.exportsMeta then bound.newNames else []) := by
    rw [hforms]
    refine flatMap_exchange_perm ?_ before behind
    rw [hold, hnew, hexports]
    cases form.isExported with
    | true => exact names_emitted hdeclared hlocates hbound additions
    | false => exact List.Perm.refl _
  have hdefault : (before ++ form.withVariables emitted :: behind).flatMap ItemForm.defaultNames
      = ["default"] := by
    rw [← defaultNames_forms hcomponent, hforms]
    simp only [List.flatMap_append, List.flatMap_cons,
      (unexported_withVariables hvariables emitted).2]
  have hwithout := exportedNames_unexported (before ++ form.withVariables emitted :: behind)
  rw [hdefault] at hwithout
  rw [CompiledModule.itemsWithStories, exportedNames_append, hrestated,
    ExportSurface.exportedNames_items, addedExports, ← List.append_assoc, List.append_cons]
  -- the name of the default export is given up once and taken once
  exact (hwithout.symm.trans hexchange).append_right _

end

/-! ### Distinct names -/

/-- The names that the transform declares are distinct if the stories are. -/
lemma nodup_addedNames {bound : MetaBinding} {exportNames : List String} (h : exportNames.Nodup) :
    (addedNames bound exportNames).Nodup := by
  have hlocal := h.map storyLocalName_injective
  have hfixed : [metaKey, runtimeHelper, storiesName, exportsOrderName].Nodup := by decide
  have hall : (metaKey :: runtimeHelper :: storiesName :: exportsOrderName
      :: exportNames.map storyLocalName).Nodup := by
    refine List.nodup_append'.mpr ⟨hfixed, hlocal, fun name hname hmem => ?_⟩
    obtain ⟨exportName, -, rfl⟩ := List.mem_map.mp hmem
    exact storyLocalName_notMem exportName hname
  rw [addedNames, MetaBinding.newNames]
  split_ifs
  · exact hall
  · exact (List.nodup_cons.mp hall).2

/-- The names that it exports are distinct if the stories are, unless a story has the name of a meta
object that is exported anew. -/
lemma nodup_addedExports_iff {bound : MetaBinding} {exportsMeta : Bool} {exportNames : List String}
    (h : exportNames.Nodup) (horder : exportsOrderName ∉ exportNames) :
    (addedExports bound exportsMeta exportNames).Nodup
      ↔ (exportsMeta = true → bound.isNew = true → metaKey ∉ exportNames) := by
  have hrest : (exportsOrderName :: exportNames).Nodup := List.nodup_cons.mpr ⟨horder, h⟩
  have hmeta : metaKey ≠ exportsOrderName := by decide
  rw [addedExports, MetaBinding.newNames]
  split_ifs with hexports hnew
  · rw [List.singleton_append, List.nodup_cons]
    simp [hrest, hexports, hnew, hmeta]
  · simp [hrest, hexports, hnew]
  · simp [hrest, hexports]

/-- **The names of a stories module.** A module that is made of a compiled one declares and exports
the names of that, and those that are added. So if the names of the compiled module are distinct, its
own are exactly if none of the added names is among them, and no story has the name of a meta object
that is exported anew. The transform does not ask for this. -/
theorem storiesModule_names {source : Source} {compiled : List Char} {options : TransformOptions}
    {out : Noted (List Char)} (h : storiesModule source compiled options = .ok out) :
    ∃ file stories m found bound surface, ReadsInputs source compiled file stories m found
      ∧ found.metaDeclaration.pattern.bindMeta = .ok bound
      ∧ surface = found.surface stories bound options.runtimeModule
      ∧ out.value = edited (found.edits m.source stories bound file.additions) 0 compiled
          ++ surface.text
      ∧ (found.metaDeclaration.Locates →
        ∀ items, items = m.itemsWithStories found bound file.additions surface →
          (declaredNames items).Perm
              (declaredNames m.forms ++ addedNames bound (exportNamesOf stories))
            ∧ (exportedNames items).Perm (exportedNames m.forms
              ++ addedExports bound m.exportsMeta (exportNamesOf stories))
            ∧ ((declaredNames m.forms).Nodup → ((declaredNames items).Nodup
              ↔ (declaredNames m.forms).Disjoint (addedNames bound (exportNamesOf stories))))
            ∧ ((exportedNames m.forms).Nodup → ((exportedNames items).Nodup
              ↔ (m.exportsMeta = true → bound.isNew = true → metaKey ∉ exportNamesOf stories)
                ∧ (exportedNames m.forms).Disjoint
                  (addedExports bound m.exportsMeta (exportNamesOf stories))))) := by
  obtain ⟨file, stories, m, found, bound, hreads, hbecomes⟩ := storiesModule_eq_ok h
  have hnodup := nodup_exportNames hreads.readStories
  have horder : exportsOrderName ∉ exportNamesOf stories := fun hmem =>
    (isExportName_of_mem hreads.readStories hmem).2 rfl
  refine ⟨file, stories, m, found, bound, _, hreads, hbecomes.binding, rfl,
    hreads.text_eq ▸ hbecomes.text, ?_⟩
  rintro hlocates items rfl
  have hdeclared := declaredNames_itemsWithStories hreads.readModule hlocates hbecomes.binding
    file.additions (found.surface stories bound options.runtimeModule)
  have hexported := exportedNames_itemsWithStories hreads.readModule hlocates hbecomes.binding
    file.additions (found.surface stories bound options.runtimeModule)
  refine ⟨hdeclared, hexported, fun hold => ?_, fun hold => ?_⟩
  · rw [hdeclared.nodup_iff, List.nodup_append']
    exact ⟨fun hall => hall.2.2, fun hfree => ⟨hold, nodup_addedNames hnodup, hfree⟩⟩
  · rw [hexported.nodup_iff, List.nodup_append', ← nodup_addedExports_iff hnodup horder]
    exact ⟨fun hall => hall.2, fun hfree => ⟨hold, hfree⟩⟩

/-- What the transform returns for the file, read as a module, has the names of the items. -/
theorem twoStories_names :
    ∃ file stories m found bound out m',
      storiesModule twoStories twoStoriesModule plainOptions = .ok out
      ∧ ReadsInputs twoStories twoStoriesModule file stories m found
      ∧ found.metaDeclaration.Locates
      ∧ (declaredNames m.forms).Nodup ∧ (exportedNames m.forms).Nodup
      ∧ CompiledModule.parse "A.stories.svelte" out.value = .ok m'
      ∧ (let items := m.itemsWithStories found bound file.additions
          (found.surface stories bound "runtime")
        declaredNames m'.forms = declaredNames items ∧ exportedNames m'.forms = exportedNames items
          ∧ ((declaredNames items).Nodup
            ↔ (declaredNames m.forms).Disjoint (addedNames bound (exportNamesOf stories)))
          ∧ ((exportedNames items).Nodup
            ↔ (m.exportsMeta = true → bound.isNew = true → metaKey ∉ exportNamesOf stories)
              ∧ (exportedNames m.forms).Disjoint
                (addedExports bound m.exportsMeta (exportNamesOf stories)))) := by
  have hread : ((readInputs twoStories twoStoriesModule).toOption.any
      fun ((file, stories), m, found) => found.metaDeclaration.pattern.bindMeta.toOption.any
        fun bound => (m.withStories found stories file.additions "runtime").toOption.any
          fun out => (CompiledModule.parse "A.stories.svelte" out.value).toOption.any fun m' =>
            let items := m.itemsWithStories found bound file.additions
              (found.surface stories bound "runtime")
            decide ((found.metaDeclaration.Locates ∧ (declaredNames m.forms).Nodup
                ∧ (exportedNames m.forms).Nodup)
              ∧ declaredNames m'.forms = declaredNames items
              ∧ exportedNames m'.forms = exportedNames items)) = true := by
    -- the kernel is faster with characters than with literals
    unfold twoStories twoStoriesModule moduleOf metaImport
    repeat rewrite [String.toList_ofList]
    decide +kernel
  obtain ⟨file', stories', m', found', hreads', hcheck⟩ := exists_readsInputs hread
  obtain ⟨bound', hbound', hcheck⟩ := exists_of_toOption_any hcheck
  obtain ⟨out, hout, hcheck⟩ := exists_of_toOption_any hcheck
  obtain ⟨again, hagain, hcheck⟩ := exists_of_toOption_any hcheck
  obtain ⟨⟨hlocates, hdeclared, hexported⟩, hsame⟩ := of_decide_eq_true hcheck
  have hout : storiesModule twoStories twoStoriesModule plainOptions = .ok out := by
    rw [hreads'.storiesModule_eq, plainOptions, mapError_eq_ok_iff]
    exact hout
  obtain ⟨file, stories, m, found, bound, _, hreads, hbound, rfl, -, hnames⟩ :=
    storiesModule_names hout
  obtain ⟨rfl, rfl, rfl, rfl⟩ := hreads'.unique hreads
  obtain rfl : bound' = bound := Except.ok.inj (hbound'.symm.trans hbound)
  obtain ⟨-, -, hdistinct, hdistinct'⟩ := hnames hlocates _ rfl
  exact ⟨file', stories', m', found', bound', out, again, hout, hreads, hlocates, hdeclared,
    hexported, hagain, hsame.1, hsame.2, hdistinct hdeclared, hdistinct' hexported⟩

/-- A stories file whose module script exports a name that is also that of a story. -/
def collidingStories : Source :=
  ⟨"A.stories.svelte", "<script module>\n  ".toList ++ metaImport
    ++ "  const \x7b Story \x7d ".toList ++ "= defineMeta(\x7b\x7d);\n".toList
    ++ "  export const ".toList ++ "Primary = 1;\n</script>\n".toList
    ++ "<Story exportName".toList ++ "=\"Primary\" />".toList⟩

/-- The module that the file is compiled to. -/
def collidingModule : List Char :=
  metaImport ++ "const \x7b Story, meta \x7d ".toList ++ "= defineMeta(\x7b\x7d);\n".toList
    ++ "export const ".toList ++ "Primary = 1;\n".toList
    ++ "export default ".toList ++ "function A(a) \x7b Story(a, ".toList
    ++ "\x7b exportName: 'Primary' \x7d); \x7d".toList

/-- The names of the compiled module are distinct, the transform succeeds, and the module that it
gives exports one of them twice. -/
theorem collidingModule_exports_twice :
    ∃ m out m', CompiledModule.parse "A.stories.svelte" collidingModule = .ok m
      ∧ (declaredNames m.forms).Nodup ∧ (exportedNames m.forms).Nodup
      ∧ storiesModule collidingStories collidingModule .default = .ok out
      ∧ CompiledModule.parse "A.stories.svelte" out.value = .ok m'
      ∧ exportedNames m'.forms = ["Primary", "default", "__namedExportsOrder", "Primary"]
      ∧ ¬ (exportedNames m'.forms).Nodup := by
  have hparse : ((CompiledModule.parse "A.stories.svelte" collidingModule).toOption.any fun m =>
      decide ((declaredNames m.forms).Nodup ∧ (exportedNames m.forms).Nodup)) = true := by
    unfold collidingModule metaImport
    repeat rewrite [String.toList_ofList]
    decide +kernel
  have hout : ((storiesModule collidingStories collidingModule .default).toOption.any
      fun out => (CompiledModule.parse "A.stories.svelte" out.value).toOption.any fun m' =>
        exportedNames m'.forms = ["Primary", "default", "__namedExportsOrder", "Primary"])
      = true := by
    unfold collidingStories collidingModule metaImport
    repeat rewrite [String.toList_ofList]
    decide +kernel
  obtain ⟨m, hm, hnames⟩ := exists_of_toOption_any hparse
  obtain ⟨out, hout, hreparsed⟩ := exists_of_toOption_any hout
  obtain ⟨m', hm', hexports⟩ := exists_of_toOption_any hreparsed
  have hexports := of_decide_eq_true hexports
  obtain ⟨hdeclared, hexported⟩ := of_decide_eq_true hnames
  refine ⟨m, out, m', hm, hdeclared, hexported, hout, hm', hexports, ?_⟩
  rw [hexports]
  decide

end SvelteStories

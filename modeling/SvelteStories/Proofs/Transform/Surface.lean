/-
The export surface of a stories module:

* `declaredNames_items`, `exportedNames_items`: the names that the items of a surface declare and
  export, which are distinct if the stories of the surface are (`nodup_declaredNames_items`,
  `nodup_exportedNames_items`);
* `exists_declarator_emitted`: the emitted meta declaration binds the meta object to the name that the
  surface exports;
* `storiesModule_surface`: what the transform appends, and that the index lists the same exports.
-/
import SvelteStories.Proofs.Additions.Binding
import SvelteStories.Proofs.Script.Names
import SvelteStories.Proofs.Story.Ids
import SvelteStories.Proofs.Transform.Edits

namespace SvelteStories

open Script

/-! ### Names of the surface -/

lemma storyLocalName_injective : Function.Injective storyLocalName := fun _ _ h =>
  (String.append_right_inj _).mp h

/-- The local name of a story is none of those that a transform declares for all stories. -/
lemma storyLocalName_notMem (exportName : String) :
    storyLocalName exportName ∉ [metaKey, runtimeHelper, storiesName, exportsOrderName] := by
  have hlist : (storyLocalName exportName).toList = "__story_".toList ++ exportName.toList := by
    rw [storyLocalName, String.toList_append]
  simp only [List.mem_cons, List.not_mem_nil, or_false, not_or]
  refine ⟨fun h => ?_, fun h => ?_, fun h => ?_, fun h => ?_⟩ <;>
    simp [h, metaKey, runtimeHelper, storiesName, exportsOrderName] at hlist

namespace ExportSurface

lemma declaredNames_items (s : ExportSurface) :
    declaredNames s.items = runtimeHelper :: storiesName :: exportsOrderName
      :: s.exportNames.map storyLocalName := by
  have hstories : ∀ names : List String,
      declaredNames (names.flatMap storyItems) = names.map storyLocalName := by
    intro names
    induction names with
    | nil => rfl
    | cons name names ih =>
        rw [List.flatMap_cons, declaredNames_append, ih]
        rfl
  rw [items, declaredNames_append, hstories]
  rfl

lemma exportedNames_items (s : ExportSurface) :
    exportedNames s.items = "default" :: exportsOrderName :: s.exportNames := by
  have hstories : ∀ names : List String, exportedNames (names.flatMap storyItems) = names := by
    intro names
    induction names with
    | nil => rfl
    | cons name names ih =>
        rw [List.flatMap_cons, exportedNames_append, ih]
        rfl
  rw [items, exportedNames_append, hstories]
  rfl

/-- A surface of distinct stories declares distinct names. -/
lemma nodup_declaredNames_items {s : ExportSurface} (h : s.exportNames.Nodup) :
    (declaredNames s.items).Nodup := by
  have hlocal := h.map storyLocalName_injective
  have hfixed : [runtimeHelper, storiesName, exportsOrderName].Nodup := by decide
  rw [declaredNames_items]
  refine List.nodup_append'.mpr ⟨hfixed, hlocal, fun name hname hmem => ?_⟩
  obtain ⟨exportName, -, rfl⟩ := List.mem_map.mp hmem
  exact storyLocalName_notMem exportName (List.mem_cons_of_mem _ hname)

/-- A surface of distinct stories exports distinct names, if none of them is that of another of its
exports. -/
lemma nodup_exportedNames_items {s : ExportSurface} (h : s.exportNames.Nodup)
    (hfree : ∀ name ∈ s.exportNames, name ≠ "default" ∧ name ≠ exportsOrderName) :
    (exportedNames s.items).Nodup := by
  have hfixed : ["default", exportsOrderName].Nodup := by decide
  rw [exportedNames_items]
  refine List.nodup_append'.mpr ⟨hfixed, h, fun name hname hmem => ?_⟩
  simp [hfree name hmem] at hname

end ExportSurface

/-- A name that can be exported is not that of another export. -/
lemma ne_of_isExportName {name : String}
    (h : isExportName name.toList = true ∧ name ≠ exportsOrderName) :
    name ≠ "default" ∧ name ≠ exportsOrderName := by
  refine ⟨?_, h.2⟩
  rintro rfl
  exact absurd h.1 (by decide)

/-! ### The meta object -/

/-- The variable that the meta declaration binds the meta object with. -/
lemma exists_declarator_of_metaDeclaration? {m : CompiledModule} {name : String}
    {d : CompiledDeclaration} (h : m.metaDeclaration? name = some (.ok d)) :
    ∃ v ∈ d.declaration.declarators, v.target = .object d.pattern
      ∧ (v.callOf? name).isSome = true := by
  obtain ⟨i, -, h⟩ := List.exists_of_findSome?_eq_some h
  obtain ⟨declaration, -, h⟩ := Option.bind_eq_some_iff.mp h
  obtain ⟨v, hv, h⟩ := List.exists_of_findSome?_eq_some h
  obtain ⟨c, hc, h⟩ := Option.map_eq_some_iff.mp h
  split at h
  · rename_i pattern argument hpattern _
    obtain rfl := Except.ok.inj h
    exact ⟨v, hv, hpattern, by simp [hc]⟩
  · simp at h
  · simp at h

lemma isSome_callOf?_iff {name : String} {v : Declarator} :
    (v.callOf? name).isSome = true
      ↔ ∃ c, v.init = some (.call c) ∧ c.calleeName? = some name := by
  rw [Declarator.callOf?, Declarator.call?]
  cases v.init with
  | none => simp
  | some value =>
      cases value with
      | call c => simp [Option.filter]
      | _ => simp

/-- Another pattern and another argument leave the function that is called. -/
lemma withArgument_withPattern {name : String} {p : ObjectPattern} {o : ObjectLiteral}
    {v : Declarator} (h : (v.callOf? name).isSome = true) :
    ((v.withPattern p).withArgument o).target = .object p
      ∧ (((v.withPattern p).withArgument o).callOf? name).isSome = true := by
  obtain ⟨c, hinit, hname⟩ := isSome_callOf?_iff.mp h
  have hchanged : (v.withPattern p).withArgument o
      = ⟨.object p, some (.call { c with arguments := [.plain (.object o)] })⟩ := by
    simp [Declarator.withPattern, Declarator.withArgument, hinit]
  rw [hchanged]
  exact ⟨rfl, isSome_callOf?_iff.mpr ⟨_, rfl, hname⟩⟩

/-- The emitted meta declaration has a variable with the pattern that binds the meta object, which is
initialised with a call of the meta function. -/
lemma exists_declarator_emitted {m : CompiledModule} {name : String} {d : CompiledDeclaration}
    (h : m.metaDeclaration? name = some (.ok d)) (bound : MetaBinding)
    (additions : ParameterAdditions) :
    ∃ v ∈ (d.emitted bound additions).declarators, v.target = .object bound.pattern
      ∧ (v.callOf? name).isSome = true := by
  obtain ⟨v, hv, htarget, hcall⟩ := exists_declarator_of_metaDeclaration? h
  have hplace : v.target.isObjectAt d.pattern.span = true := by
    simp [htarget, Pattern.isObjectAt]
  exact ⟨_, List.mem_map.mpr ⟨v, hv, if_pos hplace⟩, withArgument_withPattern hcall⟩

/-! ### The transform -/

/-- Both ways to read a file find the same stories in it. -/
lemma exportNames_indexStories {source : Source} {compiled : List Char} {file : StoriesFile}
    {stories : List Story} {m : CompiledModule} {found : CompiledStories} {options : IndexOptions}
    {i : Index} (hreads : ReadsInputs source compiled file stories m found)
    (h : indexStories source options = .ok i) : i.exportNames = exportNamesOf stories := by
  obtain ⟨document, hdocument, hfile⟩ := hreads.readFile
  obtain ⟨document', file', stories', hdocument', hfile', hstories', -, hinfo⟩ :=
    indexStories_eq_ok h
  obtain rfl := Except.ok.inj (hdocument.symm.trans hdocument')
  obtain rfl := Except.ok.inj (hfile.symm.trans hfile')
  obtain rfl := Except.ok.inj (hreads.readStories.symm.trans hstories')
  exact Index.exportNames_eq hinfo

/-- The items that are appended for the stories of a file: the runtime helper, the stories that it
makes of the component and the meta object, the meta object, the order of the stories, and one
export for each of them. -/
def appendedItems (runtimeModule component metaName : String) (exportNames : List String) :
    List ItemForm :=
  [ItemForm.imports false [.named "createRuntimeStories" "createRuntimeStories" false] runtimeModule,
   .statement (.variables (constant "__stories" (.call ⟨nowhere, nameExpr "createRuntimeStories", [],
      [.plain (nameExpr component), .plain (nameExpr metaName)]⟩))),
   .exportDefault (.expression (nameExpr metaName)),
   .exportDeclaration (.variables (constant "__namedExportsOrder" (stringsExpr exportNames)))]
    ++ exportNames.flatMap fun name =>
      [ItemForm.statement (.variables (constant ("__story_" ++ name)
        (.member nowhere (nameExpr "__stories") (.computed (stringExpr name))))),
       .exportNames [(.word nowhere ("__story_" ++ name), .word nowhere name)] none]

lemma ExportSurface.items_eq (s : ExportSurface) :
    s.items = appendedItems s.runtimeModule s.storiesFunction s.metaName s.exportNames := rfl

/-- **The export surface.** Behind the edited module a transform that succeeds appends the items for
the stories of the file, in the order of the text. They export the meta object, which the emitted
meta declaration binds to the name that they use, and they are made of the function of the
component. All names that they declare are distinct, and so are all that they export. The index of
the file, if there is one, lists the same exports in the same order. -/
theorem storiesModule_surface {source : Source} {compiled : List Char} {options : TransformOptions}
    {out : Noted (List Char)} (h : storiesModule source compiled options = .ok out) :
    ∃ file stories m found bound, ReadsInputs source compiled file stories m found
      ∧ m.component = .ok found.component
      ∧ (∃ name, m.metaFunction? = some name
        ∧ ∃ v ∈ (found.metaDeclaration.emitted bound file.additions).declarators,
          v.target = .object bound.pattern ∧ (v.callOf? name).isSome = true)
      ∧ bound.pattern.binding metaKey = .name bound.name
      ∧ (bound.isNew = false → bound.pattern = found.metaDeclaration.pattern)
      ∧ List.Forall₂ (fun tag s => s.ReadOff file tag) file.stories stories
      ∧ file.stories.Pairwise (fun x y => x.element.span.start < y.element.span.start)
      ∧ (∃ items, items = appendedItems options.runtimeModule found.component.name bound.name
            (exportNamesOf stories)
        ∧ out.value = edited (found.edits m.source stories bound file.additions) 0 compiled
            ++ '\n' :: printItems items
        ∧ exportedNames items = "default" :: "__namedExportsOrder" :: exportNamesOf stories
        ∧ (exportedNames items).Nodup ∧ (declaredNames items).Nodup)
      ∧ ∀ indexOptions i, indexStories source indexOptions = .ok i →
        i.exportNames = exportNamesOf stories := by
  obtain ⟨file, stories, m, found, bound, hreads, hbecomes⟩ := storiesModule_eq_ok h
  obtain ⟨name, hname, hdeclared, hcomponent, -, -⟩ :=
    CompiledModule.steps_of_stories hreads.readModule
  have hitems := (found.surface stories bound options.runtimeModule).items_eq
  have hnodup : (found.surface stories bound options.runtimeModule).exportNames.Nodup :=
    nodup_exportNames hreads.readStories
  have hfree : ∀ name ∈ (found.surface stories bound options.runtimeModule).exportNames,
      name ≠ "default" ∧ name ≠ exportsOrderName := fun name hname =>
    ne_of_isExportName (isExportName_of_mem hreads.readStories hname)
  have hexported := ExportSurface.exportedNames_items
    (found.surface stories bound options.runtimeModule)
  have htext := hbecomes.text
  rw [ExportSurface.text, hitems, hreads.text_eq] at htext
  refine ⟨file, stories, m, found, bound, hreads, hcomponent,
    ⟨name, hname, exists_declarator_emitted hdeclared bound file.additions⟩,
    binding_bindMeta hbecomes.binding, fun hnew => ?_, readStories_forall₂ hreads.readStories,
    hreads.pairwise_start, ⟨_, rfl, htext, ?_, ?_, ?_⟩,
    fun _ _ hindex => exportNames_indexStories hreads hindex⟩
  · rcases bindMeta_cases hbecomes.binding with ⟨-, hpattern, -⟩ | ⟨htrue, -⟩
    · exact hpattern
    · simp [hnew] at htrue
  · exact hitems ▸ hexported
  · exact hitems ▸ ExportSurface.nodup_exportedNames_items hnodup hfree
  · exact hitems ▸ ExportSurface.nodup_declaredNames_items hnodup

theorem twoStories_surface :
    ∃ out file stories m found bound i,
      storiesModule twoStories twoStoriesModule plainOptions = .ok out
      ∧ ReadsInputs twoStories twoStoriesModule file stories m found
      ∧ (∃ items, items = appendedItems "runtime" found.component.name bound.name
            (exportNamesOf stories)
        ∧ out.value = edited (found.edits m.source stories bound file.additions) 0 twoStoriesModule
            ++ '\n' :: printItems items
        ∧ exportedNames items = "default" :: "__namedExportsOrder" :: exportNamesOf stories
        ∧ (exportedNames items).Nodup ∧ (declaredNames items).Nodup)
      ∧ indexStories twoStories ⟨false⟩ = .ok i ∧ i.exportNames = exportNamesOf stories := by
  have hindex : ((indexStories twoStories ⟨false⟩).toOption.any fun _ => true) = true := by
    unfold twoStories metaImport
    repeat rewrite [String.toList_ofList]
    decide +kernel
  obtain ⟨i, hi, -⟩ := exists_of_toOption_any hindex
  obtain ⟨-, -, -, -, out, -, -, hout⟩ := exists_twoStories
  obtain ⟨file, stories, m, found, bound, hreads, -, -, -, -, -, -, hitems, hsame⟩ :=
    storiesModule_surface hout
  exact ⟨out, file, stories, m, found, bound, i, hout, hreads, hitems, hi, hsame _ i hi⟩

end SvelteStories

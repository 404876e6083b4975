/-
Modules that the same stories are compiled to in different forms:

* `CompiledModule.ExportsFunction`: the default export is a function, declared there or elsewhere;
* `component_eq_ok`, `exportsFunction_of_component`: the component is this function, whichever form
  the export has, and nothing else;
* `editStories_congr`: what is told to story calls depends on their properties alone;
* `lowerings_agree`: the stories are told the same, and the export surface is the same.
-/
import SvelteStories.Proofs.Compiled.Lowering
import SvelteStories.Proofs.Transform.ModuleNames

namespace SvelteStories

open Script

/-! ### Default exports -/

/-- What an item of a module exports by default. -/
def Script.ItemForm.defaultExport? : ItemForm → Option DefaultExport
  | .exportDefault value => some value
  | _ => none

/-- The only default export of a module is a function. -/
inductive CompiledModule.ExportsFunction (m : CompiledModule) (name : String) (body : List Piece) :
    Prop
  /-- The function is declared where it is exported. -/
  | declared : m.forms.filterMap ItemForm.defaultExport? = [.function (some name) body] →
      ExportsFunction m name body
  /-- The export names a function. Of those that are declared under the name, the first counts. -/
  | named {span span' : Span} {before behind : List ItemForm} :
      m.forms.filterMap ItemForm.defaultExport? = [.expression (.identifier span name)] →
      m.forms = before ++ .statement (.function span' name body) :: behind →
      (∀ s parts, .statement (.function s name parts) ∉ before) → ExportsFunction m name body

section

variable {m : CompiledModule} {name : String} {body : List Piece}

lemma map_defaultExports :
    m.defaultExports.map Prod.snd = m.forms.filterMap ItemForm.defaultExport? := by
  rw [CompiledModule.defaultExports, CompiledModule.forms, List.map_filterMap, List.filterMap_map]
  refine List.filterMap_congr fun item _ => ?_
  rw [Function.comp]
  cases item.form <;> rfl

/-- Of the functions that are declared under a name, the first counts. -/
lemma function?_eq_some_iff :
    m.function? name = some body ↔ ∃ before span behind,
      m.forms = before ++ .statement (.function span name body) :: behind
        ∧ ∀ s parts, .statement (.function s name parts) ∉ before := by
  rw [CompiledModule.function?, List.findSome?_eq_some_iff]
  constructor
  · rintro ⟨items, item, rest, hitems, hfunction, hbefore⟩
    split at hfunction
    · rename_i span n parts hform
      split_ifs at hfunction with hn
      obtain rfl := hn
      obtain rfl := Option.some.inj hfunction
      refine ⟨items.map (·.form), span, rest.map (·.form), ?_, fun s parts hmem => ?_⟩
      · rw [CompiledModule.forms, hitems, List.map_append, List.map_cons, hform]
      · obtain ⟨other, hother, hform⟩ := List.mem_map.mp hmem
        simpa [hform] using hbefore other hother
    · cases hfunction
  · rintro ⟨before, span, behind, hforms, hbefore⟩
    obtain ⟨items, rest, hitems, rfl, hrest⟩ := List.map_eq_append_iff.mp hforms
    obtain ⟨item, rest, rfl, hform, rfl⟩ := List.map_eq_cons_iff.mp hrest
    refine ⟨items, item, rest, hitems, by simp [hform], fun other hother => ?_⟩
    split
    · rename_i s n parts hfunction
      rw [if_neg]
      rintro rfl
      exact hbefore s parts (List.mem_map.mpr ⟨other, hother, hfunction⟩)
    · rfl

/-- The component is the function that is exported by default. -/
lemma component_eq_ok (h : m.ExportsFunction name body) :
    ∃ exported, m.component = .ok ⟨exported, name, body⟩ := by
  have hone {value : DefaultExport}
      (hvalue : m.forms.filterMap ItemForm.defaultExport? = [value]) :
      ∃ span, m.component = m.exportedComponent span value := by
    rw [← map_defaultExports] at hvalue
    obtain ⟨⟨span, value'⟩, rest, hexports, rfl, hrest⟩ := List.map_eq_cons_iff.mp hvalue
    obtain rfl := List.map_eq_nil_iff.mp hrest
    exact ⟨span, by rw [CompiledModule.component, hexports]⟩
  cases h with
  | declared hvalue =>
      obtain ⟨span, hcomponent⟩ := hone hvalue
      exact ⟨.function span, hcomponent⟩
  | named hvalue hforms hbefore =>
      obtain ⟨span, hcomponent⟩ := hone hvalue
      refine ⟨.identifier span, ?_⟩
      rw [hcomponent, CompiledModule.exportedComponent,
        function?_eq_some_iff.mpr ⟨_, _, _, hforms, hbefore⟩]

/-- No other function is the component. -/
lemma exportsFunction_of_component {c : Component} (h : m.component = .ok c) :
    m.ExportsFunction c.name c.body := by
  rw [CompiledModule.component] at h
  split at h
  · cases h
  · rename_i span value hexports
    have hvalue : m.forms.filterMap ItemForm.defaultExport? = [value] := by
      rw [← map_defaultExports, hexports, List.map_singleton]
    rw [CompiledModule.exportedComponent.eq_def] at h
    split at h
    · obtain rfl := Except.ok.inj h
      exact .declared hvalue
    · cases h
    · cases h
    · cases h
    · split at h
      · rename_i parts hfunction
        obtain rfl := Except.ok.inj h
        obtain ⟨before, _, behind, hforms, hbefore⟩ := function?_eq_some_iff.mp hfunction
        exact .named hvalue hforms hbefore
      · cases h
    · cases h
  · cases h

end

/-! ### Edits of story calls -/

/-- What the edits of a story call depend on. -/
def toldOf (pair : StoryPair Story StoryCall) : StoryPair Story (Option ObjectLiteral) :=
  ⟨pair.index, pair.source, pair.compiled.props?⟩

lemma map_toldOf_pairFrom (n : Nat) (stories : List Story) (calls : List StoryCall) :
    (pairFrom n stories calls).map toldOf
      = pairFrom n stories (calls.map StoryCall.props?) := by
  induction stories generalizing n calls with
  | nil => simp [pairFrom]
  | cons s stories ih =>
      cases calls with
      | nil => simp [pairFrom]
      | cons c calls => simp [pairFrom, ih, toldOf]

lemma editStory_congr {pair pair' : StoryPair Story StoryCall} (h : toldOf pair = toldOf pair')
    (draft : Draft) : editStory draft pair = editStory draft pair' := by
  obtain ⟨hindex, hsource, hprops⟩ := StoryPair.mk.inj h
  rw [editStory, editStory, hindex, hsource, hprops]

/-- What is told to story calls depends on their properties alone. -/
lemma editStories_congr {pairs pairs' : List (StoryPair Story StoryCall)}
    (h : pairs.map toldOf = pairs'.map toldOf) (draft : Draft) :
    editStories draft pairs = editStories draft pairs' := by
  induction pairs generalizing pairs' draft with
  | nil =>
      obtain rfl := List.map_eq_nil_iff.mp h.symm
      rfl
  | cons pair pairs ih =>
      obtain ⟨pair', pairs', rfl, hpair, hpairs⟩ := List.map_eq_cons_iff.mp h.symm
      rw [editStories, editStories, editStory_congr hpair.symm]
      refine bind_congr fun edited => ?_
      rw [ih hpairs.symm]

/-- The calls of the same properties are told the same by the same stories. -/
lemma pairStories_editStories_congr {calls calls' : List StoryCall}
    (h : calls.map StoryCall.props? = calls'.map StoryCall.props?) (stories : List Story)
    (draft : Draft) :
    (pairStories stories calls >>= editStories draft)
      = (pairStories stories calls' >>= editStories draft) := by
  have hlength : calls.length = calls'.length := by simpa using congrArg List.length h
  rw [pairStories, pairStories, hlength]
  split_ifs
  · rw [ok_bind, ok_bind]
    refine editStories_congr ?_ draft
    rw [List.map_reverse, List.map_reverse, map_toldOf_pairFrom, map_toldOf_pairFrom, h]
  · rfl

/-! ### Modules of the same stories -/

/-- Two modules are transformed alike for stories whose properties are given. -/
structure CompiledModule.TransformedAlike (story : String) (os : List ObjectLiteral)
    (m m' : CompiledModule) : Prop where
  /-- The calls that are found are those of the stories, each once, in order. -/
  props : ∀ found, m.stories = .ok found → found.storyName = story →
    found.stories.map StoryCall.props? = os.map some
  /-- Whatever stories they are paired with, the calls ask for the same edits. -/
  edits : ∀ found found', m.stories = .ok found → m'.stories = .ok found' →
    found.storyName = story → found'.storyName = story → ∀ stories draft,
      (pairStories stories found.stories >>= editStories draft)
        = (pairStories stories found'.stories >>= editStories draft)
  /-- Behind the edited texts of both there is the same export surface. -/
  surface : ∀ found found', m.stories = .ok found → m'.stories = .ok found' →
    ∀ stories additions additions' runtimeModule bound bound' out out',
      found.metaDeclaration.pattern.bindMeta = .ok bound →
      found'.metaDeclaration.pattern.bindMeta = .ok bound' → bound.name = bound'.name →
      m.withStories found stories additions runtimeModule = .ok out →
      m'.withStories found' stories additions' runtimeModule = .ok out' →
      out.value = edited (found.edits m.source stories bound additions) 0 m.source.text
          ++ (found.surface stories bound runtimeModule).text
        ∧ out'.value = edited (found'.edits m'.source stories bound' additions') 0 m'.source.text
          ++ (found.surface stories bound runtimeModule).text

/-- The component of a module is the function that it exports. -/
lemma exists_component_eq {name : String} {m : CompiledModule} {body : List Piece}
    (hexport : m.ExportsFunction name body) {found : CompiledStories}
    (hfound : m.stories = .ok found) : ∃ exported, found.component = ⟨exported, name, body⟩ := by
  obtain ⟨_, -, -, hc, -⟩ := CompiledModule.steps_of_stories hfound
  obtain ⟨exported, hcomponent⟩ := component_eq_ok hexport
  exact ⟨exported, Except.ok.inj (hc.symm.trans hcomponent)⟩

/-- The calls in the function of a component are those of the stories that it is compiled from. -/
lemma map_props?_stories {story name : String} {os : List ObjectLiteral} {m : CompiledModule}
    {body : List Piece} (hexport : m.ExportsFunction name body)
    (hbody : Carries story (treesOfPieces body) os) {found : CompiledStories}
    (hfound : m.stories = .ok found) (hname : found.storyName = story) :
    found.stories.map StoryCall.props? = os.map some := by
  obtain ⟨_, -, -, -, hstories, -⟩ := CompiledModule.steps_of_stories hfound
  obtain ⟨_, hcomponent⟩ := exists_component_eq hexport hfound
  rw [hstories, hname, hcomponent, storyCallsOfPieces_eq]
  exact hbody.map_props?

/-- In every module that stories are read in, a function is exported by default. -/
lemma exportsFunction_of_stories {m : CompiledModule} {found : CompiledStories}
    (hfound : m.stories = .ok found) :
    m.ExportsFunction found.component.name found.component.body := by
  obtain ⟨_, -, -, hc, -⟩ := CompiledModule.steps_of_stories hfound
  exact exportsFunction_of_component hc

/-- **The form that stories are compiled to does not matter.** Whatever code is put around them and
however the component is exported, the calls that are found in it are those of the stories, in order
and with their properties. So two modules of the same stories are transformed alike. -/
theorem lowerings_agree {story name : String} {os : List ObjectLiteral} {m m' : CompiledModule}
    {body body' : List Piece} (hexport : m.ExportsFunction name body)
    (hbody : Carries story (treesOfPieces body) os) (hexport' : m'.ExportsFunction name body')
    (hbody' : Carries story (treesOfPieces body') os) :
    (∃ exported, m.component = .ok ⟨exported, name, body⟩)
      ∧ (storyCallsOfPieces story body).map StoryCall.props? = os.map some
      ∧ m.TransformedAlike story os m' := by
  refine ⟨component_eq_ok hexport, ?_, fun found => map_props?_stories hexport hbody, ?_, ?_⟩
  · rw [storyCallsOfPieces_eq]
    exact hbody.map_props?
  · intro found found' hfound hfound' hname hname' stories draft
    have hprops := map_props?_stories hexport hbody hfound hname
    have hprops' := map_props?_stories hexport' hbody' hfound' hname'
    exact pairStories_editStories_congr (hprops.trans hprops'.symm) stories draft
  · intro found found' hfound hfound' stories additions additions' runtimeModule bound bound' out
      out' hbound hbound' heq hout hout'
    obtain ⟨_, hbecomes⟩ := becomes_of_withStories hout
    obtain ⟨_, hbecomes'⟩ := becomes_of_withStories hout'
    obtain rfl := Except.ok.inj (hbound.symm.trans hbecomes.binding)
    obtain rfl := Except.ok.inj (hbound'.symm.trans hbecomes'.binding)
    obtain ⟨_, hcomponent⟩ := exists_component_eq hexport hfound
    obtain ⟨_, hcomponent'⟩ := exists_component_eq hexport' hfound'
    have hsurface : found.surface stories bound runtimeModule
        = found'.surface stories bound' runtimeModule := by
      rw [CompiledStories.surface, CompiledStories.surface, hcomponent, hcomponent', heq]
    exact ⟨hbecomes.text, hsurface ▸ hbecomes'.text⟩

/-! ### Two stories in all forms -/

/-- The properties of a story that has nothing but a name, at a place of a text. -/
def namedProps (start : ℕ) (name : String) : ObjectLiteral :=
  ⟨⟨start, start + 13⟩, [.keyValue (.identifier ⟨start + 2, start + 6⟩ "name")
    (.literal ⟨start + 8, start + 11⟩ (.string name ("'" ++ name ++ "'")))]⟩

/-- Whether an object literal is these properties. -/
def Script.ObjectLiteral.isNamed (start : ℕ) (name : String) : ObjectLiteral → Bool
  | ⟨span, [.keyValue (.identifier keySpan key) (.literal valueSpan value)]⟩ =>
    span = ⟨start, start + 13⟩ && keySpan = ⟨start + 2, start + 6⟩ && key = "name"
      && valueSpan = ⟨start + 8, start + 11⟩ && value = .string name ("'" ++ name ++ "'")
  | _ => false

lemma eq_namedProps_of_isNamed {start : ℕ} {name : String} {o : ObjectLiteral}
    (h : o.isNamed start name = true) : o = namedProps start name := by
  rw [ObjectLiteral.isNamed.eq_def] at h
  split at h
  · simp only [Bool.and_eq_true, decide_eq_true_eq] at h
    obtain ⟨⟨⟨⟨rfl, rfl⟩, rfl⟩, rfl⟩, rfl⟩ := h
    rfl
  · cases h

/-- Two stories are read in a module, in calls that stand as statements or not, and can be told. -/
def areNamedStories (areStatements : List Bool) (m : CompiledModule) (found : CompiledStories) :
    Bool :=
  found.storyName = "Story" && found.component.name = "A"
    && found.stories.map (·.isStatement) = areStatements
    && (match found.stories.map (StoryCall.lowered? "Story") with
        | [some o, some o'] => o.isNamed 150 "A" && o'.isNamed 206 "B"
        | _ => false)
    && found.metaDeclaration.pattern.bindMeta.toOption.any (·.name = metaKey)
    && (m.withStories found [plainStory "A", plainStory "B"] ⟨none, none⟩ "runtime").toOption.isSome

lemma exists_named_stories {code : List Char} {areStatements : List Bool} {exported : ComponentExport}
    (h : ((CompiledModule.parse "A.js" code).toOption.any fun m =>
      m.stories.toOption.any fun found =>
        areNamedStories areStatements m found && found.component.exported = exported) = true) :
    ∃ m found bound out, CompiledModule.parse "A.js" code = .ok m ∧ m.stories = .ok found
      ∧ found.storyName = "Story" ∧ found.component = ⟨exported, "A", found.component.body⟩
      ∧ found.stories.map (·.isStatement) = areStatements
      ∧ Carries "Story" (treesOfPieces found.component.body)
        [namedProps 150 "A", namedProps 206 "B"]
      ∧ found.metaDeclaration.pattern.bindMeta = .ok bound ∧ bound.name = metaKey
      ∧ m.withStories found [plainStory "A", plainStory "B"] ⟨none, none⟩ "runtime" = .ok out := by
  obtain ⟨m, hm, h⟩ := exists_of_toOption_any h
  obtain ⟨found, hfound, h⟩ := exists_of_toOption_any h
  simp only [areNamedStories, Bool.and_eq_true, decide_eq_true_eq] at h
  obtain ⟨⟨⟨⟨⟨⟨hstory, hname⟩, hstatements⟩, hprops⟩, hbound⟩, hout⟩, hexported⟩ := h
  obtain ⟨bound, hbound, hmeta⟩ := exists_of_toOption_any hbound
  obtain ⟨out, hout⟩ := Option.isSome_iff_exists.mp hout
  have hcomponent : found.component = ⟨exported, "A", found.component.body⟩ := by
    rw [← hname, ← hexported]
  obtain ⟨_, -, -, -, hcalls, -⟩ := CompiledModule.steps_of_stories hfound
  refine ⟨m, found, bound, out, hm, hfound, hstory, hcomponent, hstatements, ?_, hbound,
    of_decide_eq_true hmeta, toOption_eq_some_iff.mp hout⟩
  rw [carries_iff, ← storyCallsOfPieces_eq, ← hstory, ← hcalls, hstory]
  split at hprops
  · rename_i o o' hlowered
    obtain ⟨ho, ho'⟩ := Bool.and_eq_true_iff.mp hprops
    rw [hlowered, eq_namedProps_of_isNamed ho, eq_namedProps_of_isNamed ho']
    rfl
  · cases hprops

/-- The stories of `checkedModule`, in a wrapper in an if-statement and with properties that are
spread. The properties stand at the same places, and the function is exported by its name. -/
def wrappedModule : List Char :=
  metaImport ++ "const \x7b Story \x7d ".toList ++ "= defineMeta(\x7b\x7d);\n".toList
    ++ "function A(a) \x7b ".toList ++ "if (a) \x7b ".toList
    ++ "$.add_svelte_meta(() => ".toList ++ "Story(a, \x7b name: 'A' \x7d)".toList
    ++ ", 'component'); \x7d ".toList ++ "Story(a, ".toList
    ++ "$.spread_props(\x7b name: 'B' \x7d, a)); \x7d\n".toList ++ "export default A;".toList

theorem checkedModule_wrappedModule_agree :
    ∃ m m' found found', CompiledModule.parse "A.js" checkedModule = .ok m
      ∧ CompiledModule.parse "A.js" wrappedModule = .ok m'
      ∧ m.stories = .ok found ∧ m'.stories = .ok found'
      ∧ found.storyName = "Story" ∧ found'.storyName = "Story"
      ∧ found.component.exported = .function ⟨92, 225⟩
      ∧ found'.component.exported = .identifier ⟨228, 245⟩
      ∧ found.stories.map (·.isStatement) = [false, true]
      ∧ found'.stories.map (·.isStatement) = [false, false]
      ∧ (∃ exported, m.component = .ok ⟨exported, "A", found.component.body⟩)
      ∧ (storyCallsOfPieces "Story" found.component.body).map StoryCall.props?
        = [some (namedProps 150 "A"), some (namedProps 206 "B")]
      ∧ m.TransformedAlike "Story" [namedProps 150 "A", namedProps 206 "B"] m'
      ∧ ∃ bound bound' out out',
        m.withStories found [plainStory "A", plainStory "B"] ⟨none, none⟩ "runtime" = .ok out
        ∧ m'.withStories found' [plainStory "A", plainStory "B"] ⟨none, none⟩ "runtime" = .ok out'
        ∧ out.value = edited (found.edits m.source [plainStory "A", plainStory "B"] bound
            ⟨none, none⟩) 0 m.source.text
          ++ (⟨"runtime", "A", metaKey, ["A", "B"]⟩ : ExportSurface).text
        ∧ out'.value = edited (found'.edits m'.source [plainStory "A", plainStory "B"] bound'
            ⟨none, none⟩) 0 m'.source.text
          ++ (⟨"runtime", "A", metaKey, ["A", "B"]⟩ : ExportSurface).text := by
  have hchecked : ((CompiledModule.parse "A.js" checkedModule).toOption.any fun m =>
      m.stories.toOption.any fun found => areNamedStories [false, true] m found
        && found.component.exported = .function ⟨92, 225⟩) = true := by
    -- the kernel is faster with characters than with literals
    unfold checkedModule moduleOf metaImport areNamedStories plainStory
    repeat rewrite [String.toList_ofList]
    decide +kernel
  have hwrapped : ((CompiledModule.parse "A.js" wrappedModule).toOption.any fun m =>
      m.stories.toOption.any fun found => areNamedStories [false, false] m found
        && found.component.exported = .identifier ⟨228, 245⟩) = true := by
    unfold wrappedModule metaImport areNamedStories plainStory
    repeat rewrite [String.toList_ofList]
    decide +kernel
  obtain ⟨m, found, bound, out, hm, hfound, hstory, hcomponent, hstatements, hcarries, hbound,
    hmeta, hout⟩ := exists_named_stories hchecked
  obtain ⟨m', found', bound', out', hm', hfound', hstory', hcomponent', hstatements', hcarries',
    hbound', hmeta', hout'⟩ := exists_named_stories hwrapped
  have hexport := exportsFunction_of_stories hfound
  have hexport' := exportsFunction_of_stories hfound'
  rw [hcomponent] at hexport
  rw [hcomponent'] at hexport'
  obtain ⟨hone, hprops, halike⟩ := lowerings_agree hexport hcarries hexport' hcarries'
  have hsurface := halike.surface found found' hfound hfound' _ _ _ _ bound bound' out out' hbound
    hbound' (hmeta.trans hmeta'.symm) hout hout'
  rw [CompiledStories.surface, hcomponent, hmeta] at hsurface
  exact ⟨m, m', found, found', hm, hm', hfound, hfound', hstory, hstory', by rw [hcomponent],
    by rw [hcomponent'], hstatements, hstatements', hone, hprops, halike, bound, bound', out, out',
    hout, hout', hsurface⟩

end SvelteStories

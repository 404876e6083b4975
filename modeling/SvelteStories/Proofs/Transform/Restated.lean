/-
Module scripts in which the meta declaration is stated anew:

* `ItemForm.metaImport?`, `ItemForm.metaBinding?`: what an item says about the meta function and about
  the names that its result is bound to, whatever the places in it are;
* `metaFunction_restated`: the name of the meta function stays;
* `metaDeclaration_restated`: the meta declaration is the one that is stated anew;
* `readStoriesFile_restated`: so a file with such a script is a stories file again.
-/
import SvelteStories.Proofs.Script.Alike
import SvelteStories.Proofs.Transform.ModuleNames

namespace SvelteStories

open Script Markup

/-! ### What a script says about the meta function -/

namespace Script

/-- The name that an item imports the meta function under, or that it has no name for it. -/
def ItemForm.metaImport? (form : ItemForm) : Option (Option String) :=
  (Item.metaFunction? ⟨nowhere, [], form⟩).map Except.toOption

/-- How a variable that is initialised with a call of the meta function binds the keys of the result,
or that it is none that declares the meta object. -/
def Declarator.metaBinding? (name : String) (v : Declarator) : Option (Option (String → Binding)) :=
  (v.callOf? name).map fun call =>
    match v.target, call.objectArgument? with
    | .object pattern, some _ => some pattern.binding
    | _, _ => none

/-- What the first such variable of an item says. -/
def ItemForm.metaBinding? (name : String) (form : ItemForm) : Option (Option (String → Binding)) :=
  form.variables?.bind fun d => d.declarators.findSome? (Declarator.metaBinding? name)

/-- Whether a declaration has such a variable. -/
def VariableDeclaration.calls (name : String) (d : VariableDeclaration) : Bool :=
  d.declarators.any fun v => (v.callOf? name).isSome

end Script

section

variable {name : String}

lemma metaImport?_unplaced (form : ItemForm) :
    form.unplaced.metaImport? = form.metaImport? := by
  have hspecifier (s : ImportSpecifier) :
      s.unplaced.metaFunction?.map Except.toOption = s.metaFunction?.map Except.toOption := by
    cases s <;> rfl
  cases form with
  | imports typeOnly specifiers package =>
      cases typeOnly with
      | true => rfl
      | false =>
          simp only [ItemForm.metaImport?, ItemForm.unplaced, Item.metaFunction?]
          split_ifs
          · rw [List.findSome?_map, List.map_findSome?, List.map_findSome?]
            exact congrArg (List.findSome? · specifiers) (funext hspecifier)
          · rfl
  | _ => rfl

lemma Declarator.metaBinding?_unplaced (v : Declarator) :
    v.unplaced.metaBinding? name = v.metaBinding? name := by
  rw [Declarator.metaBinding?, Declarator.metaBinding?, Declarator.callOf?_unplaced, Option.map_map,
    Declarator.target_unplaced]
  refine congrArg (Option.map · (v.callOf? name)) (funext fun call => ?_)
  rw [Function.comp_apply, Call.objectArgument?_unplaced]
  cases v.target with
  | object pattern =>
      cases call.objectArgument? with
      | none => rfl
      | some o => exact congrArg (fun bound => some bound) (funext pattern.binding_unplaced)
  | _ => rfl

lemma metaBinding?_unplaced (form : ItemForm) :
    form.unplaced.metaBinding? name = form.metaBinding? name := by
  rw [ItemForm.metaBinding?, ItemForm.metaBinding?, ItemForm.variables?_unplaced]
  cases form.variables? with
  | none => rfl
  | some d =>
      obtain ⟨span, keyword, declarators⟩ := d
      simp only [Option.map_some, Option.bind_some, VariableDeclaration.unplaced,
        unplacedDeclarators_eq_map, List.findSome?_map, Function.comp_def,
        Declarator.metaBinding?_unplaced]

/-- What a variable says about the meta object is told without its places. -/
lemma map_metaOfVariable? (name : String) (comments : List Comment) (d : VariableDeclaration)
    (v : Declarator) :
    (metaOfVariable? name comments d v).map (fun found =>
        found.toOption.map fun declared => declared.pattern.binding)
      = v.metaBinding? name := by
  rw [metaOfVariable?, Declarator.metaBinding?, Option.map_map]
  refine congrArg (Option.map · (v.callOf? name)) (funext fun call => ?_)
  rw [Function.comp_apply]
  cases v.target with
  | object pattern => cases call.objectArgument? <;> rfl
  | _ => rfl

lemma map_metaOfItem? (name : String) (item : Item) :
    (metaOfItem? name item).map (fun found =>
        found.toOption.map fun declared => declared.pattern.binding)
      = item.form.metaBinding? name := by
  rw [metaOfItem?, ItemForm.metaBinding?]
  cases item.form.variables? with
  | none => rfl
  | some d =>
      simp only [Option.bind_some, List.map_findSome?, Function.comp_def, map_metaOfVariable?]

/-! ### The meta declaration stated anew -/

lemma isSome_metaBinding? (form : ItemForm) :
    (form.metaBinding? name).isSome = form.variables?.any (VariableDeclaration.calls name) := by
  rw [ItemForm.metaBinding?]
  cases form.variables? with
  | none => rfl
  | some d =>
      rw [Option.bind_some, Option.any_some, List.isSome_findSome?, VariableDeclaration.calls]
      simp only [Declarator.metaBinding?, Option.isSome_map]

variable {test : VariableDeclaration → Bool} {d : VariableDeclaration} {form : ItemForm}

/-- A variable declaration is no import. -/
lemma metaImport?_of_variables (h : form.variables?.any test = true) :
    form.metaImport? = none ∧ (form.withVariables d).metaImport? = none := by
  cases form with
  | statement s => exact ⟨rfl, rfl⟩
  | exportDeclaration s => exact ⟨rfl, rfl⟩
  | _ => cases h

lemma variables?_withVariables (h : form.variables?.any test = true) :
    (form.withVariables d).variables? = some d := by
  cases form with
  | statement s => rfl
  | exportDeclaration s => rfl
  | _ => cases h

/-- The imports stay. -/
lemma findSome?_metaImport?_restated (forms : List ItemForm) :
    (restated test d forms).findSome? ItemForm.metaImport?
      = forms.findSome? ItemForm.metaImport? := by
  induction forms with
  | nil => rfl
  | cons form forms ih =>
      rw [restated]
      split_ifs with hform
      · obtain ⟨hold, hnew⟩ := metaImport?_of_variables (d := d) hform
        rw [List.findSome?_cons, List.findSome?_cons, hold, hnew]
      · rw [List.findSome?_cons, List.findSome?_cons, ih]

/-- The first declaration that calls the meta function is the one that is stated anew. -/
lemma findSome?_metaBinding?_restated {forms : List ItemForm}
    {binding : Option (String → Binding)}
    (hd : d.declarators.findSome? (Declarator.metaBinding? name) = some binding)
    (h : (forms.findSome? (ItemForm.metaBinding? name)).isSome = true) :
    (restated (VariableDeclaration.calls name) d forms).findSome? (ItemForm.metaBinding? name)
      = some binding := by
  induction forms with
  | nil => cases h
  | cons form forms ih =>
      rw [restated]
      split_ifs with hform
      · have hnew : (form.withVariables d).metaBinding? name = some binding := by
          rw [ItemForm.metaBinding?, variables?_withVariables hform, Option.bind_some, hd]
        rw [List.findSome?_cons, hnew]
      · rw [← isSome_metaBinding?, Option.not_isSome_iff_eq_none] at hform
        rw [List.findSome?_cons, hform] at h ⊢
        exact ih h

/-- A script whose items are those of another one but for their places, with the meta declaration
stated anew. -/
def RestatedFrom (name : String) (d : VariableDeclaration) (items items' : Program) : Prop :=
  items'.map (fun i => i.form.unplaced)
    = (restated (VariableDeclaration.calls name) d (items.map Item.form)).map ItemForm.unplaced

variable {source source' : Source} {script script' : ScriptBlock}

/-- What is told of the items of a script without their places is told of it stated anew. -/
lemma RestatedFrom.findSome?_eq {α : Type} {items items' : Program} {told : ItemForm → Option α}
    (h : RestatedFrom name d items items') (htold : ∀ form, told form.unplaced = told form) :
    items'.findSome? (fun i => told i.form)
      = (restated (VariableDeclaration.calls name) d (items.map Item.form)).findSome? told := by
  have hplaces (forms : List ItemForm) :
      (forms.map ItemForm.unplaced).findSome? told = forms.findSome? told := by
    rw [List.findSome?_map]
    exact congrArg (List.findSome? · forms) (funext htold)
  rw [← hplaces, ← h, List.findSome?_map]
  exact congrArg (List.findSome? · items') (funext fun i => (htold i.form).symm)

/-- The name of the meta function stays. -/
lemma metaFunction_restated (h : RestatedFrom name d script.items script'.items)
    (hname : metaFunction source script = .ok name) : metaFunction source' script' = .ok name := by
  have htold (items : Program) : (items.findSome? Item.metaFunction?).map Except.toOption
      = items.findSome? fun i => i.form.metaImport? := List.map_findSome?
  have hsame : (script'.items.findSome? Item.metaFunction?).map Except.toOption
      = (script.items.findSome? Item.metaFunction?).map Except.toOption := by
    rw [htold, h.findSome?_eq metaImport?_unplaced, findSome?_metaImport?_restated,
      List.findSome?_map, htold]
    rfl
  simp only [metaFunction] at hname ⊢
  split at hname
  · rename_i hfound
    obtain rfl := Except.ok.inj hname
    rw [hfound] at hsame
    obtain ⟨found, hfound', hok⟩ := Option.map_eq_some_iff.mp hsame
    rw [hfound', toOption_eq_some_iff.mp hok]
  · cases hname
  · cases hname

/-- What makes a variable the one that declares the meta object. -/
lemma exists_call_of_metaOfVariable? {comments : List Comment} {v : Declarator}
    {declared : MetaDeclaration} (h : metaOfVariable? name comments d v = some (.ok declared)) :
    declared.declaration = d ∧ v.target = .object declared.pattern
      ∧ ∃ call, v.callOf? name = some call ∧ call.objectArgument?.isSome = true := by
  obtain ⟨call, hcall, h⟩ := Option.map_eq_some_iff.mp h
  split at h
  · rename_i pattern argument hpattern hargument
    obtain rfl := Except.ok.inj h
    exact ⟨rfl, hpattern, call, hcall, by rw [hargument]; rfl⟩
  · cases h
  · cases h

lemma metaDeclaration_eq_ok_iff {declared : MetaDeclaration} :
    metaDeclaration source script name = .ok declared
      ↔ script.items.findSome? (metaOfItem? name) = some (.ok declared) := by
  rw [metaDeclaration]
  split
  · rename_i hfound
    rw [hfound, Except.ok.injEq, Option.some.injEq, Except.ok.injEq]
  · rename_i hfound
    simp [hfound]
  · rename_i hfound
    simp [hfound]

/-- The declaration that is stated anew declares the meta object with its new pattern. -/
lemma findSome?_changeAt {declared : MetaDeclaration}
    (h : metaDeclaration source script name = .ok declared) (p : ObjectPattern) :
    (declared.declaration.changeAt declared.pattern.span (·.withPattern p)).declarators.findSome?
      (Declarator.metaBinding? name) = some (some p.binding) := by
  obtain ⟨item, -, hitem⟩ := List.exists_of_findSome?_eq_some (metaDeclaration_eq_ok_iff.mp h)
  obtain ⟨d, -, hitem⟩ := Option.bind_eq_some_iff.mp hitem
  obtain ⟨before, v, behind, hd, hv, hbefore⟩ := List.findSome?_eq_some_iff.mp hitem
  obtain ⟨rfl, htarget, call, hcall, hargument⟩ := exists_call_of_metaOfVariable? hv
  let change (w : Declarator) : Declarator :=
    if w.target.isObjectAt declared.pattern.span then w.withPattern p else w
  -- another pattern leaves the call alone
  have hcalls (w : Declarator) : (change w).callOf? name = w.callOf? name := by
    simp only [change]
    split_ifs <;> rfl
  have hnone : (before.map change).findSome? (Declarator.metaBinding? name) = none := by
    refine List.findSome?_eq_none_iff.mpr (List.forall_mem_map.mpr fun w hw => ?_)
    have hnot := Option.map_eq_none_iff.mp (hbefore w hw)
    rw [Declarator.metaBinding?, hcalls, hnot, Option.map_none]
  have hhere : (change v).metaBinding? name = some (some p.binding) := by
    have hplace : v.target.isObjectAt declared.pattern.span = true := by
      simp [htarget, Pattern.isObjectAt]
    obtain ⟨o, ho⟩ := Option.isSome_iff_exists.mp hargument
    rw [Declarator.metaBinding?, hcalls, hcall]
    simp only [change, if_pos hplace, Declarator.withPattern, Option.map_some, ho]
  have hchanged : (declared.declaration.changeAt declared.pattern.span
      (·.withPattern p)).declarators = before.map change ++ change v :: behind.map change := by
    rw [VariableDeclaration.changeAt, hd, List.map_append, List.map_cons]
  rw [hchanged, List.findSome?_append, hnone, Option.none_or, List.findSome?_cons, hhere]

/-- The meta declaration is the one that is stated anew. -/
lemma metaDeclaration_restated {p : ObjectPattern} {declared : MetaDeclaration}
    (hdeclared : metaDeclaration source script name = .ok declared)
    (h : RestatedFrom name (declared.declaration.changeAt declared.pattern.span (·.withPattern p))
      script.items script'.items) :
    ∃ declared', metaDeclaration source' script' name = .ok declared'
      ∧ declared'.pattern.binding = p.binding := by
  have htold (items : Program) :
      (items.findSome? (metaOfItem? name)).map (fun found =>
          found.toOption.map fun declared => declared.pattern.binding)
        = items.findSome? fun i => i.form.metaBinding? name := by
    rw [List.map_findSome?]
    exact congrArg (List.findSome? · items) (funext (map_metaOfItem? name))
  have hbefore : ((script.items.map Item.form).findSome? (ItemForm.metaBinding? name)).isSome
      = true := by
    have hforms := htold script.items
    rw [metaDeclaration_eq_ok_iff.mp hdeclared] at hforms
    rw [List.findSome?_map, Function.comp_def, ← hforms]
    rfl
  have hafter := htold script'.items
  rw [h.findSome?_eq metaBinding?_unplaced,
    findSome?_metaBinding?_restated (findSome?_changeAt hdeclared p) hbefore] at hafter
  obtain ⟨found, hfound, hok⟩ := Option.map_eq_some_iff.mp hafter
  obtain ⟨declared', hdeclared', hbinding⟩ := Option.map_eq_some_iff.mp hok
  refine ⟨declared', metaDeclaration_eq_ok_iff.mpr ?_, hbinding⟩
  rw [hfound, toOption_eq_some_iff.mp hdeclared']

/-! ### The stories file -/

variable {doc doc' : Document} {f : StoriesFile}

/-- What a stories file reads off its module script. -/
lemma declared_of_readStoriesFile (h : readStoriesFile doc = .ok f) :
    doc.scripts.ofModule = some f.script
      ∧ metaFunction doc.source f.script = .ok f.metaFunction
      ∧ metaDeclaration doc.source f.script f.metaFunction = .ok f.declared
      ∧ f.declared.pattern.binding storyKey = .name f.storyName
      ∧ f.declared.pattern.binding metaKey
        = (f.metaName.elim Binding.missing Binding.name) := by
  rw [readStoriesFile] at h
  split at h
  · rename_i script hscript
    simp only [bind_eq_ok_iff] at h
    obtain ⟨name, hname, declared, hdeclared, h⟩ := h
    -- the keys are looked up one after the other
    split at h
    case h_1 =>
      rename_i hstory
      rw [pure_bind] at h
      split at h
      all_goals
        rename_i hmeta
        simp only [bind_eq_ok_iff, pure_eq_ok_iff, reduceCtorEq, false_and, exists_false] at h
      all_goals
        obtain ⟨_, rfl, _, -, rfl⟩ := h
        exact ⟨hscript, hname, hdeclared, hstory, hmeta⟩
    all_goals exact absurd h error_bind_ne_ok
  · exact absurd h throw_ne_ok

/-- A document is a stories file if there is a meta declaration that binds both keys. -/
lemma readStoriesFile_eq_ok {script : ScriptBlock} {name storyName metaName : String}
    {declared : MetaDeclaration} {snippets : List Snippet}
    (hscript : doc.scripts.ofModule = some script)
    (hname : metaFunction doc.source script = .ok name)
    (hdeclared : metaDeclaration doc.source script name = .ok declared)
    (hstory : declared.pattern.binding storyKey = .name storyName)
    (hmeta : declared.pattern.binding metaKey = .name metaName)
    (hsnippets : topSnippets doc = .ok snippets) :
    ∃ f, readStoriesFile doc = .ok f ∧ f.storyName = storyName ∧ f.metaName = some metaName := by
  simp only [readStoriesFile, hscript, hname, hdeclared, ok_bind, hstory, pure_bind, hmeta,
    hsnippets]
  exact ⟨_, rfl, rfl, rfl⟩

/-- A file whose module script is that of a stories file, with the meta declaration stated anew so
that it binds the meta object, is a stories file with the same story component. -/
theorem readStoriesFile_restated {bound : MetaBinding} {snippets : List Snippet}
    (hfile : readStoriesFile doc = .ok f) (hbound : f.declared.pattern.bindMeta = .ok bound)
    (hscript : doc'.scripts.ofModule = some script')
    (h : RestatedFrom f.metaFunction
      (f.declared.declaration.changeAt f.declared.pattern.span (·.withPattern bound.pattern))
      f.script.items script'.items)
    (hsnippets : topSnippets doc' = .ok snippets) :
    ∃ f', readStoriesFile doc' = .ok f' ∧ f'.storyName = f.storyName
      ∧ f'.metaName = some bound.name := by
  obtain ⟨-, hname, hdeclared, hstory, -⟩ := declared_of_readStoriesFile hfile
  have hrestated : ∃ declared', metaDeclaration doc'.source script' f.metaFunction = .ok declared'
      ∧ declared'.pattern.binding = bound.pattern.binding := metaDeclaration_restated hdeclared h
  obtain ⟨declared', hdeclared', hbinding⟩ := hrestated
  refine readStoriesFile_eq_ok hscript (metaFunction_restated h hname) hdeclared' ?_ ?_ hsnippets
  · rw [hbinding, binding_bindMeta_of_ne hbound (by decide), hstory]
  · rw [hbinding, binding_bindMeta hbound]

end

end SvelteStories

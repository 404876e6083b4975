/-
Additions to parameters keep what the author has set:

* `ObjectLiteral.Tells`, `ObjectLiteral.Shows`: the properties of an object give away whether it has
  a key, and those of the objects in it whether these have the keys of a path;
* `AddedAt`: two values are the same but for one that has been added under a path;
* `ParameterAdditions.Kept`: what is kept under the parameters of an object, their documentation and
  its description, and where a description may appear;
* `addToOwner_kept`: all of this is kept if the objects that are changed show their keys;
* `spreadTexts_replaced`: a description that comes out of a spread is not seen, and gets lost.
-/
import SvelteStories.Proofs.Additions.LastProperty
import SvelteStories.Proofs.Script.Values

namespace SvelteStories

open Script

/-! ### Keys in sight -/

section

variable {env : Environment} {o : ObjectLiteral} {p : Property} {k name : String}

lemma get?_value_push (env : Environment) (k : String) (o : ObjectLiteral) (p : Property) :
    ((o.push p).value env).get? k = (p.valueAt env k).or ((o.value env).get? k) := by
  rw [ObjectLiteral.get?_value, ObjectLiteral.get?_value, ObjectLiteral.push, valueIn_split]
  rfl

lemma name?_of_isNamed (h : p.isNamed name = true) : p.name? = some name := by
  simpa [Property.isNamed] using h

/-- An entry that is added puts nothing under other keys. -/
lemma get?_value_push_entry_of_ne (o : ObjectLiteral) (e : Expr) (hk : k ≠ name) :
    ((o.push (entry name e)).value env).get? k = (o.value env).get? k := by
  rw [get?_value_push, Property.valueAt_eq_none (j := name) rfl hk, Option.none_or]

lemma get?_value_push_entry (o : ObjectLiteral) (e : Expr) (hk : k ≠ prototypeKey) :
    ((o.push (entry k e)).value env).get? k = some (e.value env) := by
  rw [get?_value_push, entry, Property.valueAt_keyValue rfl hk, Option.some_or]

/-- The properties of an object give away whether it has a key: one of them has it as its name, or
the object does not have it. -/
def Script.ObjectLiteral.Tells (env : Environment) (k : String) (o : ObjectLiteral) : Prop :=
  o.last? k = none → (o.value env).get? k = none

/-- An object tells whether it has the first key of a path, and the object literal under the key
shows the rest of the path. -/
def Script.ObjectLiteral.Shows (env : Environment) : List String → ObjectLiteral → Prop
  | [], _ => True
  | k :: path, o => o.Tells env k
    ∧ ∀ key inner, o.last? k = some (.keyValue key (.object inner)) → inner.Shows env path

lemma shows_objectOf_nil (env : Environment) (path : List String) :
    (objectOf []).Shows env path := by
  cases path with
  | nil => trivial
  | cons k path => exact ⟨fun _ => rfl, fun key inner h => by simp [ObjectLiteral.last?, objectOf] at h⟩

end

/-! ### Values that are added -/

/-- Two values, if there are any, are the same but for one that has been added under a path. -/
def AddedAt (added : Value) : List String → Option Value → Option Value → Prop
  | [], x, x' => x' = x ∨ x = none ∧ x' = some added
  | k :: path, x, x' => x' = x
    ∨ (∀ j, j ≠ k → x'.bind (·.get? j) = x.bind (·.get? j))
      ∧ AddedAt added path (x.bind (·.get? k)) (x'.bind (·.get? k))

section

variable {added : Value} {path : List String} {x x' : Option Value} {v : Value} {k : String}

lemma addedAt_refl (added : Value) (path : List String) (x : Option Value) :
    AddedAt added path x x := by
  cases path <;> exact Or.inl rfl

/-- What is added to a value without entries may have been added to nothing. -/
lemma AddedAt.of_empty (hv : ∀ j, v.get? j = none) (h : AddedAt added (k :: path) (some v) x') :
    AddedAt added (k :: path) none x' := by
  obtain rfl | ⟨hother, hkey⟩ := h
  · refine Or.inr ⟨fun j _ => hv j, ?_⟩
    rw [Option.bind_some, hv, Option.bind_none]
    exact addedAt_refl added path none
  · refine Or.inr ⟨fun j hj => ?_, ?_⟩
    · rw [hother j hj, Option.bind_some, hv, Option.bind_none]
    · rwa [Option.bind_some, hv] at hkey

end

section

variable {env : Environment} {o : ObjectLiteral} {added : Value} {path : List String}
  {k name : String}

lemma addedAt_describe {about : Described} (text : String) (h : o.Tells env about.key) :
    AddedAt (env.text text) [about.key] (some (o.value env))
      (some ((ParameterAdditions.describe about text o).value.value env)) := by
  have hkey : about.key ≠ prototypeKey := by cases about <;> decide
  rw [ParameterAdditions.describe]
  split_ifs with hany
  · exact Or.inl rfl
  have hlast : o.last? about.key = none := by simpa [last?_eq_none_iff] using hany
  refine Or.inr ⟨fun j hj => ?_, Or.inr ⟨h hlast, ?_⟩⟩
  · exact get?_value_push_entry_of_ne o _ hj
  · exact get?_value_push_entry o (stringExpr text) hkey

/-- What a change adds inside of an object is added inside of the object around it. -/
lemma addedAt_inside {change : ObjectLiteral → Noted ObjectLiteral} (hname : name ≠ prototypeKey)
    (hchange : ∀ inner : ObjectLiteral, inner.Shows env (k :: path) →
      AddedAt added (k :: path) (some (inner.value env)) (some ((change inner).value.value env)))
    (h : o.Shows env (name :: k :: path)) :
    AddedAt added (name :: k :: path) (some (o.value env))
      (some ((ParameterAdditions.inside name change o).value.value env)) := by
  obtain ⟨htells, hinner⟩ := h
  rw [ParameterAdditions.inside]
  split
  · -- the object gets its first property of the name
    rename_i hsplit
    have hnone : (o.value env).get? name = none :=
      htells (last?_eq_none_iff.mpr (splitLast?_eq_none_iff.mp hsplit))
    refine Or.inr ⟨fun j hj => get?_value_push_entry_of_ne o _ hj, ?_⟩
    rw [Option.bind_some, Option.bind_some, hnone, get?_value_push_entry o _ hname]
    exact (hchange _ (shows_objectOf_nil env _)).of_empty (get?_value_objectOf_nil env)
  · -- the last property of the name holds an object literal
    rename_i before key inner behind hsplit
    obtain ⟨hproperties, hnamed, -⟩ := splitLast?_eq_some_iff.mp hsplit
    have hkey : key.name? = some name := name?_of_isNamed hnamed
    refine Or.inr ⟨fun j hj => ?_, ?_⟩
    · exact ObjectLiteral.get?_value_replace_of_ne hproperties hkey hkey hj
    · obtain heq | ⟨hbefore, hafter⟩ := ObjectLiteral.get?_value_replace_cases hproperties
        (Property.valueAt_keyValue hkey hname env (.object inner))
        (Property.valueAt_keyValue hkey hname env (.object (change inner).value))
      · rw [Option.bind_some, Option.bind_some, heq]
        exact addedAt_refl added _ _
      · rw [Option.bind_some, Option.bind_some, hbefore, hafter]
        exact hchange inner (hinner key inner (last?_of_splitLast? hsplit))
  · exact Or.inl rfl

/-- A description is added under its path. -/
lemma addedAt_addDescription {about : Described} (text : String)
    (h : o.Shows env ["docs", "description", about.key]) :
    AddedAt (env.text text) ["docs", "description", about.key] (some (o.value env))
      (some ((ParameterAdditions.addDescription about text o).value.value env)) := by
  refine addedAt_inside (by decide) (fun docs hdocs => ?_) h
  exact addedAt_inside (by decide) (fun _ hdescription => addedAt_describe text hdescription.1) hdocs

end

/-! ### The value for the runtime -/

section

variable {env : Environment} {o : ObjectLiteral} {path : List String} {name : String}

/-- The value for the runtime is an entry that is added or takes the place of another one. -/
lemma setInternal_cases (value : Expr) (o : ObjectLiteral) :
    ParameterAdditions.setInternal value o = o.push (entry internalKey value)
      ∨ ∃ before p behind, o.properties = before ++ p :: behind ∧ p.isNamed internalKey = true
        ∧ ParameterAdditions.setInternal value o
          = { o with properties := before ++ p.withValue value :: behind } := by
  rw [ParameterAdditions.setInternal]
  split
  · rename_i before p behind hsplit
    obtain ⟨hproperties, hentry, -⟩ := splitLast?_eq_some_iff.mp hsplit
    have hnamed : p.isNamed internalKey = true := by
      rw [Property.isEntry, Bool.and_eq_true] at hentry
      exact hentry.1
    exact Or.inr ⟨before, p, behind, hproperties, hnamed, rfl⟩
  · exact Or.inl rfl

lemma get?_setInternal (value : Expr) (hname : name ≠ internalKey) :
    ((ParameterAdditions.setInternal value o).value env).get? name = (o.value env).get? name := by
  obtain h | ⟨before, p, behind, hproperties, hnamed, h⟩ := setInternal_cases value o
  · rw [h, get?_value_push_entry_of_ne o value hname]
  · have hnamed' : (p.withValue value).isNamed internalKey = true := by
      rw [isNamed_withValue, hnamed]
    rw [h]
    exact ObjectLiteral.get?_value_replace_of_ne hproperties (name?_of_isNamed hnamed)
      (name?_of_isNamed hnamed') hname

lemma last?_setInternal (value : Expr) (hname : name ≠ internalKey) :
    (ParameterAdditions.setInternal value o).last? name = o.last? name := by
  obtain h | ⟨before, p, behind, hproperties, hnamed, h⟩ := setInternal_cases value o
  · rw [h]
    exact last?_push_of_not_isNamed (by simpa [isNamed_entry] using hname.symm)
  · have hother : p.isNamed name = false := isNamed_of_ne hnamed hname.symm
    rw [h]
    exact last?_replace hother (by rw [isNamed_withValue, hother]) hproperties

lemma Script.ObjectLiteral.Shows.setInternal (value : Expr) (hname : name ≠ internalKey)
    (h : o.Shows env (name :: path)) :
    (ParameterAdditions.setInternal value o).Shows env (name :: path) := by
  rw [Shows, Tells, last?_setInternal value hname, get?_setInternal value hname]
  exact h

end

/-! ### Parameters -/

namespace ParameterAdditions

/-- What becomes of parameters, if there are any: only the value for the runtime changes, and a
description that was missing appears. -/
structure MergedInto (env : Environment) (p : ParameterAdditions) (x x' : Option Value) :
    Prop where
  /-- The other parameters are kept. -/
  others : ∀ k, k ≠ internalKey → k ≠ "docs" → x'.bind (·.get? k) = x.bind (·.get? k)
  /-- The documentation is kept, or the description has been added to it. -/
  docs : x'.bind (·.get? "docs") = x.bind (·.get? "docs")
    ∨ ∃ about text, p.description = some (about, text)
      ∧ AddedAt (env.text text) ["description", about.key] (x.bind (·.get? "docs"))
        (x'.bind (·.get? "docs"))

section

variable {env : Environment} {p : ParameterAdditions} {x x' y : Option Value}

lemma mergedInto_refl (env : Environment) (p : ParameterAdditions) (x : Option Value) :
    MergedInto env p x x :=
  ⟨fun _ _ _ => rfl, Or.inl rfl⟩

/-- Only the entries of parameters count. -/
lemma MergedInto.of_get?_eq (h : MergedInto env p y x')
    (hxy : ∀ k, y.bind (·.get? k) = x.bind (·.get? k)) : MergedInto env p x x' := by
  obtain ⟨hothers, hdocs⟩ := h
  refine ⟨fun k hk hk' => ?_, ?_⟩
  · rw [hothers k hk hk', hxy]
  · rwa [hxy] at hdocs

/-- The objects that a description goes into show whether it is set. -/
def ShownIn (env : Environment) (p : ParameterAdditions) (o : ObjectLiteral) : Prop :=
  ∀ about text, p.description = some (about, text) →
    o.Shows env ["docs", "description", about.key]

/-- Parameters with the value for the runtime, if there is one to add. -/
def runtimeAdded (p : ParameterAdditions) (o : ObjectLiteral) : ObjectLiteral :=
  p.internal.elim o fun value => setInternal value o

lemma get?_runtimeAdded (p : ParameterAdditions) (o : ObjectLiteral) {k : String}
    (hk : k ≠ internalKey) :
    ((p.runtimeAdded o).value env).get? k = (o.value env).get? k := by
  rw [runtimeAdded]
  cases p.internal with
  | none => rfl
  | some value => exact get?_setInternal value hk

lemma ShownIn.runtimeAdded {o : ObjectLiteral} (h : p.ShownIn env o) :
    p.ShownIn env (p.runtimeAdded o) := by
  intro about text hdescription
  have hshown := h about text hdescription
  rw [ParameterAdditions.runtimeAdded]
  cases p.internal with
  | none => exact hshown
  | some value => exact hshown.setInternal value (by decide)

lemma addTo_eq (p : ParameterAdditions) (o : ObjectLiteral) :
    p.addTo o = p.description.elim ⟨p.runtimeAdded o, []⟩
      fun described => addDescription described.1 described.2 (p.runtimeAdded o) := by
  rw [addTo, runtimeAdded]
  cases p.internal <;> cases p.description <;> rfl

/-- Additions are merged into parameters that show what they have. -/
lemma mergedInto_addTo {o : ObjectLiteral} (h : p.ShownIn env o) :
    MergedInto env p (some (o.value env)) (some ((p.addTo o).value.value env)) := by
  have hvalue : ∀ k, k ≠ internalKey →
      ((p.runtimeAdded o).value env).get? k = (o.value env).get? k :=
    fun k hk => get?_runtimeAdded p o hk
  rw [addTo_eq]
  cases hdescription : p.description with
  | none => exact ⟨fun k hk _ => hvalue k hk, Or.inl (hvalue "docs" (by decide))⟩
  | some described =>
      obtain ⟨about, text⟩ := described
      have hadded := addedAt_addDescription text (h.runtimeAdded about text hdescription)
      obtain heq | ⟨hother, hdocs⟩ := hadded
      · obtain heq := Option.some.inj heq
        rw [Option.elim_some, heq]
        exact ⟨fun k hk _ => hvalue k hk, Or.inl (hvalue "docs" (by decide))⟩
      · refine ⟨fun k hk hk' => (hother k hk').trans (hvalue k hk), Or.inr ⟨about, text, ?_, ?_⟩⟩
        · exact hdescription
        · rwa [Option.bind_some, hvalue "docs" (by decide)] at hdocs

end

/-- What additions to the parameters of an object keep of its value. -/
structure Kept (env : Environment) (p : ParameterAdditions) (before after : Value) : Prop where
  /-- Everything but the parameters. -/
  elsewhere : ∀ k, k ≠ parametersKey → after.get? k = before.get? k
  /-- The parameters, but for the value for the runtime and the documentation. -/
  parameters : ∀ k, k ≠ internalKey → k ≠ "docs" →
    after.under [parametersKey, k] = before.under [parametersKey, k]
  /-- The documentation, but for the description. -/
  docs : ∀ k, k ≠ "description" →
    after.under [parametersKey, "docs", k] = before.under [parametersKey, "docs", k]
  /-- The descriptions that are set. -/
  description : ∀ k, before.under [parametersKey, "docs", "description", k] ≠ none →
    after.under [parametersKey, "docs", "description", k]
      = before.under [parametersKey, "docs", "description", k]
  /-- A description that appears is the one to add, and its key was not set. -/
  added : ∀ k, after.under [parametersKey, "docs", "description", k]
      ≠ before.under [parametersKey, "docs", "description", k] →
    before.under [parametersKey, "docs", "description", k] = none
      ∧ ∃ about text, p.description = some (about, text) ∧ k = about.key
        ∧ after.under [parametersKey, "docs", "description", k] = some (env.text text)

section

variable {env : Environment} {p : ParameterAdditions} {before after : Value}

/-- A description is kept or has been missing. -/
lemma description_cases {x x' : Option Value}
    (h : MergedInto env p x x') (k : String) :
    ((x'.bind (·.get? "docs")).bind (·.get? "description")).bind (·.get? k)
        = ((x.bind (·.get? "docs")).bind (·.get? "description")).bind (·.get? k)
      ∨ ((x.bind (·.get? "docs")).bind (·.get? "description")).bind (·.get? k) = none
        ∧ ∃ about text, p.description = some (about, text) ∧ k = about.key
          ∧ ((x'.bind (·.get? "docs")).bind (·.get? "description")).bind (·.get? k)
            = some (env.text text) := by
  obtain heq | ⟨about, text, hdescription, hadded⟩ := h.docs
  · exact Or.inl (by rw [heq])
  obtain heq | ⟨-, heq | ⟨hother, hkey⟩⟩ := hadded
  · exact Or.inl (by rw [heq])
  · exact Or.inl (by rw [heq])
  by_cases hk : k = about.key
  · subst hk
    obtain heq | ⟨hnone, hsome⟩ := hkey
    · exact Or.inl heq
    · exact Or.inr ⟨hnone, about, text, hdescription, rfl, hsome⟩
  · exact Or.inl (hother k hk)

/-- What is kept of an object, from what is kept of its parameters. -/
lemma Kept.of_mergedInto (helsewhere : ∀ k, k ≠ parametersKey → after.get? k = before.get? k)
    (h : MergedInto env p (before.get? parametersKey) (after.get? parametersKey)) :
    Kept env p before after := by
  have hone : ∀ (v : Value) (k : String),
      v.under [parametersKey, k] = (v.get? parametersKey).bind (·.get? k) := fun v k => by
    simp [Value.under]
  have htwo : ∀ (v : Value) (k : String), v.under [parametersKey, "docs", k]
      = ((v.get? parametersKey).bind (·.get? "docs")).bind (·.get? k) := fun v k => by
    rw [← hone]
    exact v.under_concat [parametersKey, "docs"] k
  have hthree : ∀ (v : Value) (k : String), v.under [parametersKey, "docs", "description", k]
      = (((v.get? parametersKey).bind (·.get? "docs")).bind (·.get? "description")).bind
        (·.get? k) := fun v k => by
    rw [← htwo]
    exact v.under_concat [parametersKey, "docs", "description"] k
  refine ⟨helsewhere, fun k hk hk' => ?_, fun k hk => ?_, fun k hset => ?_, fun k hne => ?_⟩
  · rw [hone, hone, h.others k hk hk']
  · rw [htwo, htwo]
    obtain heq | ⟨about, text, -, heq | ⟨hother, -⟩⟩ := h.docs
    · rw [heq]
    · rw [heq]
    · exact hother k hk
  · rw [hthree] at hset
    rw [hthree, hthree]
    obtain heq | ⟨hnone, -⟩ := description_cases h k
    · exact heq
    · exact absurd hnone hset
  · rw [hthree, hthree] at hne
    rw [hthree, hthree]
    obtain heq | hadded := description_cases h k
    · exact absurd heq hne
    · exact hadded

end

/-! ### Objects with parameters -/

section

variable {env : Environment} {p : ParameterAdditions} {o base : ObjectLiteral}
  {property : Property}

/-- An object tells whether it has parameters, and the object that additions go into shows what it
has. -/
def Sees (env : Environment) (p : ParameterAdditions) (o : ObjectLiteral) : Prop :=
  o.Tells env parametersKey
    ∧ ∀ property base, o.last? parametersKey = some property → base? property = some base →
      p.ShownIn env base

/-- The object that additions go into has the entries of the parameters. -/
lemma exists_valueAt_of_base? (env : Environment) (hnamed : property.name? = some parametersKey)
    (hbase : base? property = some base) :
    ∃ v, property.valueAt env parametersKey = some v
      ∧ ∀ k, (base.value env).get? k = v.get? k := by
  have hkey : parametersKey ≠ prototypeKey := by decide
  rw [base?.eq_def] at hbase
  split at hbase
  · rename_i key inner
    cases hbase
    exact ⟨_, Property.valueAt_keyValue hnamed hkey env _, fun _ => rfl⟩
  · rename_i key value _
    cases hbase
    exact ⟨_, Property.valueAt_keyValue hnamed hkey env _, get?_value_spreadOf env value⟩
  · rename_i span name
    cases hbase
    obtain rfl : name = parametersKey := Option.some.inj hnamed
    exact ⟨_, Property.valueAt_shorthand env span _, get?_value_spreadOf env (.identifier span _)⟩
  all_goals cases hbase

lemma valueAt_merged (env : Environment) (hnamed : property.name? = some parametersKey)
    (parameters : ObjectLiteral) :
    (merged property parameters).valueAt env parametersKey = some (parameters.value env) := by
  have hkey : parametersKey ≠ prototypeKey := by decide
  cases property with
  | keyValue key value => exact Property.valueAt_keyValue hnamed hkey env (.object parameters)
  | _ => exact Property.valueAt_keyValue rfl hkey env (.object parameters)

/-- **Additions keep what the author has set**, where the objects that they go into show it. -/
theorem addToOwner_kept (h : p.Sees env o) :
    p.Kept env (o.value env) ((p.addToOwner o).value.value env) := by
  have hkey : parametersKey ≠ prototypeKey := by decide
  have hsame : p.Kept env (o.value env) (o.value env) :=
    Kept.of_mergedInto (fun _ _ => rfl) (mergedInto_refl env p _)
  obtain ⟨htells, hshown⟩ := h
  rw [addToOwner]
  split
  · exact hsame
  split
  · -- parameters are added
    rename_i hsplit
    have hnone : (o.value env).get? parametersKey = none :=
      htells (last?_eq_none_iff.mpr (splitLast?_eq_none_iff.mp hsplit))
    have hmerged : MergedInto env p (some ((objectOf []).value env)) _ :=
      mergedInto_addTo fun _ _ _ => shows_objectOf_nil env _
    refine Kept.of_mergedInto (fun k hk => get?_value_push_entry_of_ne o _ hk) ?_
    rw [hnone, get?_value_push_entry o _ hkey]
    exact hmerged.of_get?_eq (get?_value_objectOf_nil env)
  · rename_i before property behind hsplit
    obtain ⟨hproperties, hnamed, -⟩ := splitLast?_eq_some_iff.mp hsplit
    have hname := name?_of_isNamed hnamed
    cases hbase : base? property with
    | none => exact hsame
    | some base =>
        -- the last property of the name is extended or replaced
        have hmerged := mergedInto_addTo (hshown property base (last?_of_splitLast? hsplit) hbase)
        obtain ⟨v, hv, hentries⟩ := exists_valueAt_of_base? env hname hbase
        have hname' := name?_merged hname (p.addTo base).value
        refine Kept.of_mergedInto
          (fun k hk => ObjectLiteral.get?_value_replace_of_ne hproperties hname hname' hk) ?_
        obtain heq | ⟨hbefore, hafter⟩ := ObjectLiteral.get?_value_replace_cases hproperties hv
          (valueAt_merged env hname (p.addTo base).value)
        · rw [← heq]
          exact mergedInto_refl env p _
        · rw [hbefore]
          rw [← hafter] at hmerged
          exact hmerged.of_get?_eq hentries

end

/-! ### A description in a spread -/

/-- An object whose parameters take what `shared` has and set descriptions by hand. -/
def describedOwner (descriptions : List Property) : ObjectLiteral :=
  objectOf [entry parametersKey (.object (objectOf [.spread nowhere (nameExpr "shared"),
    entry "docs" (.object (objectOf [entry "description" (.object (objectOf descriptions))]))]))]

/-- Values for `shared`, which has no documentation, and `texts`, which has a description. -/
def authorValues : Environment where
  names name :=
    if name = "texts" then .mk .object [("story", .mk (.text "Author") [])]
    else .mk .object [("layout", .mk (.text "centered") [])]
  letters _ := []
  keys _ := none
  methods _ := .mk (.other 0) []
  others _ := .mk (.other 1) []

/-- A comment that describes a story. -/
def storyComment : ParameterAdditions :=
  ⟨none, some (.story, "From comment")⟩

/-- The theorem at an object that spreads other parameters. -/
theorem describedOwner_kept :
    storyComment.Sees authorValues (describedOwner [])
      ∧ storyComment.Kept authorValues ((describedOwner []).value authorValues)
        ((storyComment.addToOwner (describedOwner [])).value.value authorValues) := by
  have hsees : storyComment.Sees authorValues (describedOwner []) := by
    refine ⟨nofun, fun property base hlast hbase about text hdescription => ?_⟩
    cases hlast
    cases hbase
    cases hdescription
    refine ⟨nofun, fun key docs hdocs => ?_⟩
    cases hdocs
    refine ⟨nofun, fun key description hdescription => ?_⟩
    cases hdescription
    exact ⟨fun _ => rfl, nofun⟩
  exact ⟨hsees, addToOwner_kept hsees⟩

/-- A description that comes out of a spread is not seen: the one of the comment takes its place. -/
theorem spreadTexts_replaced :
    ¬ storyComment.Kept authorValues
        ((describedOwner [.spread nowhere (nameExpr "texts")]).value authorValues)
        ((storyComment.addToOwner (describedOwner [.spread nowhere (nameExpr "texts")])).value.value
          authorValues)
      ∧ (((describedOwner [.spread nowhere (nameExpr "texts")]).value authorValues).under
          [parametersKey, "docs", "description", "story"]).bind (·.text?) = some "Author"
      ∧ (((storyComment.addToOwner
          (describedOwner [.spread nowhere (nameExpr "texts")])).value.value authorValues).under
          [parametersKey, "docs", "description", "story"]).bind (·.text?) = some "From comment" := by
  have hbefore : (((describedOwner [.spread nowhere (nameExpr "texts")]).value authorValues).under
      [parametersKey, "docs", "description", "story"]).bind (·.text?) = some "Author" := by
    decide +kernel
  have hafter : (((storyComment.addToOwner
      (describedOwner [.spread nowhere (nameExpr "texts")])).value.value authorValues).under
      [parametersKey, "docs", "description", "story"]).bind (·.text?) = some "From comment" := by
    decide +kernel
  refine ⟨fun h => ?_, hbefore, hafter⟩
  have hset := h.description "story" fun hnone => by simp [hnone] at hbefore
  rw [hset, hbefore] at hafter
  exact absurd hafter (by decide)

end ParameterAdditions

end SvelteStories

/-
Additions to properties that are merged from several arguments:

* `Merges`: the runtime gives each key what the last argument has under it;
* `props?_of_call`: the additions go into the first object literal, wherever it stands;
* `Counts`, `Unrivalled`: no later argument or property, and none at all but the one that is
  extended, has a say in the parameters;
* `mergedProps_patched`: then the merged properties have what was added, and all that the author has
  set. An argument behind the object that has parameters takes the place of all of them;
* `laterParameters_lost`: so nothing that was added arrives in a call that spreads the parameters
  behind the first object.
-/
import SvelteStories.Proofs.Additions.Agreement
import SvelteStories.Proofs.Additions.Runs
import SvelteStories.Transform.StoriesModule

namespace SvelteStories

open Script

/-! ### Merged values -/

/-- A function merges values: under a key stands what the last value has that has the key. -/
def Merges (merge : List Value → Value) : Prop :=
  ∀ vs k, (merge vs).get? k = vs.reverse.findSome? (·.get? k)

/-- The values that an argument gives, where `items` are the elements of expressions. -/
def argumentValues (env : Environment) (items : Expr → List Value) : Argument → List Value
  | .plain value => [value.value env]
  | .spread value => items value

/-- What a call of a function gives. -/
def Script.Call.valueBy (f : List Value → Value) (env : Environment) (items : Expr → List Value)
    (c : Call) : Value :=
  f (c.arguments.flatMap (argumentValues env items))

/-- The object literal that an argument is. -/
def Script.Argument.object? : Argument → Option ObjectLiteral
  | .plain (.object o) => some o
  | _ => none

/-- The values of arguments that have something under a key. -/
def AnyHas (env : Environment) (items : Expr → List Value) (k : String) (as : List Argument) :
    Prop :=
  ∃ v ∈ as.flatMap (argumentValues env items), v.get? k ≠ none

section

variable {merge : List Value → Value} {env : Environment} {items : Expr → List Value} {c : Call}
  {o : ObjectLiteral} {before behind rest : List Argument} {anchor : Argument} {k : String}
  {s : StoryCall}

/-- What arguments give for a key. -/
def lastOf (env : Environment) (items : Expr → List Value) (k : String) (as : List Argument) :
    Option Value :=
  (as.flatMap (argumentValues env items)).reverse.findSome? (·.get? k)

lemma lastOf_eq_none_iff : lastOf env items k behind = none ↔ ¬ AnyHas env items k behind := by
  simp [lastOf, AnyHas]

/-- A key is looked for behind an object, then in it, then before it. -/
lemma get?_valueBy (hmerge : Merges merge)
    (harguments : c.arguments = before ++ .plain (.object o) :: behind) (k : String) :
    (c.valueBy merge env items).get? k
      = (lastOf env items k behind).or (((o.value env).get? k).or (lastOf env items k before)) := by
  have hvalue : argumentValues env items (.plain (.object o)) = [o.value env] := rfl
  rw [Call.valueBy, hmerge, harguments, List.flatMap_append, List.flatMap_cons, hvalue,
    List.reverse_append, List.reverse_append, List.findSome?_append, List.findSome?_append,
    Option.or_assoc, List.reverse_singleton, List.findSome?_singleton]
  rfl

lemma findSome?_of_object? (c : Call) :
    c.firstObject? = c.arguments.findSome? Argument.object? := by
  rw [Call.firstObject?]
  congr 1

/-- The properties of a story are the first object literal that the call in their place is given. -/
lemma props?_of_call (hcall : s.call.arguments = anchor :: .plain (.call c) :: rest)
    (harguments : c.arguments = before ++ .plain (.object o) :: behind)
    (hbefore : ∀ a ∈ before, a.object? = none) : s.props? = some o := by
  have hnone : before.findSome? Argument.object? = none := by simpa using hbefore
  rw [StoryCall.props?, hcall]
  dsimp only
  rw [findSome?_of_object?, harguments, List.findSome?_append, hnone]
  rfl

end

/-! ### Entries of objects with additions -/

section

variable {env : Environment} {o : ObjectLiteral} {test : Property → Bool} {name k : String}
  {value : Expr}

lemma get?_put_of_ne (htest : PicksOut test name) (hk : k ≠ name) :
    ((o.put test name value).value env).get? k = (o.value env).get? k := by
  obtain ⟨before, p, behind, hproperties, hp, -, h⟩ | ⟨-, h⟩ := put_cases test name value o
  · have hp' : test (p.withValue value) = true := (htest.withValue p value).trans hp
    rw [h]
    exact ObjectLiteral.get?_value_replace_of_ne hproperties (name?_of_isNamed (htest.named p hp))
      (name?_of_isNamed (htest.named _ hp')) hk
  · rw [h, get?_value_push_entry_of_ne o value hk]

lemma get?_inside_of_ne (change : ObjectLiteral → Noted ObjectLiteral) (hk : k ≠ name) :
    ((ParameterAdditions.inside name change o).value.value env).get? k = (o.value env).get? k := by
  cases h : o.inner? name with
  | none => rw [inside_of_inner?_eq_none h]
  | some inner =>
      rw [inside_of_inner? h]
      exact get?_put_of_ne (picksOut_isNamed name) hk

/-- Nothing behind the last entry of a name gives its key another value. -/
def Script.ObjectLiteral.EntryCounts (env : Environment) (name : String) (o : ObjectLiteral) :
    Prop :=
  ∀ before p behind, splitLast? (·.isEntry name) o.properties = some (before, p, behind) →
    valueIn env name behind = none

/-- Nor is there anything behind an entry of the empty object. -/
lemma entryCounts_objectOf_nil (env : Environment) (name : String) :
    (objectOf []).EntryCounts env name := by
  intro before p behind h
  cases h

/-- The value of an entry is found under its key then. -/
lemma get?_put_isEntry (h : o.EntryCounts env name) (hname : name ≠ prototypeKey) :
    ((o.put (·.isEntry name) name value).value env).get? name = some (value.value env) := by
  obtain ⟨before, p, behind, hproperties, hp, hbehind, hput⟩ | ⟨-, hput⟩ :=
    put_cases (·.isEntry name) name value o
  · have hnone := h before p behind (splitLast?_eq_some_iff.mpr ⟨hproperties, hp, hbehind⟩)
    have hnamed := (picksOut_isEntry name).named p hp
    rw [Property.isEntry, Bool.and_eq_true] at hp
    rw [hput, ObjectLiteral.get?_value_of_split env name rfl, hnone, Option.none_or]
    cases p with
    | keyValue key v =>
        rw [Property.withValue, Property.valueAt_keyValue (name?_of_isNamed hnamed) hname,
          Option.some_or]
    | _ => cases hp.2
  · rw [hput, get?_value_push_entry o value hname]

end

namespace ParameterAdditions

section

variable {env : Environment} {p : ParameterAdditions} {o : ObjectLiteral} {value : Expr}
  {k : String}

/-- Parameters with additions have the value for the runtime. -/
lemma get?_addTo_internalKey (hinternal : p.internal = some value)
    (h : o.EntryCounts env internalKey) :
    ((p.addTo o).value.value env).get? internalKey = some (value.value env) := by
  have hruntime : ((p.runtimeAdded o).value env).get? internalKey = some (value.value env) := by
    rw [runtimeAdded, hinternal, Option.elim_some, setInternal_eq_put]
    exact get?_put_isEntry h (by decide)
  rw [addTo_eq]
  cases p.description with
  | none => exact hruntime
  | some described =>
      rw [Option.elim_some, addDescription, get?_inside_of_ne _ (by decide)]
      exact hruntime

/-- Only the parameters of an object change. -/
lemma get?_addToOwner_of_ne (p : ParameterAdditions) (o : ObjectLiteral) (hk : k ≠ parametersKey) :
    ((p.addToOwner o).value.value env).get? k = (o.value env).get? k := by
  rw [addToOwner_value]
  split_ifs
  · rfl
  obtain ⟨-, h⟩ | ⟨before, property, behind, hproperties, hnamed, -, ⟨-, h⟩ | ⟨base, -, h⟩⟩ :=
    changeParameters_cases (fun base => (p.addTo base).value) o
  · rw [h, get?_value_push_entry_of_ne o _ hk]
  · rw [h]
  · have hname := name?_of_isNamed hnamed
    rw [h]
    exact ObjectLiteral.get?_value_replace_of_ne hproperties hname (name?_merged hname _) hk

end

/-- An edit writes the parameters that the changed object has, or nothing if the object is kept. -/
def Writes (p : ParameterAdditions) (draft : Draft) (o : ObjectLiteral) : Prop :=
  ((p.editOwner draft o).value = .ok draft ∧ (p.addToOwner o).value = o)
    ∨ ∃ property parameters, (p.addToOwner o).value.last? parametersKey = some property
      ∧ property.value? = some (.object parameters)
      ∧ ((p.editOwner draft o).value = appendProperty draft o (parametersText parameters)
        ∨ ∃ old, o.last? parametersKey = some old
          ∧ (p.editOwner draft o).value
            = draft.overwrite old.target.start old.target.stop (replacement old parameters))

/-- What is added to the parameters of an object counts: no argument behind it has parameters, and
those that are written in it are not taken over by properties that compute theirs. -/
structure Counts (env : Environment) (items : Expr → List Value) (o : ObjectLiteral)
    (behind : List Argument) : Prop where
  /-- No argument behind the object has parameters. -/
  behind : ¬ AnyHas env items parametersKey behind
  /-- The parameters that are written in the object count, and there is a value to extend. -/
  written : ∀ earlier property later,
    splitLast? (·.isNamed parametersKey) o.properties = some (earlier, property, later) →
      valueIn env parametersKey later = none
        ∧ ∃ base, base? property = some base ∧ base.EntryCounts env internalKey

/-- The object that additions go into has the only say in the parameters, and shows what it has. -/
structure Unrivalled (env : Environment) (items : Expr → List Value) (p : ParameterAdditions)
    (before : List Argument) (o : ObjectLiteral) (behind : List Argument) : Prop
    extends Counts env items o behind where
  /-- An argument before the object has parameters only if these are written in the object too. -/
  before : o.last? parametersKey = none → ¬ AnyHas env items parametersKey before
  /-- The objects that a description goes into show whether it is set. -/
  sees : p.Sees env o

section

variable {env : Environment} {items : Expr → List Value} {p : ParameterAdditions}
  {before behind rest : List Argument} {o : ObjectLiteral} {merge : List Value → Value}
  {c patched : Call} {value : Expr} {anchor : Argument} {pair : StoryPair Story StoryCall}

lemma writes (p : ParameterAdditions) (draft : Draft) (o : ObjectLiteral) : p.Writes draft o := by
  obtain ⟨-, hedit, htree⟩ | ⟨-, -, parameters, -, hedit, htree⟩
    | ⟨-, earlier, property, later, parameters, hsplit, -, -, hedit, htree⟩ :=
    p.owner_cases draft o
  · exact Or.inl ⟨hedit, htree⟩
  · have hlast : (p.addToOwner o).value.last? parametersKey
        = some (entry parametersKey (.object parameters)) := by
      rw [htree]
      exact last?_push_of_isNamed (by simp [isNamed_entry])
    exact Or.inr ⟨_, parameters, hlast, rfl, Or.inl hedit⟩
  · obtain ⟨-, hnamed, hlater⟩ := splitLast?_eq_some_iff.mp hsplit
    refine Or.inr ⟨_, parameters, ?_, value?_merged property parameters,
      Or.inr ⟨property, ?_, hedit⟩⟩
    · rw [htree]
      exact lastBy_of_split rfl (isNamed_merged hnamed parameters) hlater
    · exact last?_of_splitLast? hsplit

/-- The object that the additions go into, where they count: an empty one, or what the last property
of the name makes of the parameters. -/
lemma exists_base_of_counts (hinternal : p.internal = some value) (h : Counts env items o behind) :
    ∃ base, base.EntryCounts env internalKey
      ∧ ((p.addToOwner o).value.value env).get? parametersKey
        = some ((p.addTo base).value.value env)
      ∧ (o.last? parametersKey = none ∧ base = objectOf []
        ∨ ∃ property v, o.last? parametersKey = some property ∧ base? property = some base
          ∧ (o.value env).get? parametersKey = some v
          ∧ ∀ k, (base.value env).get? k = v.get? k) := by
  have hempty : p.isEmpty = false := by simp [isEmpty, hinternal]
  have hkey : parametersKey ≠ prototypeKey := by decide
  rw [addToOwner_value, if_neg (by simp [hempty])]
  cases hsplit : splitLast? (·.isNamed parametersKey) o.properties with
  | none =>
      have hlast := last?_eq_none_iff.mpr (splitLast?_eq_none_iff.mp hsplit)
      refine ⟨objectOf [], entryCounts_objectOf_nil env _, ?_, Or.inl ⟨hlast, rfl⟩⟩
      rw [changeParameters, hsplit]
      exact get?_value_push_entry o _ hkey
  | some found =>
      obtain ⟨earlier, property, later⟩ := found
      obtain ⟨hlater, base, hbase, hcounts⟩ := h.written earlier property later hsplit
      obtain ⟨hproperties, hnamed, -⟩ := splitLast?_eq_some_iff.mp hsplit
      obtain ⟨v, hv, hentries⟩ := exists_valueAt_of_base? env (name?_of_isNamed hnamed) hbase
      have hlast := last?_of_splitLast? hsplit
      refine ⟨base, hcounts, ?_, Or.inr ⟨property, v, hlast, hbase, ?_, hentries⟩⟩
      · rw [changeParameters, hsplit]
        simp only [hbase]
        rw [ObjectLiteral.get?_value_of_split env _ rfl, hlater, Option.none_or,
          valueAt_merged env (name?_of_isNamed hnamed), Option.some_or]
      · rw [ObjectLiteral.get?_value_of_split env _ hproperties, hlater, Option.none_or, hv,
          Option.some_or]

/-- The parameters of the merged properties, before and after the additions. -/
lemma mergedInto_of_unrivalled (hinternal : p.internal = some value)
    (h : p.Unrivalled env items before o behind) :
    MergedInto env p
      (((o.value env).get? parametersKey).or (lastOf env items parametersKey before))
      (((p.addToOwner o).value.value env).get? parametersKey) := by
  obtain ⟨hcounts, hbefore, htells, hshown⟩ := h
  obtain ⟨base, -, hafter, ⟨hlast, rfl⟩ | ⟨property, v, hlast, hbase, hv, hentries⟩⟩ :=
    exists_base_of_counts hinternal hcounts
  · rw [hafter, htells hlast, lastOf_eq_none_iff.mpr (hbefore hlast)]
    exact (mergedInto_addTo fun _ _ _ => shows_objectOf_nil env _).of_get?_eq fun _ => rfl
  · rw [hafter, hv, Option.some_or]
    exact (mergedInto_addTo (hshown property base hlast hbase)).of_get?_eq hentries

/-- **Additions to merged properties.** They go into the first object literal. If what is added to
it counts, then the merged properties have the value for the runtime; if no other argument and no
other property has a say in the parameters, then all that the author has set is kept. If an argument
behind the object has parameters, these stay as they are, without the additions. -/
theorem mergedProps_patched (hmerge : Merges merge)
    (hcall : pair.compiled.call.arguments = anchor :: .plain (.call c) :: rest)
    (harguments : c.arguments = before ++ .plain (.object o) :: behind)
    (hbefore : ∀ a ∈ before, a.object? = none)
    (hpatched : patched.arguments
      = before ++ .plain (.object (pair.source.additions.addToOwner o).value) :: behind)
    (env : Environment) (items : Expr → List Value) :
    pair.compiled.props? = some o
      ∧ (∀ draft, pair.source.additions.Writes draft o)
      ∧ (∀ k, k ≠ parametersKey →
        (patched.valueBy merge env items).get? k = (c.valueBy merge env items).get? k)
      ∧ (Counts env items o behind →
        (patched.valueBy merge env items).under [parametersKey, internalKey]
          = some ((Expr.object pair.source.internalParameter).value env))
      ∧ (pair.source.additions.Unrivalled env items before o behind →
        pair.source.additions.Kept env (c.valueBy merge env items)
          (patched.valueBy merge env items))
      ∧ (AnyHas env items parametersKey behind →
        (patched.valueBy merge env items).get? parametersKey
          = (c.valueBy merge env items).get? parametersKey) := by
  have hinternal : pair.source.additions.internal
      = some (.object pair.source.internalParameter) := rfl
  have helsewhere : ∀ k, k ≠ parametersKey →
      (patched.valueBy merge env items).get? k = (c.valueBy merge env items).get? k := by
    intro k hk
    rw [get?_valueBy hmerge hpatched, get?_valueBy hmerge harguments, get?_addToOwner_of_ne _ o hk]
  refine ⟨props?_of_call hcall harguments hbefore, fun draft => writes _ draft o, helsewhere,
    fun h => ?_, fun h => ?_, fun hbehind => ?_⟩
  · obtain ⟨base, hcounts, hafter, -⟩ := exists_base_of_counts hinternal h
    rw [Value.under, get?_valueBy hmerge hpatched, lastOf_eq_none_iff.mpr h.behind, Option.none_or,
      hafter, Option.some_or, Option.bind_some, Value.under, get?_addTo_internalKey rfl hcounts]
    rfl
  · obtain ⟨base, -, hafter, -⟩ := exists_base_of_counts hinternal h.toCounts
    have hmerged := mergedInto_of_unrivalled hinternal h
    refine Kept.of_mergedInto helsewhere ?_
    rw [get?_valueBy hmerge hpatched, get?_valueBy hmerge harguments,
      lastOf_eq_none_iff.mpr h.behind, Option.none_or, Option.none_or, hafter, Option.some_or]
    rwa [hafter] at hmerged
  · obtain ⟨v, hv⟩ := Option.ne_none_iff_exists'.mp
      fun hnone => lastOf_eq_none_iff.mp hnone hbehind
    rw [get?_valueBy hmerge hpatched, get?_valueBy hmerge harguments, hv, Option.some_or,
      Option.some_or]

end

/-! ### A call with several objects -/

/-- All entries of some values, one value after the other. -/
def mergeInOrder (vs : List Value) : Value :=
  .mk .object (vs.flatMap (·.entries))

lemma merges_mergeInOrder : Merges mergeInOrder := by
  intro vs k
  rw [mergeInOrder, Value.get?, Value.entries]
  induction vs with
  | nil => rfl
  | cons v vs ih =>
      rw [List.flatMap_cons, lookup_reverse_append, ih, List.reverse_cons, List.findSome?_append,
        List.findSome?_singleton]
      rfl

/-- A name for a story. -/
def nameProps : ObjectLiteral :=
  objectOf [entry "name" (stringExpr "A")]

/-- Parameters for a story. -/
def layoutProps : ObjectLiteral :=
  objectOf [entry parametersKey (.object (objectOf [entry "layout" (stringExpr "centered")]))]

/-- A call that merges properties. -/
def spreadProps (arguments : List Argument) : Call :=
  ⟨nowhere, .member nowhere (nameExpr "$") (.name "spread_props"), [], arguments⟩

/-- A story, and a call that renders it with merged properties. -/
def spreadStory (arguments : List Argument) : StoryPair Story StoryCall where
  index := 0
  source := ⟨⟨⟨⟨0, 9⟩, .component, "Story".toList, [], ⟨⟨9, 9⟩, []⟩, true⟩, none⟩,
    ⟨⟨"A", "A"⟩, none, none⟩, "<A />".toList, none⟩
  compiled := ⟨⟨nowhere, nameExpr "Story", [],
    [.plain (nameExpr "node"), .plain (.call (spreadProps arguments))]⟩, false⟩

/-- An object between two values without parameters. -/
def inRests (o : ObjectLiteral) : List Argument :=
  [Argument.plain (nameExpr "rest")] ++ Argument.plain (.object o) :: [.plain (nameExpr "rest")]

lemma unrivalled_layoutProps :
    (spreadStory (inRests layoutProps)).source.additions.Unrivalled authorValues (fun _ => [])
      [.plain (nameExpr "rest")] layoutProps [.plain (nameExpr "rest")] := by
  refine ⟨⟨lastOf_eq_none_iff.mp rfl, ?_⟩, fun _ => lastOf_eq_none_iff.mp rfl, nofun, ?_⟩
  · intro earlier property later hsplit
    cases hsplit
    exact ⟨rfl, _, rfl, nofun⟩
  · intro property base hlast hbase about text hdescription
    cases hdescription

/-- The theorem at parameters that are merged with two values without any. -/
theorem layoutProps_patched :
    (spreadStory (inRests layoutProps)).compiled.props? = some layoutProps
      ∧ ((spreadProps (inRests ((spreadStory (inRests layoutProps)).source.additions.addToOwner
          layoutProps).value)).valueBy mergeInOrder authorValues fun _ => []).under
            [parametersKey, internalKey]
        = some ((Expr.object (spreadStory (inRests layoutProps)).source.internalParameter).value
            authorValues)
      ∧ ((spreadProps (inRests ((spreadStory (inRests layoutProps)).source.additions.addToOwner
          layoutProps).value)).valueBy mergeInOrder authorValues fun _ => []).under
            [parametersKey, "layout"]
        = ((spreadProps (inRests layoutProps)).valueBy mergeInOrder authorValues fun _ => []).under
            [parametersKey, "layout"] := by
  have hcall : (spreadStory (inRests layoutProps)).compiled.call.arguments
      = .plain (nameExpr "node") :: .plain (.call (spreadProps (inRests layoutProps))) :: [] := rfl
  have harguments (o : ObjectLiteral) : (spreadProps (inRests o)).arguments
      = [Argument.plain (nameExpr "rest")]
        ++ Argument.plain (.object o) :: [.plain (nameExpr "rest")] := rfl
  obtain ⟨hprops, -, -, hcounts, hkept, -⟩ := mergedProps_patched merges_mergeInOrder hcall
    (harguments layoutProps) (by decide) (harguments _) authorValues fun _ => []
  exact ⟨hprops, hcounts unrivalled_layoutProps.toCounts,
    (hkept unrivalled_layoutProps).parameters "layout" (by decide) (by decide)⟩

/-- Parameters in a later argument take the place of those that were added. -/
theorem laterParameters_lost :
    Merges mergeInOrder
      ∧ (spreadStory [.plain (.object nameProps), .plain (.object layoutProps)]).compiled.props?
        = some nameProps
      ∧ (((spreadProps [.plain (.object nameProps), .plain (.object layoutProps)]).valueBy
          mergeInOrder authorValues fun _ => []).under [parametersKey, "layout"]).bind (·.text?)
        = some "centered"
      ∧ ((spreadProps [
          .plain (.object ((spreadStory []).source.additions.addToOwner nameProps).value),
          .plain (.object layoutProps)]).valueBy mergeInOrder authorValues fun _ => []).under
            [parametersKey, internalKey]
        ≠ some ((Expr.object (spreadStory []).source.internalParameter).value authorValues) := by
  refine ⟨merges_mergeInOrder, rfl, by decide +kernel, ?_⟩
  have hlost : ((spreadProps [
      .plain (.object ((spreadStory []).source.additions.addToOwner nameProps).value),
      .plain (.object layoutProps)]).valueBy mergeInOrder authorValues fun _ => []).under
        [parametersKey, internalKey] = none := rfl
  rw [hlost]
  exact nofun

end ParameterAdditions

end SvelteStories

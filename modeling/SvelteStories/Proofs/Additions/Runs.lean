/-
Additions that are made one after the other:

* `ObjectLiteral.put`: an object in which the last property that a test picks out has another value,
  or which got a new property if there was none. All that additions do to an object is to put;
* `KeepsOthers`: an object that is the same but for the properties that are put;
* `ObjectLiteral.descriptions?`: the object that descriptions go into;
* `ParameterAdditions.AddedAll`: what a run of additions makes of parameters: the last value for the
  runtime counts, and of the descriptions of each thing the first one;
* `addAll_spec`: this is what runs make of parameters, and of the objects that own them.
-/
import Mathlib.Data.List.Induction
import SvelteStories.Proofs.Additions.Kept

namespace SvelteStories

open Script

/-! ### Lists without a last element -/

section

variable {α : Type} {test test' : α → Bool} {l before behind : List α} {a b : α}

/-- A list without the last element that satisfies a test. -/
def eraseLast (test : α → Bool) (l : List α) : List α :=
  (l.reverse.eraseP test).reverse

lemma eraseLast_of_forall (h : ∀ a ∈ l, test a = false) : eraseLast test l = l := by
  rw [eraseLast, List.eraseP_of_forall_not (by simpa using h), List.reverse_reverse]

lemma eraseLast_of_split (ha : test a = true) (hbehind : ∀ b ∈ behind, test b = false) :
    eraseLast test (before ++ a :: behind) = before ++ behind := by
  have hnone : ∀ b ∈ behind.reverse, ¬ test b = true := by simpa using hbehind
  rw [eraseLast, List.reverse_append, List.reverse_cons, List.append_assoc,
    List.eraseP_append_right _ hnone]
  simp [ha]

/-- Elements are taken out in any order, as long as no element is taken out for two reasons. -/
lemma eraseLast_comm (h : ∀ a, ¬ (test a = true ∧ test' a = true)) (l : List α) :
    eraseLast test (eraseLast test' l) = eraseLast test' (eraseLast test l) := by
  have hor : ∀ a ∈ l.reverse, ¬ test' a = true ∨ ¬ test a = true := fun a _ =>
    not_and_or.mp fun hboth => h a ⟨hboth.2, hboth.1⟩
  rw [eraseLast, eraseLast, eraseLast, eraseLast, List.reverse_reverse, List.reverse_reverse,
    List.eraseP_comm hor]

end

/-! ### Putting a value -/

/-- A test that picks out properties of a name. -/
structure PicksOut (test : Property → Bool) (name : String) : Prop where
  /-- All of them have the name. -/
  named : ∀ p, test p = true → p.isNamed name = true
  /-- The value does not matter. -/
  withValue : ∀ p value, test (p.withValue value) = test p
  /-- Properties with a key and a value are among them. -/
  entry : ∀ value, test (Script.entry name value) = true

/-- The properties of a name that are written with a value. -/
lemma picksOut_isEntry (name : String) : PicksOut (·.isEntry name) name := by
  refine ⟨fun p hp => ?_, fun p value => ?_, fun value => ?_⟩
  · rw [Property.isEntry, Bool.and_eq_true] at hp
    exact hp.1
  · cases p <;> rfl
  · rw [Property.isEntry, isNamed_entry]
    simp [Script.entry, Property.value?]

/-- All properties of a name. -/
lemma picksOut_isNamed (name : String) : PicksOut (·.isNamed name) name :=
  ⟨fun _ hp => hp, fun p value => isNamed_withValue value p, fun value => by simp [isNamed_entry]⟩

/-- The last property that satisfies a test. -/
def Script.ObjectLiteral.lastBy (test : Property → Bool) (o : ObjectLiteral) : Option Property :=
  o.properties.reverse.find? test

/-- An object in which the last property that satisfies a test has another value. If there is none,
a property of the name is added. -/
def Script.ObjectLiteral.put (test : Property → Bool) (name : String) (value : Expr)
    (o : ObjectLiteral) : ObjectLiteral :=
  match splitLast? test o.properties with
  | some (before, p, behind) => { o with properties := before ++ p.withValue value :: behind }
  | none => o.push (entry name value)

/-- An object is the same but for the last properties that satisfy some tests: these may have
another value, or have been added behind all others. -/
structure KeepsOthers (tests : List (Property → Bool)) (o o' : ObjectLiteral) : Prop where
  /-- The place of the object. -/
  span : o'.span = o.span
  /-- The names stay where they are. -/
  names : o.properties.map (·.name?) <+: o'.properties.map (·.name?)
  /-- The other properties are kept in their order. -/
  others : tests.foldr eraseLast o'.properties = tests.foldr eraseLast o.properties

section

variable {test test' : Property → Bool} {name : String} {o o' : ObjectLiteral} {p : Property}
  {value value' : Expr} {before behind : List Property} {tests : List (Property → Bool)}

lemma KeepsOthers.refl (tests : List (Property → Bool)) (o : ObjectLiteral) :
    KeepsOthers tests o o :=
  ⟨rfl, List.prefix_rfl, rfl⟩

lemma KeepsOthers.trans {o'' : ObjectLiteral} (h : KeepsOthers tests o o')
    (h' : KeepsOthers tests o' o'') : KeepsOthers tests o o'' :=
  ⟨h'.span.trans h.span, h.names.trans h'.names, h'.others.trans h.others⟩

/-- More may change. -/
lemma KeepsOthers.cons (h : KeepsOthers tests o o') (test : Property → Bool) :
    KeepsOthers (test :: tests) o o' :=
  ⟨h.span, h.names, congrArg (eraseLast test) h.others⟩

lemma KeepsOthers.swap (htests : ∀ p, ¬ (test p = true ∧ test' p = true))
    (h : KeepsOthers [test', test] o o') : KeepsOthers [test, test'] o o' := by
  refine ⟨h.span, h.names, ?_⟩
  have hothers := h.others
  simp only [List.foldr_cons, List.foldr_nil] at hothers ⊢
  rw [eraseLast_comm htests, hothers, eraseLast_comm htests]

lemma name?_withValue (value : Expr) (p : Property) : (p.withValue value).name? = p.name? := by
  cases p <;> rfl

/-- What is put replaces the value of a property, or is put behind all properties. -/
lemma put_cases (test : Property → Bool) (name : String) (value : Expr) (o : ObjectLiteral) :
    (∃ before p behind, o.properties = before ++ p :: behind ∧ test p = true
        ∧ (∀ q ∈ behind, test q = false)
        ∧ o.put test name value = { o with properties := before ++ p.withValue value :: behind })
      ∨ (∀ p ∈ o.properties, test p = false)
        ∧ o.put test name value = o.push (entry name value) := by
  rw [ObjectLiteral.put]
  cases hsplit : splitLast? test o.properties with
  | none => exact Or.inr ⟨splitLast?_eq_none_iff.mp hsplit, rfl⟩
  | some found =>
      obtain ⟨before, p, behind⟩ := found
      obtain ⟨hproperties, hp, hbehind⟩ := splitLast?_eq_some_iff.mp hsplit
      exact Or.inl ⟨before, p, behind, hproperties, hp, hbehind, rfl⟩

lemma put_of_split (hproperties : o.properties = before ++ p :: behind) (hp : test p = true)
    (hbehind : ∀ q ∈ behind, test q = false) :
    o.put test name value = { o with properties := before ++ p.withValue value :: behind } := by
  rw [ObjectLiteral.put, splitLast?_eq_some_iff.mpr ⟨hproperties, hp, hbehind⟩]

lemma lastBy_of_split (hproperties : o.properties = before ++ p :: behind) (hp : test p = true)
    (hbehind : ∀ q ∈ behind, test q = false) : o.lastBy test = some p := by
  have hnone : behind.reverse.find? test = none := by simpa using hbehind
  rw [ObjectLiteral.lastBy, hproperties]
  simp [List.find?_append, hnone, hp]

lemma lastBy_eq_none_iff : o.lastBy test = none ↔ ∀ p ∈ o.properties, test p = false := by
  simp [ObjectLiteral.lastBy]

/-- The last property that satisfies a test, with what stands around it. -/
lemma exists_split_of_lastBy (h : o.lastBy test = some p) :
    ∃ before behind, o.properties = before ++ p :: behind ∧ test p = true
      ∧ ∀ q ∈ behind, test q = false := by
  cases hsplit : splitLast? test o.properties with
  | none =>
      rw [lastBy_eq_none_iff.mpr (splitLast?_eq_none_iff.mp hsplit)] at h
      cases h
  | some found =>
      obtain ⟨before, q, behind⟩ := found
      obtain ⟨hproperties, hq, hbehind⟩ := splitLast?_eq_some_iff.mp hsplit
      obtain rfl := Option.some.inj ((lastBy_of_split hproperties hq hbehind).symm.trans h)
      exact ⟨before, behind, hproperties, hq, hbehind⟩

/-- What has been put last counts. -/
lemma put_put (htest : PicksOut test name) :
    (o.put test name value).put test name value' = o.put test name value' := by
  obtain ⟨before, p, behind, hproperties, hp, hbehind, h⟩ | ⟨hnone, h⟩ :=
    put_cases test name value o
  · have hp' : test (p.withValue value) = true := (htest.withValue p value).trans hp
    rw [h, put_of_split rfl hp' hbehind, put_of_split hproperties hp hbehind]
    cases p <;> rfl
  · have hpush : (o.push (entry name value)).properties
        = o.properties ++ entry name value :: [] := rfl
    rw [h, put_of_split hpush (htest.entry value) (by simp), ObjectLiteral.put,
      splitLast?_eq_none_iff.mpr hnone]
    rfl

/-- Nothing changes where a value is put that is there already. -/
lemma put_eq_self (h : o.lastBy test = some p) (hvalue : p.value? = some value) :
    o.put test name value = o := by
  obtain ⟨before, behind, hproperties, hp, hbehind⟩ := exists_split_of_lastBy h
  rw [put_of_split hproperties hp hbehind]
  cases p with
  | keyValue key v =>
      obtain rfl : v = value := Option.some.inj hvalue
      rw [Property.withValue, ← hproperties]
      cases o
      rfl
  | _ => cases hvalue

/-- A value that is put is found again, unless the property computes its value. -/
lemma lastBy_put (value : Expr) (htest : PicksOut test name)
    (hvalue : ∀ p, o.lastBy test = some p → p.value?.isSome = true) :
    ∃ p, (o.put test name value).lastBy test = some p ∧ p.value? = some value := by
  obtain ⟨before, p, behind, hproperties, hp, hbehind, h⟩ | ⟨-, h⟩ := put_cases test name value o
  · have hp' : test (p.withValue value) = true := (htest.withValue p value).trans hp
    refine ⟨p.withValue value, h ▸ lastBy_of_split rfl hp' hbehind, ?_⟩
    have hsome := hvalue p (lastBy_of_split hproperties hp hbehind)
    cases p with
    | keyValue key v => rfl
    | _ => cases hsome
  · refine ⟨entry name value, ?_, rfl⟩
    rw [h, ObjectLiteral.lastBy]
    simp [ObjectLiteral.push, htest.entry]

lemma lastBy_put_of_disjoint (htests : ∀ p, ¬ (test p = true ∧ test' p = true))
    (htest : PicksOut test name) : (o.put test name value).lastBy test' = o.lastBy test' := by
  have hother : ∀ p, test p = true → test' p = false := fun p hp =>
    Bool.eq_false_iff.mpr fun hp' => htests p ⟨hp, hp'⟩
  obtain ⟨before, p, behind, hproperties, hp, -, h⟩ | ⟨-, h⟩ := put_cases test name value o
  · have hp' := hother _ ((htest.withValue p value).trans hp)
    rw [h, ObjectLiteral.lastBy, ObjectLiteral.lastBy, hproperties]
    simp [List.find?_append, hother p hp, hp']
  · rw [h, ObjectLiteral.lastBy, ObjectLiteral.lastBy]
    simp [ObjectLiteral.push, hother _ (htest.entry value)]

lemma countP_put (htest : PicksOut test name) :
    (o.put test name value).properties.countP test = max (o.properties.countP test) 1 := by
  obtain ⟨before, p, behind, hproperties, hp, -, h⟩ | ⟨hnone, h⟩ := put_cases test name value o
  · have hp' : test (p.withValue value) = true := (htest.withValue p value).trans hp
    rw [h, hproperties]
    simp only [List.countP_append, List.countP_cons, hp, hp', if_true]
    omega
  · have hzero : o.properties.countP test = 0 := List.countP_eq_zero.mpr (by simpa using hnone)
    rw [h, ObjectLiteral.push, List.countP_append, hzero]
    simp [htest.entry]

lemma countP_put_of_disjoint (htests : ∀ p, ¬ (test p = true ∧ test' p = true))
    (htest : PicksOut test name) :
    (o.put test name value).properties.countP test' = o.properties.countP test' := by
  have hother : ∀ p, test p = true → test' p = false := fun p hp =>
    Bool.eq_false_iff.mpr fun hp' => htests p ⟨hp, hp'⟩
  obtain ⟨before, p, behind, hproperties, hp, -, h⟩ | ⟨-, h⟩ := put_cases test name value o
  · have hp' := hother _ ((htest.withValue p value).trans hp)
    rw [h, hproperties]
    simp [List.countP_append, hother p hp, hp']
  · rw [h, ObjectLiteral.push, List.countP_append]
    simp [hother _ (htest.entry value)]

/-- Where a value is put, all other properties are kept. -/
lemma keepsOthers_put (htest : PicksOut test name) :
    KeepsOthers [test] o (o.put test name value) := by
  obtain ⟨before, p, behind, hproperties, hp, hbehind, h⟩ | ⟨hnone, h⟩ :=
    put_cases test name value o
  · have hp' : test (p.withValue value) = true := (htest.withValue p value).trans hp
    rw [h]
    refine ⟨rfl, ?_, ?_⟩
    · rw [hproperties]
      simp [name?_withValue]
    · simp only [List.foldr_cons, List.foldr_nil, hproperties]
      rw [eraseLast_of_split hp' hbehind, eraseLast_of_split hp hbehind]
  · rw [h]
    refine ⟨rfl, by simp [ObjectLiteral.push], ?_⟩
    simp only [List.foldr_cons, List.foldr_nil, ObjectLiteral.push]
    rw [eraseLast_of_split (htest.entry value) (by simp), eraseLast_of_forall hnone,
      List.append_nil]

end

/-! ### Objects in objects -/

/-- The object under a name: an empty one if there is no property of the name, and none if the last
one holds anything but an object literal. -/
def Script.ObjectLiteral.inner? (name : String) (o : ObjectLiteral) : Option ObjectLiteral :=
  match o.last? name with
  | none => some (objectOf [])
  | some (.keyValue _ (.object inner)) => some inner
  | some _ => none

/-- The object that descriptions go into. -/
def Script.ObjectLiteral.descriptions? (o : ObjectLiteral) : Option ObjectLiteral :=
  (o.inner? "docs").bind (·.inner? "description")

section

variable {o : ObjectLiteral} {name : String} {inner : ObjectLiteral} {p : Property}
  {change : ObjectLiteral → Noted ObjectLiteral}

lemma inner?_of_value? (h : o.last? name = some p) (hvalue : p.value? = some (.object inner)) :
    o.inner? name = some inner := by
  rw [ObjectLiteral.inner?, h]
  cases p with
  | keyValue key v =>
      obtain rfl : v = .object inner := Option.some.inj hvalue
      rfl
  | _ => cases hvalue

/-- Where there is an object under a name, its property has a value. -/
lemma isSome_value?_of_inner? (h : o.inner? name = some inner) (hp : o.last? name = some p) :
    p.value?.isSome = true := by
  rw [ObjectLiteral.inner?, hp] at h
  cases p with
  | keyValue key v => rfl
  | _ => cases h

lemma inner?_put (h : o.inner? name = some inner) (d : ObjectLiteral) :
    (o.put (·.isNamed name) name (.object d)).inner? name = some d := by
  obtain ⟨p, hp, hvalue⟩ := lastBy_put (.object d) (picksOut_isNamed name)
    (fun _ hp => isSome_value?_of_inner? h hp)
  exact inner?_of_value? hp hvalue

/-- A change inside of an object puts the changed object, if there is one. -/
lemma inside_of_inner? (h : o.inner? name = some inner) :
    ParameterAdditions.inside name change o
      = ⟨o.put (·.isNamed name) name (.object (change inner).value), (change inner).notices⟩ := by
  rw [ParameterAdditions.inside, ObjectLiteral.put]
  cases hsplit : splitLast? (·.isNamed name) o.properties with
  | none =>
      rw [ObjectLiteral.inner?, last?_eq_none_iff.mpr (splitLast?_eq_none_iff.mp hsplit)] at h
      obtain rfl := Option.some.inj h
      rfl
  | some found =>
      obtain ⟨before, p, behind⟩ := found
      rw [ObjectLiteral.inner?, last?_of_splitLast? hsplit] at h
      cases p with
      | keyValue key value =>
          cases value with
          | object d =>
              obtain rfl := Option.some.inj h
              rfl
          | _ => cases h
      | _ => cases h

lemma inside_of_inner?_eq_none (h : o.inner? name = none) :
    (ParameterAdditions.inside name change o).value = o := by
  rw [ParameterAdditions.inside]
  cases hsplit : splitLast? (·.isNamed name) o.properties with
  | none =>
      rw [ObjectLiteral.inner?, last?_eq_none_iff.mpr (splitLast?_eq_none_iff.mp hsplit)] at h
      cases h
  | some found =>
      obtain ⟨before, p, behind⟩ := found
      rw [ObjectLiteral.inner?, last?_of_splitLast? hsplit] at h
      cases p with
      | keyValue key value =>
          cases value with
          | object inner => cases h
          | _ => rfl
      | _ => rfl

/-- A change that is made twice inside of an object is the same as one that is made once, if this is
so for the object inside. -/
lemma inside_inside (hchange : ∀ d, (change (change d).value).value = (change d).value)
    (o : ObjectLiteral) :
    (ParameterAdditions.inside name change (ParameterAdditions.inside name change o).value).value
      = (ParameterAdditions.inside name change o).value := by
  cases h : o.inner? name with
  | none => rw [inside_of_inner?_eq_none h, inside_of_inner?_eq_none h]
  | some inner =>
      rw [inside_of_inner? h]
      dsimp only
      rw [inside_of_inner? (inner?_put h _), hchange]
      exact put_put (picksOut_isNamed name)

lemma keepsOthers_inside (name : String) (change : ObjectLiteral → Noted ObjectLiteral)
    (o : ObjectLiteral) :
    KeepsOthers [(·.isNamed name)] o (ParameterAdditions.inside name change o).value := by
  cases h : o.inner? name with
  | none =>
      rw [inside_of_inner?_eq_none h]
      exact KeepsOthers.refl _ o
  | some inner =>
      rw [inside_of_inner? h]
      exact keepsOthers_put (picksOut_isNamed name)

end

/-- What becomes of the last property of a name: the objects under it are related, and anything but
an object literal is kept. -/
structure ChangedInside (name : String) (R : ObjectLiteral → ObjectLiteral → Prop)
    (o o' : ObjectLiteral) : Prop where
  /-- What is no object literal is kept. -/
  kept : o.inner? name = none → o'.last? name = o.last? name
  /-- The objects. -/
  related : ∀ inner, o.inner? name = some inner →
    ∃ inner', o'.inner? name = some inner' ∧ R inner inner'

section

variable {o o' o'' : ObjectLiteral} {name : String} {R R' : ObjectLiteral → ObjectLiteral → Prop}
  {change : ObjectLiteral → Noted ObjectLiteral}

lemma inner?_congr (h : o'.last? name = o.last? name) : o'.inner? name = o.inner? name := by
  rw [ObjectLiteral.inner?, ObjectLiteral.inner?, h]

lemma changedInside_refl (hR : ∀ inner, R inner inner) (o : ObjectLiteral) :
    ChangedInside name R o o :=
  ⟨fun _ => rfl, fun inner h => ⟨inner, h, hR inner⟩⟩

/-- Only the last property of the name counts. -/
lemma ChangedInside.of_last?_eq (h : ChangedInside name R o o')
    (hlast : o''.last? name = o'.last? name) : ChangedInside name R o o'' := by
  obtain ⟨hkept, hrelated⟩ := h
  refine ⟨fun hnone => hlast.trans (hkept hnone), fun inner hinner => ?_⟩
  rw [inner?_congr hlast]
  exact hrelated inner hinner

/-- One more change inside of an object. -/
lemma ChangedInside.inside (h : ChangedInside name R o o')
    (hchange : ∀ inner inner', R inner inner' → R' inner (change inner').value) :
    ChangedInside name R' o (ParameterAdditions.inside name change o').value := by
  obtain ⟨hkept, hrelated⟩ := h
  refine ⟨fun hnone => ?_, fun inner hinner => ?_⟩
  · have hnone' := (inner?_congr (hkept hnone)).trans hnone
    rw [inside_of_inner?_eq_none hnone', hkept hnone]
  · obtain ⟨inner', hinner', hR⟩ := hrelated inner hinner
    rw [inside_of_inner? hinner']
    exact ⟨_, inner?_put hinner' _, hchange inner inner' hR⟩

end

/-! ### The same additions twice -/

namespace ParameterAdditions

section

variable {o : ObjectLiteral} {p : ParameterAdditions} {about : Described} {text : String}

lemma setInternal_eq_put (value : Expr) (o : ObjectLiteral) :
    setInternal value o = o.put (·.isEntry internalKey) internalKey value :=
  rfl

/-- The value for the runtime is no documentation. -/
lemma not_isEntry_and_isNamed (p : Property) :
    ¬ (p.isEntry internalKey = true ∧ p.isNamed "docs" = true) := by
  rintro ⟨hentry, hdocs⟩
  have hnamed := (picksOut_isEntry internalKey).named p hentry
  rw [isNamed_of_ne hnamed (by decide)] at hdocs
  cases hdocs

lemma isSome_value?_of_lastBy {q : Property} (h : o.lastBy (·.isEntry internalKey) = some q) :
    q.value?.isSome = true := by
  have hentry := List.find?_some h
  rw [Property.isEntry, Bool.and_eq_true] at hentry
  exact hentry.2

lemma lastBy_addDescription (about : Described) (text : String) (o : ObjectLiteral) :
    (addDescription about text o).value.lastBy (·.isEntry internalKey)
      = o.lastBy (·.isEntry internalKey) := by
  rw [addDescription]
  cases h : o.inner? "docs" with
  | none => rw [inside_of_inner?_eq_none h]
  | some docs =>
      rw [inside_of_inner? h]
      exact lastBy_put_of_disjoint (fun q hq => not_isEntry_and_isNamed q hq.symm)
        (picksOut_isNamed "docs")

lemma describe_describe (about : Described) (text : String) (o : ObjectLiteral) :
    (describe about text (describe about text o).value).value = (describe about text o).value := by
  have hany : (describe about text o).value.properties.any (·.isNamed about.key) = true := by
    rw [describe]
    split_ifs with hany
    · exact hany
    · simp [ObjectLiteral.push, isNamed_entry]
  rw [describe, if_pos hany]

lemma addDescription_addDescription (about : Described) (text : String) (o : ObjectLiteral) :
    (addDescription about text (addDescription about text o).value).value
      = (addDescription about text o).value :=
  inside_inside (inside_inside (describe_describe about text)) o

lemma runtimeAdded_addTo (p : ParameterAdditions) (o : ObjectLiteral) :
    p.runtimeAdded (p.addTo o).value = (p.addTo o).value := by
  rw [runtimeAdded]
  cases hinternal : p.internal with
  | none => rfl
  | some value =>
      have hlast : (p.addTo o).value.lastBy (·.isEntry internalKey)
          = (p.runtimeAdded o).lastBy (·.isEntry internalKey) := by
        rw [addTo_eq]
        cases p.description with
        | none => rfl
        | some described => exact lastBy_addDescription described.1 described.2 _
      rw [runtimeAdded, hinternal, Option.elim_some, setInternal_eq_put] at hlast
      obtain ⟨q, hq, hvalue⟩ := lastBy_put value (picksOut_isEntry internalKey)
        (fun _ => isSome_value?_of_lastBy (o := o))
      exact put_eq_self (hlast.trans hq) hvalue

/-- The same additions change nothing the second time. -/
lemma addTo_addTo (p : ParameterAdditions) (o : ObjectLiteral) :
    (p.addTo (p.addTo o).value).value = (p.addTo o).value := by
  rw [addTo_eq p (p.addTo o).value, runtimeAdded_addTo]
  cases hdescription : p.description with
  | none => rfl
  | some described =>
      rw [Option.elim_some, addTo_eq, hdescription, Option.elim_some]
      exact addDescription_addDescription described.1 described.2 _

end

/-! ### Descriptions of a run -/

/-- A description object got the first description of each thing that it has no property for. -/
def TextsAdded (descriptions : List (Described × String)) (o o' : ObjectLiteral) : Prop :=
  ∃ created : List (Described × String), created.Sublist descriptions
    ∧ (created.map (·.1)).Nodup
    ∧ (∀ about text, (about, text) ∈ created
        ↔ o.last? about.key = none ∧ descriptions.lookup about = some text)
    ∧ o'.span = o.span
    ∧ o'.properties = o.properties
        ++ created.map fun described => entry described.1.key (stringExpr described.2)

section

variable {descriptions created : List (Described × String)} {o o' : ObjectLiteral}
  {about : Described} {text : String}

lemma key_injective : Function.Injective Described.key := by
  intro about about' h
  cases about <;> cases about' <;> first | rfl | exact absurd h (by decide)

lemma lookup_concat (descriptions : List (Described × String)) (about : Described) (text : String)
    (about' : Described) :
    (descriptions ++ [(about, text)]).lookup about'
      = (descriptions.lookup about').or (if about' = about then some text else none) := by
  rw [List.lookup_append, List.lookup_cons, List.lookup_nil]
  by_cases h : about' = about
  · rw [if_pos h, beq_iff_eq.mpr h]
  · rw [if_neg h, beq_eq_false_iff_ne.mpr h]

/-- A description object has a property for what it had one for, and for what the run has added. -/
lemma any_isNamed_iff (about : Described)
    (h : o'.properties = o.properties
      ++ created.map fun described => entry described.1.key (stringExpr described.2)) :
    o'.properties.any (·.isNamed about.key) = true
      ↔ o.last? about.key ≠ none ∨ about ∈ created.map (·.1) := by
  have hcreated : (created.map fun described =>
      entry described.1.key (stringExpr described.2)).any (·.isNamed about.key) = true
        ↔ about ∈ created.map (·.1) := by
    simp [isNamed_entry, key_injective.eq_iff]
  rw [h, List.any_append, Bool.or_eq_true, hcreated, Ne, last?_eq_none_iff]
  simp

lemma textsAdded_nil (o : ObjectLiteral) : TextsAdded [] o o :=
  ⟨[], List.Sublist.refl _, List.nodup_nil, by simp, rfl, by simp⟩

/-- One more description. -/
lemma TextsAdded.describe (h : TextsAdded descriptions o o') (about : Described) (text : String) :
    TextsAdded (descriptions ++ [(about, text)]) o
      (ParameterAdditions.describe about text o').value := by
  obtain ⟨created, hsublist, hnodup, hmem, hspan, hproperties⟩ := h
  have hset := any_isNamed_iff about hproperties
  rw [ParameterAdditions.describe]
  split_ifs with hany
  · -- there is a property for it, from the author or from the run
    refine ⟨created, hsublist.trans (List.sublist_append_left _ _), hnodup, ?_, hspan, hproperties⟩
    intro about' text'
    rw [hmem, lookup_concat]
    by_cases habout : about' = about
    · subst habout
      obtain hlast | hfirst := hset.mp hany
      · simp [hlast]
      · obtain ⟨⟨_, first⟩, hcreated, rfl⟩ := List.mem_map.mp hfirst
        rw [((hmem _ _).mp hcreated).2, Option.some_or]
    · rw [if_neg habout, Option.or_none]
  · obtain ⟨hlast, hnew⟩ := not_or.mp (mt hset.mpr hany)
    have hlast : o.last? about.key = none := not_not.mp hlast
    have hlookup : descriptions.lookup about = none := by
      cases hlookup : descriptions.lookup about with
      | none => rfl
      | some first =>
          exact absurd (List.mem_map_of_mem ((hmem about first).mpr ⟨hlast, hlookup⟩)) hnew
    refine ⟨created ++ [(about, text)], hsublist.append (List.Sublist.refl _), ?_, ?_, hspan, ?_⟩
    · rw [List.map_append, List.nodup_append]
      refine ⟨hnodup, by simp, ?_⟩
      rintro about' habout' _ habout rfl
      rw [List.mem_singleton.mp habout] at habout'
      exact hnew habout'
    · intro about' text'
      rw [List.mem_append, hmem, lookup_concat]
      by_cases habout : about' = about
      · subst habout
        simp [hlast, hlookup, eq_comm]
      · simp [habout]
    · rw [ObjectLiteral.push, hproperties]
      simp

end

/-! ### Runs of additions -/

/-- All additions of a list, one after the other. -/
def addAll (ps : List ParameterAdditions) (o : ObjectLiteral) : ObjectLiteral :=
  ps.foldl (fun o p => (p.addTo o).value) o

/-- The last value for the runtime. -/
def lastInternal? (ps : List ParameterAdditions) : Option Expr :=
  (ps.filterMap (·.internal)).getLast?

/-- All descriptions. -/
def descriptions (ps : List ParameterAdditions) : List (Described × String) :=
  ps.filterMap (·.description)

/-- The value of the last property for the runtime that is written with one. -/
def internalValue? (o : ObjectLiteral) : Option Expr :=
  (o.lastBy (·.isEntry internalKey)).bind (·.value?)

/-- What a run of additions makes of parameters. -/
structure AddedAll (ps : List ParameterAdditions) (o o' : ObjectLiteral) : Prop where
  /-- The other parameters are kept. -/
  others : KeepsOthers [(·.isEntry internalKey), (·.isNamed "docs")] o o'
  /-- The last value for the runtime counts. -/
  internal : internalValue? o' = (lastInternal? ps).or (internalValue? o)
  /-- One property for the runtime is added at most, and only if there was none. -/
  once : o'.properties.countP (·.isEntry internalKey)
    ≤ max (o.properties.countP (·.isEntry internalKey)) 1
  /-- Of the documentation, all but the description is kept, and of the descriptions, the first one
  of each thing is added. -/
  docs : ChangedInside "docs" (fun docs docs' =>
    KeepsOthers [(·.isNamed "description")] docs docs'
      ∧ ChangedInside "description" (TextsAdded (descriptions ps)) docs docs') o o'

section

variable {o o' : ObjectLiteral} {p : ParameterAdditions} {ps : List ParameterAdditions}
  {about : Described} {text : String}

lemma keepsOthers_runtimeAdded (p : ParameterAdditions) (o : ObjectLiteral) :
    KeepsOthers [(·.isEntry internalKey)] o (p.runtimeAdded o) := by
  rw [runtimeAdded]
  cases p.internal with
  | none => exact KeepsOthers.refl _ o
  | some value => exact keepsOthers_put (picksOut_isEntry internalKey)

lemma keepsOthers_addTo (p : ParameterAdditions) (o : ObjectLiteral) :
    KeepsOthers [(·.isEntry internalKey), (·.isNamed "docs")] o (p.addTo o).value := by
  have hruntime := ((keepsOthers_runtimeAdded p o).cons (·.isNamed "docs")).swap
    not_isEntry_and_isNamed
  rw [addTo_eq]
  cases p.description with
  | none => exact hruntime
  | some described =>
      exact hruntime.trans ((keepsOthers_inside "docs" _ _).cons _)

lemma lastBy_addTo (p : ParameterAdditions) (o : ObjectLiteral) :
    (p.addTo o).value.lastBy (·.isEntry internalKey)
      = (p.runtimeAdded o).lastBy (·.isEntry internalKey) := by
  rw [addTo_eq]
  cases p.description with
  | none => rfl
  | some described => exact lastBy_addDescription described.1 described.2 _

lemma internalValue?_addTo (p : ParameterAdditions) (o : ObjectLiteral) :
    internalValue? (p.addTo o).value = p.internal.or (internalValue? o) := by
  rw [internalValue?, lastBy_addTo, runtimeAdded]
  cases p.internal with
  | none => rfl
  | some value =>
      obtain ⟨q, hq, hvalue⟩ := lastBy_put value (picksOut_isEntry internalKey)
        (fun _ => isSome_value?_of_lastBy (o := o))
      rw [Option.elim_some, setInternal_eq_put, hq]
      exact hvalue

lemma countP_addTo (p : ParameterAdditions) (o : ObjectLiteral) :
    (p.addTo o).value.properties.countP (·.isEntry internalKey)
      ≤ max (o.properties.countP (·.isEntry internalKey)) 1 := by
  have hruntime : (p.runtimeAdded o).properties.countP (·.isEntry internalKey)
      ≤ max (o.properties.countP (·.isEntry internalKey)) 1 := by
    rw [runtimeAdded]
    cases p.internal with
    | none => exact Nat.le_max_left _ _
    | some value =>
        rw [Option.elim_some, setInternal_eq_put]
        exact Nat.le_of_eq (countP_put (picksOut_isEntry internalKey))
  rw [addTo_eq]
  cases p.description with
  | none => exact hruntime
  | some described =>
      rw [Option.elim_some, addDescription]
      cases h : (p.runtimeAdded o).inner? "docs" with
      | none => rwa [inside_of_inner?_eq_none h]
      | some docs =>
          rw [inside_of_inner? h, countP_put_of_disjoint
            (fun q hq => not_isEntry_and_isNamed q hq.symm) (picksOut_isNamed "docs")]
          exact hruntime

lemma last?_runtimeAdded (p : ParameterAdditions) (o : ObjectLiteral) :
    (p.runtimeAdded o).last? "docs" = o.last? "docs" := by
  rw [runtimeAdded]
  cases p.internal with
  | none => rfl
  | some value => exact last?_setInternal value (by decide)

lemma addedAll_nil (o : ObjectLiteral) : AddedAll [] o o :=
  ⟨KeepsOthers.refl _ o, rfl, Nat.le_max_left _ _, changedInside_refl (fun docs =>
    ⟨KeepsOthers.refl _ docs, changedInside_refl textsAdded_nil docs⟩) o⟩

/-- One more step of a run. -/
lemma AddedAll.concat (h : AddedAll ps o o') (p : ParameterAdditions) :
    AddedAll (ps ++ [p]) o (p.addTo o').value := by
  obtain ⟨hothers, hinternal, honce, hdocs⟩ := h
  refine ⟨hothers.trans (keepsOthers_addTo p o'), ?_, ?_, ?_⟩
  · rw [internalValue?_addTo, hinternal, lastInternal?, lastInternal?, List.filterMap_append]
    cases hvalue : p.internal with
    | none => simp [hvalue]
    | some value => simp [hvalue]
  · have hstep := countP_addTo p o'
    omega
  · have hdocs := hdocs.of_last?_eq (last?_runtimeAdded p o')
    rw [addTo_eq, descriptions, List.filterMap_append]
    cases hdescription : p.description with
    | none => simpa [hdescription, descriptions] using hdocs
    | some described =>
        have hdescriptions : [p].filterMap (·.description) = [described] := by simp [hdescription]
        rw [Option.elim_some, addDescription, hdescriptions]
        refine hdocs.inside fun docs docs' ⟨hkeeps, hchanged⟩ => ⟨?_, ?_⟩
        · exact hkeeps.trans (keepsOthers_inside "description" _ docs')
        · exact hchanged.inside fun _ _ htexts => htexts.describe described.1 described.2

lemma addedAll_addAll (ps : List ParameterAdditions) (o : ObjectLiteral) :
    AddedAll ps o (addAll ps o) := by
  induction ps using List.reverseRecOn with
  | nil => exact addedAll_nil o
  | append_singleton ps p ih =>
      rw [addAll, List.foldl_append]
      exact ih.concat p

end

/-! ### Descriptions that can be set -/

/-- Additions set a description: there is an object to hold it, the object has no property for it,
and it gets one. -/
def Describes (p : ParameterAdditions) (o o' : ObjectLiteral) : Prop :=
  ∃ about text texts, p.description = some (about, text) ∧ o.descriptions? = some texts
    ∧ texts.last? about.key = none
    ∧ o'.descriptions? = some (texts.push (entry about.key (stringExpr text)))

section

variable {o docs : ObjectLiteral} {p : ParameterAdditions} {about : Described} {text name : String}
  {change : ObjectLiteral → Noted ObjectLiteral}

lemma descriptions?_runtimeAdded (p : ParameterAdditions) (o : ObjectLiteral) :
    (p.runtimeAdded o).descriptions? = o.descriptions? := by
  rw [ObjectLiteral.descriptions?, ObjectLiteral.descriptions?,
    inner?_congr (last?_runtimeAdded p o)]

/-- An object is kept if the object in it is there and is kept. -/
lemma inside_eq_self
    (h : ∀ inner, o.inner? name = some inner →
      o.last? name ≠ none ∧ (change inner).value = inner) :
    (inside name change o).value = o := by
  cases hinner : o.inner? name with
  | none => exact inside_of_inner?_eq_none hinner
  | some inner =>
      obtain ⟨hlast, hchange⟩ := h inner hinner
      obtain ⟨q, hq⟩ := Option.ne_none_iff_exists'.mp hlast
      rw [inside_of_inner? hinner, hchange]
      rw [ObjectLiteral.inner?, hq] at hinner
      refine put_eq_self hq ?_
      cases q with
      | keyValue key value =>
          cases value with
          | object d =>
              obtain rfl := Option.some.inj hinner
              rfl
          | _ => cases hinner
      | _ => cases hinner

lemma inner?_of_last?_eq_none (h : o.last? name = none) : o.inner? name = some (objectOf []) := by
  rw [ObjectLiteral.inner?, h]

/-- A description that cannot be set leaves the parameters as they are. -/
lemma addDescription_eq_self
    (h : ∀ texts, o.descriptions? = some texts → texts.last? about.key ≠ none) :
    (addDescription about text o).value = o := by
  have hnew : ObjectLiteral.last? about.key (objectOf []) = none := rfl
  rw [addDescription]
  refine inside_eq_self fun docs hdocs => ?_
  have hdescription : docs.last? "description" ≠ none := fun hnone => by
    refine h (objectOf []) ?_ hnew
    rw [ObjectLiteral.descriptions?, hdocs, Option.bind_some, inner?_of_last?_eq_none hnone]
  refine ⟨fun hnone => ?_, inside_eq_self fun texts htexts => ⟨hdescription, ?_⟩⟩
  · -- an empty object has no description
    rw [inner?_of_last?_eq_none hnone] at hdocs
    obtain rfl := Option.some.inj hdocs
    exact hdescription rfl
  · have hset := h texts (by rw [ObjectLiteral.descriptions?, hdocs, Option.bind_some, htexts])
    rw [describe, if_pos]
    simpa [last?_eq_none_iff] using hset

/-- A description that can be set is set. -/
lemma descriptions?_addTo {texts : ObjectLiteral}
    (hdescription : p.description = some (about, text)) (htexts : o.descriptions? = some texts)
    (hlast : texts.last? about.key = none) :
    (p.addTo o).value.descriptions? = some (texts.push (entry about.key (stringExpr text))) := by
  rw [← descriptions?_runtimeAdded p, ObjectLiteral.descriptions?] at htexts
  obtain ⟨docs, hdocs, htexts⟩ := Option.bind_eq_some_iff.mp htexts
  have hnone : ¬ texts.properties.any (·.isNamed about.key) = true := by
    simpa [last?_eq_none_iff] using hlast
  rw [addTo_eq, hdescription, Option.elim_some, addDescription, ObjectLiteral.descriptions?,
    inside_of_inner? hdocs, inner?_put hdocs, Option.bind_some, inside_of_inner? htexts,
    inner?_put htexts, describe, if_neg hnone]

/-- Additions that set no description add the value for the runtime at most. -/
lemma addTo_of_not_describes (h : ¬ p.Describes o (p.addTo o).value) :
    (p.addTo o).value = p.runtimeAdded o := by
  have hdescribes : ∀ about text texts, p.description = some (about, text) →
      o.descriptions? = some texts → texts.last? about.key ≠ none :=
    fun about text texts hdescription htexts hlast =>
      h ⟨about, text, texts, hdescription, htexts, hlast,
        descriptions?_addTo hdescription htexts hlast⟩
  rw [addTo_eq]
  cases hdescription : p.description with
  | none => rfl
  | some described =>
      refine addDescription_eq_self fun texts htexts => ?_
      rw [descriptions?_runtimeAdded] at htexts
      exact hdescribes _ described.2 texts hdescription htexts

end

/-! ### Objects with parameters -/

/-- The object with another object for its parameters. Nothing changes if they are computed. -/
def changeParameters (change : ObjectLiteral → ObjectLiteral) (o : ObjectLiteral) : ObjectLiteral :=
  match splitLast? (·.isNamed parametersKey) o.properties with
  | none => o.push (entry parametersKey (.object (change (objectOf []))))
  | some (before, property, behind) =>
    match base? property with
    | none => o
    | some base => { o with properties := before ++ merged property (change base) :: behind }

/-- All additions of a list to an object with parameters, one after the other. -/
def addAllToOwner (ps : List ParameterAdditions) (o : ObjectLiteral) : ObjectLiteral :=
  ps.foldl (fun o p => (p.addToOwner o).value) o

section

variable {o : ObjectLiteral} {p : ParameterAdditions} {ps : List ParameterAdditions}
  {property : Property} {change change' : ObjectLiteral → ObjectLiteral}

lemma changeParameters_cases (change : ObjectLiteral → ObjectLiteral) (o : ObjectLiteral) :
    ((∀ q ∈ o.properties, q.isNamed parametersKey = false)
        ∧ changeParameters change o
          = o.push (entry parametersKey (.object (change (objectOf [])))))
      ∨ ∃ before property behind, o.properties = before ++ property :: behind
        ∧ property.isNamed parametersKey = true
        ∧ (∀ q ∈ behind, q.isNamed parametersKey = false)
        ∧ (base? property = none ∧ changeParameters change o = o
          ∨ ∃ base, base? property = some base ∧ changeParameters change o
            = { o with properties := before ++ merged property (change base) :: behind }) := by
  rw [changeParameters]
  cases hsplit : splitLast? (·.isNamed parametersKey) o.properties with
  | none => exact Or.inl ⟨splitLast?_eq_none_iff.mp hsplit, rfl⟩
  | some found =>
      obtain ⟨before, property, behind⟩ := found
      obtain ⟨hproperties, hnamed, hbehind⟩ := splitLast?_eq_some_iff.mp hsplit
      refine Or.inr ⟨before, property, behind, hproperties, hnamed, hbehind, ?_⟩
      cases hbase : base? property with
      | none => exact Or.inl ⟨rfl, by simp only [hbase]⟩
      | some base => exact Or.inr ⟨base, rfl, by simp only [hbase]⟩

lemma changeParameters_of_split (change : ObjectLiteral → ObjectLiteral)
    {before behind : List Property}
    (hproperties : o.properties = before ++ property :: behind)
    (hnamed : property.isNamed parametersKey = true)
    (hbehind : ∀ q ∈ behind, q.isNamed parametersKey = false) :
    changeParameters change o
      = match base? property with
        | none => o
        | some base =>
          { o with properties := before ++ merged property (change base) :: behind } := by
  rw [changeParameters, splitLast?_eq_some_iff.mpr ⟨hproperties, hnamed, hbehind⟩]

lemma isNamed_merged (h : property.isNamed parametersKey = true) (parameters : ObjectLiteral) :
    (merged property parameters).isNamed parametersKey = true := by
  rw [Property.isNamed, name?_merged (name?_of_isNamed h)]
  rfl

lemma base?_merged (property : Property) (parameters : ObjectLiteral) :
    base? (merged property parameters) = some parameters := by
  cases property <;> rfl

lemma merged_merged (property : Property) (parameters parameters' : ObjectLiteral) :
    merged (merged property parameters) parameters' = merged property parameters' := by
  cases property <;> rfl

/-- Two changes to the parameters are one. -/
lemma changeParameters_changeParameters (change change' : ObjectLiteral → ObjectLiteral)
    (o : ObjectLiteral) :
    changeParameters change' (changeParameters change o)
      = changeParameters (fun base => change' (change base)) o := by
  obtain ⟨hnone, h⟩ | ⟨before, property, behind, hproperties, hnamed, hbehind, h⟩ :=
    changeParameters_cases change o
  · have hpush : (o.push (entry parametersKey (.object (change (objectOf []))))).properties
        = o.properties ++ entry parametersKey (.object (change (objectOf []))) :: [] := rfl
    rw [h, changeParameters_of_split _ hpush (by simp [isNamed_entry]) (by simp), changeParameters,
      splitLast?_eq_none_iff.mpr hnone]
    rfl
  · have hsplit := changeParameters_of_split (fun base => change' (change base))
      hproperties hnamed hbehind
    obtain ⟨hbase, h⟩ | ⟨base, hbase, h⟩ := h
    · rw [h, hsplit, changeParameters_of_split _ hproperties hnamed hbehind, hbase]
    · rw [h, hsplit, changeParameters_of_split _ rfl (isNamed_merged hnamed _) hbehind,
        base?_merged, hbase]
      simp only [merged_merged]

lemma keepsOthers_changeParameters (change : ObjectLiteral → ObjectLiteral) (o : ObjectLiteral) :
    KeepsOthers [(·.isNamed parametersKey)] o (changeParameters change o) := by
  obtain ⟨hnone, h⟩
    | ⟨before, property, behind, hproperties, hnamed, hbehind, ⟨-, h⟩ | ⟨base, -, h⟩⟩ :=
    changeParameters_cases change o
  · rw [h]
    refine ⟨rfl, by simp [ObjectLiteral.push], ?_⟩
    simp only [List.foldr_cons, List.foldr_nil, ObjectLiteral.push]
    rw [eraseLast_of_split (by simp [isNamed_entry]) (by simp), eraseLast_of_forall hnone,
      List.append_nil]
  · rw [h]
    exact KeepsOthers.refl _ o
  · have hname := name?_of_isNamed hnamed
    rw [h]
    refine ⟨rfl, ?_, ?_⟩
    · rw [hproperties]
      simp [name?_merged hname, hname]
    · simp only [List.foldr_cons, List.foldr_nil, hproperties]
      rw [eraseLast_of_split (isNamed_merged hnamed _) hbehind, eraseLast_of_split hnamed hbehind]

lemma addToOwner_value (p : ParameterAdditions) (o : ObjectLiteral) :
    (p.addToOwner o).value
      = if p.isEmpty then o else changeParameters (fun base => (p.addTo base).value) o := by
  rw [addToOwner, changeParameters]
  split_ifs
  · rfl
  · cases hsplit : splitLast? (·.isNamed parametersKey) o.properties with
    | none => rfl
    | some found =>
        obtain ⟨before, property, behind⟩ := found
        dsimp only
        cases base? property with
        | none => rfl
        | some base => cases property <;> rfl

lemma addTo_of_isEmpty (h : p.isEmpty = true) (o : ObjectLiteral) : (p.addTo o).value = o := by
  simp only [isEmpty, Bool.and_eq_true, Option.isNone_iff_eq_none] at h
  rw [addTo, h.1, h.2]

/-- The same additions change nothing the second time. -/
lemma addToOwner_addToOwner (p : ParameterAdditions) (o : ObjectLiteral) :
    (p.addToOwner (p.addToOwner o).value).value = (p.addToOwner o).value := by
  simp only [addToOwner_value]
  split_ifs
  · rfl
  · rw [changeParameters_changeParameters]
    simp only [addTo_addTo]

lemma addAll_of_all_isEmpty (h : ps.all (·.isEmpty) = true) (o : ObjectLiteral) :
    addAll ps o = o := by
  induction ps with
  | nil => rfl
  | cons p ps ih =>
      rw [List.all_cons, Bool.and_eq_true] at h
      rw [addAll, List.foldl_cons, addTo_of_isEmpty h.1]
      exact ih h.2

/-- A run changes the parameters by the same run on them. -/
lemma addAllToOwner_eq (ps : List ParameterAdditions) (o : ObjectLiteral) :
    addAllToOwner ps o
      = if ps.all (·.isEmpty) then o else changeParameters (addAll ps) o := by
  induction ps using List.reverseRecOn with
  | nil => rfl
  | append_singleton ps p ih =>
      have hrun : addAllToOwner (ps ++ [p]) o = (p.addToOwner (addAllToOwner ps o)).value := by
        simp [addAllToOwner]
      have hadd : addAll (ps ++ [p]) = fun base => (p.addTo (addAll ps base)).value := by
        funext base
        simp [addAll]
      rw [hrun, addToOwner_value, ih, hadd, List.all_append]
      by_cases hall : ps.all (·.isEmpty) = true <;> by_cases hp : p.isEmpty = true
      · simp [hall, hp]
      · simp [hall, hp, addAll_of_all_isEmpty hall]
      · simp [hall, hp, addTo_of_isEmpty hp]
      · simp [hall, hp, changeParameters_changeParameters]

lemma keepsOthers_addAllToOwner (ps : List ParameterAdditions) (o : ObjectLiteral) :
    KeepsOthers [(·.isNamed parametersKey)] o (addAllToOwner ps o) := by
  rw [addAllToOwner_eq]
  split_ifs
  · exact KeepsOthers.refl _ o
  · exact keepsOthers_changeParameters (addAll ps) o

/-- **Additions that are made one after the other**, to parameters and to objects that own them: the
same additions change nothing the second time; a description that cannot be set changes nothing;
the last value for the runtime counts, and of the descriptions of each thing the first one; and all
other properties are kept. -/
theorem addAll_spec (o : ObjectLiteral) :
    (∀ p : ParameterAdditions, (p.addTo (p.addTo o).value).value = (p.addTo o).value)
      ∧ (∀ p : ParameterAdditions, p.Describes o (p.addTo o).value
        ∨ (p.addTo o).value = p.runtimeAdded o
          ∧ KeepsOthers [(·.isEntry internalKey)] o (p.runtimeAdded o))
      ∧ (∀ ps, AddedAll ps o (addAll ps o))
      ∧ (∀ p : ParameterAdditions,
        (p.addToOwner (p.addToOwner o).value).value = (p.addToOwner o).value)
      ∧ ∀ ps, KeepsOthers [(·.isNamed parametersKey)] o (addAllToOwner ps o)
        ∧ addAllToOwner ps o
          = if ps.all (·.isEmpty) then o else changeParameters (addAll ps) o := by
  refine ⟨fun p => addTo_addTo p o, fun p => ?_, fun ps => addedAll_addAll ps o,
    fun p => addToOwner_addToOwner p o,
    fun ps => ⟨keepsOthers_addAllToOwner ps o, addAllToOwner_eq ps o⟩⟩
  by_cases h : p.Describes o (p.addTo o).value
  · exact Or.inl h
  · exact Or.inr ⟨addTo_of_not_describes h, keepsOthers_runtimeAdded p o⟩

end

end ParameterAdditions

end SvelteStories

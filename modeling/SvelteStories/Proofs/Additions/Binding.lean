/-
The binding of the meta object in a pattern:

* `PatternProperty.key?`, `PatternProperty.local?`: what a property of a pattern is about, and the
  name that it binds that to; `ObjectPattern.binding_eq`: the first property about a key counts;
* `bindMeta_cases`: a pattern that binds the meta object is left alone, and another one gets a
  property for it in front of the one that takes what the others leave;
* `binding_bindMeta`, `binding_bindMeta_of_ne`: what the keys are bound to afterwards;
* `bindMeta_spec`: when the binding is refused, and what it makes of the pattern otherwise.
-/
import Mathlib.Data.List.Basic
import Mathlib.Data.List.TakeWhile
import SvelteStories.Additions.Binding
import SvelteStories.Script.Build

namespace SvelteStories

open Script

/-! ### Properties of patterns -/

namespace Script

/-- What a property of a pattern is about, if that can be told without running code. -/
def PatternProperty.key? : PatternProperty → Option String
  | .shorthand _ name _ => some name
  | .keyValue key _ => key.name?
  | .rest _ _ => none

/-- The name that a property of a pattern binds its key to, with a default or without. -/
def PatternProperty.local? : PatternProperty → Option String
  | .shorthand _ name _ | .keyValue _ (.identifier _ name _)
  | .keyValue _ (.withDefault _ (.identifier _ name _) _) => some name
  | .keyValue _ _ | .rest _ _ => none

/-- The first property of a pattern about a key. -/
def ObjectPattern.find? (p : ObjectPattern) (key : String) : Option PatternProperty :=
  p.properties.find? fun q => q.key? = some key

variable {p : ObjectPattern} {q : PatternProperty} {key : String}

lemma PatternProperty.binding?_eq (key : String) (q : PatternProperty) :
    q.binding? key
      = if q.key? = some key then some (q.local?.elim .complex .name) else none := by
  cases q with
  | keyValue k value =>
      rw [PatternProperty.binding?, PatternProperty.key?]
      refine if_congr Iff.rfl (congrArg some ?_) rfl
      cases value with
      | withDefault span target default => cases target <;> rfl
      | _ => rfl
  | shorthand span name default =>
      rw [PatternProperty.binding?, PatternProperty.key?]
      refine if_congr Option.some_inj.symm rfl rfl
  | rest span target => rfl

/-- The first property about a key tells how a pattern binds it. -/
lemma ObjectPattern.binding_eq (p : ObjectPattern) (key : String) :
    p.binding key = ((p.find? key).map (·.local?.elim .complex .name)).getD .missing := by
  rw [ObjectPattern.binding, ObjectPattern.find?]
  refine congrArg (Option.getD · _) ?_
  induction p.properties with
  | nil => rfl
  | cons q qs ih =>
      rw [List.findSome?_cons, List.find?_cons, PatternProperty.binding?_eq]
      by_cases hq : q.key? = some key
      · simp [hq]
      · simp [hq, ih]

lemma ObjectPattern.binding_eq_missing_iff : p.binding key = .missing ↔ p.find? key = none := by
  rw [ObjectPattern.binding_eq]
  cases p.find? key with
  | none => simp
  | some q => cases hq : q.local? <;> simp [hq]

lemma ObjectPattern.binding_eq_complex_iff :
    p.binding key = .complex ↔ ∃ q, p.find? key = some q ∧ q.local? = none := by
  rw [ObjectPattern.binding_eq]
  cases p.find? key with
  | none => simp
  | some q => cases hq : q.local? <;> simp [hq]

end Script

/-! ### The added property -/

section

variable {p : ObjectPattern} {q r : PatternProperty} {qs : List PatternProperty} {key : String}
  {bound : MetaBinding} {fault : Fault}

/-- A property that is about another key is passed over. -/
lemma find?_insertBeforeRest_of_neg {test : PatternProperty → Bool} (h : test q = false) :
    (insertBeforeRest q qs).find? test = qs.find? test := by
  rw [insertBeforeRest, List.find?_append, List.find?_cons, h, ← List.find?_append,
    List.takeWhile_append_dropWhile]

/-- A property that is the only one about a key is found. -/
lemma find?_insertBeforeRest_of_pos {test : PatternProperty → Bool} (h : test q = true)
    (hnone : qs.find? test = none) : (insertBeforeRest q qs).find? test = some q := by
  have hbefore : (qs.takeWhile fun q => !q.isRest).find? test = none := by
    rw [← List.takeWhile_append_dropWhile (l := qs), List.find?_append] at hnone
    exact (Option.or_eq_none_iff.mp hnone).1
  rw [insertBeforeRest, List.find?_append, hbefore, List.find?_cons, h, Option.none_or]

/-- The property that takes what the others leave stays the last one. -/
lemma getLast?_insertBeforeRest (h : qs.getLast? = some r) (hr : r.isRest = true) :
    (insertBeforeRest q qs).getLast? = some r := by
  cases hbehind : qs.dropWhile fun q => !q.isRest with
  | nil =>
      have hmem := List.dropWhile_eq_nil_iff.mp hbehind r (List.mem_of_getLast? h)
      simp [hr] at hmem
  | cons q' behind =>
      rw [← List.takeWhile_append_dropWhile (p := fun q => !q.isRest) (l := qs), hbehind,
        List.getLast?_append_cons] at h
      rw [insertBeforeRest, hbehind, List.getLast?_append_cons, List.getLast?_cons_cons, h]

/-- A pattern that binds the meta object is left alone, and another one gets a property for it. -/
lemma bindMeta_cases (h : p.bindMeta = .ok bound) :
    (bound.isNew = false ∧ bound.pattern = p ∧ p.binding metaKey = .name bound.name)
      ∨ (bound.isNew = true ∧ bound.name = metaKey ∧ p.find? metaKey = none
        ∧ bound.pattern = { p with
            properties := insertBeforeRest (.shorthand nowhere metaKey none) p.properties }) := by
  rw [ObjectPattern.bindMeta] at h
  split at h
  · rename_i name hname
    obtain rfl := Except.ok.inj h
    exact Or.inl ⟨rfl, rfl, hname⟩
  · cases h
  · rename_i hmissing
    obtain rfl := Except.ok.inj h
    exact Or.inr ⟨rfl, rfl, ObjectPattern.binding_eq_missing_iff.mp hmissing, rfl⟩

/-- A pattern that was made to bind the meta object binds it to its local name. -/
lemma binding_bindMeta (h : p.bindMeta = .ok bound) :
    bound.pattern.binding metaKey = .name bound.name := by
  rcases bindMeta_cases h with ⟨-, rfl, hbinding⟩ | ⟨-, hname, hnone, hpattern⟩
  · exact hbinding
  · rw [ObjectPattern.binding_eq, ObjectPattern.find?, hpattern, hname,
      find?_insertBeforeRest_of_pos (decide_eq_true rfl) hnone]
    rfl

/-- A pattern that was made to bind the meta object binds other keys as before. -/
lemma binding_bindMeta_of_ne (h : p.bindMeta = .ok bound) (hkey : key ≠ metaKey) :
    bound.pattern.binding key = p.binding key := by
  rcases bindMeta_cases h with ⟨-, rfl, -⟩ | ⟨-, -, -, hpattern⟩
  · rfl
  · have hadded :
        decide ((PatternProperty.shorthand nowhere metaKey none).key? = some key) = false :=
      decide_eq_false fun heq => hkey (Option.some.inj heq).symm
    rw [ObjectPattern.binding_eq, ObjectPattern.binding_eq, ObjectPattern.find?, hpattern,
      find?_insertBeforeRest_of_neg hadded, ObjectPattern.find?]

/-! ### Refusals -/

/-- The binding is refused if the first property about the meta object takes it apart. -/
lemma bindMeta_eq_error_iff :
    p.bindMeta = .error fault
      ↔ fault = .metaNotIdentifier ∧ ∃ q, p.find? metaKey = some q ∧ q.local? = none := by
  rw [← ObjectPattern.binding_eq_complex_iff, ObjectPattern.bindMeta]
  cases p.binding metaKey <;> simp [eq_comm]

/-- The pattern that stands after the binding. A refused one stays as it is. -/
def Script.ObjectPattern.afterBinding (p : ObjectPattern) : ObjectPattern :=
  match p.bindMeta with
  | .ok bound => bound.pattern
  | .error _ => p

/-! ### The binding -/

/-- What the binding of the meta object makes of a pattern. -/
structure BindsMeta (p : ObjectPattern) (bound : MetaBinding) : Prop where
  /-- The pattern binds the meta object to the local name. -/
  name : bound.pattern.binding metaKey = .name bound.name
  /-- The binding is new if no property was about the meta object. -/
  isNew_iff : bound.isNew = true ↔ p.find? metaKey = none
  /-- A pattern that had it stays as it is. -/
  unchanged : bound.isNew = false → bound.pattern = p
  /-- Another one gets one property more, under the own name of the meta object, in front of the
  first that takes what the others leave. -/
  added : bound.isNew = true → ∃ before behind, p.properties = before ++ behind
    ∧ bound.pattern = { p with
        properties := before ++ .shorthand nowhere metaKey none :: behind }
    ∧ (∀ q ∈ before, q.isRest = false) ∧ ∀ q, behind.head? = some q → q.isRest = true
  /-- A last property that takes what the others leave stays the last one. -/
  rest : ∀ q, p.properties.getLast? = some q → q.isRest = true →
    bound.pattern.properties.getLast? = some q
  /-- Once more, nothing is added. -/
  again : bound.pattern.bindMeta = .ok { bound with isNew := false }
  /-- Other keys are bound as before. -/
  others : ∀ key, key ≠ metaKey → bound.pattern.binding key = p.binding key

lemma bindsMeta_of_bindMeta (h : p.bindMeta = .ok bound) : BindsMeta p bound := by
  have hname := binding_bindMeta h
  have hagain : bound.pattern.bindMeta = .ok { bound with isNew := false } := by
    rw [ObjectPattern.bindMeta, hname]
  have hothers : ∀ key, key ≠ metaKey → bound.pattern.binding key = p.binding key :=
    fun key hkey => binding_bindMeta_of_ne h hkey
  obtain ⟨hnew, hpattern, hbinding⟩ | ⟨hnew, -, hnone, hpattern⟩ := bindMeta_cases h
  · have hfound : p.find? metaKey ≠ none := by
      rw [Ne, ← ObjectPattern.binding_eq_missing_iff, hbinding]
      exact nofun
    exact ⟨hname, by simp [hnew, hfound], fun _ => hpattern, by simp [hnew],
      fun q hq _ => hpattern ▸ hq, hagain, hothers⟩
  · refine ⟨hname, by simp [hnew, hnone], by simp [hnew], fun _ => ⟨_, _,
      List.takeWhile_append_dropWhile.symm, hpattern, fun q hq => ?_, fun q hq => ?_⟩,
      fun q hq hrest => ?_, hagain, hothers⟩
    · simpa using List.mem_takeWhile_imp hq
    · simpa [hq] using List.head?_dropWhile_not (fun q => !PatternProperty.isRest q) p.properties
    · rw [hpattern]
      exact getLast?_insertBeforeRest hq hrest

/-- **The binding of the meta object.** It is refused exactly if the first property about the meta
object binds it to something else than a name, and the pattern stays as it is then. Otherwise the
pattern binds the meta object to the local name, and it is changed only if it did not do so
before. -/
theorem bindMeta_spec (p : ObjectPattern) :
    (∀ fault, p.bindMeta = .error fault
        ↔ fault = .metaNotIdentifier ∧ ∃ q, p.find? metaKey = some q ∧ q.local? = none)
      ∧ (∀ fault, p.bindMeta = .error fault → p.afterBinding = p)
      ∧ ∀ bound, p.bindMeta = .ok bound → p.afterBinding = bound.pattern ∧ BindsMeta p bound := by
  refine ⟨fun fault => bindMeta_eq_error_iff, fun fault h => ?_,
    fun bound h => ⟨?_, bindsMeta_of_bindMeta h⟩⟩
  · rw [ObjectPattern.afterBinding, h]
  · rw [ObjectPattern.afterBinding, h]

end

/-- A pattern with a default, a quoted key and the rest. -/
def restPattern : ObjectPattern where
  span := ⟨6, 41⟩
  properties := [.shorthand ⟨8, 17⟩ "Story" (some (.identifier ⟨16, 17⟩ "S")),
    .keyValue (.string ⟨19, 24⟩ "own" "'own'") (.identifier ⟨26, 30⟩ "meta" []),
    .rest ⟨32, 39⟩ (.identifier ⟨35, 39⟩ "rest" [])]
  typing := []

/-- A pattern that takes the meta object apart before it binds it. -/
def nestedPattern : ObjectPattern where
  span := ⟨6, 31⟩
  properties := [.keyValue (.identifier ⟨8, 12⟩ "meta")
      (.object ⟨⟨14, 23⟩, [.shorthand ⟨16, 21⟩ "title" none], []⟩),
    .shorthand ⟨25, 29⟩ "meta" none]
  typing := []

theorem restPattern_bindsMeta :
    (∃ bound, restPattern.bindMeta = .ok bound ∧ bound.isNew = true
        ∧ restPattern.afterBinding = bound.pattern ∧ BindsMeta restPattern bound)
      ∧ nestedPattern.bindMeta = .error .metaNotIdentifier
      ∧ nestedPattern.afterBinding = nestedPattern :=
  ⟨⟨_, rfl, rfl, (bindMeta_spec restPattern).2.2 _ rfl⟩, rfl,
    (bindMeta_spec nestedPattern).2.1 _ rfl⟩

end SvelteStories

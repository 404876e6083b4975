/-
The last property of a name, which is the one that additions are about:

* `splitLast?_eq_some_iff`, `splitLast?_eq_none_iff`: where a list is split;
* `ObjectLiteral.last?`: the last property of a name, with what becomes of it when an object gets a
  further property or has one of another name replaced;
* `ParameterAdditions.merged`: the property that takes the place of the parameters.
-/
import Mathlib.Tactic.Common
import SvelteStories.Additions.Parameters

namespace SvelteStories

open Script

/-! ### Lists that are split -/

section

variable {α : Type} {test : α → Bool} {l before behind : List α} {a : α}

lemma splitLast?_eq_none_iff : splitLast? test l = none ↔ ∀ a ∈ l, test a = false := by
  induction l with
  | nil => simp [splitLast?]
  | cons b l ih =>
      rw [splitLast?]
      cases hsplit : splitLast? test l with
      | none =>
          have hl := ih.mp hsplit
          cases hb : test b with
          | true => simp [hb]
          | false => simpa [hb] using hl
      | some found =>
          have hl : ¬ ∀ a ∈ l, test a = false := fun h => by simp [ih.mpr h] at hsplit
          simp only [reduceCtorEq, false_iff]
          exact fun h => hl fun a ha => h a (List.mem_cons_of_mem b ha)

/-- A list is split at the last element that satisfies the test. -/
lemma splitLast?_eq_some_iff :
    splitLast? test l = some (before, a, behind)
      ↔ l = before ++ a :: behind ∧ test a = true ∧ ∀ b ∈ behind, test b = false := by
  induction l generalizing before with
  | nil => simp [splitLast?]
  | cons b l ih =>
      rw [splitLast?]
      constructor
      · intro h
        cases hsplit : splitLast? test l with
        | some found =>
            obtain ⟨before', c, behind'⟩ := found
            simp only [hsplit, Option.some.injEq, Prod.mk.injEq] at h
            obtain ⟨rfl, rfl, rfl⟩ := h
            obtain ⟨rfl, htest, hbehind⟩ := ih.mp hsplit
            exact ⟨rfl, htest, hbehind⟩
        | none =>
            simp only [hsplit] at h
            split_ifs at h with hb
            simp only [Option.some.injEq, Prod.mk.injEq] at h
            obtain ⟨rfl, rfl, rfl⟩ := h
            exact ⟨rfl, hb, splitLast?_eq_none_iff.mp hsplit⟩
      · rintro ⟨hl, htest, hbehind⟩
        cases before with
        | nil =>
            obtain ⟨rfl, rfl⟩ : b = a ∧ l = behind := by simpa using hl
            rw [splitLast?_eq_none_iff.mpr hbehind]
            simp [htest]
        | cons b' before =>
            obtain ⟨rfl, htail⟩ : b = b' ∧ l = before ++ a :: behind := by simpa using hl
            rw [ih.mpr ⟨htail, htest, hbehind⟩]

end

/-! ### Objects -/

/-- The last property of a name. -/
def Script.ObjectLiteral.last? (name : String) (o : ObjectLiteral) : Option Property :=
  o.properties.reverse.find? (·.isNamed name)

section

variable {o : ObjectLiteral} {p q : Property} {before behind : List Property} {name : String}

lemma last?_eq_none_iff : o.last? name = none ↔ ∀ p ∈ o.properties, p.isNamed name = false := by
  simp [ObjectLiteral.last?]

lemma last?_of_splitLast?
    (h : splitLast? (·.isNamed name) o.properties = some (before, p, behind)) :
    o.last? name = some p := by
  obtain ⟨hproperties, hnamed, hbehind⟩ := splitLast?_eq_some_iff.mp h
  have hnone : behind.reverse.find? (·.isNamed name) = none := by simpa using hbehind
  rw [ObjectLiteral.last?, hproperties]
  simp [List.find?_append, hnone, hnamed]

lemma last?_push_of_not_isNamed (hp : p.isNamed name = false) :
    (o.push p).last? name = o.last? name := by
  simp [ObjectLiteral.last?, ObjectLiteral.push, hp]

lemma last?_push_of_isNamed (hp : p.isNamed name = true) : (o.push p).last? name = some p := by
  simp [ObjectLiteral.last?, ObjectLiteral.push, hp]

/-- A property of another name can be replaced. -/
lemma last?_replace (hp : p.isNamed name = false) (hq : q.isNamed name = false)
    (h : o.properties = before ++ p :: behind) :
    ObjectLiteral.last? name { o with properties := before ++ q :: behind } = o.last? name := by
  rw [ObjectLiteral.last?, ObjectLiteral.last?, h]
  simp [List.find?_append, hp, hq]

lemma isNamed_entry (key : String) (value : Expr) :
    (entry key value).isNamed name = decide (key = name) := by
  simp [Property.isNamed, Property.name?, entry, PropertyKey.name?]

/-- A property has one name at most. -/
lemma isNamed_of_ne {name' : String} (h : p.isNamed name = true) (hne : name ≠ name') :
    p.isNamed name' = false := by
  simp only [Property.isNamed, decide_eq_true_eq, decide_eq_false_iff_not] at h ⊢
  simpa [h] using hne

lemma isNamed_withValue (value : Expr) (p : Property) :
    (p.withValue value).isNamed name = p.isNamed name := by
  cases p <;> rfl

end

/-! ### Parameters -/

namespace ParameterAdditions

variable {property : Property}

/-- The property that takes the place of the one that held the parameters. -/
def merged (property : Property) (parameters : ObjectLiteral) : Property :=
  match property with
  | .keyValue key _ => .keyValue key (.object parameters)
  | _ => entry parametersKey (.object parameters)

lemma name?_merged (hnamed : property.name? = some parametersKey) (parameters : ObjectLiteral) :
    (merged property parameters).name? = some parametersKey := by
  cases property with
  | keyValue key value => exact hnamed
  | _ => rfl

lemma value?_merged (property : Property) (parameters : ObjectLiteral) :
    (merged property parameters).value? = some (.object parameters) := by
  cases property <;> rfl

end ParameterAdditions

end SvelteStories

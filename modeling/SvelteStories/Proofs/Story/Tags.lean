/-
Which tags are on after a list of entries:

* `removal`, `IsRemoval`: the entries that take a tag away;
* `lastingPlaces`: the places of a tag behind which it is not taken away any more. The least one is
  where the tag stands first behind its last removal;
* `mem_activeTags_iff`: a tag is on if it has such a place;
* `pairwise_activeTags`: tags come in the order of their least such places;
* `activeTags_activeTags_append`: the entries of a list can be replaced by the tags that are on
  after them, whatever follows;
* `activeTags_spec`: all of it.
-/
import Mathlib.Data.List.Induction
import Mathlib.Data.List.Nodup
import Mathlib.Data.Nat.Find
import Mathlib.Data.Set.Basic
import Mathlib.Order.Bounds.Defs
import SvelteStories.Story.Tags

namespace SvelteStories

/-- The entry that takes a tag away. -/
def removal (tag : String) : String :=
  String.ofList ('!' :: tag.toList)

/-- An entry that takes a tag away. -/
def IsRemoval (entry : String) : Prop :=
  entry.toList.head? = some '!'

/-- The places of a tag behind which it is not taken away. -/
def lastingPlaces (entries : List String) (tag : String) : Set ℕ :=
  {i | entries[i]? = some tag ∧ ∀ j, i < j → entries[j]? ≠ some (removal tag)}

/-- The tags come in the order in which they stand first behind their last removals. -/
def InOrderOf (entries : List String) (s t : String) : Prop :=
  ∃ i j, IsLeast (lastingPlaces entries s) i ∧ IsLeast (lastingPlaces entries t) j ∧ i < j

section

variable {entries on others : List String} {e t : String} {i : ℕ}

/-! ### One entry -/

lemma isRemoval_iff : IsRemoval e ↔ ∃ tag, e = removal tag := by
  constructor
  · intro h
    obtain ⟨rest, hrest⟩ := List.head?_eq_some_iff.mp h
    exact ⟨String.ofList rest, by rw [removal, String.toList_ofList, ← hrest, String.ofList_toList]⟩
  · rintro ⟨tag, rfl⟩
    rw [IsRemoval, removal, String.toList_ofList, List.head?_cons]

lemma addTag_removal (on : List String) (tag : String) :
    addTag on (removal tag) = on.filter (· != tag) := by
  rw [addTag, removal, String.toList_ofList]
  simp only [String.ofList_toList]

lemma addTag_of_not_isRemoval (h : ¬ IsRemoval e) :
    addTag on e = if e ∈ on then on else on ++ [e] := by
  rw [addTag]
  split
  · rename_i removed hremoved
    exact absurd (by rw [IsRemoval, hremoved, List.head?_cons]) h
  · simp only [List.contains_iff_mem]

lemma removal_injective : Function.Injective removal := by
  intro s t h
  have hlist := String.ofList_injective h
  exact String.toList_injective (List.cons.inj hlist).2

/-- An entry adds itself, and leaves the tags that it does not take away. -/
lemma mem_addTag_iff : t ∈ addTag on e ↔ (¬ IsRemoval e ∧ e = t) ∨ (t ∈ on ∧ e ≠ removal t) := by
  by_cases he : IsRemoval e
  · obtain ⟨tag, rfl⟩ := isRemoval_iff.mp he
    have hne : t ≠ tag ↔ removal tag ≠ removal t := by
      rw [ne_comm, removal_injective.ne_iff]
    simp [addTag_removal, he, hne]
  · have hne : e ≠ removal t := fun h => he (isRemoval_iff.mpr ⟨t, h⟩)
    rw [addTag_of_not_isRemoval he]
    split
    · rename_i hmem
      refine ⟨fun ht => Or.inr ⟨ht, hne⟩, ?_⟩
      rintro (⟨-, rfl⟩ | ⟨ht, -⟩)
      · exact hmem
      · exact ht
    · rw [List.mem_append, List.mem_singleton, or_comm, eq_comm]
      simp [he, hne]

lemma nodup_addTag (h : on.Nodup) : (addTag on e).Nodup := by
  by_cases he : IsRemoval e
  · obtain ⟨tag, rfl⟩ := isRemoval_iff.mp he
    rw [addTag_removal]
    exact h.filter _
  · rw [addTag_of_not_isRemoval he]
    split
    · exact h
    · rename_i hmem
      exact h.append (List.nodup_singleton e) (List.disjoint_singleton.mpr hmem)

/-! ### One more entry -/

lemma activeTags_concat (entries : List String) (e : String) :
    activeTags (entries ++ [e]) = addTag (activeTags entries) e := by
  rw [activeTags, activeTags, List.foldl_append, List.foldl_cons, List.foldl_nil]

lemma lt_length_of_mem_lastingPlaces (h : i ∈ lastingPlaces entries t) : i < entries.length :=
  (List.getElem?_eq_some_iff.mp h.1).1

/-- A further entry is a lasting place of its own, and leaves those of the tags that it does not
take away. -/
lemma mem_lastingPlaces_concat_iff :
    i ∈ lastingPlaces (entries ++ [e]) t
      ↔ (e = t ∧ i = entries.length) ∨ (i ∈ lastingPlaces entries t ∧ e ≠ removal t) := by
  have hend : (entries ++ [e])[entries.length]? = some e := List.getElem?_concat_length
  have hbefore : ∀ {k}, k < entries.length → (entries ++ [e])[k]? = entries[k]? :=
    fun hk => List.getElem?_append_left hk
  constructor
  · rintro ⟨hi, hlasts⟩
    obtain hlt | heq : i < entries.length ∨ i = entries.length := by
      have hbound := (List.getElem?_eq_some_iff.mp hi).1
      rw [List.length_append, List.length_singleton] at hbound
      omega
    · refine Or.inr ⟨⟨(hbefore hlt).symm.trans hi, fun j hij hj => ?_⟩, fun he => ?_⟩
      · have hjlt := (List.getElem?_eq_some_iff.mp hj).1
        exact hlasts j hij ((hbefore hjlt).trans hj)
      · exact hlasts _ hlt (hend.trans (congrArg some he))
    · subst heq
      exact Or.inl ⟨Option.some.inj (hend.symm.trans hi), rfl⟩
  · rintro (⟨rfl, rfl⟩ | ⟨hi, he⟩)
    · refine ⟨hend, fun j hj hremoved => ?_⟩
      have hbound := (List.getElem?_eq_some_iff.mp hremoved).1
      rw [List.length_append, List.length_singleton] at hbound
      omega
    · have hlt := lt_length_of_mem_lastingPlaces hi
      refine ⟨(hbefore hlt).trans hi.1, fun j hij hremoved => ?_⟩
      obtain hj | hj := Nat.lt_or_ge j entries.length
      · exact hi.2 j hij ((hbefore hj).symm.trans hremoved)
      · have hjend : j = entries.length := by
          have hbound := (List.getElem?_eq_some_iff.mp hremoved).1
          rw [List.length_append, List.length_singleton] at hbound
          omega
        subst hjend
        exact he (Option.some.inj (hend.symm.trans hremoved))

/-- The first lasting place of a tag stays the first one until the tag is taken away. -/
lemma isLeast_lastingPlaces_concat (h : IsLeast (lastingPlaces entries t) i) (he : e ≠ removal t) :
    IsLeast (lastingPlaces (entries ++ [e]) t) i := by
  refine ⟨mem_lastingPlaces_concat_iff.mpr (Or.inr ⟨h.1, he⟩), fun j hj => ?_⟩
  obtain ⟨-, rfl⟩ | ⟨hj, -⟩ := mem_lastingPlaces_concat_iff.mp hj
  · exact Nat.le_of_lt (lt_length_of_mem_lastingPlaces h.1)
  · exact h.2 hj

lemma InOrderOf.concat {s : String} (h : InOrderOf entries s t) (hs : e ≠ removal s)
    (ht : e ≠ removal t) : InOrderOf (entries ++ [e]) s t := by
  obtain ⟨i, j, hi, hj, hij⟩ := h
  exact ⟨i, j, isLeast_lastingPlaces_concat hi hs, isLeast_lastingPlaces_concat hj ht, hij⟩

/-! ### All entries -/

/-- A tag is on if it stands somewhere and is not taken away behind that place. -/
lemma mem_activeTags_iff (entries : List String) (t : String) :
    t ∈ activeTags entries ↔ ¬ IsRemoval t ∧ (lastingPlaces entries t).Nonempty := by
  induction entries using List.reverseRecOn with
  | nil =>
      have hempty : lastingPlaces [] t = ∅ := Set.eq_empty_of_forall_notMem fun i hi =>
        nomatch lt_length_of_mem_lastingPlaces hi
      simp [activeTags, hempty]
  | append_singleton entries e ih =>
      rw [activeTags_concat, mem_addTag_iff, ih]
      simp only [Set.Nonempty, mem_lastingPlaces_concat_iff]
      constructor
      · rintro (⟨hnot, rfl⟩ | ⟨⟨hnot, i, hi⟩, he⟩)
        · exact ⟨hnot, entries.length, Or.inl ⟨rfl, rfl⟩⟩
        · exact ⟨hnot, i, Or.inr ⟨hi, he⟩⟩
      · rintro ⟨hnot, i, ⟨rfl, -⟩ | ⟨hi, he⟩⟩
        · exact Or.inl ⟨hnot, rfl⟩
        · exact Or.inr ⟨⟨hnot, i, hi⟩, he⟩

lemma nodup_activeTags (entries : List String) : (activeTags entries).Nodup := by
  induction entries using List.reverseRecOn with
  | nil => exact List.nodup_nil
  | append_singleton entries e ih => exact activeTags_concat entries e ▸ nodup_addTag ih

lemma exists_isLeast_of_mem (h : t ∈ activeTags entries) :
    ∃ i, IsLeast (lastingPlaces entries t) i ∧ i < entries.length := by
  classical
  obtain ⟨-, hplaces⟩ := (mem_activeTags_iff entries t).mp h
  have hfind := Nat.find_spec hplaces
  exact ⟨_, ⟨hfind, fun j hj => Nat.find_min' hplaces hj⟩, lt_length_of_mem_lastingPlaces hfind⟩

/-- A tag that was not on gets its first lasting place with the entry that adds it. -/
lemma inOrderOf_concat_self {s : String} (he : ¬ IsRemoval e) (hnew : e ∉ activeTags entries)
    (hs : s ∈ activeTags entries) : InOrderOf (entries ++ [e]) s e := by
  obtain ⟨i, hi, hlt⟩ := exists_isLeast_of_mem hs
  have hne : e ≠ removal s := fun h => he (isRemoval_iff.mpr ⟨s, h⟩)
  refine ⟨i, entries.length, isLeast_lastingPlaces_concat hi hne,
    ⟨mem_lastingPlaces_concat_iff.mpr (Or.inl ⟨rfl, rfl⟩), fun j hj => ?_⟩, hlt⟩
  obtain ⟨-, rfl⟩ | ⟨hj, -⟩ := mem_lastingPlaces_concat_iff.mp hj
  · exact Nat.le_refl _
  · exact absurd ((mem_activeTags_iff entries e).mpr ⟨he, j, hj⟩) hnew

/-- The tags come in the order in which they were added behind their last removals. -/
lemma pairwise_activeTags (entries : List String) :
    (activeTags entries).Pairwise (InOrderOf entries) := by
  induction entries using List.reverseRecOn with
  | nil => exact List.Pairwise.nil
  | append_singleton entries e ih =>
      rw [activeTags_concat]
      by_cases he : IsRemoval e
      · -- what is left keeps its places
        obtain ⟨tag, rfl⟩ := isRemoval_iff.mp he
        rw [addTag_removal]
        refine (ih.filter _).imp_of_mem fun {s t} hs ht h => h.concat ?_ ?_
        · rintro heq
          simp [removal_injective heq] at hs
        · rintro heq
          simp [removal_injective heq] at ht
      · have hne : ∀ s, e ≠ removal s := fun s h => he (isRemoval_iff.mpr ⟨s, h⟩)
        have hkept : (activeTags entries).Pairwise (InOrderOf (entries ++ [e])) :=
          ih.imp fun h => h.concat (hne _) (hne _)
        rw [addTag_of_not_isRemoval he]
        split
        · exact hkept
        · rename_i hnew
          refine List.pairwise_append.mpr ⟨hkept, List.pairwise_singleton _ _, fun s hs u hu => ?_⟩
          rw [List.mem_singleton.mp hu]
          exact inOrderOf_concat_self he hnew hs

/-! ### In two steps -/

/-- Tags that are on are read as themselves. -/
lemma activeTags_eq_self (hnodup : on.Nodup) (hnot : ∀ t ∈ on, ¬ IsRemoval t) :
    activeTags on = on := by
  induction on using List.reverseRecOn with
  | nil => rfl
  | append_singleton on t ih =>
      obtain ⟨hon, -, hdisjoint⟩ := List.nodup_append'.mp hnodup
      have ht : ¬ IsRemoval t := hnot t (List.mem_append_right on List.mem_cons_self)
      rw [activeTags_concat, ih hon fun s hs => hnot s (List.mem_append_left [t] hs),
        addTag_of_not_isRemoval ht, if_neg (List.disjoint_singleton.mp hdisjoint)]

lemma activeTags_activeTags_append (entries others : List String) :
    activeTags (activeTags entries ++ others) = activeTags (entries ++ others) := by
  have hself : activeTags (activeTags entries) = activeTags entries :=
    activeTags_eq_self (nodup_activeTags entries) fun t ht =>
      ((mem_activeTags_iff entries t).mp ht).1
  have happend : ∀ xs, activeTags (xs ++ others) = others.foldl addTag (activeTags xs) :=
    fun xs => List.foldl_append
  rw [happend, happend, hself]

/-- The tags that are on after a list of entries: those that stand somewhere and are not taken away
behind that place, each once, in the order in which they stand first behind their last removals. The
entries can be read in two steps. -/
theorem activeTags_spec (entries : List String) :
    (activeTags entries).Nodup
      ∧ (∀ t, t ∈ activeTags entries ↔ ¬ IsRemoval t ∧ (lastingPlaces entries t).Nonempty)
      ∧ (activeTags entries).Pairwise (InOrderOf entries)
      ∧ ∀ others, activeTags (entries ++ others) = activeTags (activeTags entries ++ others) :=
  ⟨nodup_activeTags entries, mem_activeTags_iff entries, pairwise_activeTags entries,
    fun others => (activeTags_activeTags_append entries others).symm⟩

end

end SvelteStories

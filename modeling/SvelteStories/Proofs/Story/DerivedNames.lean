/-
Export names that are derived from display names, and whether they are valid:

* `runs_of_find?`: the words of a display name begin with the first character that is part of a name;
* `capitalize_run`: a word of name parts begins with a capital when it is run together with others;
* `not_reserved_of_upright`: no reserved word begins like a derived name;
* `IsDerivable`, `isExportName_exportNameOf_iff`: the display names whose export names are valid;
* `ofGiven_displayName`: what becomes of a story that is given a display name alone.
-/
import SvelteStories.Proofs.Story.Capitals
import SvelteStories.Proofs.Story.Ids

namespace SvelteStories

variable {c : Char} {p : Char → Bool} {t w : List Char}

/-! ### Words -/

/-- The first word begins where the first name part stands; without one there are no words. -/
lemma runs_of_find? (p : Char → Bool) (t : List Char) :
    (t.find? p = none → runs p t = [])
      ∧ ∀ c, t.find? p = some c → ∃ w ws, runs p t = (c :: w) :: ws := by
  induction t with
  | nil => exact ⟨fun _ => rfl, nofun⟩
  | cons d t ih =>
      cases hd : p d with
      | true =>
          rw [List.find?_cons_of_pos hd]
          refine ⟨nofun, fun c h => ?_⟩
          obtain rfl := Option.some.inj h
          exact ⟨_, _, runs_cons_of_pos hd t⟩
      | false =>
          rw [List.find?_cons_of_neg (by simp [hd]), runs_cons_of_neg hd]
          exact ih

/-- No word begins with a small letter whose capital needs a mark. -/
def IsUnmarked (t : List Char) : Prop :=
  ∀ w ∈ runs isNamePart t, ∀ c ∈ w.head?, c.toNat ∉ markedSmallLetters

instance : DecidablePred IsUnmarked := fun t =>
  inferInstanceAs (Decidable (∀ w ∈ runs isNamePart t, ∀ c ∈ w.head?, c.toNat ∉ markedSmallLetters))

/-- A word in its place: a capital, and name parts unless its first letter is a marked one. -/
lemma capitalize_run (h : ∀ d ∈ c :: w, isNamePart d = true) :
    ∃ u rest, capitalize (c :: w) = u :: rest ∧ IsCapital c u
      ∧ ((∀ d ∈ rest, isNamePart d = true) ↔ c.toNat ∉ markedSmallLetters) := by
  obtain ⟨hc, hw⟩ := List.forall_mem_cons.mp h
  obtain ⟨u, us, hupper, hu, hmarked⟩ := hasCapital hc
  refine ⟨u, us ++ w, by rw [capitalize, hupper]; rfl, hu, ?_⟩
  rw [List.forall_mem_append, hmarked]
  exact and_iff_left hw

/-- The words run together are name parts exactly if no word begins with a marked letter. -/
lemma forall_isNamePart_iff :
    (∀ d ∈ (runs isNamePart t).flatMap capitalize, isNamePart d = true) ↔ IsUnmarked t := by
  have hword : ∀ w ∈ runs isNamePart t, (∀ d ∈ capitalize w, isNamePart d = true)
      ↔ ∀ c ∈ w.head?, c.toNat ∉ markedSmallLetters := by
    intro w hw
    obtain ⟨hne, hall⟩ := of_mem_runs hw
    obtain ⟨c, w, rfl⟩ := List.exists_cons_of_ne_nil hne
    obtain ⟨u, rest, hcapital, hu, hmarked⟩ := capitalize_run hall
    rw [hcapital, List.forall_mem_cons, and_iff_right hu.part, hmarked]
    simp
  constructor
  · intro h w hw
    exact (hword w hw).mp fun d hd => h d (List.mem_flatMap.mpr ⟨w, hw, hd⟩)
  · intro h d hd
    obtain ⟨w, hw, hd⟩ := List.mem_flatMap.mp hd
    exact (hword w hw).mpr (h w hw) d hd

/-! ### Derived names -/

/-- Every reserved word begins with a small letter of ASCII. -/
lemma reservedWords_small :
    ∀ w ∈ reservedWords, (w.toList.head?.any fun c => isAsciiSmall c.toNat) = true := by
  decide +kernel

lemma not_reserved_of_upright (hc : isAsciiSmall c.toNat = false) :
    String.ofList (c :: t) ∉ reservedWords := by
  intro hmem
  have hsmall := reservedWords_small _ hmem
  rw [String.toList_ofList, List.head?_cons, Option.any_some, hc] at hsmall
  cases hsmall

/-- A name that begins upright is valid by its characters. -/
lemma isExportName_cons_iff (hc : isAsciiSmall c.toNat = false) :
    isExportName (c :: t) = true ↔ isNameStart c = true ∧ ∀ d ∈ t, isNamePart d = true := by
  rw [isExportName_iff, and_iff_left (not_reserved_of_upright hc)]
  constructor
  · rintro ⟨c', t', heq, h⟩
    obtain ⟨rfl, rfl⟩ := List.cons.inj heq
    exact h
  · intro h
    exact ⟨c, t, rfl, h⟩

/-- The words run together begin with a capital of the first name part. -/
lemma flatMap_capitalize_of_find? (h : t.find? isNamePart = some c) :
    ∃ u rest, (runs isNamePart t).flatMap capitalize = u :: rest ∧ IsCapital c u := by
  obtain ⟨w, ws, hruns⟩ := (runs_of_find? isNamePart t).2 c h
  have hword := of_mem_runs (hruns ▸ List.mem_cons_self : c :: w ∈ runs isNamePart t)
  obtain ⟨u, rest, hcapital, hu, -⟩ := capitalize_run hword.2
  exact ⟨u, rest ++ ws.flatMap capitalize, by rw [hruns, List.flatMap_cons, hcapital]; rfl, hu⟩

/-- A display name with a valid export name: its first name part is a digit of ASCII or one that a
name may start with, and no word begins with a marked small letter. -/
structure IsDerivable (t : List Char) : Prop where
  /-- There is a first name part, and a name may begin with it or with `_` before it. -/
  start : ((t.find? isNamePart).any fun c => isNameStart c || isAsciiDigit c) = true
  /-- All words have a capital of name parts. -/
  unmarked : IsUnmarked t

lemma isDerivable_iff : IsDerivable t
    ↔ ((t.find? isNamePart).any fun c => isNameStart c || isAsciiDigit c) = true ∧ IsUnmarked t :=
  ⟨fun h => ⟨h.start, h.unmarked⟩, fun h => ⟨h.1, h.2⟩⟩

instance : DecidablePred IsDerivable := fun _ => decidable_of_iff' _ isDerivable_iff

/-- Exactly the derivable display names have valid export names. -/
lemma isExportName_exportNameOf_iff : isExportName (exportNameOf t) = true ↔ IsDerivable t := by
  rw [isDerivable_iff]
  cases hfind : t.find? isNamePart with
  | none =>
      have hname : exportNameOf t = [] := by
        rw [exportNameOf, (runs_of_find? isNamePart t).1 hfind]
        rfl
      rw [hname]
      exact iff_of_false (by decide) fun h => by cases h.1
  | some c =>
      obtain ⟨u, rest, hname, hu⟩ := flatMap_capitalize_of_find? hfind
      have hparts : IsUnmarked t ↔ ∀ d ∈ rest, isNamePart d = true := by
        rw [← forall_isNamePart_iff, hname, List.forall_mem_cons, and_iff_right hu.part]
      have hderived : exportNameOf t = if isAsciiDigit u then '_' :: u :: rest else u :: rest := by
        rw [exportNameOf, hname]
      rw [hparts, Option.any_some, hderived, ← hu.start, ← hu.digit]
      cases hdigit : isAsciiDigit u with
      | true =>
          -- the underscore starts the name, and the digit goes on with it
          rw [if_pos rfl, isExportName_cons_iff (by decide), List.forall_mem_cons]
          simp [hu.part, isNameStart]
      | false =>
          rw [if_neg Bool.false_ne_true, isExportName_cons_iff hu.upright, Bool.or_false]

/-! ### Stories with a display name alone -/

/-- **Derived names.** A story with a display name alone has the export name that is derived from it
if the display name is derivable, unless that is the name of the list of exports. Of any other display
name the export name, which the author did not write, is said to be invalid. -/
theorem ofGiven_displayName (name : String) :
    (isExportName (exportNameOf name.toList) = true ↔ IsDerivable name.toList)
      ∧ StoryNames.ofGiven (some name) none =
        if IsDerivable name.toList then
          if String.ofList (exportNameOf name.toList) = exportsOrderName then
            .error (.reservedExportName exportsOrderName)
          else .ok ⟨String.ofList (exportNameOf name.toList), name⟩
        else .error (.invalidExportName (String.ofList (exportNameOf name.toList))) := by
  refine ⟨isExportName_exportNameOf_iff, ?_⟩
  rw [StoryNames.ofGiven, checkExportName, String.toList_ofList]
  by_cases h : IsDerivable name.toList
  · rw [if_pos (isExportName_exportNameOf_iff.mpr h), if_pos h]
    split
    · rename_i horder
      rw [horder]
      rfl
    · rfl
  · rw [if_neg (mt isExportName_exportNameOf_iff.mp h), if_neg h]
    rfl

/-- A number of another script is no digit of ASCII, and a capital may need a mark: either way the
name part that is there does not make a valid export name. -/
theorem numbered_columns_not_derivable :
    ("\u0663 columns".toList.any isNamePart = true
      ∧ StoryNames.ofGiven (some "\u0663 columns") none
        = .error (.invalidExportName "\u0663Columns"))
      ∧ "\u01F0".toList.any isNamePart = true
      ∧ StoryNames.ofGiven (some "\u01F0") none = .error (.invalidExportName "J\u030C") := by
  decide +kernel

end SvelteStories

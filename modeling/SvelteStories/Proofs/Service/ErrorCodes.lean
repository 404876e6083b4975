/-
The codes that displayed reports start with:

* `codeTable`: the stage and the number of each cause, in the order of the causes. No pair is in it
  twice, so that `sameCause_iff` tells causes apart by them;
* `code_eq_iff`: a code tells the stage and the number that it is made of;
* `StartsWithCode`, `errorCode?_eq_some_iff`: the messages in which a code is found, and which one;
* `errorCode?_spec`: in the display of a report its own code is found, whatever text is in the report.
-/
import Mathlib.Data.List.TakeWhile
import Mathlib.Tactic.Common
import SvelteStories.Service

namespace SvelteStories

/-! ### Causes -/

/-- Two faults have the same cause, whatever data they name. -/
def Fault.SameCause (f g : Fault) : Prop :=
  f.ctorIdx = g.ctorIdx

/-- How many causes there are in each stage. -/
def causeCounts : List (Stage × Nat) :=
  [(.source, 12), (.compiled, 7), (.metaArgument, 3), (.storyAttributes, 6), (.edits, 4),
    (.component, 1), (.legacy, 1)]

/-- The stages and numbers of the causes. In each stage they are numbered from one on. -/
def codeTable : List (Stage × Nat) :=
  causeCounts.flatMap fun (stage, count) => (List.range count).map fun i => (stage, i + 1)

lemma getElem?_codeTable (f : Fault) : codeTable[f.ctorIdx]? = some (f.stage, f.number) := by
  cases f <;> rfl

lemma nodup_codeTable : codeTable.Nodup := by
  decide

/-- Causes are told apart by their stages and numbers. -/
lemma sameCause_iff (f g : Fault) :
    f.SameCause g ↔ f.stage = g.stage ∧ f.number = g.number := by
  have hf := getElem?_codeTable f
  have hg := getElem?_codeTable g
  have hlt : f.ctorIdx < codeTable.length := (List.getElem?_eq_some_iff.mp hf).1
  calc
    f.SameCause g ↔ codeTable[f.ctorIdx]? = codeTable[g.ctorIdx]? :=
      (List.getElem?_inj hlt nodup_codeTable).symm
    _ ↔ f.stage = g.stage ∧ f.number = g.number := by
      rw [hf, hg, Option.some.injEq, Prod.mk.injEq]

/-! ### The parts of a code -/

lemma toNat_digit {d : Nat} (hd : d < 10) : (Char.ofNat (48 + d)).toNat = 48 + d := by
  rw [Char.ofNat, dif_pos (Or.inl (by omega))]
  rfl

lemma toList_fourDigits (n : Nat) : (fourDigits n).toList
    = [n / 1000 % 10, n / 100 % 10, n / 10 % 10, n % 10].map fun d => Char.ofNat (48 + d) := by
  rw [fourDigits, String.toList_ofList]

/-- Four digits tell a number that has no more. -/
lemma fourDigits_inj {m n : Nat} (hm : m < 10000) (hn : n < 10000)
    (h : (fourDigits m).toList = (fourDigits n).toList) : m = n := by
  have hdigit : ∀ {a b : Nat}, a < 10 → b < 10 → Char.ofNat (48 + a) = Char.ofNat (48 + b) →
      a = b := by
    intro a b ha hb heq
    have hcode := congrArg Char.toNat heq
    rw [toNat_digit ha, toNat_digit hb] at hcode
    omega
  simp only [toList_fourDigits, List.map_cons, List.map_nil, List.cons.injEq, and_true] at h
  obtain ⟨hthousands, hhundreds, htens, hones⟩ := h
  have hthousands := hdigit (by omega) (by omega) hthousands
  have hhundreds := hdigit (by omega) (by omega) hhundreds
  have htens := hdigit (by omega) (by omega) htens
  have hones := hdigit (by omega) (by omega) hones
  omega

lemma number_lt (f : Fault) : f.number < 10000 := by
  cases f <;> simp [Fault.number]

lemma segment_inj {s s' : Stage} (h : s.segment.toList = s'.segment.toList) : s = s' := by
  cases s <;> cases s' <;> first | rfl | exact absurd h (by decide)

lemma toList_code (f : Fault) : f.code.toList
    = codeHead.toList ++ (f.stage.segment.toList ++ '_' :: (fourDigits f.number).toList) := by
  simp [Fault.code, toString]

/-- Codes are told apart by the stages and numbers in them. The number is at the end and always has
four digits, so the stage is what stands before it. -/
lemma code_eq_iff (f g : Fault) : f.code = g.code ↔ f.stage = g.stage ∧ f.number = g.number := by
  constructor
  · intro h
    have hlist := congrArg String.toList h
    rw [toList_code, toList_code] at hlist
    have hlength : ('_' :: (fourDigits f.number).toList).length
        = ('_' :: (fourDigits g.number).toList).length := by
      simp [toList_fourDigits]
    obtain ⟨hstage, hnumber⟩ := List.append_inj' (List.append_cancel_left hlist) hlength
    refine ⟨segment_inj hstage, fourDigits_inj (number_lt f) (number_lt g) ?_⟩
    exact (List.cons.inj hnumber).2
  · rintro ⟨hstage, hnumber⟩
    rw [Fault.code, Fault.code, hstage, hnumber]

/-- No code holds a bracket. -/
lemma bracket_not_mem_code (f : Fault) : ']' ∉ f.code.toList := by
  have hdigit : ∀ {d : Nat}, d < 10 → ']' ≠ Char.ofNat (48 + d) := by
    intro d hd heq
    have hcode := congrArg Char.toNat heq
    rw [toNat_digit hd] at hcode
    have hbracket : ']'.toNat = 93 := rfl
    omega
  have hsegment : ']' ∉ f.stage.segment.toList := by
    cases f.stage <;> decide
  have hhead : ']' ∉ codeHead.toList := by decide
  have hnumber : ']' ∉ (fourDigits f.number).toList := by
    rw [toList_fourDigits, List.mem_map]
    rintro ⟨d, hd, heq⟩
    refine hdigit ?_ heq.symm
    simp only [List.mem_cons, List.not_mem_nil, or_false] at hd
    omega
  rw [toList_code]
  simp only [List.mem_append, List.mem_cons, not_or]
  exact ⟨hhead, hsegment, by decide, hnumber⟩

/-! ### Codes in messages -/

/-- A message starts with a code in brackets. -/
structure StartsWithCode (message code : String) : Prop where
  /-- This is how codes begin. -/
  head : codeHead.toList <+: code.toList
  /-- The first closing bracket ends the code. -/
  word : ']' ∉ code.toList
  /-- With this the message starts. -/
  start : '[' :: (code.toList ++ [']']) <+: message.toList

/-- A word up to a bracket, if there is one. -/
lemma takeWhile_bracket {word rest : List Char} (h : ']' ∉ word) :
    (word ++ ']' :: rest).takeWhile (· != ']') = word := by
  rw [List.takeWhile_append_of_pos, List.takeWhile_cons_of_neg (by simp), List.append_nil]
  intro c hc
  rw [bne_iff_ne]
  rintro rfl
  exact h hc

/-- A word that is not all there is ends at a bracket. -/
lemma exists_append_bracket {rest : List Char}
    (h : (rest.takeWhile (· != ']')).length < rest.length) :
    ∃ behind, rest = rest.takeWhile (· != ']') ++ ']' :: behind := by
  have hrest := List.takeWhile_append_dropWhile (p := (· != ']')) (l := rest)
  have hstop := List.head?_dropWhile_not (· != ']') rest
  cases hdrop : rest.dropWhile (· != ']') with
  | nil =>
      rw [hdrop, List.append_nil] at hrest
      rw [hrest] at h
      exact absurd h (Nat.lt_irrefl _)
  | cons c behind =>
      rw [hdrop] at hrest hstop
      have hc : c = ']' := by simpa using hstop
      rw [hc] at hrest
      exact ⟨behind, hrest.symm⟩

/-- What is found in a message is the code that it starts with. -/
lemma errorCode?_eq_some_iff {message code : String} :
    errorCode? message = some code ↔ StartsWithCode message code := by
  constructor
  · intro h
    rw [errorCode?] at h
    split at h
    · rename_i rest hmessage
      dsimp only at h
      split_ifs at h with hcode
      obtain rfl := Option.some.inj h
      rw [Bool.and_eq_true, decide_eq_true_eq, List.isPrefixOf_iff_prefix] at hcode
      obtain ⟨hlength, hhead⟩ := hcode
      have hword : ']' ∉ rest.takeWhile (· != ']') := by
        intro hmem
        simpa using List.mem_takeWhile_imp hmem
      obtain ⟨behind, hrest⟩ := exists_append_bracket hlength
      refine ⟨by rwa [String.toList_ofList], by rwa [String.toList_ofList], behind, ?_⟩
      rw [String.toList_ofList, hmessage, List.cons_append, List.append_assoc,
        List.singleton_append, ← hrest]
    · cases h
  · rintro ⟨hhead, hword, rest, hmessage⟩
    have hmessage : message.toList = '[' :: (code.toList ++ ']' :: rest) := by
      rw [← hmessage]
      simp
    have hlength : code.toList.length < (code.toList ++ ']' :: rest).length := by
      rw [List.length_append, List.length_cons]
      omega
    simp only [errorCode?, hmessage]
    rw [takeWhile_bracket hword, if_pos, String.ofList_toList]
    rw [Bool.and_eq_true, decide_eq_true_eq, List.isPrefixOf_iff_prefix]
    exact ⟨hlength, hhead⟩

/-- The display of a report starts with its code. -/
lemma startsWithCode_display (r : Report) : StartsWithCode r.display r.fault.code where
  head := by
    rw [toList_code]
    exact List.prefix_append _ _
  word := bracket_not_mem_code r.fault
  start := by
    refine ⟨(s!" {r.fault.message}\n\nIn the stories file: {r.filename}{r.position}" ++
      s!"{r.defectNote}\n\nMore info: {r.fault.docs}").toList, ?_⟩
    simp [Report.display, toString]

/-- **Error codes.** In the display of every report, and in the message of the failure that a caller
is told, the code of its fault is found, whatever the texts in the report are. Faults have the same
code exactly if they have the same cause. In a message that does not start with a code in brackets,
none is found. -/
theorem errorCode?_spec :
    (∀ r : Report, errorCode? r.display = some r.fault.code
        ∧ errorCode? r.failure.message = some r.fault.code)
      ∧ (∀ f g : Fault, f.code = g.code ↔ f.SameCause g)
      ∧ ∀ message, errorCode? message = none ↔ ¬ ∃ code, StartsWithCode message code := by
  have hdisplay : ∀ r : Report, errorCode? r.display = some r.fault.code := fun r =>
    errorCode?_eq_some_iff.mpr (startsWithCode_display r)
  refine ⟨fun r => ⟨hdisplay r, hdisplay r⟩, fun f g => ?_, fun message => ?_⟩
  · rw [code_eq_iff, sameCause_iff]
  · rw [Option.eq_none_iff_forall_ne_some, not_exists]
    exact forall_congr' fun code => not_congr errorCode?_eq_some_iff

end SvelteStories

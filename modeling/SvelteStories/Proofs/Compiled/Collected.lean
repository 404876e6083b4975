/-
The story calls that a walk collects are the outermost ones:

* `NamesValidator`, `CallsStory`: what is called in a story call;
* `FoundCall`: a collected call with its place in the code; `FoundCall.StandsIn`: it is a story
  call, and a checked one that stands as a statement if it was collected as such;
* `Finds`: the collected calls stand beside one another, and every story call is one of them or
  stands in one of them;
* `finds_of_not_isStoryCall`, `exists_finds_forest`: what was found in the children was found in the
  tree;
* `storyCalls_outermost`: so a walk through a function collects the outermost story calls, each
  once, and their places in the text are apart if those of all trees are nested.
-/
import Mathlib.Data.List.Induction
import Mathlib.Data.List.Pairwise
import SvelteStories.Proofs.Compiled.Walk
import SvelteStories.Proofs.Script.Subtree

namespace SvelteStories

open Script

/-! ### Story calls -/

/-- The validator, alone or as a member. -/
inductive NamesValidator : Expr → Prop
  /-- Its name. -/
  | name {s : Span} : NamesValidator (.identifier s validatorName)
  /-- A member of its name. -/
  | member {s : Span} {owner : Expr} : NamesValidator (.member s owner (.name validatorName))

/-- What is called in a story call: the story component, or what the validator returns for it. -/
inductive CallsStory (story : String) : Expr → Prop
  /-- The component. -/
  | component {s : Span} : CallsStory story (.identifier s story)
  /-- The component as the validator returns it. -/
  | checked {span s : Span} {validator : Expr} {types : List Piece} {a : Argument} :
      NamesValidator validator → a.value = .identifier s story →
      CallsStory story (.call ⟨span, validator, types, [a]⟩)

section

variable {story : String} {c : Call} {e : Expr}

lemma isValidator_iff : isValidator e = true ↔ NamesValidator e := by
  constructor
  · intro h
    rw [isValidator.eq_def] at h
    split at h
    · obtain rfl := of_decide_eq_true h
      exact .name
    · obtain rfl := of_decide_eq_true h
      exact .member
    · cases h
  · rintro (_ | _) <;> simp [isValidator]

lemma isNamed_iff : isNamed story e = true ↔ ∃ s, e = .identifier s story := by
  rw [isNamed.eq_def]
  split
  · simp
  · rename_i hne
    simp only [Bool.false_eq_true, false_iff, not_exists]
    exact fun s h => hne s story h

/-- A checked call is a story call whose callee is a call itself. -/
lemma isCheckedCall_iff :
    isCheckedCall story c = true
      ↔ CallsStory story c.callee ∧ ∃ checked, c.callee = .call checked := by
  rw [isCheckedCall]
  constructor
  · intro h
    split at h
    · rename_i checked hcallee
      obtain ⟨span, validator, types, arguments⟩ := checked
      obtain ⟨hvalidator, harguments⟩ := Bool.and_eq_true_iff.mp h
      dsimp only at harguments
      split at harguments
      · obtain ⟨s, hs⟩ := isNamed_iff.mp harguments
        rw [hcallee]
        exact ⟨.checked (isValidator_iff.mp hvalidator) hs, _, rfl⟩
      · cases harguments
    · cases h
  · rintro ⟨hstory, checked, hcallee⟩
    rw [hcallee] at hstory ⊢
    cases hstory with
    | checked hvalidator ha =>
        exact Bool.and_eq_true_iff.mpr ⟨isValidator_iff.mpr hvalidator, isNamed_iff.mpr ⟨_, ha⟩⟩

lemma isStoryCall_iff : isStoryCall story c = true ↔ CallsStory story c.callee := by
  rw [isStoryCall, Bool.or_eq_true, isCheckedCall_iff, Call.calleeName?]
  constructor
  · rintro (h | ⟨h, -⟩)
    · split at h
      · rename_i hcallee
        rw [hcallee, Option.some.inj (of_decide_eq_true h)]
        exact .component
      · simp at h
    · exact h
  · intro h
    cases hcallee : c.callee with
    | identifier s name =>
        rw [hcallee] at h
        cases h
        exact Or.inl (decide_eq_true rfl)
    | call checked => exact Or.inr ⟨hcallee ▸ h, checked, rfl⟩
    | _ =>
        rw [hcallee] at h
        cases h

end

/-! ### Collected calls with their places -/

/-- A collected call with its place. -/
structure FoundCall where
  /-- The place of the call. -/
  place : List ℕ
  /-- The call as it was collected. -/
  collected : StoryCall

/-- At the place of a collected call there is a story call. One that was collected as a statement is
the expression of a statement. -/
structure FoundCall.StandsIn (story : String) (at? : List ℕ → Option Tree) (f : FoundCall) :
    Prop where
  /-- The call stands at the place. -/
  call : at? f.place = some (.expr (.call f.collected.call))
  /-- It is a story call. -/
  callee : CallsStory story f.collected.call.callee
  /-- The statement of the call is around it. -/
  statement : f.collected.isStatement = true → ∃ outer span, f.place = outer ++ [0]
    ∧ at? outer = some (.statement (.expression span (.call f.collected.call)))

/-- Neither place leads on to the other. -/
def FoundCall.Beside (f g : FoundCall) : Prop :=
  ¬ f.place <+: g.place ∧ ¬ g.place <+: f.place

/-- Calls were found that stand beside one another, and all story calls are among them or in
them. -/
structure Finds (story : String) (at? : List ℕ → Option Tree) (found : List FoundCall) : Prop where
  /-- The calls stand at their places. -/
  stand : ∀ f ∈ found, f.StandsIn story at?
  /-- They stand beside one another. -/
  beside : found.Pairwise FoundCall.Beside
  /-- Every story call is one of them or stands in one of them. -/
  covers : ∀ place c, at? place = some (.expr (.call c)) → CallsStory story c.callee →
    ∃ f ∈ found, f.place <+: place

section

variable {story : String} {t : Tree} {ts : List Tree} {found found' : List FoundCall}
  {at? at?' : List ℕ → Option Tree} {f : FoundCall}

/-- A call as it is seen from further out. -/
def FoundCall.under (outer : List ℕ) (f : FoundCall) : FoundCall :=
  { f with place := outer ++ f.place }

lemma FoundCall.StandsIn.under (h : f.StandsIn story at?) (outer : List ℕ)
    (hat : ∀ place n, at? place = some n → at?' (outer ++ place) = some n) :
    (f.under outer).StandsIn story at?' := by
  refine ⟨hat _ _ h.call, h.callee, fun hstatement => ?_⟩
  obtain ⟨inner, span, hplace, hinner⟩ := h.statement hstatement
  exact ⟨outer ++ inner, span, by rw [FoundCall.under, hplace, List.append_assoc], hat _ _ hinner⟩

lemma FoundCall.StandsIn.mono (h : f.StandsIn story at?)
    (hat : ∀ place n, at? place = some n → at?' place = some n) : f.StandsIn story at?' :=
  h.under [] hat

lemma Finds.beside_of_mem (h : Finds story at? found) {g : FoundCall} (hf : f ∈ found)
    (hg : g ∈ found) (hne : f ≠ g) : f.Beside g := by
  have hsymm : Std.Symm FoundCall.Beside := ⟨fun _ _ hbeside => hbeside.symm⟩
  exact h.beside.forall hf hg hne

/-! ### What is found in a tree -/

/-- A story call is all that is found in it. -/
lemma finds_call {c : Call} (h : isStoryCall story c = true) :
    Finds story (Tree.expr (.call c)).at? [⟨[], ⟨c, false⟩⟩] := by
  refine ⟨fun f hf => ?_, List.pairwise_singleton _ _,
    fun place _ _ _ => ⟨_, List.mem_cons_self, List.nil_prefix⟩⟩
  obtain rfl := List.mem_singleton.mp hf
  exact ⟨rfl, isStoryCall_iff.mp h, fun hstatement => nomatch hstatement⟩

/-- A statement of a checked call is all that is found in it. -/
lemma finds_statement {span : Span} {c : Call} (h : isCheckedCall story c = true) :
    Finds story (Tree.statement (.expression span (.call c))).at? [⟨[0], ⟨c, true⟩⟩] := by
  refine ⟨fun f hf => ?_, List.pairwise_singleton _ _,
    fun place c' hplace _ => ⟨_, List.mem_cons_self, ?_⟩⟩
  · obtain rfl := List.mem_singleton.mp hf
    exact ⟨rfl, (isCheckedCall_iff.mp h).1, fun _ => ⟨[], span, rfl, rfl⟩⟩
  · cases place with
    | nil => cases hplace
    | cons i place =>
        obtain ⟨n, hn, -⟩ := treeAt?_cons_eq_some_iff.mp hplace
        obtain ⟨hi, -⟩ := List.getElem?_eq_some_iff.mp hn
        obtain rfl : i = 0 := Nat.lt_one_iff.mp hi
        exact List.prefix_append [0] place

/-- What is found in the children of a tree that is no story call is found in the tree. -/
lemma finds_of_not_isStoryCall (ht : t.isStoryCall story = false)
    (h : Finds story (treeAt? t.children) found) : Finds story t.at? found := by
  have hat : ∀ place n, treeAt? t.children place = some n → t.at? place = some n := by
    intro place n hn
    cases place with
    | nil => cases hn
    | cons i place => exact hn
  refine ⟨fun f hf => (h.stand f hf).mono hat, h.beside, fun place c hplace hc => ?_⟩
  cases place with
  | nil =>
      obtain rfl := Option.some.inj hplace
      exact absurd (isStoryCall_iff.mpr hc) (Bool.eq_false_iff.mp ht)
  | cons i place => exact h.covers _ c hplace hc

lemma treeAt?_append {us : List Tree} {place : List ℕ} {n : Tree} (h : treeAt? ts place = some n) :
    treeAt? (ts ++ us) place = some n := by
  cases place with
  | nil => cases h
  | cons i place =>
      obtain ⟨c, hc, hn⟩ := treeAt?_cons_eq_some_iff.mp h
      obtain ⟨hi, -⟩ := List.getElem?_eq_some_iff.mp hc
      exact treeAt?_cons_eq_some_iff.mpr ⟨c, (List.getElem?_append_left hi).trans hc, hn⟩

lemma treeAt?_concat_length (ts : List Tree) (t : Tree) (place : List ℕ) :
    treeAt? (ts ++ [t]) (ts.length :: place) = t.at? place := by
  rw [treeAt?, List.getElem?_concat_length]
  rfl

/-- What is found in one more tree is found besides. -/
lemma Finds.concat (h : Finds story (treeAt? ts) found) (h' : Finds story t.at? found') :
    Finds story (treeAt? (ts ++ [t])) (found ++ found'.map (·.under [ts.length])) := by
  refine ⟨fun f hf => ?_, List.pairwise_append.mpr ⟨h.beside, ?_, fun f hf g hg => ?_⟩,
    fun place c hplace hc => ?_⟩
  · obtain hf | hf := List.mem_append.mp hf
    · exact (h.stand f hf).mono fun _ _ => treeAt?_append
    · obtain ⟨g, hg, rfl⟩ := List.mem_map.mp hf
      exact (h'.stand g hg).under _ fun place n hn =>
        (treeAt?_concat_length ts t place).trans hn
  · refine List.pairwise_map.mpr (h'.beside.imp fun {f g} hbeside => ?_)
    simpa [FoundCall.Beside, FoundCall.under] using hbeside
  · -- the new tree stands behind the others
    obtain ⟨g, -, rfl⟩ := List.mem_map.mp hg
    have hcall := (h.stand f hf).call
    cases hplace : f.place with
    | nil =>
        rw [hplace] at hcall
        cases hcall
    | cons i place =>
        rw [hplace] at hcall
        obtain ⟨n, hn, -⟩ := treeAt?_cons_eq_some_iff.mp hcall
        obtain ⟨hi, -⟩ := List.getElem?_eq_some_iff.mp hn
        simp only [FoundCall.Beside, FoundCall.under, hplace, List.singleton_append,
          List.cons_prefix_cons]
        omega
  · cases place with
    | nil => cases hplace
    | cons i place =>
        obtain ⟨n, hn, hcall⟩ := treeAt?_cons_eq_some_iff.mp hplace
        obtain hi | hi := Nat.lt_or_ge i ts.length
        · rw [List.getElem?_append_left hi] at hn
          obtain ⟨f, hf, hle⟩ := h.covers _ c (treeAt?_cons_eq_some_iff.mpr ⟨n, hn, hcall⟩) hc
          exact ⟨f, List.mem_append_left _ hf, hle⟩
        · obtain rfl : i = ts.length := by
            have hbound := (List.getElem?_eq_some_iff.mp hn).1
            rw [List.length_append, List.length_singleton] at hbound
            omega
          rw [treeAt?_concat_length] at hplace
          obtain ⟨f, hf, hle⟩ := h'.covers place c hplace hc
          exact ⟨f.under [ts.length], List.mem_append_right _ (List.mem_map_of_mem hf),
            List.cons_prefix_cons.mpr ⟨rfl, hle⟩⟩

/-! ### What a walk collects -/

/-- The calls that are collected in trees are found if those in each of them are. -/
lemma exists_finds_forest (h : ∀ t ∈ ts, ∃ found : List FoundCall,
      found.map (·.collected) = t.storyCalls story ∧ Finds story t.at? found) :
    ∃ found : List FoundCall, found.map (·.collected) = ts.flatMap (Tree.storyCalls story)
      ∧ Finds story (treeAt? ts) found := by
  induction ts using List.reverseRecOn with
  | nil =>
      refine ⟨[], rfl, nofun, List.Pairwise.nil, fun place c hplace _ => ?_⟩
      cases place <;> simp [treeAt?] at hplace
  | append_singleton ts t ih =>
      obtain ⟨found, hcalls, hfinds⟩ := ih fun u hu => h u (List.mem_append_left [t] hu)
      obtain ⟨found', hcalls', hfinds'⟩ := h t (List.mem_append_right ts List.mem_cons_self)
      refine ⟨_, ?_, hfinds.concat hfinds'⟩
      rw [List.map_append, List.map_map, hcalls, List.flatMap_append, List.flatMap_singleton,
        ← hcalls']
      rfl

/-- The calls that are collected in a tree are found in it. -/
lemma exists_finds (story : String) (t : Tree) :
    ∃ found : List FoundCall, found.map (·.collected) = t.storyCalls story
      ∧ Finds story t.at? found := by
  induction t using Tree.induction with
  | h t ih =>
      obtain ⟨found, hcalls, hfinds⟩ := exists_finds_forest ih
      cases ht : t.isStoryCall story with
      | false =>
          have hwalk := storyCalls_of_not_isStoryCall ht
          exact ⟨found, hcalls.trans hwalk.symm, finds_of_not_isStoryCall ht hfinds⟩
      | true =>
          -- the walk ends, whatever is found in the children
          rw [Tree.isStoryCall.eq_def] at ht
          split at ht
          · refine ⟨_, ?_, finds_call ht⟩
            simp [Tree.storyCalls, Expr.storyCalls, ht]
          · rename_i span value
            cases value with
            | call c =>
                refine ⟨_, ?_, finds_statement ht⟩
                simp [Tree.storyCalls, Statement.storyCalls, ht, Expr.asStatement]
            | _ => cases ht
          · cases ht

/-- **A walk through a function collects the outermost story calls.** Each of them stands at a
place of the function, beside the others, and every story call is exactly one of them or stands in
exactly one of them. Their places in the text are apart if those of all trees are nested. -/
theorem storyCalls_outermost (story : String) (body : List Piece) :
    ∃ found : List FoundCall, found.map (·.collected) = storyCallsOfPieces story body
      ∧ (∀ f ∈ found, f.StandsIn story (treeAt? (treesOfPieces body)))
      ∧ found.Pairwise FoundCall.Beside
      ∧ (∀ place c, treeAt? (treesOfPieces body) place = some (.expr (.call c)) →
        CallsStory story c.callee → ∃! f, f ∈ found ∧ f.place <+: place)
      ∧ (NestedBeside (treesOfPieces body) →
        (storyCallsOfPieces story body).Pairwise fun a b => a.call.span.Apart b.call.span) := by
  obtain ⟨found, hcalls, hfinds⟩ := exists_finds_forest fun t (_ : t ∈ treesOfPieces body) =>
    exists_finds story t
  rw [← storyCallsOfPieces_eq] at hcalls
  refine ⟨found, hcalls, hfinds.stand, hfinds.beside, fun place c hplace hc => ?_,
    fun hnested => ?_⟩
  · obtain ⟨f, hf, hle⟩ := hfinds.covers place c hplace hc
    refine ⟨f, ⟨hf, hle⟩, fun g hg => ?_⟩
    by_contra hne
    -- of two ways to one place one leads on to the other
    have hbeside := hfinds.beside_of_mem hg.1 hf hne
    obtain h | h := List.prefix_or_prefix_of_prefix hg.2 hle
    · exact hbeside.1 h
    · exact hbeside.2 h
  · rw [← hcalls, List.pairwise_map]
    refine hfinds.beside.imp_of_mem fun {f g} hf hg hbeside => ?_
    exact hnested.apart (hfinds.stand f hf).call (hfinds.stand g hg).call hbeside.1 hbeside.2

end

/-! ### A call in a call -/

/-- The text of a function whose first story call has another one among its arguments. -/
def nestedCallsText : String := "Story(a, Story(b));$.validate_component(Story)(c);"

/-- The outer call. -/
def nestingCall : Call :=
  ⟨⟨0, 18⟩, .identifier ⟨0, 5⟩ "Story", [],
    [.plain (.identifier ⟨6, 7⟩ "a"),
      .plain (.call
        ⟨⟨9, 17⟩, .identifier ⟨9, 14⟩ "Story", [], [.plain (.identifier ⟨15, 16⟩ "b")]⟩)]⟩

/-- The call of the checked component behind it. -/
def checkedCall : Call :=
  ⟨⟨19, 49⟩,
    .call ⟨⟨19, 46⟩, .member ⟨19, 39⟩ (.identifier ⟨19, 20⟩ "$") (.name validatorName), [],
      [.plain (.identifier ⟨40, 45⟩ "Story")]⟩,
    [], [.plain (.identifier ⟨47, 48⟩ "c")]⟩

/-- The function. -/
def nestedCallsBody : List Piece :=
  [.statement (.expression ⟨0, 19⟩ (.call nestingCall)),
    .statement (.expression ⟨19, 50⟩ (.call checkedCall))]

theorem nestedCalls_outermost :
    NestedBeside (treesOfPieces nestedCallsBody)
      ∧ storyCallsOfPieces "Story" nestedCallsBody = [⟨nestingCall, false⟩, ⟨checkedCall, true⟩]
      ∧ (storyCallsOfPieces "Story" nestedCallsBody).Pairwise
          fun a b => a.call.span.Apart b.call.span := by
  have hchecks : (treesOfPieces nestedCallsBody).all
      (Tree.isWellNested nestedCallsText.toList 5) = true := by decide +kernel
  have hnested : NestedBeside (treesOfPieces nestedCallsBody) := by
    refine ⟨by decide, fun n hn => ?_⟩
    exact (Tree.wellNested_of_isWellNested (List.all_eq_true.mp hchecks n hn)).nested
  obtain ⟨-, -, -, -, -, hapart⟩ := storyCalls_outermost "Story" nestedCallsBody
  exact ⟨hnested, by cbv, hapart hnested⟩

end SvelteStories

/-
The forms in which stories are compiled:

* `StoryCallee`, `PropsArgument`, `Lowered`: a story as a call, with its properties plain or spread;
* `Carries`: the properties of the stories that code is compiled from, in the order of its
  statements. Code that calls no story component carries what its parts carry;
* `carries_block`, `carries_if`, `carries_arrow`, `carries_wrapper`: the code that is put around
  stories;
* `StoryCall.lowered?`, `carries_iff`: the forms as they are computed. Code carries properties of
  stories exactly if the calls that the walk collects in it have the forms;
* `Carries.map_props?`: the walk finds the stories, each once, with their properties.
-/
import Mathlib.Data.List.Forall2
import SvelteStories.Proofs.Compiled.Collected
import SvelteStories.Script.Layout

namespace SvelteStories

open Script

/-! ### Forms of a story -/

/-- What is called for a story: the component, or the component as the validator returns it. -/
inductive StoryCallee (story : String) : Bool → Expr → Prop
  /-- The component. -/
  | plain {s : Span} : StoryCallee story false (.identifier s story)
  /-- What a member that is the validator returns for it. -/
  | checked {span s s' : Span} {owner : Expr} {types : List Piece} :
      StoryCallee story true
        (.call ⟨span, .member s owner (.name validatorName), types, [.plain (.identifier s' story)]⟩)

/-- An object literal as it stands in the second argument of a story call. -/
inductive PropsArgument (o : ObjectLiteral) : Expr → Prop
  /-- It is the argument. -/
  | object : PropsArgument o (.object o)
  /-- It is the first of what a helper merges, such as one that spreads properties. -/
  | spread {span : Span} {helper : Expr} {types : List Piece} {rest : List Argument} :
      PropsArgument o (.call ⟨span, helper, types, .plain (.object o) :: rest⟩)

/-- A story with its properties, compiled to a call. A checked call may be a statement. -/
inductive Lowered (story : String) (o : ObjectLiteral) : Tree → Prop
  /-- An expression. -/
  | call {isChecked : Bool} {span : Span} {callee node props : Expr} {types : List Piece} :
      StoryCallee story isChecked callee → PropsArgument o props →
      Lowered story o (.expr (.call ⟨span, callee, types, [.plain node, .plain props]⟩))
  /-- A statement. -/
  | statement {span span' : Span} {callee node props : Expr} {types : List Piece} :
      StoryCallee story true callee → PropsArgument o props →
      Lowered story o
        (.statement (.expression span (.call ⟨span', callee, types, [.plain node, .plain props]⟩)))

/-- Code carries the properties of the stories that it is compiled from, one after the other. -/
inductive Carries (story : String) : List Tree → List ObjectLiteral → Prop
  /-- No code. -/
  | nil : Carries story [] []
  /-- A story before other code. -/
  | story {t : Tree} {ts : List Tree} {o : ObjectLiteral} {os : List ObjectLiteral} :
      Lowered story o t → Carries story ts os → Carries story (t :: ts) (o :: os)
  /-- Before other code, code that is no call of the story component. -/
  | code {t : Tree} {ts : List Tree} {os os' : List ObjectLiteral} :
      t.isStoryCall story = false → Carries story t.children os → Carries story ts os' →
      Carries story (t :: ts) (os ++ os')

/-! ### Forms that are computed -/

/-- Whether an expression is what is called for a story. -/
def Script.Expr.isStoryCallee (story : String) (isChecked : Bool) : Expr → Bool
  | .identifier _ name => !isChecked && name = story
  | .call ⟨_, .member _ _ (.name helper), _, [.plain (.identifier _ name)]⟩ =>
    isChecked && helper = validatorName && name = story
  | _ => false

/-- The object literal that stands in the second argument of a story call. -/
def Script.Expr.propsArgument? : Expr → Option ObjectLiteral
  | .object o => some o
  | .call ⟨_, _, _, .plain (.object o) :: _⟩ => some o
  | _ => none

/-- The properties of a collected call, if it has one of the forms of a story. -/
def StoryCall.lowered? (story : String) (s : StoryCall) : Option ObjectLiteral :=
  match s.call.arguments with
  | [.plain _, .plain props] =>
    if s.call.callee.isStoryCallee story true
        || !s.isStatement && s.call.callee.isStoryCallee story false then
      props.propsArgument?
    else none
  | _ => none

section

variable {story : String} {o : ObjectLiteral} {t : Tree} {ts us : List Tree}
  {os os' : List ObjectLiteral}

/-! ### Code around stories -/

lemma Carries.append (h : Carries story ts os) (h' : Carries story us os') :
    Carries story (ts ++ us) (os ++ os') := by
  induction h with
  | nil => exact h'
  | story hstory _ ih => exact .story hstory ih
  | code hcode hinside _ _ ih =>
      rw [List.append_assoc]
      exact .code hcode hinside ih

/-- Code that is no call of the story component carries what is right inside of it. -/
lemma Carries.around (hcode : t.isStoryCall story = false) (h : Carries story t.children os) :
    Carries story [t] os := by
  simpa using Carries.code hcode h .nil

lemma treesOfPieces_append (ps qs : List Piece) :
    treesOfPieces (ps ++ qs) = treesOfPieces ps ++ treesOfPieces qs := by
  induction ps with
  | nil => rfl
  | cons p ps ih => rw [List.cons_append, treesOfPieces, treesOfPieces, ih, List.append_assoc]

lemma treesOfPieces_textPieces (text : String) : treesOfPieces (textPieces text) = [] := by
  rw [textPieces]
  split <;> rfl

lemma treesOfPieces_newlines (statements : List Statement) :
    treesOfPieces (statements.flatMap fun s => [.newline, .statement s])
      = statements.map Tree.statement := by
  induction statements with
  | nil => rfl
  | cons s statements ih =>
      rw [List.flatMap_cons, treesOfPieces_append, ih]
      rfl

/-- Braces hold their statements. -/
lemma treesOfPieces_blockLayout (statements : List Statement) :
    treesOfPieces (blockLayout statements) = statements.map Tree.statement := by
  have hlines : (statements.map fun s => [Piece.statement s]).flatMap (Piece.newline :: ·)
      = statements.flatMap fun s => [.newline, .statement s] := by
    rw [List.flatMap_map]
  cases statements with
  | nil => rfl
  | cons s statements =>
      rw [blockLayout, bracketLayout, if_neg (by simp), hlines]
      simp only [treesOfPieces, Piece.trees, treesOfPieces_newlines, List.nil_append,
        List.append_nil]

/-- A block carries what its statements carry. -/
lemma carries_block {span : Span} {statements : List Statement}
    (h : Carries story (statements.map Tree.statement) os) :
    Carries story [.statement (.block span statements)] os :=
  .around rfl h

/-- An if-statement carries what its branches carry, if its test carries nothing. -/
lemma carries_if {span : Span} {test : Expr} {yes : Statement} {no : Option Statement}
    (htest : Carries story [.expr test] []) (hyes : Carries story [.statement yes] os)
    (hno : Carries story (no.toList.map Tree.statement) os') :
    Carries story [.statement (.compound span (ifLayout test yes no))] (os ++ os') := by
  have htrees : treesOfPieces (ifLayout test yes no)
      = [Tree.expr test] ++ ([Tree.statement yes] ++ no.toList.map Tree.statement) := by
    cases no with
    | none => rfl
    | some no => cases hblock : yes.isBlock <;> simp [ifLayout, hblock, treesOfPieces, Piece.trees]
  have hparts : Carries story (treesOfPieces (ifLayout test yes no)) (os ++ os') := by
    rw [htrees]
    exact htest.append (hyes.append hno)
  exact .around rfl hparts

/-- The trees in the body of an arrow function. -/
def Script.ArrowBody.trees : ArrowBody → List Tree
  | .statements value => value.map .statement
  | .expression value => [.expr value]

/-- An arrow function carries what its body carries, if its head carries nothing. -/
lemma carries_arrow {span : Span} {isAsync : Bool} {f : FunctionParts} {body : ArrowBody}
    (hhead : Carries story (treesOfPieces (f.typeParameters ++ parametersLayout f.parameters
      ++ f.result)) []) (hbody : Carries story body.trees os) :
    Carries story [.expr (.arrow span (arrowLayout isAsync f body))] os := by
  have hlayout : treesOfPieces body.layout = body.trees := by
    cases body with
    | statements value => exact treesOfPieces_blockLayout value
    | expression value => rfl
  have htrees : treesOfPieces (arrowLayout isAsync f body)
      = treesOfPieces (f.typeParameters ++ parametersLayout f.parameters ++ f.result)
        ++ body.trees := by
    simp [arrowLayout, treesOfPieces_append, treesOfPieces_textPieces, treesOfPieces, Piece.trees,
      hlayout]
  have hparts : Carries story (treesOfPieces (arrowLayout isAsync f body)) os := by
    rw [htrees]
    exact hhead.append hbody
  exact .around rfl hparts

/-- A call of a member, such as one that adds what is known of the source, carries what its first
argument carries, if nothing else in it carries anything. -/
lemma carries_wrapper {span s : Span} {owner first : Expr} {helper : String} {types : List Piece}
    {rest : List Argument} (howner : Carries story [.expr owner] [])
    (hfirst : Carries story [.expr first] os)
    (hrest : Carries story (rest.map Argument.tree) []) :
    Carries story
      [.expr (.call ⟨span, .member s owner (.name helper), types, .plain first :: rest⟩)] os := by
  have hcallee : Carries story [.expr (.member s owner (.name helper))] [] := .around rfl howner
  have hchildren := hcallee.append (hfirst.append hrest)
  rw [List.nil_append, List.append_nil] at hchildren
  exact .around rfl hchildren

/-! ### What the walk finds -/

lemma isStoryCallee_iff {isChecked : Bool} {e : Expr} :
    e.isStoryCallee story isChecked = true ↔ StoryCallee story isChecked e := by
  constructor
  · intro h
    rw [Expr.isStoryCallee.eq_def] at h
    split at h
    · simp only [Bool.and_eq_true, Bool.not_eq_true', decide_eq_true_eq] at h
      obtain ⟨rfl, rfl⟩ := h
      exact .plain
    · simp only [Bool.and_eq_true, decide_eq_true_eq] at h
      obtain ⟨⟨rfl, rfl⟩, rfl⟩ := h
      exact .checked
    · cases h
  · rintro (_ | _) <;> simp [Expr.isStoryCallee]

lemma propsArgument?_eq_some_iff {e : Expr} :
    e.propsArgument? = some o ↔ PropsArgument o e := by
  constructor
  · intro h
    rw [Expr.propsArgument?.eq_def] at h
    split at h
    · obtain rfl := Option.some.inj h
      exact .object
    · obtain rfl := Option.some.inj h
      exact .spread
    · cases h
  · rintro (_ | _) <;> rfl

/-- The forms of a story, as they are computed. -/
lemma lowered?_eq_some_iff {s : StoryCall} :
    s.lowered? story = some o ↔ ∃ node props, s.call.arguments = [.plain node, .plain props]
      ∧ (StoryCallee story true s.call.callee
        ∨ s.isStatement = false ∧ StoryCallee story false s.call.callee)
      ∧ PropsArgument o props := by
  rw [StoryCall.lowered?]
  constructor
  · intro h
    split at h
    · rename_i node props harguments
      split_ifs at h with hcallee
      simp only [Bool.or_eq_true, Bool.and_eq_true, Bool.not_eq_true', isStoryCallee_iff]
        at hcallee
      exact ⟨node, props, harguments, hcallee, propsArgument?_eq_some_iff.mp h⟩
    · cases h
  · rintro ⟨node, props, harguments, hcallee, hprops⟩
    rw [harguments]
    dsimp only
    rw [if_pos, propsArgument?_eq_some_iff.mpr hprops]
    simpa only [Bool.or_eq_true, Bool.and_eq_true, Bool.not_eq_true', isStoryCallee_iff]
      using hcallee

lemma props?_of_lowered? {s : StoryCall} (h : s.lowered? story = some o) : s.props? = some o := by
  obtain ⟨node, props, harguments, -, hprops⟩ := lowered?_eq_some_iff.mp h
  cases hprops with
  | object => simp [StoryCall.props?, harguments]
  | spread => simp [StoryCall.props?, harguments, Call.firstObject?]

lemma StoryCallee.callsStory {isChecked : Bool} {e : Expr} (h : StoryCallee story isChecked e) :
    CallsStory story e := by
  cases h with
  | plain => exact .component
  | checked => exact .checked .member rfl

/-- The walk stops at a story. -/
lemma Lowered.storyCalls (h : Lowered story o t) :
    ∃ s, t.storyCalls story = [s] ∧ s.lowered? story = some o := by
  cases h with
  | @call isChecked span callee node props types hcallee hprops =>
      have hstory : isStoryCall story ⟨span, callee, types, [.plain node, .plain props]⟩ = true :=
        isStoryCall_iff.mpr hcallee.callsStory
      refine ⟨_, by rw [Tree.storyCalls, Expr.storyCalls, if_pos hstory], ?_⟩
      refine lowered?_eq_some_iff.mpr ⟨node, props, rfl, ?_, hprops⟩
      cases isChecked with
      | true => exact Or.inl hcallee
      | false => exact Or.inr ⟨rfl, hcallee⟩
  | @statement span span' callee node props types hcallee hprops =>
      have hchecked : isCheckedCall story ⟨span', callee, types, [.plain node, .plain props]⟩
          = true := by
        refine isCheckedCall_iff.mpr ⟨hcallee.callsStory, ?_⟩
        cases hcallee with
        | checked => exact ⟨_, rfl⟩
      refine ⟨_, by rw [Tree.storyCalls, Statement.storyCalls, Expr.isCheckedCall,
        if_pos hchecked, Expr.asStatement], ?_⟩
      exact lowered?_eq_some_iff.mpr ⟨node, props, rfl, Or.inl hcallee, hprops⟩

/-- Where the walk stops there is a story, if what is collected there has one of the forms. -/
lemma exists_lowered (ht : t.isStoryCall story = true)
    (h : (t.storyCalls story).map (StoryCall.lowered? story) = os.map some) :
    ∃ o, os = [o] ∧ Lowered story o t := by
  have hone {s : StoryCall} (hcalls : t.storyCalls story = [s]) :
      ∃ o, os = [o] ∧ s.lowered? story = some o := by
    rw [hcalls, List.map_singleton] at h
    obtain ⟨o, rest, rfl, ho, hrest⟩ := List.map_eq_cons_iff.mp h.symm
    obtain rfl := List.map_eq_nil_iff.mp hrest
    exact ⟨o, rfl, ho.symm⟩
  rw [Tree.isStoryCall.eq_def] at ht
  split at ht
  · rename_i c
    obtain ⟨o, rfl, hs⟩ := hone (by rw [Tree.storyCalls, Expr.storyCalls, if_pos ht])
    obtain ⟨node, props, harguments, hcallee, hprops⟩ := lowered?_eq_some_iff.mp hs
    obtain ⟨span, callee, types, arguments⟩ := c
    obtain rfl : arguments = [.plain node, .plain props] := harguments
    rcases hcallee with hcallee | ⟨-, hcallee⟩ <;> exact ⟨o, rfl, .call hcallee hprops⟩
  · rename_i span value
    cases value with
    | call c =>
        obtain ⟨o, rfl, hs⟩ := hone (by
          rw [Tree.storyCalls, Statement.storyCalls, if_pos ht, Expr.asStatement])
        obtain ⟨node, props, harguments, hcallee, hprops⟩ := lowered?_eq_some_iff.mp hs
        obtain ⟨span', callee, types, arguments⟩ := c
        obtain rfl : arguments = [.plain node, .plain props] := harguments
        rcases hcallee with hcallee | ⟨hstatement, -⟩
        · exact ⟨o, rfl, .statement hcallee hprops⟩
        · cases hstatement
    | _ => cases ht
  · cases ht

lemma carries_forest
    (h : ∀ t ∈ ts, ∀ os, (t.storyCalls story).map (StoryCall.lowered? story) = os.map some →
      Carries story [t] os)
    (hos : (ts.flatMap (Tree.storyCalls story)).map (StoryCall.lowered? story) = os.map some) :
    Carries story ts os := by
  induction ts generalizing os with
  | nil =>
      obtain rfl := List.map_eq_nil_iff.mp hos.symm
      exact .nil
  | cons t ts ih =>
      rw [List.flatMap_cons, List.map_append] at hos
      obtain ⟨os, os', rfl, hleft, hright⟩ := List.map_eq_append_iff.mp hos.symm
      exact (h t List.mem_cons_self os hleft.symm).append
        (ih (fun u hu => h u (List.mem_cons_of_mem t hu)) hright.symm)

lemma carries_tree (t : Tree)
    (h : (t.storyCalls story).map (StoryCall.lowered? story) = os.map some) :
    Carries story [t] os := by
  induction t using Tree.induction generalizing os with
  | h t ih =>
      cases ht : t.isStoryCall story with
      | false =>
          rw [storyCalls_of_not_isStoryCall ht] at h
          exact .around ht (carries_forest (fun n hn _ => ih n hn) h)
      | true =>
          obtain ⟨o, rfl, hstory⟩ := exists_lowered ht h
          exact .story hstory .nil

/-- Code carries properties of stories exactly if the calls that are collected in it have the forms
of stories with these properties. -/
theorem carries_iff :
    Carries story ts os
      ↔ (ts.flatMap (Tree.storyCalls story)).map (StoryCall.lowered? story) = os.map some := by
  refine ⟨fun h => ?_, carries_forest fun t _ _ => carries_tree t⟩
  induction h with
  | nil => rfl
  | story hstory _ ih =>
      obtain ⟨s, hcalls, hs⟩ := hstory.storyCalls
      rw [List.flatMap_cons, List.map_append, hcalls, ih, List.map_singleton, hs]
      rfl
  | code hcode _ _ ihinside ih =>
      rw [List.flatMap_cons, List.map_append, storyCalls_of_not_isStoryCall hcode, ihinside, ih,
        List.map_append]

/-- The walk finds the stories that code is compiled from, each once and with its properties. -/
theorem Carries.map_props? (h : Carries story ts os) :
    (ts.flatMap (Tree.storyCalls story)).map StoryCall.props? = os.map some := by
  have hcalls := carries_iff.mp h
  simp only [← List.forall₂_eq_eq_eq, List.forall₂_map_left_iff, List.forall₂_map_right_iff]
    at hcalls ⊢
  exact hcalls.imp fun _ _ => props?_of_lowered?

end

end SvelteStories

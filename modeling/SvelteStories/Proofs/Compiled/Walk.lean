/-
The walk that collects story calls:

* `Tree.storyCalls`: the story calls in a tree of any kind;
* `storyCallsOfPieces_eq`, …: what has no place of its own is passed through;
* `storyCalls_cases`: the walk goes on to the children of a tree or ends with a call.
-/
import SvelteStories.Compiled.StoryCall
import SvelteStories.Proofs.Script.Tree

namespace SvelteStories

open Script

/-- The story calls in a tree of any kind. -/
def Script.Tree.storyCalls (story : String) : Tree → List StoryCall
  | .expr e => e.storyCalls story
  | .property p => p.storyCalls story
  | .key k => k.storyCalls story
  | .pattern p => p.storyCalls story
  | .statement s => s.storyCalls story
  | .declaration d => d.storyCalls story

variable (story : String)

/-! ### What is passed through -/

mutual

lemma storyCalls_piece (p : Piece) :
    p.storyCalls story = p.trees.flatMap (Tree.storyCalls story) := by
  cases p with
  | deeper parts => simpa [Piece.storyCalls, Piece.trees] using storyCallsOfPieces_eq parts
  | _ => simp [Piece.storyCalls, Piece.trees, Tree.storyCalls]

/-- The calls in a layout are those in its trees. -/
lemma storyCallsOfPieces_eq (ps : List Piece) :
    storyCallsOfPieces story ps = (treesOfPieces ps).flatMap (Tree.storyCalls story) := by
  cases ps with
  | nil => simp [storyCallsOfPieces, treesOfPieces]
  | cons p ps =>
      rw [storyCallsOfPieces, treesOfPieces, List.flatMap_append, storyCalls_piece p,
        storyCallsOfPieces_eq ps]

end

lemma storyCallsOfArguments_eq (as : List Argument) :
    storyCallsOfArguments story as = (as.map Argument.tree).flatMap (Tree.storyCalls story) := by
  induction as with
  | nil => simp [storyCallsOfArguments]
  | cons a as ih =>
      rw [storyCallsOfArguments, ih]
      cases a <;> simp [Argument.storyCalls, Argument.tree, Tree.storyCalls]

lemma storyCallsOfElements_eq (es : List Element) :
    storyCallsOfElements story es
      = (es.flatMap Element.trees).flatMap (Tree.storyCalls story) := by
  induction es with
  | nil => simp [storyCallsOfElements]
  | cons e es ih =>
      rw [storyCallsOfElements, ih]
      cases e <;> simp [Element.storyCalls, Element.trees, Tree.storyCalls]

lemma storyCallsOfProperties_eq (ps : List Property) :
    storyCallsOfProperties story ps = (ps.map Tree.property).flatMap (Tree.storyCalls story) := by
  induction ps with
  | nil => simp [storyCallsOfProperties]
  | cons p ps ih =>
      rw [storyCallsOfProperties, ih]
      simp [Tree.storyCalls]

lemma storyCallsOfPatternProperties_eq (ps : List PatternProperty) :
    storyCallsOfPatternProperties story ps
      = (ps.flatMap PatternProperty.trees).flatMap (Tree.storyCalls story) := by
  induction ps with
  | nil => simp [storyCallsOfPatternProperties]
  | cons p ps ih =>
      rw [storyCallsOfPatternProperties, ih]
      cases p with
      | shorthand _ _ value =>
          cases value <;> simp [PatternProperty.storyCalls, PatternProperty.trees, Tree.storyCalls]
      | _ => simp [PatternProperty.storyCalls, PatternProperty.trees, Tree.storyCalls]

lemma storyCallsOfPatternElements_eq (es : List PatternElement) :
    storyCallsOfPatternElements story es
      = (es.flatMap PatternElement.trees).flatMap (Tree.storyCalls story) := by
  induction es with
  | nil => simp [storyCallsOfPatternElements]
  | cons e es ih =>
      rw [storyCallsOfPatternElements, ih]
      cases e <;> simp [PatternElement.storyCalls, PatternElement.trees, Tree.storyCalls]

lemma storyCallsOfDeclarators_eq (ds : List Declarator) :
    storyCallsOfDeclarators story ds
      = (ds.flatMap Declarator.trees).flatMap (Tree.storyCalls story) := by
  induction ds with
  | nil => simp [storyCallsOfDeclarators]
  | cons d ds ih =>
      obtain ⟨bound, value⟩ := d
      rw [storyCallsOfDeclarators, ih]
      cases value <;> simp [Declarator.storyCalls, Declarator.trees, Tree.storyCalls]

lemma storyCallsOfStatements_eq (ss : List Statement) :
    storyCallsOfStatements story ss
      = (ss.map Tree.statement).flatMap (Tree.storyCalls story) := by
  induction ss with
  | nil => simp [storyCallsOfStatements]
  | cons s ss ih =>
      rw [storyCallsOfStatements, ih]
      simp [Tree.storyCalls]

/-! ### One step of the walk -/

lemma storyCalls_memberKey (key : MemberKey) :
    key.storyCalls story = key.trees.flatMap (Tree.storyCalls story) := by
  cases key <;> simp [MemberKey.storyCalls, MemberKey.trees, Tree.storyCalls]

/-- A story call ends the walk. Any other expression is walked child by child. -/
lemma storyCalls_expr (e : Expr) :
    e.storyCalls story = e.children.flatMap (Tree.storyCalls story)
      ∨ ∃ c, e = .call c ∧ isStoryCall story c = true ∧ e.storyCalls story = [⟨c, false⟩] := by
  cases e with
  | call c =>
      by_cases hc : isStoryCall story c
      · exact Or.inr ⟨c, rfl, hc, by simp [Expr.storyCalls, hc]⟩
      · left
        obtain ⟨span, callee, types, arguments⟩ := c
        simp [Expr.storyCalls, hc, Call.storyCalls, Expr.children, Tree.storyCalls,
          storyCallsOfArguments_eq]
  | object o =>
      obtain ⟨span, properties⟩ := o
      left
      simp [Expr.storyCalls, ObjectLiteral.storyCalls, Expr.children, storyCallsOfProperties_eq]
  | array _ elements =>
      exact Or.inl (by simp [Expr.storyCalls, Expr.children, storyCallsOfElements_eq])
  | member _ owner key =>
      exact Or.inl (by simp [Expr.storyCalls, Expr.children, storyCalls_memberKey, Tree.storyCalls])
  | _ =>
      left
      simp [Expr.storyCalls, Expr.children, Tree.storyCalls, storyCallsOfPieces_eq]

lemma storyCalls_property (p : Property) :
    p.storyCalls story = p.children.flatMap (Tree.storyCalls story) := by
  cases p <;>
    simp [Property.storyCalls, Property.children, Tree.storyCalls, storyCallsOfPieces_eq]

lemma storyCalls_propertyKey (k : PropertyKey) :
    k.storyCalls story = k.children.flatMap (Tree.storyCalls story) := by
  cases k <;> simp [PropertyKey.storyCalls, PropertyKey.children, Tree.storyCalls]

lemma storyCalls_pattern (p : Pattern) :
    p.storyCalls story = p.children.flatMap (Tree.storyCalls story) := by
  cases p with
  | object o =>
      obtain ⟨span, properties, typing⟩ := o
      simp [Pattern.storyCalls, ObjectPattern.storyCalls, Pattern.children,
        storyCallsOfPatternProperties_eq]
  | array _ elements _ =>
      simp [Pattern.storyCalls, Pattern.children, storyCallsOfPatternElements_eq]
  | _ => simp [Pattern.storyCalls, Pattern.children, Tree.storyCalls]

/-- A statement of a checked call is that call. Any other statement is walked child by child. -/
lemma storyCalls_statement (s : Statement) :
    s.storyCalls story = s.children.flatMap (Tree.storyCalls story)
      ∨ ∃ span c, s = .expression span (.call c) ∧ isCheckedCall story c = true
        ∧ s.storyCalls story = [⟨c, true⟩] := by
  cases s with
  | expression span value =>
      by_cases hvalue : value.isCheckedCall story
      · cases value with
        | call c =>
            exact Or.inr ⟨span, c, rfl, hvalue,
              by simp [Statement.storyCalls, hvalue, Expr.asStatement]⟩
        | _ => simp [Expr.isCheckedCall] at hvalue
      · exact Or.inl (by simp [Statement.storyCalls, hvalue, Statement.children, Tree.storyCalls])
  | «variables» d =>
      exact Or.inl (by simp [Statement.storyCalls, Statement.children, Tree.storyCalls])
  | block _ statements =>
      exact Or.inl (by simp [Statement.storyCalls, Statement.children, storyCallsOfStatements_eq])
  | _ =>
      exact Or.inl (by
        simp [Statement.storyCalls, Statement.children, Tree.storyCalls, storyCallsOfPieces_eq])

lemma storyCalls_variableDeclaration (d : VariableDeclaration) :
    d.storyCalls story
      = (d.declarators.flatMap Declarator.trees).flatMap (Tree.storyCalls story) := by
  obtain ⟨span, keyword, declarators⟩ := d
  simp [VariableDeclaration.storyCalls, storyCallsOfDeclarators_eq]

/-- Whether a tree is a call of the story component, or a statement of a checked one. -/
def Script.Tree.isStoryCall (story : String) : Tree → Bool
  | .expr (.call c) => SvelteStories.isStoryCall story c
  | .statement (.expression _ value) => value.isCheckedCall story
  | _ => false

/-- The walk goes on to the children of a tree, or ends with a call. The call is the tree itself or
the child of the statement that the tree is. -/
theorem storyCalls_cases (t : Tree) :
    t.storyCalls story = t.children.flatMap (Tree.storyCalls story)
      ∨ t.isStoryCall story = true ∧ ∃ s : StoryCall, t.storyCalls story = [s]
        ∧ (t = .expr (.call s.call) ∨ Tree.expr (.call s.call) ∈ t.children) := by
  cases t with
  | expr e =>
      rcases storyCalls_expr story e with h | ⟨c, rfl, hstory, h⟩
      · exact Or.inl h
      · exact Or.inr ⟨hstory, ⟨c, false⟩, h, Or.inl rfl⟩
  | property p => exact Or.inl (storyCalls_property story p)
  | key k => exact Or.inl (storyCalls_propertyKey story k)
  | pattern p => exact Or.inl (storyCalls_pattern story p)
  | statement s =>
      rcases storyCalls_statement story s with h | ⟨span, c, rfl, hstory, h⟩
      · exact Or.inl h
      · exact Or.inr ⟨hstory, ⟨c, true⟩, h, Or.inr (by simp [Tree.children, Statement.children])⟩
  | declaration d => exact Or.inl (storyCalls_variableDeclaration story d)

/-- The walk goes on to the children of what is no story call. -/
lemma storyCalls_of_not_isStoryCall {story : String} {t : Tree} (h : t.isStoryCall story = false) :
    t.storyCalls story = t.children.flatMap (Tree.storyCalls story) := by
  obtain hwalk | ⟨hstory, -⟩ := storyCalls_cases story t
  · exact hwalk
  · exact absurd hstory (Bool.eq_false_iff.mp h)

end SvelteStories

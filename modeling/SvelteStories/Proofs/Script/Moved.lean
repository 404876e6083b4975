/-
Trees that have been moved in a text:

* `Expr.unplaced_movedBy` and its companions: a tree that has been moved is the same but for its
  places;
* `parseExpression_moved`, `parseModule_moved`: a text that has been moved is read as before, but for
  the places.
-/
import SvelteStories.Proofs.Outcome
import SvelteStories.Proofs.Script.Unplaced
import SvelteStories.Script.Parser.Modules

namespace SvelteStories.Script

/-! ### Trees -/

variable (n : Nat)

mutual

/-- An expression that has been moved is the same but for its places. -/
lemma Expr.unplaced_movedBy (e : Expr) : (e.movedBy n).unplaced = e.unplaced := by
  cases e with
  | identifier span name => rfl
  | literal span value => rfl
  | template span parts =>
      rw [Expr.movedBy, Expr.unplaced, Expr.unplaced, unplaced_movedPiecesBy parts]
  | array span elements =>
      rw [Expr.movedBy, Expr.unplaced, Expr.unplaced, unplaced_movedElementsBy elements]
  | object o => rw [Expr.movedBy, Expr.unplaced, Expr.unplaced, o.unplaced_movedBy]
  | paren span inner => rw [Expr.movedBy, Expr.unplaced, Expr.unplaced, inner.unplaced_movedBy]
  | member span owner key =>
      rw [Expr.movedBy, Expr.unplaced, Expr.unplaced, owner.unplaced_movedBy, key.unplaced_movedBy]
  | call c => rw [Expr.movedBy, Expr.unplaced, Expr.unplaced, c.unplaced_movedBy]
  | function span parts =>
      rw [Expr.movedBy, Expr.unplaced, Expr.unplaced, unplaced_movedPiecesBy parts]
  | arrow span parts =>
      rw [Expr.movedBy, Expr.unplaced, Expr.unplaced, unplaced_movedPiecesBy parts]
  | classes span head heritage body =>
      rw [Expr.movedBy, Expr.unplaced, Expr.unplaced, unplaced_movedPiecesBy head,
        unplaced_movedPiecesBy heritage, unplaced_movedPiecesBy body]
  | assign span bound operator value =>
      rw [Expr.movedBy, Expr.unplaced, Expr.unplaced, bound.unplaced_movedBy,
        value.unplaced_movedBy]
  | annotated span about lead inner trail =>
      rw [Expr.movedBy, Expr.unplaced, Expr.unplaced, unplaced_movedPiecesBy lead,
        inner.unplaced_movedBy,
        unplaced_movedPiecesBy trail]
  | compound span form parts =>
      rw [Expr.movedBy, Expr.unplaced, Expr.unplaced, unplaced_movedPiecesBy parts]

lemma ObjectLiteral.unplaced_movedBy (o : ObjectLiteral) : (o.movedBy n).unplaced = o.unplaced := by
  obtain ⟨span, properties⟩ := o
  rw [ObjectLiteral.movedBy, ObjectLiteral.unplaced, ObjectLiteral.unplaced,
        unplaced_movedPropertiesBy properties]

lemma unplaced_movedPropertiesBy (ps : List Property) :
    unplacedProperties (movedPropertiesBy n ps) = unplacedProperties ps := by
  cases ps with
  | nil => rfl
  | cons p ps =>
      rw [movedPropertiesBy, unplacedProperties, unplacedProperties, p.unplaced_movedBy,
        unplaced_movedPropertiesBy ps]

lemma Call.unplaced_movedBy (c : Call) : (c.movedBy n).unplaced = c.unplaced := by
  obtain ⟨span, callee, types, arguments⟩ := c
  rw [Call.movedBy, Call.unplaced, Call.unplaced, callee.unplaced_movedBy,
        unplaced_movedPiecesBy types,
    unplaced_movedArgumentsBy arguments]

lemma unplaced_movedArgumentsBy (as : List Argument) :
    unplacedArguments (movedArgumentsBy n as) = unplacedArguments as := by
  cases as with
  | nil => rfl
  | cons a as =>
      rw [movedArgumentsBy, unplacedArguments, unplacedArguments, a.unplaced_movedBy,
        unplaced_movedArgumentsBy as]

lemma Argument.unplaced_movedBy (a : Argument) : (a.movedBy n).unplaced = a.unplaced := by
  cases a with
  | plain value =>
      rw [Argument.movedBy, Argument.unplaced, Argument.unplaced, value.unplaced_movedBy]
  | spread value =>
      rw [Argument.movedBy, Argument.unplaced, Argument.unplaced, value.unplaced_movedBy]

lemma unplaced_movedElementsBy (es : List Element) :
    unplacedElements (movedElementsBy n es) = unplacedElements es := by
  cases es with
  | nil => rfl
  | cons e es =>
      rw [movedElementsBy, unplacedElements, unplacedElements, e.unplaced_movedBy,
        unplaced_movedElementsBy es]

lemma Element.unplaced_movedBy (e : Element) : (e.movedBy n).unplaced = e.unplaced := by
  cases e with
  | hole => rfl
  | plain value => rw [Element.movedBy, Element.unplaced, Element.unplaced, value.unplaced_movedBy]
  | spread span value =>
      rw [Element.movedBy, Element.unplaced, Element.unplaced, value.unplaced_movedBy]

lemma MemberKey.unplaced_movedBy (k : MemberKey) : (k.movedBy n).unplaced = k.unplaced := by
  cases k with
  | name name => rfl
  | privateName name => rfl
  | computed key =>
      rw [MemberKey.movedBy, MemberKey.unplaced, MemberKey.unplaced, key.unplaced_movedBy]

lemma PropertyKey.unplaced_movedBy (k : PropertyKey) : (k.movedBy n).unplaced = k.unplaced := by
  cases k with
  | identifier span name => rfl
  | string span value raw => rfl
  | number span name raw => rfl
  | bigint span raw => rfl
  | computed span key =>
      rw [PropertyKey.movedBy, PropertyKey.unplaced, PropertyKey.unplaced, key.unplaced_movedBy]

lemma Property.unplaced_movedBy (p : Property) : (p.movedBy n).unplaced = p.unplaced := by
  cases p with
  | keyValue key value =>
      rw [Property.movedBy, Property.unplaced, Property.unplaced, key.unplaced_movedBy,
        value.unplaced_movedBy]
  | shorthand span name => rfl
  | initialized span name value =>
      rw [Property.movedBy, Property.unplaced, Property.unplaced, value.unplaced_movedBy]
  | method span lead key parts =>
      rw [Property.movedBy, Property.unplaced, Property.unplaced, key.unplaced_movedBy,
        unplaced_movedPiecesBy parts]
  | spread span value =>
      rw [Property.movedBy, Property.unplaced, Property.unplaced, value.unplaced_movedBy]

lemma Pattern.unplaced_movedBy (p : Pattern) : (p.movedBy n).unplaced = p.unplaced := by
  cases p with
  | identifier span name typing =>
      rw [Pattern.movedBy, Pattern.unplaced, Pattern.unplaced, unplaced_movedPiecesBy typing]
  | object o => rw [Pattern.movedBy, Pattern.unplaced, Pattern.unplaced, o.unplaced_movedBy]
  | array span elements typing =>
      rw [Pattern.movedBy, Pattern.unplaced, Pattern.unplaced,
        unplaced_movedPatternElementsBy elements,
        unplaced_movedPiecesBy typing]
  | withDefault span bound value =>
      rw [Pattern.movedBy, Pattern.unplaced, Pattern.unplaced, bound.unplaced_movedBy,
        value.unplaced_movedBy]
  | rest span bound typing =>
      rw [Pattern.movedBy, Pattern.unplaced, Pattern.unplaced, bound.unplaced_movedBy,
        unplaced_movedPiecesBy typing]
  | target value => rw [Pattern.movedBy, Pattern.unplaced, Pattern.unplaced, value.unplaced_movedBy]

lemma ObjectPattern.unplaced_movedBy (o : ObjectPattern) : (o.movedBy n).unplaced = o.unplaced := by
  obtain ⟨span, properties, typing⟩ := o
  rw [ObjectPattern.movedBy, ObjectPattern.unplaced, ObjectPattern.unplaced,
        unplaced_movedPatternPropertiesBy properties,
    unplaced_movedPiecesBy typing]

lemma unplaced_movedPatternPropertiesBy (ps : List PatternProperty) :
    unplacedPatternProperties (movedPatternPropertiesBy n ps) = unplacedPatternProperties ps := by
  cases ps with
  | nil => rfl
  | cons p ps =>
      rw [movedPatternPropertiesBy, unplacedPatternProperties, unplacedPatternProperties,
        p.unplaced_movedBy, unplaced_movedPatternPropertiesBy ps]

lemma PatternProperty.unplaced_movedBy (p : PatternProperty) :
    (p.movedBy n).unplaced = p.unplaced := by
  cases p with
  | keyValue key value =>
      rw [PatternProperty.movedBy, PatternProperty.unplaced, PatternProperty.unplaced,
        key.unplaced_movedBy, value.unplaced_movedBy]
  | shorthand span name value =>
      cases value with
      | none => rfl
      | some value =>
      rw [PatternProperty.movedBy, PatternProperty.unplaced, PatternProperty.unplaced,
        value.unplaced_movedBy]
  | rest span bound =>
      rw [PatternProperty.movedBy, PatternProperty.unplaced, PatternProperty.unplaced,
        bound.unplaced_movedBy]

lemma unplaced_movedPatternElementsBy (es : List PatternElement) :
    unplacedPatternElements (movedPatternElementsBy n es) = unplacedPatternElements es := by
  cases es with
  | nil => rfl
  | cons e es =>
      rw [movedPatternElementsBy, unplacedPatternElements, unplacedPatternElements,
        e.unplaced_movedBy, unplaced_movedPatternElementsBy es]

lemma PatternElement.unplaced_movedBy (e : PatternElement) :
    (e.movedBy n).unplaced = e.unplaced := by
  cases e with
  | hole => rfl
  | bound inner =>
      rw [PatternElement.movedBy, PatternElement.unplaced, PatternElement.unplaced,
        inner.unplaced_movedBy]

lemma VariableDeclaration.unplaced_movedBy (d : VariableDeclaration) :
    (d.movedBy n).unplaced = d.unplaced := by
  obtain ⟨span, keyword, declarators⟩ := d
  rw [VariableDeclaration.movedBy, VariableDeclaration.unplaced, VariableDeclaration.unplaced,
        unplaced_movedDeclaratorsBy declarators]

lemma unplaced_movedDeclaratorsBy (ds : List Declarator) :
    unplacedDeclarators (movedDeclaratorsBy n ds) = unplacedDeclarators ds := by
  cases ds with
  | nil => rfl
  | cons d ds =>
      rw [movedDeclaratorsBy, unplacedDeclarators, unplacedDeclarators, d.unplaced_movedBy,
        unplaced_movedDeclaratorsBy ds]

lemma Declarator.unplaced_movedBy (d : Declarator) : (d.movedBy n).unplaced = d.unplaced := by
  obtain ⟨bound, init⟩ := d
  cases init with
  | none =>
      rw [Declarator.movedBy, Declarator.unplaced, Declarator.unplaced, bound.unplaced_movedBy]
  | some init =>
      rw [Declarator.movedBy, Declarator.unplaced, Declarator.unplaced, bound.unplaced_movedBy,
        init.unplaced_movedBy]

lemma Statement.unplaced_movedBy (s : Statement) : (s.movedBy n).unplaced = s.unplaced := by
  cases s with
  | expression span value =>
      rw [Statement.movedBy, Statement.unplaced, Statement.unplaced, value.unplaced_movedBy]
  | «variables» d =>
      rw [Statement.movedBy, Statement.unplaced, Statement.unplaced, d.unplaced_movedBy]
  | function span name parts =>
      rw [Statement.movedBy, Statement.unplaced, Statement.unplaced, unplaced_movedPiecesBy parts]
  | classes span name head heritage body =>
      rw [Statement.movedBy, Statement.unplaced, Statement.unplaced, unplaced_movedPiecesBy head,
        unplaced_movedPiecesBy heritage, unplaced_movedPiecesBy body]
  | block span statements =>
      rw [Statement.movedBy, Statement.unplaced, Statement.unplaced,
        unplaced_movedStatementsBy statements]
  | doWhile span body test =>
      rw [Statement.movedBy, Statement.unplaced, Statement.unplaced, body.unplaced_movedBy,
        test.unplaced_movedBy]
  | compound span parts =>
      rw [Statement.movedBy, Statement.unplaced, Statement.unplaced, unplaced_movedPiecesBy parts]

lemma unplaced_movedStatementsBy (ss : List Statement) :
    unplacedStatements (movedStatementsBy n ss) = unplacedStatements ss := by
  cases ss with
  | nil => rfl
  | cons s ss =>
      rw [movedStatementsBy, unplacedStatements, unplacedStatements, s.unplaced_movedBy,
        unplaced_movedStatementsBy ss]

lemma unplaced_movedPiecesBy (ps : List Piece) :
    unplacedPieces (movedPiecesBy n ps) = unplacedPieces ps := by
  cases ps with
  | nil => rfl
  | cons p ps =>
      rw [movedPiecesBy, unplacedPieces, unplacedPieces, p.unplaced_movedBy,
        unplaced_movedPiecesBy ps]

lemma Piece.unplaced_movedBy (p : Piece) : (p.movedBy n).unplaced = p.unplaced := by
  cases p with
  | text value => rfl
  | newline => rfl
  | deeper parts => rw [Piece.movedBy, Piece.unplaced, Piece.unplaced, unplaced_movedPiecesBy parts]
  | expr value => rw [Piece.movedBy, Piece.unplaced, Piece.unplaced, value.unplaced_movedBy]
  | pattern value => rw [Piece.movedBy, Piece.unplaced, Piece.unplaced, value.unplaced_movedBy]
  | key value => rw [Piece.movedBy, Piece.unplaced, Piece.unplaced, value.unplaced_movedBy]
  | statement value => rw [Piece.movedBy, Piece.unplaced, Piece.unplaced, value.unplaced_movedBy]
  | declaration value => rw [Piece.movedBy, Piece.unplaced, Piece.unplaced, value.unplaced_movedBy]

end

/-! ### Texts that have been moved -/

/-- An expression is read as the same one wherever its text starts. -/
theorem parseExpression_moved {dialect : Dialect} {offset : Nat} {t : List Char} {e : Expr}
    (h : parseExpression dialect offset t = .ok e) (offset' : Nat) :
    ∃ e', parseExpression dialect offset' t = .ok e' ∧ e'.unplaced = e.unplaced := by
  simp only [parseExpression, mapError_eq_ok_iff, map_eq_ok_iff] at h ⊢
  obtain ⟨read, hread, rfl⟩ := h
  exact ⟨_, ⟨read, hread, rfl⟩, by rw [Expr.unplaced_movedBy, Expr.unplaced_movedBy]⟩

/-- A script is one wherever its text starts. -/
theorem parseModule_moved {dialect : Dialect} {offset : Nat} {t : List Char} {items : Program}
    (h : parseModule dialect offset t = .ok items) (offset' : Nat) :
    ∃ items', parseModule dialect offset' t = .ok items' := by
  simp only [parseModule, mapError_eq_ok_iff, map_eq_ok_iff] at h ⊢
  obtain ⟨read, hread, -⟩ := h
  exact ⟨_, read, hread, rfl⟩

end SvelteStories.Script

/-
Trees inside of a tree:

* `Tree.induction`: what passes from the children of every tree to the tree holds of all trees;
* `Tree.at?`, `treeAt?`: the tree at a place, which names a child for each level;
* `Tree.Nested`: every tree in a tree stands in it, apart from its siblings;
* `NestedBeside.apart`: trees at places none of which leads on to the other are apart then.
-/
import SvelteStories.Proofs.Script.WellNested

namespace SvelteStories.Script

/-! ### Sizes -/

mutual

lemma sizeOf_le_of_mem_piece (p : Piece) {n : Tree} (h : n ∈ p.trees) : sizeOf n ≤ sizeOf p := by
  cases p with
  | deeper parts =>
      have hlt := sizeOf_lt_of_mem_pieces parts h
      rw [Piece.deeper.sizeOf_spec]
      omega
  | _ => simp_all [Piece.trees]

lemma sizeOf_lt_of_mem_pieces (ps : List Piece) {n : Tree} (h : n ∈ treesOfPieces ps) :
    sizeOf n < sizeOf ps := by
  cases ps with
  | nil => simp [treesOfPieces] at h
  | cons p ps =>
      rw [treesOfPieces, List.mem_append] at h
      rw [List.cons.sizeOf_spec]
      obtain h | h := h
      · have hle := sizeOf_le_of_mem_piece p h
        omega
      · have hlt := sizeOf_lt_of_mem_pieces ps h
        omega

end

section

variable {n : Tree}

/-- What is passed through is not smaller than the trees in it. -/
lemma sizeOf_lt_of_mem_flatMap {α : Type} [SizeOf α] {f : α → List Tree} {l : List α}
    (hf : ∀ a, n ∈ f a → sizeOf n ≤ sizeOf a) (h : n ∈ l.flatMap f) : sizeOf n < sizeOf l := by
  obtain ⟨a, ha, hn⟩ := List.mem_flatMap.mp h
  exact Nat.lt_of_le_of_lt (hf a hn) (List.sizeOf_lt_of_mem ha)

lemma sizeOf_le_of_mem_map {α : Type} [SizeOf α] {f : α → Tree} {l : List α}
    (hf : ∀ a, sizeOf (f a) ≤ 1 + sizeOf a) (h : n ∈ l.map f) : sizeOf n ≤ sizeOf l := by
  obtain ⟨a, ha, rfl⟩ := List.mem_map.mp h
  have hlt := List.sizeOf_lt_of_mem ha
  have hle := hf a
  omega

lemma sizeOf_le_of_mem_element (e : Element) (h : n ∈ e.trees) : sizeOf n ≤ sizeOf e := by
  cases e <;> simp_all [Element.trees]

lemma sizeOf_le_of_mem_memberKey (k : MemberKey) (h : n ∈ k.trees) : sizeOf n ≤ sizeOf k := by
  cases k <;> simp_all [MemberKey.trees]

lemma sizeOf_le_of_mem_patternProperty (p : PatternProperty) (h : n ∈ p.trees) :
    sizeOf n ≤ sizeOf p := by
  cases p with
  | keyValue key value =>
      simp only [PatternProperty.trees, List.mem_cons, List.not_mem_nil, or_false] at h
      obtain rfl | rfl := h <;> simp
  | shorthand span name default =>
      cases default with
      | none => simp [PatternProperty.trees] at h
      | some value =>
          obtain rfl := List.mem_singleton.mp h
          simp
  | rest span target =>
      obtain rfl := List.mem_singleton.mp h
      simp

lemma sizeOf_le_of_mem_patternElement (e : PatternElement) (h : n ∈ e.trees) :
    sizeOf n ≤ sizeOf e := by
  cases e <;> simp_all [PatternElement.trees]

lemma sizeOf_le_of_mem_declarator (d : Declarator) (h : n ∈ d.trees) : sizeOf n ≤ sizeOf d := by
  obtain ⟨target, init⟩ := d
  cases init with
  | none =>
      obtain rfl := List.mem_singleton.mp h
      simp
  | some value =>
      simp only [Declarator.trees, Option.map_some, Option.toList_some, List.mem_cons,
        List.not_mem_nil, or_false] at h
      obtain rfl | rfl := h <;> simp

lemma sizeOf_le_of_mem_expr (e : Expr) (h : n ∈ e.children) : sizeOf n ≤ sizeOf e := by
  cases e with
  | identifier _ _ | literal _ _ => simp [Expr.children] at h
  | template _ parts | function _ parts | arrow _ parts | compound _ _ parts =>
      have hlt := sizeOf_lt_of_mem_pieces parts h
      simp
      omega
  | array _ elements =>
      have hlt := sizeOf_lt_of_mem_flatMap sizeOf_le_of_mem_element h
      simp
      omega
  | object o =>
      obtain ⟨span, properties⟩ := o
      have hle := sizeOf_le_of_mem_map (l := properties) (fun p => by simp) h
      simp
      omega
  | paren _ inner =>
      obtain rfl := List.mem_singleton.mp h
      simp
  | member _ owner key =>
      obtain rfl | h := List.mem_cons.mp h
      · simp
        omega
      · have hle := sizeOf_le_of_mem_memberKey key h
        simp
        omega
  | call c =>
      obtain ⟨span, callee, types, arguments⟩ := c
      obtain rfl | h := List.mem_cons.mp h
      · simp
        omega
      · have hargument : ∀ a : Argument, sizeOf a.tree ≤ 1 + sizeOf a := fun a => by
          cases a <;> simp [Argument.tree]
        have hle := sizeOf_le_of_mem_map (l := arguments) hargument h
        simp
        omega
  | classes _ head heritage body =>
      simp only [Expr.children, List.mem_append] at h
      obtain (h | h) | h := h <;>
        · have hlt := sizeOf_lt_of_mem_pieces _ h
          simp
          omega
  | assign _ bound _ value =>
      simp only [Expr.children, List.mem_cons, List.not_mem_nil, or_false] at h
      obtain rfl | rfl := h
      · simp
        omega
      · simp
        omega
  | annotated _ _ lead inner trail =>
      simp only [Expr.children, List.mem_append, List.mem_singleton] at h
      obtain (h | rfl) | h := h
      · have hlt := sizeOf_lt_of_mem_pieces lead h
        simp
        omega
      · simp
        omega
      · have hlt := sizeOf_lt_of_mem_pieces trail h
        simp
        omega

lemma sizeOf_le_of_mem_property (p : Property) (h : n ∈ p.children) : sizeOf n ≤ sizeOf p := by
  cases p with
  | keyValue key value =>
      simp only [Property.children, List.mem_cons, List.not_mem_nil, or_false] at h
      obtain rfl | rfl := h
      · simp
      · simp
  | shorthand _ _ => simp [Property.children] at h
  | initialized _ _ value =>
      obtain rfl := List.mem_singleton.mp h
      simp
      omega
  | spread _ value =>
      obtain rfl := List.mem_singleton.mp h
      simp
  | method _ _ key parts =>
      obtain rfl | h := List.mem_cons.mp h
      · simp
        omega
      · have hlt := sizeOf_lt_of_mem_pieces parts h
        simp
        omega

lemma sizeOf_le_of_mem_propertyKey (k : PropertyKey) (h : n ∈ k.children) :
    sizeOf n ≤ sizeOf k := by
  cases k with
  | computed _ key =>
      obtain rfl := List.mem_singleton.mp h
      simp
  | _ => simp [PropertyKey.children] at h

lemma sizeOf_le_of_mem_pattern (p : Pattern) (h : n ∈ p.children) : sizeOf n ≤ sizeOf p := by
  cases p with
  | identifier _ _ _ => simp [Pattern.children] at h
  | object o =>
      obtain ⟨span, properties, typing⟩ := o
      have hlt := sizeOf_lt_of_mem_flatMap (l := properties) sizeOf_le_of_mem_patternProperty h
      simp
      omega
  | array _ elements _ =>
      have hlt := sizeOf_lt_of_mem_flatMap sizeOf_le_of_mem_patternElement h
      simp
      omega
  | withDefault _ bound value =>
      simp only [Pattern.children, List.mem_cons, List.not_mem_nil, or_false] at h
      obtain rfl | rfl := h
      · simp
        omega
      · simp
        omega
  | rest _ bound _ =>
      obtain rfl := List.mem_singleton.mp h
      simp
      omega
  | target value =>
      obtain rfl := List.mem_singleton.mp h
      simp

lemma sizeOf_le_of_mem_statement (s : Statement) (h : n ∈ s.children) : sizeOf n ≤ sizeOf s := by
  cases s with
  | expression _ value | «variables» d =>
      obtain rfl := List.mem_singleton.mp h
      simp
  | function _ _ parts | compound _ parts =>
      have hlt := sizeOf_lt_of_mem_pieces parts h
      simp
      omega
  | classes _ _ head heritage body =>
      simp only [Statement.children, List.mem_append] at h
      obtain (h | h) | h := h <;>
        · have hlt := sizeOf_lt_of_mem_pieces _ h
          simp
          omega
  | block _ statements =>
      have hle := sizeOf_le_of_mem_map (l := statements) (fun s => by simp) h
      simp
      omega
  | doWhile _ body test =>
      simp only [Statement.children, List.mem_cons, List.not_mem_nil, or_false] at h
      obtain rfl | rfl := h
      · simp
        omega
      · simp
        omega

/-- Children are smaller than the tree that they are in. -/
lemma sizeOf_lt_of_mem_children {t : Tree} (h : n ∈ t.children) : sizeOf n < sizeOf t := by
  cases t with
  | expr e => have hle := sizeOf_le_of_mem_expr e h; simp; omega
  | property p => have hle := sizeOf_le_of_mem_property p h; simp; omega
  | key k => have hle := sizeOf_le_of_mem_propertyKey k h; simp; omega
  | pattern p => have hle := sizeOf_le_of_mem_pattern p h; simp; omega
  | statement s => have hle := sizeOf_le_of_mem_statement s h; simp; omega
  | declaration d =>
      obtain ⟨span, keyword, declarators⟩ := d
      have hlt := sizeOf_lt_of_mem_flatMap (l := declarators) sizeOf_le_of_mem_declarator h
      simp
      omega

end

/-- What holds of a tree as soon as it holds of its children holds of all trees. -/
theorem Tree.induction {P : Tree → Prop} (h : ∀ t : Tree, (∀ n ∈ t.children, P n) → P t)
    (t : Tree) : P t :=
  h t fun n _ => Tree.induction h n
termination_by sizeOf t
decreasing_by exact sizeOf_lt_of_mem_children ‹_›

/-! ### Places -/

/-- The tree at a place in a tree. A place names a child for each level. -/
def Tree.at? : Tree → List ℕ → Option Tree
  | t, [] => some t
  | t, i :: place => t.children[i]?.bind (·.at? place)

/-- The tree at a place in a list of trees. -/
def treeAt? (ts : List Tree) : List ℕ → Option Tree
  | [] => none
  | i :: place => ts[i]?.bind (·.at? place)

/-- Every tree in a tree stands in it, apart from its siblings. -/
inductive Tree.Nested : Tree → Prop
  /-- A tree with such children. -/
  | intro {t : Tree} : (∀ n ∈ t.children, t.span.contains n.span = true) →
      (t.children.Pairwise fun m n => m.span.Apart n.span) → (∀ n ∈ t.children, n.Nested) → t.Nested

/-- Trees beside one another are apart, and in each of them trees are nested. -/
def NestedBeside (ts : List Tree) : Prop :=
  (ts.Pairwise fun m n => m.span.Apart n.span) ∧ ∀ n ∈ ts, n.Nested

section

variable {t m n : Tree} {ts : List Tree} {place place' : List ℕ} {i : ℕ}

lemma Tree.WellNested.nested {text : List Char} (h : t.WellNested text) : t.Nested := by
  induction h with
  | intro hencloses _ _ ih => exact .intro hencloses.inside hencloses.apart ih

lemma treeAt?_cons_eq_some_iff :
    treeAt? ts (i :: place) = some m ↔ ∃ t, ts[i]? = some t ∧ t.at? place = some m :=
  Option.bind_eq_some_iff

/-- Below a tree places go on among its children. -/
lemma Tree.at?_of_ne_nil (h : place ≠ []) : t.at? place = treeAt? t.children place := by
  cases place with
  | nil => exact absurd rfl h
  | cons i place => rfl

/-- The trees in a tree stand in it. -/
lemma Tree.Nested.contains (ht : t.Nested) (h : t.at? place = some m) :
    t.span.contains m.span = true := by
  induction place generalizing t with
  | nil =>
      obtain rfl := Option.some.inj h
      exact Span.contains_refl _
  | cons i place ih =>
      obtain ⟨c, hc, hm⟩ := treeAt?_cons_eq_some_iff.mp h
      have hmem := List.mem_of_getElem? hc
      cases ht with
      | intro hinside _ hchildren =>
          exact Span.contains_trans (hinside c hmem) (ih (hchildren c hmem) hm)

lemma ne_nil_of_not_isPrefix (h : ¬ place <+: place') : place ≠ [] := by
  rintro rfl
  exact h List.nil_prefix

/-- Trees at places none of which leads on to the other are apart. -/
lemma NestedBeside.apart (hts : NestedBeside ts) (hm : treeAt? ts place = some m)
    (hn : treeAt? ts place' = some n) (h : ¬ place <+: place') (h' : ¬ place' <+: place) :
    m.span.Apart n.span := by
  induction place generalizing ts place' with
  | nil => exact absurd List.nil_prefix h
  | cons i place ih =>
      cases place' with
      | nil => exact absurd List.nil_prefix h'
      | cons j place' =>
          obtain ⟨c, hc, hm⟩ := treeAt?_cons_eq_some_iff.mp hm
          obtain ⟨c', hc', hn⟩ := treeAt?_cons_eq_some_iff.mp hn
          have hmem := List.mem_of_getElem? hc
          have hmem' := List.mem_of_getElem? hc'
          by_cases hij : i = j
          · subst hij
            obtain rfl := Option.some.inj (hc.symm.trans hc')
            have hne : ¬ place <+: place' := fun hle => h (List.cons_prefix_cons.mpr ⟨rfl, hle⟩)
            have hne' : ¬ place' <+: place := fun hle => h' (List.cons_prefix_cons.mpr ⟨rfl, hle⟩)
            rw [Tree.at?_of_ne_nil (ne_nil_of_not_isPrefix hne)] at hm
            rw [Tree.at?_of_ne_nil (ne_nil_of_not_isPrefix hne')] at hn
            cases hts.2 c hmem with
            | intro _ hapart hchildren => exact ih ⟨hapart, hchildren⟩ hm hn hne hne'
          · obtain ⟨hi, rfl⟩ := List.getElem?_eq_some_iff.mp hc
            obtain ⟨hj, rfl⟩ := List.getElem?_eq_some_iff.mp hc'
            have hpairwise := List.pairwise_iff_getElem.mp hts.1
            have hapart : ts[i].span.Apart ts[j].span := by
              obtain hlt | hlt := Nat.lt_or_gt_of_ne hij
              · exact hpairwise i j hi hj hlt
              · exact (hpairwise j i hj hi hlt).symm
            exact hapart.mono ((hts.2 _ hmem).contains hm) ((hts.2 _ hmem').contains hn)

end

end SvelteStories.Script

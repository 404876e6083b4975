/-
Templates as a walk meets them:

* `Stretch`: what a walk takes in one step. Opening and closing tags and the clauses of blocks are
  stretches of their own, so that a template is a list of them;
* `tagsOf`, `pendingAfter`: the story tags that a walk over stretches finds, and the comment that is
  pending behind them;
* `storyTags_eq_tagsOf`: the story tags of a template are those that such a walk finds;
* `commentsOf_eq_filterMap`: the comments of a template are those among its stretches.
-/
import Mathlib.Tactic.Common
import SvelteStories.Story.StoriesFile

namespace SvelteStories

open Markup

/-! ### Stretches -/

/-- The kinds of stretches. -/
inductive StretchKind
  /-- A comment of a text. -/
  | comment (data : List Char)
  /-- The beginning of a story. -/
  | story (element : Markup.Element)
  /-- Something that a walk passes over. -/
  | quiet
  /-- Anything else. -/
  | loud

/-- A stretch of a template. -/
structure Stretch where
  /-- Its place. -/
  span : Span
  /-- What stands there. -/
  kind : StretchKind

/-- The comment that a stretch is. -/
def Stretch.comment? (s : Stretch) : Option TemplateComment :=
  match s.kind with
  | .comment data => some ⟨s.span, data⟩
  | .story _ | .quiet | .loud => none

/-- Whether an element is one of the stories that are looked for, if any are. -/
def Markup.Element.isStory (story : Option (List Char)) (e : Markup.Element) : Bool :=
  story.any fun name => e.isComponent name

/-- What an element begins with. -/
def Markup.Element.head (story : Option (List Char)) (e : Markup.Element) : StretchKind :=
  if e.isStory story then .story e else .loud

/-- The stories that are looked for inside of an element. -/
def Markup.Element.inside (story : Option (List Char)) (e : Markup.Element) :
    Option (List Char) :=
  if e.isStory story then none else story

mutual

/-- The stretches of a part of a template. -/
def Markup.Node.stretches (story : Option (List Char)) : Node → List Stretch
  | .text span data => [⟨span, if data.all isBlank then .quiet else .loud⟩]
  | .comment span data => [⟨span, .comment data⟩]
  | .element e => e.stretches story
  | .snippet s => s.stretches
  | .block b => b.stretches story
  | .expression span _ | .tag span _ _ => [⟨span, .loud⟩]

/-- The stretches of parts one behind the other. -/
def stretchesOf (story : Option (List Char)) : List Node → List Stretch
  | [] => []
  | n :: nodes => n.stretches story ++ stretchesOf story nodes

/-- The stretches of an element. One without content is a single stretch. -/
def Markup.Element.stretches (story : Option (List Char)) : Markup.Element → List Stretch
  | e@⟨span, _, _, _, ⟨_, []⟩, _⟩ => [⟨span, e.head story⟩]
  | e@⟨span, _, _, _, ⟨inner, n :: nodes⟩, _⟩ =>
    ⟨⟨span.start, inner.start⟩, e.head story⟩
      :: (n.stretches (e.inside story) ++ stretchesOf (e.inside story) nodes
        ++ [⟨⟨inner.stop, span.stop⟩, .loud⟩])

/-- The stretches of a snippet, in which no stories are looked for. -/
def Markup.Snippet.stretches : Snippet → List Stretch
  | ⟨span, _, _, ⟨inner, nodes⟩⟩ =>
    ⟨⟨span.start, inner.start⟩, .loud⟩
      :: (stretchesOf none nodes ++ [⟨⟨inner.stop, span.stop⟩, .loud⟩])

/-- The stretches of a block. -/
def Markup.Block.stretches (story : Option (List Char)) : Block → List Stretch
  | ⟨span, _, _, branches⟩ => stretchesOfBranches story span.start span.stop branches

/-- The stretches of branches between two offsets, with the clauses around them. -/
def stretchesOfBranches (story : Option (List Char)) :
    (start stop : Nat) → List Fragment → List Stretch
  | start, stop, [] => [⟨⟨start, stop⟩, .loud⟩]
  | start, stop, ⟨span, nodes⟩ :: branches =>
    ⟨⟨start, span.start⟩, .loud⟩
      :: (stretchesOf story nodes ++ stretchesOfBranches story span.stop stop branches)

end

/-! ### A walk over stretches -/

/-- The comment that is pending behind a stretch. -/
def Stretch.next (pending : Option TemplateComment) (s : Stretch) : Option TemplateComment :=
  match s.kind with
  | .comment data => some ⟨s.span, data⟩
  | .quiet => pending
  | .story _ | .loud => none

/-- The story tag that a stretch is, with the comment that is pending before it. -/
def Stretch.tag? (pending : Option TemplateComment) (s : Stretch) : Option StoryTag :=
  match s.kind with
  | .story e => some ⟨e, pending⟩
  | .comment _ | .quiet | .loud => none

/-- The comment that is pending behind stretches. -/
def pendingAfter (pending : Option TemplateComment) (l : List Stretch) : Option TemplateComment :=
  l.foldl Stretch.next pending

/-- The story tags among stretches. -/
def tagsOf : (pending : Option TemplateComment) → List Stretch → List StoryTag
  | _, [] => []
  | pending, s :: l => (s.tag? pending).toList ++ tagsOf (s.next pending) l

section

variable {pending : Option TemplateComment} {s : Stretch} {l l' : List Stretch}

lemma pendingAfter_append :
    pendingAfter pending (l ++ l') = pendingAfter (pendingAfter pending l) l' :=
  List.foldl_append

lemma tagsOf_append :
    tagsOf pending (l ++ l') = tagsOf pending l ++ tagsOf (pendingAfter pending l) l' := by
  induction l generalizing pending with
  | nil => rfl
  | cons s l ih =>
      rw [List.cons_append, tagsOf, tagsOf, ih, List.append_assoc]
      rfl

/-- Nothing is pending behind a tag or a clause. -/
lemma pendingAfter_concat_loud {span : Span} :
    pendingAfter pending (l ++ [⟨span, .loud⟩]) = none := by
  rw [pendingAfter_append]
  rfl

lemma tagsOf_concat_loud {span : Span} :
    tagsOf pending (l ++ [⟨span, .loud⟩]) = tagsOf pending l := by
  rw [tagsOf_append]
  exact List.append_nil _

lemma tagsOf_cons_loud {span : Span} : tagsOf pending (⟨span, .loud⟩ :: l) = tagsOf none l := rfl

/-- Where no story begins, none is found. -/
lemma tagsOf_eq_nil (h : ∀ s ∈ l, ∀ e, s.kind ≠ .story e) : tagsOf pending l = [] := by
  induction l generalizing pending with
  | nil => rfl
  | cons s l ih =>
      obtain ⟨hs, hl⟩ := List.forall_mem_cons.mp h
      rw [tagsOf, ih hl, List.append_nil]
      unfold Stretch.tag?
      split
      · rename_i e he
        exact absurd he (hs e)
      · rfl
      · rfl
      · rfl

end

/-! ### One level down -/

/-- The parts of a template right inside of another one. -/
def Markup.Node.children : Node → List Node
  | .element e => e.fragment.nodes
  | .snippet s => s.body.nodes
  | .block b => b.branches.flatMap Fragment.nodes
  | .text _ _ | .comment _ _ | .expression _ _ | .tag _ _ _ => []

/-- What holds of a part of a template if it holds of the parts inside, holds of all. -/
theorem Markup.Node.induct {motive : Node → Prop}
    (h : ∀ n : Node, (∀ m ∈ n.children, motive m) → motive n) (n : Node) : motive n :=
  h n fun m _ => Markup.Node.induct h m
termination_by sizeOf n
decreasing_by
  rename_i hm
  cases n with
  | element e =>
      obtain ⟨_, _, _, _, ⟨_, nodes⟩, _⟩ := e
      have := List.sizeOf_lt_of_mem hm
      simp_all [children]
      omega
  | snippet s =>
      obtain ⟨_, _, _, ⟨_, nodes⟩⟩ := s
      have := List.sizeOf_lt_of_mem hm
      simp_all [children]
      omega
  | block b =>
      obtain ⟨_, _, _, branches⟩ := b
      obtain ⟨⟨_, nodes⟩, hf, hm⟩ := List.mem_flatMap.mp hm
      have := List.sizeOf_lt_of_mem hf
      have := List.sizeOf_lt_of_mem hm
      simp_all
      omega
  | text _ _ | comment _ _ | expression _ _ | tag _ _ _ => exact absurd hm List.not_mem_nil

lemma Markup.Element.stretches_eq (story : Option (List Char)) (e : Markup.Element) :
    e.stretches story
      = if e.fragment.nodes = [] then [⟨e.span, e.head story⟩]
        else ⟨⟨e.span.start, e.fragment.span.start⟩, e.head story⟩
          :: (stretchesOf (e.inside story) e.fragment.nodes
            ++ [⟨⟨e.fragment.span.stop, e.span.stop⟩, .loud⟩]) := by
  obtain ⟨span, kind, name, attributes, ⟨inner, nodes⟩, selfClosing⟩ := e
  cases nodes with
  | nil => rw [Markup.Element.stretches, if_pos rfl]
  | cons n nodes => rw [Markup.Element.stretches, if_neg (List.cons_ne_nil n nodes), stretchesOf]

lemma Markup.Element.storyTags_eq (story : List Char) (e : Markup.Element) :
    e.storyTags story = SvelteStories.storyTags story none e.fragment.nodes := by
  obtain ⟨_, _, _, _, ⟨_, _⟩, _⟩ := e
  rw [Markup.Element.storyTags, Markup.Fragment.storyTags]

/-- The stretches of a snippet are those of a branch in which no stories are looked for. -/
lemma Markup.Snippet.stretches_eq (s : Snippet) :
    s.stretches = stretchesOfBranches none s.span.start s.span.stop [s.body] := by
  obtain ⟨_, _, _, ⟨_, _⟩⟩ := s
  simp [Markup.Snippet.stretches, stretchesOfBranches]

lemma Markup.Block.stretches_eq (story : Option (List Char)) (b : Block) :
    b.stretches story = stretchesOfBranches story b.span.start b.span.stop b.branches := by
  obtain ⟨_, _, _, _⟩ := b
  rw [Markup.Block.stretches]

lemma stretchesOf_eq_flatMap (story : Option (List Char)) (nodes : List Node) :
    stretchesOf story nodes = nodes.flatMap (Node.stretches story) := by
  induction nodes with
  | nil => rfl
  | cons n nodes ih => rw [stretchesOf, List.flatMap_cons, ih]

/-! ### The story tags of a template -/

/-- Nothing is pending behind an element. -/
lemma pendingAfter_element (story : Option (List Char)) (pending : Option TemplateComment)
    (e : Markup.Element) : pendingAfter pending (e.stretches story) = none := by
  rw [Markup.Element.stretches_eq]
  split_ifs
  · rw [Markup.Element.head]
    split_ifs <;> rfl
  · exact pendingAfter_concat_loud

lemma pendingAfter_branches (story : Option (List Char)) (pending : Option TemplateComment)
    (start stop : Nat) (branches : List Fragment) :
    pendingAfter pending (stretchesOfBranches story start stop branches) = none := by
  induction branches generalizing pending start with
  | nil => rw [stretchesOfBranches]; rfl
  | cons f branches ih =>
      obtain ⟨span, nodes⟩ := f
      rw [stretchesOfBranches, ← List.cons_append, pendingAfter_append, ih]

/-- Branches have the stretches of their parts, and loud ones between them. -/
lemma mem_stretchesOfBranches {story : Option (List Char)} {start stop : Nat}
    {branches : List Fragment} {s : Stretch}
    (h : s ∈ stretchesOfBranches story start stop branches) :
    s.kind = .loud ∨ ∃ n ∈ branches.flatMap Fragment.nodes, s ∈ n.stretches story := by
  induction branches generalizing start with
  | nil =>
      rw [stretchesOfBranches, List.mem_singleton] at h
      exact Or.inl (h ▸ rfl)
  | cons f branches ih =>
      obtain ⟨span, nodes⟩ := f
      rw [stretchesOfBranches, List.mem_cons, List.mem_append] at h
      rcases h with rfl | h | h
      · exact Or.inl rfl
      · rw [stretchesOf_eq_flatMap] at h
        obtain ⟨n, hn, hs⟩ := List.mem_flatMap.mp h
        exact Or.inr ⟨n, List.mem_append_left _ hn, hs⟩
      · rcases ih h with hloud | ⟨n, hn, hs⟩
        · exact Or.inl hloud
        · exact Or.inr ⟨n, List.mem_append_right _ hn, hs⟩

/-- Inside of stories and snippets no story begins. -/
lemma not_story_of_mem_stretches (n : Node) : ∀ s ∈ n.stretches none, ∀ e, s.kind ≠ .story e := by
  induction n using Markup.Node.induct with
  | h n ih =>
      intro s hs found
      cases n with
      | text span data =>
          obtain rfl := List.mem_singleton.mp hs
          dsimp only
          split_ifs <;> simp
      | comment span data =>
          obtain rfl := List.mem_singleton.mp hs
          simp
      | element e =>
          have hhead : e.head none = .loud := rfl
          rw [Node.stretches, Markup.Element.stretches_eq, hhead] at hs
          split_ifs at hs
          · obtain rfl := List.mem_singleton.mp hs
            simp
          · rw [List.mem_cons, List.mem_append, List.mem_singleton, stretchesOf_eq_flatMap] at hs
            rcases hs with rfl | hs | rfl
            · simp
            · obtain ⟨m, hm, hs⟩ := List.mem_flatMap.mp hs
              exact ih m hm s hs found
            · simp
      | expression span code | tag span kind code =>
          obtain rfl := List.mem_singleton.mp hs
          simp
      | snippet t =>
          rw [Node.stretches, Markup.Snippet.stretches_eq] at hs
          rcases mem_stretchesOfBranches hs with hloud | ⟨m, hm, hs⟩
          · simp [hloud]
          · exact ih m (by simpa [Node.children] using hm) s hs found
      | block b =>
          rw [Node.stretches, Markup.Block.stretches_eq] at hs
          rcases mem_stretchesOfBranches hs with hloud | ⟨m, hm, hs⟩
          · simp [hloud]
          · exact ih m hm s hs found

/-- The stories of branches are found if those of their parts are. -/
lemma storyTagsOfBranches_eq {story : List Char} {branches : List Fragment}
    (h : ∀ f ∈ branches, storyTags story none f.nodes
      = tagsOf none (stretchesOf (some story) f.nodes))
    (pending : Option TemplateComment) (start stop : Nat) :
    storyTagsOfBranches story branches
      = tagsOf pending (stretchesOfBranches (some story) start stop branches) := by
  induction branches generalizing pending start with
  | nil =>
      rw [storyTagsOfBranches, stretchesOfBranches]
      rfl
  | cons f branches ih =>
      obtain ⟨hf, hbranches⟩ := List.forall_mem_cons.mp h
      obtain ⟨span, nodes⟩ := f
      rw [storyTagsOfBranches, stretchesOfBranches, Markup.Fragment.storyTags, hf,
        tagsOf_cons_loud, tagsOf_append]
      exact congrArg _ (ih hbranches _ span.stop)

/-- The stories of parts are found if those of each part are. -/
lemma storyTags_eq_of_forall {story : List Char} {nodes : List Node}
    (h : ∀ n ∈ nodes, ∀ (pending : Option TemplateComment) (rest : List Node),
      storyTags story pending (n :: rest)
        = tagsOf pending (n.stretches (some story))
          ++ storyTags story (pendingAfter pending (n.stretches (some story))) rest)
    (pending : Option TemplateComment) :
    storyTags story pending nodes = tagsOf pending (stretchesOf (some story) nodes) := by
  induction nodes generalizing pending with
  | nil => rfl
  | cons n nodes ih =>
      obtain ⟨hn, hnodes⟩ := List.forall_mem_cons.mp h
      rw [hn, stretchesOf, tagsOf_append, ih hnodes]

/-- The stories of an element are found if those of the parts inside are. -/
lemma storyTags_element {story : List Char} {e : Markup.Element}
    (h : storyTags story none e.fragment.nodes
      = tagsOf none (stretchesOf (some story) e.fragment.nodes))
    (pending : Option TemplateComment) :
    (if e.isComponent story then [⟨e, pending⟩] else e.storyTags story)
      = tagsOf pending (e.stretches (some story)) := by
  have hnone : tagsOf none (stretchesOf none e.fragment.nodes) = [] := by
    refine tagsOf_eq_nil fun s hs => ?_
    rw [stretchesOf_eq_flatMap] at hs
    obtain ⟨n, -, hs⟩ := List.mem_flatMap.mp hs
    exact not_story_of_mem_stretches n s hs
  have hstory : e.isStory (some story) = e.isComponent story := rfl
  rw [Markup.Element.stretches_eq, Markup.Element.head, Markup.Element.inside, hstory]
  by_cases hcomponent : e.isComponent story = true
  · simp only [hcomponent, if_true]
    split_ifs
    · rfl
    · rw [tagsOf, Stretch.next, tagsOf_concat_loud, hnone]
      rfl
  · simp only [hcomponent, Bool.false_eq_true, if_false]
    rw [Markup.Element.storyTags_eq, h]
    split_ifs with hnodes
    · rw [hnodes]
      rfl
    · rw [tagsOf_cons_loud, tagsOf_concat_loud]

/-- A walk over the stretches of a part of a template does what a walk over the part does. -/
lemma storyTags_cons (story : List Char) (n : Node) :
    ∀ (pending : Option TemplateComment) (rest : List Node),
      storyTags story pending (n :: rest)
        = tagsOf pending (n.stretches (some story))
          ++ storyTags story (pendingAfter pending (n.stretches (some story))) rest := by
  induction n using Markup.Node.induct with
  | h n ih =>
      intro pending rest
      cases n with
      | text span data =>
          by_cases hblank : data.all isBlank = true <;>
            simp [storyTags, Node.isBlank, Node.stretches, hblank, tagsOf, Stretch.tag?,
              pendingAfter, Stretch.next]
      | comment span data => rfl
      | element e =>
          rw [Node.stretches, pendingAfter_element, storyTags]
          rw [storyTags_element (storyTags_eq_of_forall ih none)]
      | expression span code | tag span kind code => rfl
      | snippet s =>
          rw [Node.stretches, Markup.Snippet.stretches_eq, pendingAfter_branches, storyTags]
          have hnone : ∀ s' ∈ stretchesOfBranches none s.span.start s.span.stop [s.body],
              ∀ e, s'.kind ≠ .story e := by
            rw [← Markup.Snippet.stretches_eq]
            exact not_story_of_mem_stretches (.snippet s)
          rw [tagsOf_eq_nil hnone, List.nil_append]
      | block b =>
          rw [Node.stretches, Markup.Block.stretches_eq, pendingAfter_branches, storyTags]
          congr 1
          obtain ⟨span, kind, code, branches⟩ := b
          rw [Markup.Block.storyTags]
          refine storyTagsOfBranches_eq (fun f hf => ?_) pending span.start span.stop
          exact storyTags_eq_of_forall (fun n hn => ih n (List.mem_flatMap.mpr ⟨f, hf, hn⟩)) none

/-- The story tags of a template are those that a walk over its stretches finds. -/
theorem storyTags_eq_tagsOf (story : List Char) (pending : Option TemplateComment)
    (nodes : List Node) :
    storyTags story pending nodes = tagsOf pending (stretchesOf (some story) nodes) := by
  induction nodes generalizing pending with
  | nil => rfl
  | cons n nodes ih => rw [storyTags_cons, stretchesOf, tagsOf_append, ih]

/-! ### The comments of a template -/

mutual

/-- The comments in a part of a template. -/
def Markup.Node.comments : Node → List TemplateComment
  | .comment span data => [⟨span, data⟩]
  | .element ⟨_, _, _, _, ⟨_, nodes⟩, _⟩ => commentsOf nodes
  | .snippet ⟨_, _, _, ⟨_, nodes⟩⟩ => commentsOf nodes
  | .block ⟨_, _, _, branches⟩ => commentsOfBranches branches
  | .text _ _ | .expression _ _ | .tag _ _ _ => []

/-- The comments in parts of a template. -/
def commentsOf : List Node → List TemplateComment
  | [] => []
  | n :: nodes => n.comments ++ commentsOf nodes

/-- The comments in branches. -/
def commentsOfBranches : List Fragment → List TemplateComment
  | [] => []
  | ⟨_, nodes⟩ :: branches => commentsOf nodes ++ commentsOfBranches branches

end

/-- The comments of branches are among their stretches if those of their parts are. -/
lemma commentsOfBranches_eq {story : Option (List Char)} {branches : List Fragment}
    (h : ∀ f ∈ branches, commentsOf f.nodes
      = (stretchesOf story f.nodes).filterMap Stretch.comment?) (start stop : Nat) :
    commentsOfBranches branches
      = (stretchesOfBranches story start stop branches).filterMap Stretch.comment? := by
  induction branches generalizing start with
  | nil =>
      rw [commentsOfBranches, stretchesOfBranches]
      rfl
  | cons f branches ih =>
      obtain ⟨hf, hbranches⟩ := List.forall_mem_cons.mp h
      obtain ⟨span, nodes⟩ := f
      rw [commentsOfBranches, stretchesOfBranches, hf, ih hbranches span.stop,
        List.filterMap_cons_none rfl, List.filterMap_append]

/-- The comments of parts are among their stretches if those of each part are. -/
lemma commentsOf_eq_of_forall {story : Option (List Char)} {nodes : List Node}
    (h : ∀ n ∈ nodes, n.comments = (n.stretches story).filterMap Stretch.comment?) :
    commentsOf nodes = (stretchesOf story nodes).filterMap Stretch.comment? := by
  induction nodes with
  | nil => rfl
  | cons n nodes ih =>
      obtain ⟨hn, hnodes⟩ := List.forall_mem_cons.mp h
      rw [commentsOf, stretchesOf, List.filterMap_append, hn, ih hnodes]

lemma comments_eq_filterMap (n : Node) :
    ∀ story, n.comments = (n.stretches story).filterMap Stretch.comment? := by
  induction n using Markup.Node.induct with
  | h n ih =>
      intro story
      cases n with
      | text span data =>
          by_cases h : data.all isBlank = true <;>
            simp [Node.comments, Node.stretches, h, Stretch.comment?]
      | comment span data => rfl
      | element e =>
          have hinside : commentsOf e.fragment.nodes
              = (stretchesOf (e.inside story) e.fragment.nodes).filterMap Stretch.comment? :=
            commentsOf_eq_of_forall fun m hm => ih m hm (e.inside story)
          have hhead : ∀ span, Stretch.comment? ⟨span, e.head story⟩ = none := by
            intro span
            rw [Markup.Element.head]
            split_ifs <;> rfl
          have hcomments : (Node.element e).comments = commentsOf e.fragment.nodes := by
            obtain ⟨_, _, _, _, ⟨_, _⟩, _⟩ := e
            rw [Node.comments]
          rw [hcomments, Node.stretches, Markup.Element.stretches_eq]
          split_ifs with hnodes
          · rw [hnodes, List.filterMap_cons_none (hhead _)]
            rfl
          · rw [hinside, List.filterMap_cons_none (hhead _), List.filterMap_append]
            exact (List.append_nil _).symm
      | expression span code | tag span kind code => rfl
      | snippet s =>
          have hbody : commentsOf s.body.nodes
              = (stretchesOf none s.body.nodes).filterMap Stretch.comment? :=
            commentsOf_eq_of_forall fun m hm => ih m hm none
          rw [Node.stretches, Markup.Snippet.stretches_eq,
            ← commentsOfBranches_eq (fun f hf => List.mem_singleton.mp hf ▸ hbody)]
          obtain ⟨_, _, _, ⟨_, _⟩⟩ := s
          rw [Node.comments, commentsOfBranches, commentsOfBranches, List.append_nil]
      | block b =>
          rw [Node.stretches, Markup.Block.stretches_eq, ← commentsOfBranches_eq fun f hf =>
            commentsOf_eq_of_forall fun m hm => ih m (List.mem_flatMap.mpr ⟨f, hf, hm⟩) story]
          obtain ⟨_, _, _, _⟩ := b
          rw [Node.comments]

/-- The comments of a template are those among its stretches. -/
theorem commentsOf_eq_filterMap (story : Option (List Char)) (nodes : List Node) :
    commentsOf nodes = (stretchesOf story nodes).filterMap Stretch.comment? :=
  commentsOf_eq_of_forall fun n _ => comments_eq_filterMap n story

end SvelteStories

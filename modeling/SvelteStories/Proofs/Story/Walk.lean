/-
The walk for story tags, told without the comment that it carries along:

* `Walked`: the lists of parts that the walk goes through, from the top level on through elements
  that are no stories and through the branches of blocks;
* `commentAbove`: the comment that only blank text separates from what stands behind some parts;
* `TagIn`: a story tag stands in a list of parts, with the comment above it;
* `mem_storyTags_iff`: the walk finds the story tags of the lists that it goes through;
* `tagsWithin_storyTags`: it finds them one behind the other;
* `readDocument_storyTags`: all of this for the template of a file.
-/
import SvelteStories.Proofs.Story.Comments
import SvelteStories.Proofs.Story.Nesting

namespace SvelteStories

open Markup

/-! ### What the walk goes through -/

/-- The lists of parts that a walk for stories goes through. It goes neither into stories nor into
snippets. -/
inductive Walked (story : List Char) (top : List Node) : List Node → Prop
  /-- The list that it starts with. -/
  | top : Walked story top top
  /-- What an element holds that is no story. -/
  | element {nodes : List Node} {e : Markup.Element} : Walked story top nodes →
      .element e ∈ nodes → e.isComponent story = false → Walked story top e.fragment.nodes
  /-- A branch of a block. -/
  | branch {nodes : List Node} {b : Block} {f : Fragment} : Walked story top nodes →
      .block b ∈ nodes → f ∈ b.branches → Walked story top f.nodes

/-- The comment that a part of a template is. -/
def Markup.Node.comment? : Node → Option TemplateComment
  | .comment span data => some ⟨span, data⟩
  | .text _ _ | .element _ | .expression _ _ | .snippet _ | .block _ | .tag _ _ _ => none

/-- The last of some parts that is more than blank text, if it is a comment. -/
def commentAbove (before : List Node) : Option TemplateComment :=
  (before.reverse.find? fun n => !n.isBlank).bind Node.comment?

/-- A story tag stands among parts of a template, right below the comment that it has. -/
def TagIn (story : List Char) (nodes : List Node) (tag : StoryTag) : Prop :=
  ∃ before behind : List Node, nodes = before ++ .element tag.element :: behind
    ∧ tag.element.isComponent story = true ∧ tag.comment = commentAbove before

/-! ### One step of the walk -/

/-- The lists of parts right inside of a part that the walk goes on to. -/
def Markup.Node.walked (story : List Char) : Node → List (List Node)
  | .element e => if e.isComponent story then [] else [e.fragment.nodes]
  | .block b => b.branches.map Fragment.nodes
  | .text _ _ | .comment _ _ | .expression _ _ | .snippet _ | .tag _ _ _ => []

/-- The story tag that a part is, with the comment that is pending before it. -/
def Markup.Node.tag? (story : List Char) (pending : Option TemplateComment) :
    Node → Option StoryTag
  | .element e => if e.isComponent story then some ⟨e, pending⟩ else none
  | .text _ _ | .comment _ _ | .expression _ _ | .snippet _ | .block _ | .tag _ _ _ => none

/-- The comment that is pending behind a part. -/
def Markup.Node.next (pending : Option TemplateComment) (n : Node) : Option TemplateComment :=
  if n.isBlank then pending else n.comment?

section

variable {story : List Char} {top nodes l : List Node} {n : Node} {tag : StoryTag}
  {pending : Option TemplateComment}

lemma Walked.inside (h : Walked story top nodes) (hn : n ∈ nodes) (hl : l ∈ n.walked story) :
    Walked story top l := by
  cases n with
  | element e =>
      rw [Node.walked] at hl
      split_ifs at hl with hstory
      · exact absurd hl List.not_mem_nil
      · obtain rfl := List.mem_singleton.mp hl
        exact h.element hn (Bool.eq_false_iff.mpr hstory)
  | block b =>
      obtain ⟨f, hf, rfl⟩ := List.mem_map.mp hl
      exact h.branch hn hf
  | text _ _ | comment _ _ | expression _ _ | snippet _ | tag _ _ _ =>
      exact absurd hl List.not_mem_nil

/-- What is handed down from a part to those right inside of it holds of all that the walk meets. -/
lemma Walked.forall_mem {P : Node → Prop} (h : Walked story top nodes)
    (hdown : ∀ n, P n → ∀ m ∈ n.children, P m) (htop : ∀ n ∈ top, P n) : ∀ n ∈ nodes, P n := by
  induction h with
  | top => exact htop
  | element _ he _ ih => exact fun m hm => hdown _ (ih _ he) m hm
  | branch _ hb hf ih =>
      exact fun m hm => hdown _ (ih _ hb) m (List.mem_flatMap.mpr ⟨_, hf, hm⟩)

lemma storyTagsOfBranches_eq_flatMap (branches : List Fragment) :
    storyTagsOfBranches story branches
      = (branches.map Fragment.nodes).flatMap (storyTags story none) := by
  induction branches with
  | nil => rw [storyTagsOfBranches]; rfl
  | cons f branches ih =>
      obtain ⟨span, nodes⟩ := f
      rw [storyTagsOfBranches, Markup.Fragment.storyTags, ih]
      rfl

/-- The story tags of a part and of those behind it. -/
lemma storyTags_step (n : Node) (nodes : List Node) :
    storyTags story pending (n :: nodes)
      = ((n.tag? story pending).toList ++ (n.walked story).flatMap (storyTags story none))
        ++ storyTags story (n.next pending) nodes := by
  cases n with
  | text span data => rfl
  | element e =>
      rw [storyTags, Node.tag?, Node.walked, Markup.Element.storyTags_eq]
      split_ifs
      · rfl
      · simp [Node.next, Node.isBlank, Node.comment?]
  | block b =>
      obtain ⟨span, kind, code, branches⟩ := b
      rw [storyTags, Markup.Block.storyTags, storyTagsOfBranches_eq_flatMap]
      rfl
  | comment _ _ | expression _ _ | snippet _ | tag _ _ _ => rfl

/-- What is pending behind some parts is the comment above, if one of them is more than blank
text. -/
lemma foldl_next (before : List Node) :
    before.foldl Node.next pending
      = if before.all Node.isBlank then pending else commentAbove before := by
  induction before using List.reverseRecOn with
  | nil => rfl
  | append_singleton before n ih =>
      rw [List.foldl_append, ih, commentAbove, commentAbove, List.reverse_append]
      cases hn : n.isBlank <;> simp [Node.next, hn]

/-- The walk finds the tags among the parts, and what it finds inside of them. -/
lemma mem_storyTags_step :
    tag ∈ storyTags story pending nodes
      ↔ (∃ before behind : List Node, nodes = before ++ .element tag.element :: behind
          ∧ tag.element.isComponent story = true ∧ tag.comment = before.foldl Node.next pending)
        ∨ ∃ n ∈ nodes, ∃ l ∈ n.walked story, tag ∈ storyTags story none l := by
  induction nodes generalizing pending with
  | nil => simp [storyTags]
  | cons n nodes ih =>
      have hhere : tag ∈ (n.tag? story pending).toList
          ↔ n = .element tag.element ∧ tag.element.isComponent story = true
            ∧ tag.comment = pending := by
        obtain ⟨e, comment⟩ := tag
        cases n with
        | element e' =>
            by_cases he : e'.isComponent story = true
            · simp only [Node.tag?, he, if_true, Option.toList_some, List.mem_singleton,
                StoryTag.mk.injEq, Node.element.injEq]
              constructor
              · rintro ⟨rfl, hcomment⟩
                exact ⟨rfl, he, hcomment⟩
              · rintro ⟨rfl, -, hcomment⟩
                exact ⟨rfl, hcomment⟩
            · simp only [Node.tag?, he, Bool.false_eq_true, if_false, Option.toList_none,
                List.not_mem_nil, Node.element.injEq, false_iff, not_and]
              rintro rfl h
              exact absurd h he
        | text _ _ | comment _ _ | expression _ _ | snippet _ | block _ | tag _ _ _ =>
            simp [Node.tag?]
      rw [storyTags_step, List.mem_append, List.mem_append, ih, hhere, List.mem_flatMap]
      constructor
      · rintro ((⟨rfl, hstory, hcomment⟩ | ⟨l, hl, htag⟩)
          | ⟨before, behind, rfl, hstory, hcomment⟩ | ⟨m, hm, l, hl, htag⟩)
        · exact Or.inl ⟨[], nodes, rfl, hstory, hcomment⟩
        · exact Or.inr ⟨n, List.mem_cons_self, l, hl, htag⟩
        · exact Or.inl ⟨n :: before, behind, rfl, hstory, hcomment⟩
        · exact Or.inr ⟨m, List.mem_cons_of_mem _ hm, l, hl, htag⟩
      · rintro (⟨before, behind, hsplit, hstory, hcomment⟩ | ⟨m, hm, l, hl, htag⟩)
        · cases before with
          | nil =>
              obtain ⟨rfl, rfl⟩ := List.cons.inj hsplit
              exact Or.inl (Or.inl ⟨rfl, hstory, hcomment⟩)
          | cons k before =>
              obtain ⟨rfl, rfl⟩ := List.cons.inj hsplit
              exact Or.inr (Or.inl ⟨before, behind, rfl, hstory, hcomment⟩)
        · rcases List.mem_cons.mp hm with rfl | hm
          · exact Or.inl (Or.inr ⟨l, hl, htag⟩)
          · exact Or.inr (Or.inr ⟨m, hm, l, hl, htag⟩)

lemma mem_storyTags_step_none :
    tag ∈ storyTags story none nodes
      ↔ TagIn story nodes tag
        ∨ ∃ n ∈ nodes, ∃ l ∈ n.walked story, tag ∈ storyTags story none l := by
  have habove : ∀ before : List Node, before.foldl Node.next none = commentAbove before := by
    intro before
    rw [foldl_next]
    split_ifs with hblank
    · -- no part but blank text, and so none to be a comment
      rw [commentAbove, List.find?_eq_none.mpr]
      · rfl
      · simpa using hblank
    · rfl
  rw [mem_storyTags_step]
  simp only [TagIn, habove]

/-! ### All of the walk -/

/-- The lists that the walk goes on to hold parts right inside. -/
lemma mem_children_of_walked (hl : l ∈ n.walked story) {m : Node} (hm : m ∈ l) :
    m ∈ n.children := by
  cases n with
  | element e =>
      rw [Node.walked] at hl
      split_ifs at hl
      · exact absurd hl List.not_mem_nil
      · obtain rfl := List.mem_singleton.mp hl
        exact hm
  | block b =>
      obtain ⟨f, hf, rfl⟩ := List.mem_map.mp hl
      exact List.mem_flatMap.mpr ⟨f, hf, hm⟩
  | text _ _ | comment _ _ | expression _ _ | snippet _ | tag _ _ _ =>
      exact absurd hl List.not_mem_nil

/-- What the walk finds inside of a part stands in a list that it goes through. -/
lemma exists_walked_of_mem (n : Node) :
    ∀ {nodes : List Node}, Walked story top nodes → n ∈ nodes → ∀ l ∈ n.walked story,
      tag ∈ storyTags story none l → ∃ l', Walked story top l' ∧ TagIn story l' tag := by
  induction n using Markup.Node.induct with
  | h n ih =>
      intro nodes hnodes hn l hl htag
      have hwalked := hnodes.inside hn hl
      rcases mem_storyTags_step_none.mp htag with htag | ⟨m, hm, l', hl', htag⟩
      · exact ⟨l, hwalked, htag⟩
      · exact ih m (mem_children_of_walked hl hm) hwalked hm l' hl' htag

/-- The walk finds the story tags of the lists that it goes through. -/
theorem mem_storyTags_iff :
    tag ∈ storyTags story none top ↔ ∃ nodes, Walked story top nodes ∧ TagIn story nodes tag := by
  constructor
  · intro h
    rcases mem_storyTags_step_none.mp h with htag | ⟨n, hn, l, hl, htag⟩
    · exact ⟨top, .top, htag⟩
    · exact exists_walked_of_mem n .top hn l hl htag
  · rintro ⟨nodes, hwalked, htag⟩
    have hfound : tag ∈ storyTags story none nodes := mem_storyTags_step_none.mpr (Or.inl htag)
    clear htag
    -- what is found in a list is found in the one around it
    induction hwalked with
    | top => exact hfound
    | @element nodes e _ he hstory ih =>
        refine ih (mem_storyTags_step_none.mpr (Or.inr ⟨_, he, e.fragment.nodes, ?_, hfound⟩))
        rw [Node.walked, hstory]
        exact List.mem_singleton_self _
    | @branch nodes b f _ hb hf ih =>
        exact ih (mem_storyTags_step_none.mpr
          (Or.inr ⟨_, hb, f.nodes, List.mem_map_of_mem hf, hfound⟩))

/-! ### The order of the text -/

/-- Tiles do not overlap. -/
lemma Markup.Tiles.pairwise {spans : List Span} {a b : Nat} (h : Tiles spans a b) :
    spans.Pairwise fun s s' => s.stop ≤ s'.start := by
  induction spans generalizing a with
  | nil => exact List.Pairwise.nil
  | cons s spans ih =>
      obtain ⟨rfl, -, hrest⟩ := h
      exact List.pairwise_cons.mpr ⟨fun s' hs' => (hrest.within hs').1, ih hrest⟩

/-- Story tags stand in a span, one behind the other. -/
structure TagsWithin (s : Span) (tags : List StoryTag) : Prop where
  /-- They stand in it. -/
  contains : ∀ tag ∈ tags, s.contains tag.element.span = true
  /-- They follow one another. -/
  ordered : tags.Pairwise fun x y => x.element.span.stop ≤ y.element.span.start

/-- Story tags in spans that follow one another follow one another. -/
lemma TagsWithin.flatMap {α : Type} {as : List α} {place : α → Span} {tags : α → List StoryTag}
    {s : Span} (h : ∀ a ∈ as, TagsWithin (place a) (tags a))
    (hplaces : as.Pairwise fun a a' => (place a).stop ≤ (place a').start)
    (hs : ∀ a ∈ as, s.contains (place a) = true) : TagsWithin s (as.flatMap tags) := by
  refine ⟨fun tag htag => ?_, List.pairwise_flatMap.mpr ⟨fun a ha => (h a ha).ordered, ?_⟩⟩
  · obtain ⟨a, ha, htag⟩ := List.mem_flatMap.mp htag
    exact Span.contains_trans (hs a ha) ((h a ha).contains tag htag)
  · refine hplaces.imp_of_mem fun {a a'} ha ha' hle x hx y hy => ?_
    have hx := Span.contains_iff.mp ((h a ha).contains x hx)
    have hy := Span.contains_iff.mp ((h a' ha').contains y hy)
    omega

/-- Story tags of parts that follow one another follow one another. -/
lemma tagsWithin_storyTags {s : Span}
    (h : ∀ n ∈ nodes, ∀ pending, TagsWithin n.span
      ((n.tag? story pending).toList ++ (n.walked story).flatMap (storyTags story none)))
    (hnodes : nodes.Pairwise fun n m => n.span.stop ≤ m.span.start)
    (hs : ∀ n ∈ nodes, s.contains n.span = true) :
    TagsWithin s (storyTags story pending nodes) := by
  induction nodes generalizing pending s with
  | nil => exact ⟨by simp [storyTags], by simp [storyTags]⟩
  | cons n nodes ih =>
      obtain ⟨hn, hrest⟩ := List.forall_mem_cons.mp h
      obtain ⟨hsn, hsrest⟩ := List.forall_mem_cons.mp hs
      obtain ⟨hbehind, hpairwise⟩ := List.pairwise_cons.mp hnodes
      have hhere := hn pending
      have hthere : TagsWithin ⟨n.span.stop, s.stop⟩ (storyTags story (n.next pending) nodes) :=
        ih hrest hpairwise fun m hm =>
          Span.contains_iff.mpr ⟨hbehind m hm, (Span.contains_iff.mp (hsrest m hm)).2⟩
      rw [storyTags_step]
      refine ⟨fun tag htag => ?_, List.pairwise_append.mpr
        ⟨hhere.ordered, hthere.ordered, fun x hx y hy => ?_⟩⟩
      · rcases List.mem_append.mp htag with htag | htag
        · exact Span.contains_trans hsn (hhere.contains tag htag)
        · exact (ih hrest hpairwise hsrest).contains tag htag
      · exact Nat.le_trans (Span.contains_iff.mp (hhere.contains x hx)).2
          (Span.contains_iff.mp (hthere.contains y hy)).1

end

section

variable {story : List Char} {t : List Char}

/-- Story tags stand in the part that they are found in, one behind the other. -/
lemma tagsWithin_node (n : Node) (h : n.Nested t) :
    ∀ pending, TagsWithin n.span
      ((n.tag? story pending).toList ++ (n.walked story).flatMap (storyTags story none)) := by
  induction n using Markup.Node.induct with
  | h n ih =>
      intro pending
      have hinside : ∀ f ∈ n.fragments, TagsWithin f.span (storyTags story none f.nodes) := by
        intro f hf
        have hmem : ∀ m ∈ f.nodes, m ∈ n.children := fun m hm =>
          n.children_eq ▸ List.mem_flatMap.mpr ⟨f, hf, hm⟩
        have htiled := h.encloses.tiled f hf
        refine tagsWithin_storyTags (fun m hm => ih m (hmem m hm) (h.child (hmem m hm)))
          (List.pairwise_map.mp htiled.pairwise) fun m hm => ?_
        exact Span.contains_iff.mpr (htiled.within (List.mem_map_of_mem hm))
      have hencloses := h.encloses
      cases n with
      | element e =>
          rw [Node.tag?, Node.walked]
          split_ifs with hstory
          · have hself : (Node.element e).span.contains e.span = true := Span.contains_refl _
            exact ⟨by simpa using hself, by simp⟩
          · have hfragment := hinside e.fragment (List.mem_singleton_self _)
            refine ⟨fun tag htag => ?_, by simpa using hfragment.ordered⟩
            exact Span.contains_trans (hencloses.contains _ (List.mem_singleton_self _))
              (hfragment.contains tag (by simpa using htag))
      | block b =>
          rw [Node.tag?, Node.walked, List.flatMap_map]
          exact TagsWithin.flatMap hinside hencloses.ordered hencloses.contains
      | text _ _ | comment _ _ | expression _ _ | snippet _ | tag _ _ _ =>
          exact ⟨by simp [Node.tag?, Node.walked], by simp [Node.tag?, Node.walked]⟩

/-- Parts that lose nothing hold such parts only. -/
lemma lossless_of_mem_children {n m : Node} (h : n.Lossless t) (hm : m ∈ n.children) :
    m.Lossless t := by
  cases h with
  | element _ _ hnodes _ => exact hnodes m hm
  | snippet _ hnodes _ => exact hnodes m hm
  | block _ hnodes _ _ =>
      obtain ⟨f, hf, hm⟩ := List.mem_flatMap.mp hm
      exact hnodes f hf m hm
  | text _ | comment _ | expression _ _ | tag _ => exact absurd hm List.not_mem_nil

end

/-! ### Files -/

section

variable {source : Source} {doc : Document}

/-- The parts of a document are nested, lose nothing and follow one another. -/
lemma nested_of_readDocument (h : readDocument source = .ok doc) :
    (∀ n ∈ doc.fragment.nodes, n.Nested source.text ∧ n.Lossless source.text)
      ∧ doc.fragment.nodes.Pairwise fun n m => n.span.stop ≤ m.span.start := by
  obtain ⟨nodes, hnodes, htiles, hlossless, -, hfragment⟩ := readDocument_lossless h
  have hsub : doc.fragment.nodes.Sublist nodes := by
    rw [hfragment]
    exact List.filter_sublist
  refine ⟨fun n hn => ?_, (List.pairwise_map.mp htiles.pairwise).sublist hsub⟩
  exact ⟨readTemplate_nested hnodes n (hsub.mem hn), hlossless n (hsub.mem hn)⟩

/-- **The stories of a template** are the components of their name that are reached through elements
that are no stories and through the branches of blocks. They are listed in the order of the text and
have no character in common. Each has the comment right above it among its neighbours, and no comment
is given twice. -/
theorem readDocument_storyTags (h : readDocument source = .ok doc) (story : List Char) :
    (∀ tag, tag ∈ storyTags story none doc.fragment.nodes
        ↔ ∃ nodes, Walked story doc.fragment.nodes nodes ∧ TagIn story nodes tag)
      ∧ (∀ tag ∈ storyTags story none doc.fragment.nodes,
          tag.element.span.start < tag.element.span.stop)
      ∧ (storyTags story none doc.fragment.nodes).Pairwise
          (fun x y => x.element.span.stop ≤ y.element.span.start)
      ∧ (storyTags story none doc.fragment.nodes).Pairwise
          (fun x y => ∀ c, x.comment = some c → y.comment ≠ some c)
      ∧ ∀ file, readStoriesFile doc = .ok file → file.storyName.toList = story →
          file.stories = storyTags story none doc.fragment.nodes := by
  obtain ⟨hnodes, hpairwise⟩ := nested_of_readDocument h
  refine ⟨fun tag => mem_storyTags_iff, fun tag htag => ?_, ?_, ?_, ?_⟩
  · obtain ⟨nodes, hwalked, before, behind, rfl, -⟩ := mem_storyTags_iff.mp htag
    have hlossless : (Node.element tag.element).Lossless source.text :=
      hwalked.forall_mem (fun n hn m hm => lossless_of_mem_children hn hm)
        (fun n hn => (hnodes n hn).2) _ (List.mem_append_right _ List.mem_cons_self)
    cases hlossless with
    | element hslice _ _ _ => exact (isLoud_of_slice? hslice List.mem_cons_self (by decide)).lt
  · refine (tagsWithin_storyTags (s := ⟨0, source.length⟩)
      (fun n hn => tagsWithin_node n (hnodes n hn).1) hpairwise fun n hn => ?_).ordered
    exact (hnodes n hn).1.encloses.inText.contains
  · obtain ⟨l, hcovers, htags, -⟩ := exists_stretches_storyTags h story
    rw [htags]
    exact pairwise_tagsOf hcovers.nodup fun _ h => by simp at h
  · rintro file hfile rfl
    exact stories_of_readStoriesFile hfile

/-- A component file with stories beside one another, in a branch, in a story and in a snippet. -/
def nestedStories : Source :=
  ⟨"A.stories.svelte", ("<div><!-- c --> <Story name='A'><Story name='B' /></Story></div>".toList
    ++ "\x7b#if d\x7d<Story />\x7b/if\x7d".toList
    ++ "\x7b#snippet e()\x7d<Story />\x7b/snippet\x7d<!-- f -->g<Story />".toList)⟩

theorem nestedStories_storyTags :
    ∃ doc, readDocument nestedStories = .ok doc
      ∧ (∀ tag, tag ∈ storyTags "Story".toList none doc.fragment.nodes
        ↔ ∃ nodes, Walked "Story".toList doc.fragment.nodes nodes
          ∧ TagIn "Story".toList nodes tag)
      ∧ (∀ tag ∈ storyTags "Story".toList none doc.fragment.nodes,
          tag.element.span.start < tag.element.span.stop)
      ∧ (storyTags "Story".toList none doc.fragment.nodes).Pairwise
          (fun x y => x.element.span.stop ≤ y.element.span.start)
      ∧ (storyTags "Story".toList none doc.fragment.nodes).Pairwise
          (fun x y => ∀ c, x.comment = some c → y.comment ≠ some c)
      ∧ ∀ file, readStoriesFile doc = .ok file → file.storyName.toList = "Story".toList →
          file.stories = storyTags "Story".toList none doc.fragment.nodes := by
  have hok : (readDocument nestedStories).isOk = true := by
    -- the kernel is faster with characters than with literals
    unfold nestedStories
    repeat rewrite [String.toList_ofList]
    decide +kernel
  cases hdoc : readDocument nestedStories with
  | error _ => simp [hdoc, Except.isOk, Except.toBool] at hok
  | ok doc => exact ⟨doc, rfl, readDocument_storyTags hdoc _⟩

end

end SvelteStories

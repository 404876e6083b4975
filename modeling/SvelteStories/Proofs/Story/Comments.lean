/-
The comments of stories files:

* `Document.takenOut`: the scripts and styles that a document keeps apart from its template;
* `coversApart_topStretches`: the stretches of a file cover its text, where these are passed over;
* `pairwise_start_stories`: the stories of a file are listed in the order of the text;
* `readStoriesFile_comments`: a story has the comment that only blanks separate from it in the file,
  apart from scripts and styles at the top level;
* `styledStories_comment_behind_style`: a style between a comment and a story does not keep them
  apart.
-/
import SvelteStories.Proofs.Story.Attachment

namespace SvelteStories

open Markup Script

/-! ### Scripts and styles -/

/-- The places of the scripts. -/
def Markup.Scripts.spans (s : Scripts) : List Span :=
  (s.ofModule.toList ++ s.ofInstance.toList).map ScriptBlock.span

/-- What a document keeps apart from its template. -/
def Markup.Document.takenOut (d : Document) : List Span :=
  d.scripts.spans ++ d.styles

/-- Whether a part of a template is kept apart at the top level. -/
def Markup.Node.isTaken (n : Node) : Bool :=
  (n.elementNamed? "script").isSome || (n.elementNamed? "style").isSome

section

variable {source : Source} {scripts scripts' : Scripts} {s : Span}

/-- A script is read if its content is a module. -/
lemma Markup.readScript_eq_ok_iff {e : Markup.Element} {b : ScriptBlock} :
    readScript source e = .ok b
      ↔ ∃ items, parseModule e.scriptLanguage.dialect e.fragment.span.start
          (source.slice e.fragment.span) = .ok items
        ∧ ⟨e.span, e.fragment.span, e.scriptRole, e.scriptLanguage, items⟩ = b := by
  -- the equation of the definition takes long to derive
  delta readScript
  dsimp only
  split
  · rename_i items hitems
    simp [hitems]
  · rename_i hitems
    simp [hitems]

lemma mem_spans_add {e : Markup.Element} (h : scripts.add source e = .ok scripts') :
    s ∈ scripts'.spans ↔ s ∈ scripts.spans ∨ e.span = s := by
  rw [Scripts.add, bind_eq_ok_iff] at h
  obtain ⟨script, hscript, h⟩ := h
  have hspan : script.span = e.span := by
    obtain ⟨items, -, rfl⟩ := readScript_eq_ok_iff.mp hscript
    rfl
  obtain ⟨ofModule, ofInstance⟩ := scripts
  dsimp only at h
  split at h
  all_goals
    split_ifs at h with hsome
    obtain rfl := Except.ok.inj h
    obtain rfl := Option.not_isSome_iff_eq_none.mp hsome
    simp [Scripts.spans, hspan, eq_comm, or_comm]

/-- The places of the scripts are those of the elements that hold them. -/
lemma mem_spans_foldlM {elements : List Markup.Element}
    (h : elements.foldlM (Scripts.add source) scripts = .ok scripts') :
    s ∈ scripts'.spans ↔ s ∈ scripts.spans ∨ ∃ e ∈ elements, e.span = s := by
  induction elements generalizing scripts with
  | nil =>
      obtain rfl := Except.ok.inj h
      simp
  | cons e elements ih =>
      rw [List.foldlM_cons, bind_eq_ok_iff] at h
      obtain ⟨next, hadd, hrest⟩ := h
      rw [ih hrest, mem_spans_add hadd]
      simp [or_assoc]

end

section

variable {source : Source} {doc : Document} {nodes : List Node} {story : Option (List Char)}
  {pending : Option TemplateComment}

/-- The stretches of a file at its top level, where scripts and styles are passed over. -/
def topStretches (story : Option (List Char)) (nodes : List Node) : List Stretch :=
  nodes.flatMap fun n => if n.isTaken then [⟨n.span, .quiet⟩] else n.stretches story

lemma topStretches_cons (n : Node) :
    topStretches story (n :: nodes)
      = (if n.isTaken then [⟨n.span, .quiet⟩] else n.stretches story)
        ++ topStretches story nodes :=
  List.flatMap_cons

lemma tagsOf_topStretches :
    tagsOf pending (topStretches story nodes)
      = tagsOf pending (stretchesOf story (nodes.filter fun n => !n.isTaken)) := by
  induction nodes generalizing pending with
  | nil => rfl
  | cons n nodes ih =>
      rw [topStretches_cons, List.filter_cons]
      cases htaken : n.isTaken with
      | true => exact ih
      | false =>
          simp only [Bool.not_false, if_true, Bool.false_eq_true, if_false, stretchesOf,
            tagsOf_append, ih]

lemma comments_topStretches :
    (topStretches story nodes).filterMap Stretch.comment?
      = commentsOf (nodes.filter fun n => !n.isTaken) := by
  induction nodes with
  | nil => rfl
  | cons n nodes ih =>
      rw [topStretches_cons, List.filter_cons, List.filterMap_append, ih]
      cases htaken : n.isTaken with
      | true => rfl
      | false =>
          simp only [Bool.not_false, if_true, Bool.false_eq_true, if_false, commentsOf,
            comments_eq_filterMap n story]

/-- Stretches cover a file at its top level if those of its parts do. -/
lemma covers_topStretches {t : List Char} {taken : List Span} {a b : Nat}
    (htiles : Tiles (nodes.map Node.span) a b) (hcovered : ∀ n ∈ nodes, n.Covered t)
    (htaken : ∀ n ∈ nodes, n.isTaken = true → n.span ∈ taken) :
    Tiles ((topStretches story nodes).map Stretch.span) a b
      ∧ ∀ s ∈ topStretches story nodes, s.Fits t ∨ s.kind = .quiet ∧ s.span ∈ taken := by
  induction nodes generalizing a with
  | nil => exact ⟨htiles, fun _ h => absurd h List.not_mem_nil⟩
  | cons n nodes ih =>
      obtain ⟨hn, hnodes⟩ := List.forall_mem_cons.mp hcovered
      obtain ⟨hspan, hspans⟩ := List.forall_mem_cons.mp htaken
      obtain ⟨rfl, hle, hrest⟩ := htiles
      obtain ⟨hrestTiles, hrestFits⟩ := ih hrest hnodes hspans
      rw [topStretches_cons, List.map_append]
      split_ifs with htop
      · refine ⟨⟨rfl, hle, hrestTiles⟩, List.forall_mem_cons.mpr ⟨?_, hrestFits⟩⟩
        exact Or.inr ⟨rfl, hspan htop⟩
      · have hcover := hn story
        refine ⟨tiles_append_iff.mpr ⟨_, hcover.tiles, hrestTiles⟩, fun s hs => ?_⟩
        rcases List.mem_append.mp hs with hs | hs
        · exact Or.inl (hcover.fits s hs)
        · exact hrestFits s hs

lemma span_of_elementNamed? {name : String} {n : Node} {e : Markup.Element}
    (h : n.elementNamed? name = some e) : n.span = e.span := by
  unfold Node.elementNamed? at h
  split at h
  · split_ifs at h
    obtain rfl := Option.some.inj h
    rfl
  · simp at h

/-- What is taken out of a file are the scripts and styles at its top level. -/
lemma mem_takenOut {s : Span}
    (hnodes : readTemplate readAttributeExpression source.text = .ok nodes)
    (hdoc : readDocument source = .ok doc) :
    s ∈ doc.takenOut ↔ ∃ n ∈ nodes, n.isTaken = true ∧ n.span = s := by
  simp only [readDocument, bind_eq_ok_iff, mapError_eq_ok_iff, pure_eq_ok_iff] at hdoc
  obtain ⟨nodes', hnodes', scripts, hscripts, rfl⟩ := hdoc
  obtain rfl := Except.ok.inj (hnodes.symm.trans hnodes')
  rw [Document.takenOut, List.mem_append, mem_spans_foldlM hscripts, List.mem_map]
  simp only [List.mem_filterMap]
  constructor
  · rintro ((hnone | ⟨e, ⟨n, hn, hname⟩, rfl⟩) | ⟨e, ⟨n, hn, hname⟩, rfl⟩)
    · simp [Scripts.spans] at hnone
    · exact ⟨n, hn, by simp [Node.isTaken, hname], span_of_elementNamed? hname⟩
    · exact ⟨n, hn, by simp [Node.isTaken, hname], span_of_elementNamed? hname⟩
  · rintro ⟨n, hn, htaken, rfl⟩
    rw [Node.isTaken, Bool.or_eq_true, Option.isSome_iff_exists, Option.isSome_iff_exists] at htaken
    rcases htaken with ⟨e, hname⟩ | ⟨e, hname⟩
    · exact Or.inl (Or.inr ⟨e, ⟨n, hn, hname⟩, (span_of_elementNamed? hname).symm⟩)
    · exact Or.inr ⟨e, ⟨n, hn, hname⟩, (span_of_elementNamed? hname).symm⟩

/-- The stretches of a file cover its text. -/
lemma coversApart_topStretches
    (hnodes : readTemplate readAttributeExpression source.text = .ok nodes)
    (hdoc : readDocument source = .ok doc) :
    CoversApart source.text doc.takenOut (topStretches story nodes) 0 source.length := by
  have htaken : ∀ n ∈ nodes, n.isTaken = true → n.span ∈ doc.takenOut := fun n hn h =>
    (mem_takenOut hnodes hdoc).mpr ⟨n, hn, h, rfl⟩
  obtain ⟨htiles, hfits⟩ :=
    covers_topStretches (readTemplate_lossless hnodes).1 (readTemplate_covers hnodes) htaken
  refine ⟨htiles, hfits, fun s hs => ?_⟩
  obtain ⟨n, hn, htop, rfl⟩ := (mem_takenOut hnodes hdoc).mp hs
  refine ⟨⟨n.span, .quiet⟩, List.mem_flatMap.mpr ⟨n, hn, ?_⟩, rfl, rfl⟩
  simp [htop]

end

/-! ### Stories files -/

/-- What a stories file keeps of its document. -/
lemma parts_of_readStoriesFile {d : Document} {file : StoriesFile}
    (h : readStoriesFile d = .ok file) :
    file.document = d ∧ file.stories = storyTags file.storyName.toList none d.fragment.nodes
      ∧ topSnippets d = .ok file.snippets := by
  rw [readStoriesFile] at h
  split at h
  · simp only [bind_eq_ok_iff] at h
    obtain ⟨name, -, declared, -, h⟩ := h
    -- the names that the pattern binds are looked up one after the other
    split at h
    all_goals
      simp only [bind_eq_ok_iff, pure_eq_ok_iff, reduceCtorEq, false_and, exists_false] at h
    obtain ⟨_, -, h⟩ := h
    split at h
    all_goals
      simp only [bind_eq_ok_iff, pure_eq_ok_iff, reduceCtorEq, false_and, exists_false] at h
    all_goals
      obtain ⟨_, -, _, hsnippets, rfl⟩ := h
      exact ⟨rfl, rfl, hsnippets⟩
  · exact absurd h throw_ne_ok

lemma stories_of_readStoriesFile {d : Document} {file : StoriesFile}
    (h : readStoriesFile d = .ok file) :
    file.stories = storyTags file.storyName.toList none d.fragment.nodes :=
  (parts_of_readStoriesFile h).2.1

/-- The story tags of a document are those that a walk over the stretches of its file finds,
whatever the stories are called. -/
lemma exists_stretches_storyTags {source : Source} {doc : Document}
    (hdoc : readDocument source = .ok doc) (story : List Char) :
    ∃ l, CoversApart source.text doc.takenOut l 0 source.length
      ∧ storyTags story none doc.fragment.nodes = tagsOf none l
      ∧ commentsOf doc.fragment.nodes = l.filterMap Stretch.comment? := by
  obtain ⟨nodes, hnodes, hfragment⟩ : ∃ nodes,
      readTemplate readAttributeExpression source.text = .ok nodes
        ∧ doc.fragment.nodes = nodes.filter fun n =>
          (n.elementNamed? "script").isNone && (n.elementNamed? "style").isNone := by
    simp only [readDocument, bind_eq_ok_iff, mapError_eq_ok_iff, pure_eq_ok_iff] at hdoc
    obtain ⟨nodes, hnodes, _, -, rfl⟩ := hdoc
    exact ⟨nodes, hnodes, rfl⟩
  have hkept : doc.fragment.nodes = nodes.filter fun n => !n.isTaken := by
    rw [hfragment]
    refine List.filter_congr fun n _ => ?_
    cases h : n.elementNamed? "script" <;> cases h' : n.elementNamed? "style" <;>
      simp [Node.isTaken, h, h']
  refine ⟨topStretches (some story) nodes, coversApart_topStretches hnodes hdoc, ?_, ?_⟩
  · rw [storyTags_eq_tagsOf, tagsOf_topStretches, hkept]
  · rw [comments_topStretches, hkept]

/-- The stories of a file are those that a walk over its stretches finds. -/
lemma exists_stretches {source : Source} {doc : Document} {file : StoriesFile}
    (hdoc : readDocument source = .ok doc) (hfile : readStoriesFile doc = .ok file) :
    ∃ l, CoversApart source.text doc.takenOut l 0 source.length
      ∧ file.stories = tagsOf none l
      ∧ commentsOf doc.fragment.nodes = l.filterMap Stretch.comment? := by
  rw [stories_of_readStoriesFile hfile]
  exact exists_stretches_storyTags hdoc file.storyName.toList

/-- The stories of a file are listed in the order in which they begin in it. -/
lemma pairwise_start_stories {source : Source} {doc : Document} {file : StoriesFile}
    (hdoc : readDocument source = .ok doc) (hfile : readStoriesFile doc = .ok file) :
    file.stories.Pairwise fun x y => x.element.span.start < y.element.span.start := by
  obtain ⟨l, hcovers, hstories, -⟩ := exists_stretches hdoc hfile
  rw [hstories]
  exact hcovers.pairwise_start

/-- In a stories file, a comment is given to a story if only blanks stand between the two, apart
from scripts and styles at the top level. No comment is given to two stories. -/
theorem readStoriesFile_comments {source : Source} {doc : Document} {file : StoriesFile}
    (hdoc : readDocument source = .ok doc) (hfile : readStoriesFile doc = .ok file) :
    (∀ tag ∈ file.stories, ∀ c ∈ commentsOf doc.fragment.nodes, tag.comment = some c
        ↔ BlankBetween source.text doc.takenOut c.span.stop tag.element.span.start)
      ∧ (∀ tag ∈ file.stories, ∀ c, tag.comment = some c → c ∈ commentsOf doc.fragment.nodes)
      ∧ file.stories.Pairwise
          fun tag tag' => ∀ c, tag.comment = some c → tag'.comment ≠ some c := by
  obtain ⟨l, hcovers, hstories, hcomments⟩ := exists_stretches hdoc hfile
  rw [hstories, hcomments]
  refine ⟨fun tag htag c hc => comment_eq_some_iff hcovers htag hc, fun tag htag c hc => ?_,
    pairwise_tagsOf hcovers.nodup fun _ h => by simp at h⟩
  rcases comment_of_mem_tagsOf htag hc with hpending | hmem
  · simp at hpending
  · exact hmem

/-- A stories file with a style between a comment and a story. -/
def styledStories : Source :=
  ⟨"A.stories.svelte", ("<script module>\n".toList
    ++ "  import \x7b defineMeta \x7d from '@storybook/addon-svelte-csf';\n".toList
    ++ "  const \x7b Story \x7d = defineMeta(\x7b\x7d);\n</script>\n".toList
    ++ "<!-- c -->\n<style></style>\n<Story name=\"A\" />".toList)⟩

/-- The comments that a file gives to its stories, and where the stories begin. -/
def attachments (source : Source) : Except Report (List (Option TemplateComment × Nat)) := do
  let file ← readStoriesFile (← readDocument source)
  return file.stories.map fun tag => (tag.comment, tag.element.span.start)

lemma attachments_styledStories :
    (attachments styledStories).toOption
      = some [(some ⟨⟨122, 132⟩, " c ".toList⟩, 149)] := by
  -- the kernel is faster with characters than with literals
  unfold styledStories
  repeat rewrite [String.toList_ofList]
  decide +kernel

/-- The file is read, and its only story has the comment. -/
lemma exists_styledStories :
    ∃ doc file, readDocument styledStories = .ok doc ∧ readStoriesFile doc = .ok file
      ∧ file.stories.map (fun tag => (tag.comment, tag.element.span.start))
        = [(some ⟨⟨122, 132⟩, " c ".toList⟩, 149)] := by
  have h := toOption_eq_some_iff.mp attachments_styledStories
  simp only [attachments, bind_eq_ok_iff, pure_eq_ok_iff] at h
  obtain ⟨doc, hdoc, file, hfile, hmap⟩ := h
  exact ⟨doc, file, hdoc, hfile, hmap⟩

theorem styledStories_comments :
    ∃ doc file, readDocument styledStories = .ok doc ∧ readStoriesFile doc = .ok file
      ∧ (∀ tag ∈ file.stories, ∀ c ∈ commentsOf doc.fragment.nodes, tag.comment = some c
          ↔ BlankBetween styledStories.text doc.takenOut c.span.stop tag.element.span.start)
      ∧ (∀ tag ∈ file.stories, ∀ c, tag.comment = some c → c ∈ commentsOf doc.fragment.nodes)
      ∧ file.stories.Pairwise
          fun tag tag' => ∀ c, tag.comment = some c → tag'.comment ≠ some c := by
  obtain ⟨doc, file, hdoc, hfile, -⟩ := exists_styledStories
  exact ⟨doc, file, hdoc, hfile, readStoriesFile_comments hdoc hfile⟩

/-- The style between the comment and the story is not blank, and the story has the comment all the
same. -/
theorem styledStories_comment_behind_style :
    ∃ doc file tag c, readDocument styledStories = .ok doc ∧ readStoriesFile doc = .ok file
      ∧ tag ∈ file.stories ∧ tag.comment = some c
      ∧ ¬ ∃ s, slice? styledStories.text ⟨c.span.stop, tag.element.span.start⟩ = some s
        ∧ ∀ d ∈ s, isBlank d = true := by
  obtain ⟨doc, file, hdoc, hfile, hmap⟩ := exists_styledStories
  obtain ⟨tag, rest, hstories, htag⟩ : ∃ tag rest, file.stories = tag :: rest
      ∧ (tag.comment, tag.element.span.start) = (some ⟨⟨122, 132⟩, " c ".toList⟩, 149) := by
    cases h : file.stories with
    | nil => simp [h] at hmap
    | cons tag rest =>
        rw [h, List.map_cons] at hmap
        exact ⟨tag, rest, rfl, (List.cons.inj hmap).1⟩
  obtain ⟨hcomment, hstart⟩ := Prod.mk.inj htag
  have hslice : slice? styledStories.text ⟨132, 149⟩ = some "\n<style></style>\n".toList := by
    decide +kernel
  refine ⟨doc, file, tag, _, hdoc, hfile, hstories ▸ List.mem_cons_self, hcomment, ?_⟩
  rintro ⟨s, hs, hblank⟩
  rw [hstart, hslice] at hs
  obtain rfl := Option.some.inj hs
  exact absurd (hblank '<' (by decide)) (by decide)

end SvelteStories

/-
The stories of a template that stands elsewhere in another file:

* `storyTags_outlines`: the walk for story tags commutes with moving the places;
* `storyAttributes_outline`: what the attributes of a tag say does not depend on its places, and
  neither does the fault if they say nothing;
* `rawCodeSpan_relocated`, `exists_contains_of_mem_storyTags`: the code that is shown for a story
  stands in a part of the template, and is moved with it;
* `readStories_relocated`: the stories are the same, or the fault is.

Two outcomes count as the same if they are it once the places of their reports are forgotten, which is
what `mapError Report.fault` is for.
-/
import SvelteStories.Proofs.Script.Alike
import SvelteStories.Proofs.Story.RawCode
import SvelteStories.Proofs.Story.ReplacedScript

namespace SvelteStories

open Script Markup

variable {m : Nat → Nat}

/-! ### The walk -/

/-- A comment in a template, moved. -/
def TemplateComment.outline (m : Nat → Nat) (c : TemplateComment) : TemplateComment :=
  ⟨c.span.mapEnds m, c.data⟩

/-- A story tag without the places in it, moved. -/
def StoryTag.outline (m : Nat → Nat) (tag : StoryTag) : StoryTag :=
  ⟨tag.element.outline m, tag.comment.map (TemplateComment.outline m)⟩

namespace Markup

lemma Node.span_outline (n : Node) : (n.outline m).span = n.span.mapEnds m := by
  cases n with
  | element e => cases e; rfl
  | snippet s => cases s; rfl
  | block b => cases b; rfl
  | _ => rfl

lemma Node.isBlank_outline (n : Node) : (n.outline m).isBlank = n.isBlank := by
  cases n <;> rfl

lemma Fragment.nodes_outline (f : Fragment) : (f.outline m).nodes = outlines m f.nodes := by
  cases f
  rfl

lemma Element.isComponent_outline (story : List Char) (e : Element) :
    (e.outline m).isComponent story = e.isComponent story := by
  cases e
  rfl

lemma Node.next_outline (pending : Option TemplateComment) (n : Node) :
    (n.outline m).next (pending.map (TemplateComment.outline m))
      = (n.next pending).map (TemplateComment.outline m) := by
  rw [next, next, isBlank_outline]
  split_ifs
  · rfl
  · cases n <;> rfl

lemma Node.tag?_outline (story : List Char) (pending : Option TemplateComment) (n : Node) :
    (n.outline m).tag? story (pending.map (TemplateComment.outline m))
      = (n.tag? story pending).map (StoryTag.outline m) := by
  cases n with
  | element e =>
      rw [outline, tag?, tag?, Element.isComponent_outline]
      split_ifs <;> rfl
  | _ => rfl

lemma Node.walked_outline (story : List Char) (n : Node) :
    (n.outline m).walked story = (n.walked story).map (outlines m) := by
  cases n with
  | element e =>
      rw [outline, walked, walked, Element.isComponent_outline]
      split_ifs
      · rfl
      · obtain ⟨span, kind, name, attributes, fragment, selfClosing⟩ := e
        exact congrArg (fun nodes => [nodes]) fragment.nodes_outline
  | block b =>
      obtain ⟨span, kind, code, branches⟩ := b
      simp only [outline, Block.outline, walked, branchOutlines_eq_map, List.map_map]
      exact List.map_congr_left fun f _ => f.nodes_outline
  | _ => rfl

end Markup

section

variable {story : List Char} {nodes nodes' : List Node}

/-- The walk over parts commutes with moving them if it does so inside of them. -/
lemma storyTags_outlines_of_walked
    (h : ∀ n ∈ nodes, ∀ l ∈ n.walked story,
      storyTags story none (outlines m l) = (storyTags story none l).map (StoryTag.outline m))
    (pending : Option TemplateComment) :
    storyTags story (pending.map (TemplateComment.outline m)) (outlines m nodes)
      = (storyTags story pending nodes).map (StoryTag.outline m) := by
  induction nodes generalizing pending with
  | nil => rfl
  | cons n nodes ih =>
      obtain ⟨hn, hnodes⟩ := List.forall_mem_cons.mp h
      have hinside : (n.walked story).flatMap (fun l => storyTags story none (outlines m l))
          = ((n.walked story).flatMap (storyTags story none)).map (StoryTag.outline m) := by
        rw [List.map_flatMap]
        exact List.flatMap_congr hn
      rw [outlines, storyTags_step, storyTags_step, Node.tag?_outline, Node.walked_outline,
        Node.next_outline, ih hnodes, List.flatMap_map, hinside, List.map_append, List.map_append,
        Option.toList_map]

/-- The walk for story tags commutes with moving the places. -/
lemma storyTags_outlines (story : List Char) (nodes : List Node) :
    storyTags story none (outlines m nodes)
      = (storyTags story none nodes).map (StoryTag.outline m) := by
  have hnode : ∀ n : Node, ∀ l ∈ n.walked story,
      storyTags story none (outlines m l) = (storyTags story none l).map (StoryTag.outline m) := by
    intro n
    induction n using Markup.Node.induct with
    | h n ih =>
        intro l hl
        exact storyTags_outlines_of_walked
          (fun k hk => ih k (mem_children_of_walked hl hk)) none
  exact storyTags_outlines_of_walked (fun n _ => hnode n) none

end

/-! ### Outcomes without places -/

/-- The reports of an outcome say what goes wrong, wherever it does. -/
def faultOnly {α : Type} (x : Except Report α) : Except Fault α :=
  x.mapError Report.fault

section

variable {α β : Type} {x x' : Except Report α}

lemma faultOnly_bind {f f' : α → Except Report β} (h : faultOnly x' = faultOnly x)
    (hf : ∀ a, faultOnly (f' a) = faultOnly (f a)) :
    faultOnly (x' >>= f') = faultOnly (x >>= f) := by
  cases x <;> cases x' <;> simp only [faultOnly, Except.mapError] at h
  · exact congrArg Except.error (Except.error.inj h)
  · cases h
  · cases h
  · obtain rfl := Except.ok.inj h
    exact hf _

lemma faultOnly_map (g : α → β) (h : faultOnly x' = faultOnly x) :
    faultOnly (x'.map g) = faultOnly (x.map g) :=
  faultOnly_bind (f := fun a => .ok (g a)) h fun _ => rfl

lemma map_bind_eq {γ : Type} (g : β → γ) (x : Except Report α) (f : α → Except Report β) :
    (x >>= f).map g = x >>= fun a => (f a).map g := by
  cases x <;> rfl

/-- A report that a fault gets does not change the fault. -/
lemma faultOnly_mapError_reportAt {source source' : Source} (x : Except Fault α)
    (place place' : Nat) :
    faultOnly (x.mapError fun f => source'.reportAt f place')
      = faultOnly (x.mapError fun f => source.reportAt f place) := by
  cases x <;> rfl

/-- A value that need not be there is read alike if it is when it is there. -/
lemma faultOnly_mapM {γ : Type} {read : γ → Except Report α} {read' : β → Except Report α}
    {g : γ → β} (o : Option γ) (h : ∀ a, faultOnly (read' (g a)) = faultOnly (read a)) :
    faultOnly ((o.map g).mapM read') = faultOnly (o.mapM read) := by
  cases o with
  | none => rfl
  | some a => exact faultOnly_map some (h a)

end

/-! ### Attributes -/

namespace Markup

lemma Attribute.describe_outline (a : Attribute) : (a.outline m).describe = a.describe := by
  obtain ⟨span, name, value⟩ := a
  cases value with
  | expression span value => exact value.describe_unplaced
  | _ => rfl

lemma Attribute.string?_outline (a : Attribute) : (a.outline m).string? = a.string? := by
  obtain ⟨span, name, value⟩ := a
  cases value with
  | expression span value => exact value.string?_unplaced
  | _ => rfl

lemma Attribute.strings?_outline (a : Attribute) : (a.outline m).strings? = a.strings? := by
  obtain ⟨span, name, value⟩ := a
  cases value with
  | expression span value => exact value.strings?_unplaced
  | _ => rfl

lemma Attribute.identifier?_outline (a : Attribute) :
    (a.outline m).identifier? = a.identifier? := by
  obtain ⟨span, name, value⟩ := a
  cases value with
  | expression span value => cases value <;> rfl
  | _ => rfl

lemma Element.attribute?_outline (e : Element) (name : String) :
    (e.outline m).attribute? name = (e.attribute? name).map (Attribute.outline m) := by
  obtain ⟨span, kind, label, attributes, fragment, selfClosing⟩ := e
  simp only [attribute?, outline, List.findSome?_map, List.map_findSome?]
  refine congrArg (List.findSome? · attributes) (funext fun a => ?_)
  cases a with
  | plain a =>
      simp only [Function.comp_apply, AttributeNode.outline, Attribute.outline]
      split_ifs <;> rfl
  | _ => rfl

end Markup

section

variable {source source' : Source}

lemma faultOnly_stringAttribute (a : Attribute) :
    faultOnly (stringAttribute source' (a.outline m)) = faultOnly (stringAttribute source a) := by
  rw [stringAttribute, stringAttribute, a.string?_outline, a.describe_outline]
  split <;> rfl

lemma faultOnly_stringsAttribute (a : Attribute) :
    faultOnly (stringsAttribute source' (a.outline m)) = faultOnly (stringsAttribute source a) := by
  rw [stringsAttribute, stringsAttribute, a.strings?_outline, a.describe_outline]
  split <;> rfl

lemma templateName_outline (story : String) (a : Attribute) :
    templateName story (a.outline m) = templateName story a := by
  rw [templateName, templateName, a.identifier?_outline]

/-- The attributes of a tag say the same wherever the tag stands. -/
lemma storyAttributes_outline (e : Markup.Element) :
    faultOnly (storyAttributes source' (e.outline m)) = faultOnly (storyAttributes source e) := by
  simp only [storyAttributes, Markup.Element.attribute?_outline]
  refine faultOnly_bind (faultOnly_mapM _ faultOnly_stringAttribute) fun name => ?_
  refine faultOnly_bind (faultOnly_mapM _ faultOnly_stringAttribute) fun exportName => ?_
  refine faultOnly_bind (faultOnly_mapError_reportAt _ _ _) fun names => ?_
  refine faultOnly_bind (faultOnly_mapM _ faultOnly_stringsAttribute) fun tags => ?_
  refine faultOnly_bind ?_ fun template => rfl
  have htemplate : ((e.attribute? "template").map (Markup.Attribute.outline m)).mapM
      (templateName names.displayName) = (e.attribute? "template").mapM
      (templateName names.displayName) := by
    cases e.attribute? "template" with
    | none => rfl
    | some a => exact congrArg (Except.map some) (templateName_outline _ a)
  rw [htemplate]
  exact faultOnly_mapError_reportAt _ _ _

end

/-! ### Code -/

namespace Markup

lemma Node.snippet?_outline (n : Node) :
    (n.outline m).snippet? = n.snippet?.map (Snippet.outline m) := by
  cases n <;> rfl

lemma filterMap_snippet?_outlines (nodes : List Node) :
    (outlines m nodes).filterMap Node.snippet?
      = (nodes.filterMap Node.snippet?).map (Snippet.outline m) := by
  rw [outlines_eq_map, List.filterMap_map, List.map_filterMap]
  exact congrArg (List.filterMap · nodes) (funext Node.snippet?_outline)

lemma Snippet.name_outline (s : Snippet) : (s.outline m).name = s.name := by
  cases s
  rfl

lemma Snippet.body_span_outline (s : Snippet) :
    (s.outline m).body.span = s.body.span.mapEnds m := by
  obtain ⟨span, name, parameters, ⟨place, nodes⟩⟩ := s
  rfl

lemma find?_map_outline (name : List Char) (snippets : List Snippet) :
    (snippets.map (Snippet.outline m)).find? (fun s => s.name = name)
      = (snippets.find? fun s => s.name = name).map (Snippet.outline m) := by
  rw [List.find?_map]
  simp only [Function.comp_def, Snippet.name_outline]

end Markup

lemma spanOfNodes?_outlines (nodes : List Node) :
    spanOfNodes? (outlines m nodes) = (spanOfNodes? nodes).map (Span.mapEnds m) := by
  rw [outlines_eq_map, spanOfNodes?, spanOfNodes?, List.head?_map, List.getLast?_map]
  cases nodes.head? with
  | none => rfl
  | some first =>
      cases nodes.getLast? with
      | none => rfl
      | some last => simp only [Option.map_some, Node.span_outline, Span.mapEnds]

lemma filter_isBlank_outlines (nodes : List Node) :
    (outlines m nodes).filter (fun n => !n.isBlank)
      = outlines m (nodes.filter fun n => !n.isBlank) := by
  rw [outlines_eq_map, outlines_eq_map, List.filter_map]
  simp only [Function.comp_def, Node.isBlank_outline]

lemma Markup.Element.ownCode?_outline (e : Markup.Element) :
    (e.outline m).ownCode? = e.ownCode?.map (Span.mapEnds m) := by
  obtain ⟨span, kind, label, attributes, ⟨place, nodes⟩, selfClosing⟩ := e
  simp only [ownCode?, outline, Fragment.outline, filterMap_snippet?_outlines, find?_map_outline,
    filter_isBlank_outlines, spanOfNodes?_outlines]
  cases (nodes.filterMap Node.snippet?).find? fun s => s.name = childrenSnippet.toList with
  | none => rfl
  | some s => exact congrArg some s.body_span_outline

section

variable {f f' : StoriesFile} {e e' : Markup.Element}

/-- The code that is shown for a story is moved with the template. -/
lemma rawCodeSpan_relocated
    (hsnippets : f'.snippets.map (Snippet.outline id) = f.snippets.map (Snippet.outline m))
    (he : e'.outline id = e.outline m) (a : StoryAttributes) :
    faultOnly (f'.rawCodeSpan e' a) = faultOnly ((f.rawCodeSpan e a).map (Span.mapEnds m)) := by
  have hown : e'.ownCode? = e.ownCode?.map (Span.mapEnds m) := by
    rw [← Markup.Element.ownCode?_outline, ← he, Markup.Element.ownCode?_outline]
    exact Option.map_id'.symm
  have hspan : e'.span = e.span.mapEnds m := by
    have hnode : (Node.element e').outline id = (Node.element e).outline m := congrArg _ he
    have hspans := congrArg Node.span hnode
    rwa [Node.span_outline, Node.span_outline] at hspans
  rw [StoriesFile.rawCodeSpan, StoriesFile.rawCodeSpan, hown]
  cases e.ownCode? with
  | some span => rfl
  | none =>
      cases a.template with
      | none => exact congrArg Except.ok hspan
      | some template =>
          have hfind : (f'.snippets.find? fun s => s.name = template.toList).map (Snippet.outline id)
              = (f.snippets.find? fun s => s.name = template.toList).map (Snippet.outline m) := by
            rw [← find?_map_outline, hsnippets, find?_map_outline]
          dsimp only [Option.map_none]
          generalize (f.snippets.find? fun s => s.name = template.toList) = found at hfind ⊢
          generalize (f'.snippets.find? fun s => s.name = template.toList) = found' at hfind ⊢
          cases found with
          | none =>
              obtain rfl := Option.map_eq_none_iff.mp hfind
              rfl
          | some s =>
              obtain ⟨s', rfl, hs⟩ := Option.map_eq_some_iff.mp hfind
              have hbody := congrArg (fun s => s.body.span) hs
              simp only [Snippet.body_span_outline, Span.mapEnds_id] at hbody
              exact congrArg Except.ok hbody

end

/-! ### The code of stories -/

namespace Markup

variable {t : List Char} {n k : Node}

/-- A part of a template holds the places of those right inside of it. -/
lemma Node.Nested.contains_child (h : n.Nested t) (hk : k ∈ n.children) :
    n.span.contains k.span = true := by
  rw [Node.children_eq] at hk
  obtain ⟨f, hf, hk⟩ := List.mem_flatMap.mp hk
  exact Span.contains_trans (h.encloses.contains f hf)
    (Span.contains_iff.mpr ((h.encloses.tiled f hf).within (List.mem_map_of_mem hk)))

end Markup

section

variable {t story : List Char} {top : List Node} {tag : StoryTag} {template : Option String}
  {span : Span}

/-- A story tag stands in one of the parts at the top level. -/
lemma exists_contains_of_mem_storyTags (htop : ∀ n ∈ top, n.Nested t)
    (htag : tag ∈ storyTags story none top) :
    (Node.element tag.element).Nested t
      ∧ ∃ n ∈ top, n.span.contains tag.element.span = true := by
  obtain ⟨nodes, hwalked, before, behind, rfl, -⟩ := mem_storyTags_iff.mp htag
  exact hwalked.forall_mem
    (P := fun n => n.Nested t ∧ ∃ k ∈ top, k.span.contains n.span = true)
    (fun n hn i hi => ⟨hn.1.child hi, hn.2.imp fun _ hk =>
      ⟨hk.1, Span.contains_trans hk.2 (hn.1.contains_child hi)⟩⟩)
    (fun n hn => ⟨htop n hn, n, hn, Span.contains_refl _⟩) (.element tag.element)
    (List.mem_append_right _ List.mem_cons_self)

/-- So does the code that is shown for it. -/
lemma ShownCode.exists_contains (h : ShownCode top tag.element template span)
    (htop : ∀ n ∈ top, n.Nested t) (htag : tag ∈ storyTags story none top) :
    ∃ n ∈ top, n.span.contains span = true := by
  obtain ⟨hnested, n, hn, hcontains⟩ := exists_contains_of_mem_storyTags htop htag
  have hinside : ∀ k ∈ tag.element.fragment.nodes, n.span.contains k.span = true :=
    fun k hk => Span.contains_trans hcontains (hnested.contains_child hk)
  cases h with
  | @children before behind s hnodes _ _ =>
      have hs : Node.snippet s ∈ tag.element.fragment.nodes := by simp [hnodes]
      refine ⟨n, hn, Span.contains_trans (hinside _ hs) ?_⟩
      exact (hnested.child hs).encloses.contains s.body (List.mem_singleton_self _)
  | @content _ _ _ _ first last _ hfirst _ _ hlast _ _ =>
      have hf := Span.contains_iff.mp (hinside first (by simp [hfirst]))
      have hl := Span.contains_iff.mp (hinside last (by simp [hlast]))
      exact ⟨n, hn, Span.contains_iff.mpr ⟨hf.1, hl.2⟩⟩
  | template _ _ hs _ =>
      exact ⟨_, hs, (htop _ hs).encloses.contains _ (List.mem_singleton_self _)⟩
  | tag _ _ => exact ⟨n, hn, hcontains⟩

end

/-! ### The stories -/

/-- What there is to say about a story, wherever it stands. -/
def Story.told (s : Story) : StoryAttributes × List Char × Option (List Char) :=
  (s.attributes, s.rawCode, s.description)

section

variable {d d' : Document} {f f' : StoriesFile} {source source' : Source}

lemma source_of_readDocument (h : readDocument source = .ok d) : d.source = source := by
  simp only [readDocument, bind_eq_ok_iff, pure_eq_ok_iff] at h
  obtain ⟨_, -, _, -, rfl⟩ := h
  rfl

lemma repeatedSnippet?_map_outline (names : List (List Char)) (snippets : List Snippet) :
    repeatedSnippet? names (snippets.map (Snippet.outline m))
      = (repeatedSnippet? names snippets).map (Snippet.outline m) := by
  induction snippets generalizing names with
  | nil => rfl
  | cons s snippets ih =>
      rw [List.map_cons, repeatedSnippet?, repeatedSnippet?, s.name_outline, ih]
      split_ifs <;> rfl

/-- The snippets at the top level are moved with the template. -/
lemma map_outline_snippets (h : d.Relocated m d') :
    (d'.fragment.nodes.filterMap Node.snippet?).map (Snippet.outline id)
      = (d.fragment.nodes.filterMap Node.snippet?).map (Snippet.outline m) := by
  rw [← filterMap_snippet?_outlines, h.outlines, filterMap_snippet?_outlines]

/-- They have names of their own wherever they stand. -/
lemma topSnippets_relocated (h : d.Relocated m d') {snippets : List Snippet}
    (hs : topSnippets d = .ok snippets) : ∃ snippets', topSnippets d' = .ok snippets' := by
  have hsame := congrArg (repeatedSnippet? []) (map_outline_snippets h)
  rw [repeatedSnippet?_map_outline, repeatedSnippet?_map_outline] at hsame
  simp only [topSnippets] at hs ⊢
  split at hs
  · rename_i hnone
    rw [hnone] at hsame
    rw [Option.map_eq_none_iff.mp hsame]
    exact ⟨_, rfl⟩
  · cases hs

/-- The code of a story is the same. -/
lemma rawCode_relocated (h : d.Relocated m d') (hdoc : readDocument source = .ok d)
    (hfile : readStoriesFile d = .ok f) (hfile' : readStoriesFile d' = .ok f')
    {tag tag' : StoryTag} (htag : tag ∈ f.stories) (hsame : tag'.outline id = tag.outline m)
    (a : StoryAttributes) :
    faultOnly (f'.rawCode tag'.element a) = faultOnly (f.rawCode tag.element a) := by
  obtain ⟨hdocument, htags, hsnippets⟩ := parts_of_readStoriesFile hfile
  obtain ⟨hdocument', -, hsnippets'⟩ := parts_of_readStoriesFile hfile'
  have hmoved : f'.snippets.map (Snippet.outline id) = f.snippets.map (Snippet.outline m) := by
    rw [(topSnippets_eq_ok hsnippets).1, (topSnippets_eq_ok hsnippets').1]
    exact map_outline_snippets h
  have hspans := rawCodeSpan_relocated hmoved (congrArg StoryTag.element hsame) a
  cases hspan : f.rawCodeSpan tag.element a with
  | error r =>
      rw [hspan] at hspans
      rw [StoriesFile.rawCode, StoriesFile.rawCode, hspan]
      exact faultOnly_map _ hspans
  | ok span =>
      have hspan' : f'.rawCodeSpan tag'.element a = .ok (span.mapEnds m) := by
        rw [hspan] at hspans
        exact mapError_eq_ok_iff.mp hspans
      have hshown := (rawCodeSpan_eq_ok_iff hfile).mp hspan
      have hnested : ∀ n ∈ d.fragment.nodes, n.Nested d.source.text := by
        rw [source_of_readDocument hdoc]
        exact fun n hn => ((nested_of_readDocument hdoc).1 n hn).1
      rw [htags] at htag
      obtain ⟨n, hn, hinside⟩ := hshown.exists_contains hnested htag
      obtain ⟨code, hcode⟩ := hshown.inText (exists_contains_of_mem_storyTags hnested htag).1 hnested
      have hcode' := h.keepsText n hn span code hinside hcode
      rw [StoriesFile.rawCode, StoriesFile.rawCode, hspan, hspan', Except.map, Except.map,
        Source.slice, Source.slice, StoriesFile.source, StoriesFile.source, hdocument, hdocument',
        hcode, hcode']

lemma description_outline (tag : StoryTag) :
    ((tag.outline m).comment.bind fun c => commentDescription c.data)
      = tag.comment.bind fun c => commentDescription c.data := by
  obtain ⟨e, _ | c⟩ := tag <;> rfl

/-- A story says the same if its tag does. -/
lemma storiesFrom_relocated {tags tags' : List StoryTag}
    (h : List.Forall₂ (fun tag tag' => tag'.outline id = tag.outline m
      ∧ ∀ a, faultOnly (f'.rawCode tag'.element a) = faultOnly (f.rawCode tag.element a)) tags tags')
    (taken : NameRegistry) :
    faultOnly ((f'.storiesFrom taken tags').map (List.map Story.told))
      = faultOnly ((f.storiesFrom taken tags).map (List.map Story.told)) := by
  induction h generalizing taken with
  | nil => rfl
  | @cons tag tag' tags tags' hhere _ ih =>
      obtain ⟨hsame, hcode⟩ := hhere
      have hattributes : faultOnly (storyAttributes f'.source tag'.element)
          = faultOnly (storyAttributes f.source tag.element) := by
        have he : tag'.element.outline id = tag.element.outline m := congrArg StoryTag.element hsame
        calc faultOnly (storyAttributes f'.source tag'.element)
            = faultOnly (storyAttributes f'.source (tag'.element.outline id)) :=
              (storyAttributes_outline _).symm
          _ = faultOnly (storyAttributes f'.source (tag.element.outline m)) := by rw [he]
          _ = faultOnly (storyAttributes f.source tag.element) := storyAttributes_outline _
      have hdescription : (tag'.comment.bind fun c => commentDescription c.data)
          = tag.comment.bind fun c => commentDescription c.data := by
        rw [← description_outline (m := id), congrArg StoryTag.comment hsame, description_outline]
      -- a story is told before those behind it
      have hcons (s : Story) (stories : Except Report (List Story)) :
          (stories >>= fun stories => pure (s :: stories)).map (List.map Story.told)
            = (stories.map (List.map Story.told)).map (List.cons s.told) := by
        cases stories <;> rfl
      simp only [StoriesFile.storiesFrom, map_bind_eq]
      refine faultOnly_bind hattributes fun attributes => ?_
      refine faultOnly_bind (faultOnly_mapError_reportAt _ _ _) fun taken => ?_
      refine faultOnly_bind (hcode attributes) fun rawCode => ?_
      rw [← map_bind_eq, ← map_bind_eq, hcons, hcons, Story.told, Story.told, hdescription]
      exact faultOnly_map _ (ih taken)

/-- The stories of a template are the same wherever it stands in a file, and the fault is if there is
one. -/
theorem readStories_relocated (h : d.Relocated m d') (hdoc : readDocument source = .ok d)
    (hfile : readStoriesFile d = .ok f) (hfile' : readStoriesFile d' = .ok f')
    (hname : f'.storyName = f.storyName) :
    faultOnly (f'.readStories.map (List.map Story.told))
      = faultOnly (f.readStories.map (List.map Story.told)) := by
  have htags : f'.stories.map (StoryTag.outline id) = f.stories.map (StoryTag.outline m) := by
    rw [stories_of_readStoriesFile hfile, stories_of_readStoriesFile hfile', hname,
      ← storyTags_outlines, ← storyTags_outlines, h.outlines]
  refine storiesFrom_relocated (m := m) ((forall₂_of_map_eq htags).imp fun tag tag' htag => ?_) []
  exact ⟨htag.2, rawCode_relocated h hdoc hfile hfile' htag.1 htag.2⟩

end

end SvelteStories

/-
The code that is shown for a story:

* `ShownCode`: the place of this code, told from what there is to show;
* `rawCodeSpan_eq_ok_iff`: there is at most one such place, and the code is taken from there;
* `ShownCode.inText`: in the template of a file, this place has its text;
* `exists_print_addTo`: the parameters of the story are printed with the code as a literal;
* `readStories_rawCode`: all of this for the stories of a file, down to what the literal denotes.
-/
import SvelteStories.Proofs.Additions.Kept
import SvelteStories.Proofs.Script.Printed
import SvelteStories.Proofs.Story.ReadOff
import SvelteStories.Proofs.Story.Walk
import SvelteStories.Proofs.Text.Literal
import SvelteStories.Transform.StoriesModule

namespace SvelteStories

open Script Markup

/-! ### What there is to show -/

/-- The place of the code that is shown for a story tag, where the parts at the top level and the
name of the story's template are given. -/
inductive ShownCode (top : List Node) (e : Markup.Element) (template : Option String) : Span → Prop
  /-- The first snippet for children right inside of the tag. -/
  | children {before behind : List Node} {s : Snippet} :
      e.fragment.nodes = before ++ .snippet s :: behind → s.name = childrenSnippet.toList →
      (∀ s', .snippet s' ∈ before → s'.name ≠ childrenSnippet.toList) →
      ShownCode top e template s.body.span
  /-- From the first part inside to the last, blank ones apart, where there is no such snippet. -/
  | content {leading before behind trailing : List Node} {first last : Node} :
      (∀ s, .snippet s ∈ e.fragment.nodes → s.name ≠ childrenSnippet.toList) →
      e.fragment.nodes = leading ++ first :: behind → (∀ n ∈ leading, n.isBlank = true) →
      first.isBlank = false → e.fragment.nodes = before ++ last :: trailing →
      (∀ n ∈ trailing, n.isBlank = true) → last.isBlank = false →
      ShownCode top e template ⟨first.span.start, last.span.stop⟩
  /-- The snippet at the top level that is the template, where the tag holds nothing. -/
  | template {name : String} {s : Snippet} : (∀ n ∈ e.fragment.nodes, n.isBlank = true) →
      template = some name → .snippet s ∈ top → s.name = name.toList →
      ShownCode top e template s.body.span
  /-- The tag itself, where there is no template either. -/
  | tag : (∀ n ∈ e.fragment.nodes, n.isBlank = true) → template = none →
      ShownCode top e template e.span

section

variable {nodes top : List Node} {e : Markup.Element} {template : Option String} {span : Span}

lemma snippet?_eq_some_iff {n : Node} {s : Snippet} : n.snippet? = some s ↔ n = .snippet s := by
  cases n <;> simp [Node.snippet?]

lemma mem_filterMap_snippet? {s : Snippet} :
    s ∈ nodes.filterMap Node.snippet? ↔ Node.snippet s ∈ nodes := by
  simp [List.mem_filterMap, snippet?_eq_some_iff]

/-- The first snippet of a name stands behind parts that are no snippets of this name. -/
lemma exists_of_find?_snippet {name : List Char} {s : Snippet}
    (h : (nodes.filterMap Node.snippet?).find? (fun s => s.name = name) = some s) :
    s.name = name ∧ ∃ before behind : List Node, nodes = before ++ .snippet s :: behind
      ∧ ∀ s', .snippet s' ∈ before → s'.name ≠ name := by
  obtain ⟨hname, earlier, later, hsplit, hearlier⟩ := List.find?_eq_some_iff_append.mp h
  obtain ⟨left, right, rfl, rfl, hright⟩ := List.filterMap_eq_append_iff.mp hsplit
  obtain ⟨others, n, behind, rfl, hothers, hn, -⟩ := List.filterMap_eq_cons_iff.mp hright
  obtain rfl := snippet?_eq_some_iff.mp hn
  refine ⟨of_decide_eq_true hname, left ++ others, behind, by simp, fun s' hs' => ?_⟩
  rcases List.mem_append.mp hs' with hs' | hs'
  · simpa using hearlier s' (mem_filterMap_snippet?.mpr hs')
  · cases hothers _ hs'

/-- Without its blank ones, parts go from the first to the last that is not blank, if there are
any. -/
lemma spanOfNodes?_cases (nodes : List Node) :
    (spanOfNodes? (nodes.filter fun n => !n.isBlank) = none ∧ ∀ n ∈ nodes, n.isBlank = true)
      ∨ ∃ (leading behind before trailing : List Node) (first last : Node),
          nodes = leading ++ first :: behind ∧ (∀ n ∈ leading, n.isBlank = true)
            ∧ first.isBlank = false ∧ nodes = before ++ last :: trailing
            ∧ (∀ n ∈ trailing, n.isBlank = true) ∧ last.isBlank = false
            ∧ spanOfNodes? (nodes.filter fun n => !n.isBlank)
              = some ⟨first.span.start, last.span.stop⟩ := by
  rcases List.eq_nil_or_concat (nodes.filter fun n => !n.isBlank) with hnil | ⟨init, last, hlast⟩
  · left
    refine ⟨by rw [hnil]; rfl, ?_⟩
    simpa using List.filter_eq_nil_iff.mp hnil
  · right
    obtain ⟨first, rest, hfirst⟩ := List.exists_cons_of_ne_nil
      (show (nodes.filter fun n => !n.isBlank) ≠ [] by simp [hlast])
    have hspan : spanOfNodes? (nodes.filter fun n => !n.isBlank)
        = some ⟨first.span.start, last.span.stop⟩ := by
      have hhead : (nodes.filter fun n => !n.isBlank).head? = some first := by rw [hfirst]; rfl
      have hend : (nodes.filter fun n => !n.isBlank).getLast? = some last := by
        rw [hlast, List.concat_eq_append, List.getLast?_append]; rfl
      rw [spanOfNodes?, hhead, hend]
    obtain ⟨leading, behind, hleading, hblank, hloud, -⟩ := List.filter_eq_cons_iff.mp hfirst
    rw [List.concat_eq_append] at hlast
    obtain ⟨left, right, hsplit, -, hright⟩ := List.filter_eq_append_iff.mp hlast
    obtain ⟨others, trailing, rfl, -, hloud', htrailing⟩ := List.filter_eq_cons_iff.mp hright
    refine ⟨leading, behind, left ++ others, trailing, first, last, hleading, by simpa using hblank,
      by simpa using hloud, by simpa using hsplit, ?_, by simpa using hloud', hspan⟩
    simpa using List.filter_eq_nil_iff.mp htrailing

/-- What a tag holds itself is shown, if it holds anything but blanks. -/
lemma ownCode?_cases (e : Markup.Element) :
    (e.ownCode? = none ∧ ∀ n ∈ e.fragment.nodes, n.isBlank = true)
      ∨ ∃ span, e.ownCode? = some span ∧ ∀ top template, ShownCode top e template span := by
  cases hfind : (e.fragment.nodes.filterMap Node.snippet?).find? (fun s =>
      s.name = childrenSnippet.toList) with
  | some s =>
      obtain ⟨hname, before, behind, hnodes, hbefore⟩ := exists_of_find?_snippet hfind
      exact Or.inr ⟨s.body.span, by simp only [Markup.Element.ownCode?, hfind],
        fun _ _ => .children hnodes hname hbefore⟩
  | none =>
      have hown : e.ownCode? = spanOfNodes? (e.fragment.nodes.filter fun n => !n.isBlank) := by
        simp only [Markup.Element.ownCode?, hfind]
      have hnone : ∀ s, .snippet s ∈ e.fragment.nodes → s.name ≠ childrenSnippet.toList :=
        fun s hs => by simpa using List.find?_eq_none.mp hfind s (mem_filterMap_snippet?.mpr hs)
      rw [hown]
      obtain hblank | ⟨_, _, _, _, first, last, hfirst, hleading, hloud, hlast, htrailing, hloud',
        hspan⟩ := spanOfNodes?_cases e.fragment.nodes
      · exact Or.inl hblank
      · exact Or.inr ⟨_, hspan, fun _ _ =>
          .content hnone hfirst hleading hloud hlast htrailing hloud'⟩

/-! ### One place for each story -/

/-- Parts with a snippet of a name hold the first one behind parts that are none. -/
lemma find?_snippet_append {name : List Char} {before behind : List Node} {s : Snippet}
    (hname : s.name = name) (hbefore : ∀ s', .snippet s' ∈ before → s'.name ≠ name) :
    ((before ++ .snippet s :: behind).filterMap Node.snippet?).find? (fun s => s.name = name)
      = some s := by
  refine List.find?_eq_some_iff_append.mpr ⟨by simpa using hname, before.filterMap Node.snippet?,
    behind.filterMap Node.snippet?, ?_, fun s' hs' => ?_⟩
  · rw [List.filterMap_append, List.filterMap_cons_some (snippet?_eq_some_iff.mpr rfl)]
  · simpa using hbefore s' (mem_filterMap_snippet?.mp hs')

lemma find?_snippet_eq_none {name : List Char}
    (h : ∀ s, .snippet s ∈ nodes → s.name ≠ name) :
    (nodes.filterMap Node.snippet?).find? (fun s => s.name = name) = none := by
  refine List.find?_eq_none.mpr fun s hs => ?_
  simpa using h s (mem_filterMap_snippet?.mp hs)

lemma filter_eq_nil_of_blank (h : ∀ n ∈ nodes, n.isBlank = true) :
    nodes.filter (fun n => !n.isBlank) = [] :=
  List.filter_eq_nil_iff.mpr fun n hn => by simp [h n hn]

/-- Between blank parts, parts go from the first that is not blank to the last. -/
lemma spanOfNodes?_filter {leading before behind trailing : List Node} {first last : Node}
    (hfirst : nodes = leading ++ first :: behind) (hleading : ∀ n ∈ leading, n.isBlank = true)
    (hloud : first.isBlank = false) (hlast : nodes = before ++ last :: trailing)
    (htrailing : ∀ n ∈ trailing, n.isBlank = true) (hloud' : last.isBlank = false) :
    spanOfNodes? (nodes.filter fun n => !n.isBlank) = some ⟨first.span.start, last.span.stop⟩ := by
  have hhead : (nodes.filter fun n => !n.isBlank).head? = some first := by
    rw [hfirst, List.filter_append, filter_eq_nil_of_blank hleading,
      List.filter_cons_of_pos (by simp [hloud])]
    rfl
  have hend : (nodes.filter fun n => !n.isBlank).getLast? = some last := by
    rw [hlast, List.filter_append, List.filter_cons_of_pos (by simp [hloud']),
      filter_eq_nil_of_blank htrailing, List.getLast?_append]
    rfl
  rw [spanOfNodes?, hhead, hend]

/-- Of parts that all are blank, none is a snippet. -/
lemma not_mem_of_blank (h : ∀ n ∈ nodes, n.isBlank = true) (s : Snippet) : .snippet s ∉ nodes := by
  intro hs
  cases h _ hs

lemma ownCode?_eq_none (h : ∀ n ∈ e.fragment.nodes, n.isBlank = true) : e.ownCode? = none := by
  have hnone : (e.fragment.nodes.filterMap Node.snippet?).find? (fun s =>
      s.name = childrenSnippet.toList) = none :=
    find?_snippet_eq_none fun s hs => absurd hs (not_mem_of_blank h s)
  simp only [Markup.Element.ownCode?, hnone, filter_eq_nil_of_blank h, spanOfNodes?, List.head?_nil]

end

section

variable {d : Document} {f : StoriesFile} {e : Markup.Element} {a : StoryAttributes} {span : Span}

/-- If no snippet is repeated, each is told by its name. -/
lemma eq_of_repeatedSnippet? {names : List (List Char)} {snippets : List Snippet}
    (h : repeatedSnippet? names snippets = none) :
    (∀ s ∈ snippets, s.name ∉ names)
      ∧ ∀ s ∈ snippets, ∀ s' ∈ snippets, s.name = s'.name → s = s' := by
  induction snippets generalizing names with
  | nil => simp
  | cons s snippets ih =>
      rw [repeatedSnippet?] at h
      split_ifs at h with hmem
      obtain ⟨hnew, hunique⟩ := ih h
      have hs : s.name ∉ names := by simpa using hmem
      refine ⟨List.forall_mem_cons.mpr ⟨hs, fun s' hs' hold => ?_⟩, fun s₁ h₁ s₂ h₂ hname => ?_⟩
      · exact hnew s' hs' (List.mem_cons_of_mem _ hold)
      · rcases List.mem_cons.mp h₁ with heq | hold₁ <;> rcases List.mem_cons.mp h₂ with heq' | hold₂
        · exact heq.trans heq'.symm
        · exact absurd (by simp [← hname, heq]) (hnew s₂ hold₂)
        · exact absurd (by simp [hname, heq']) (hnew s₁ hold₁)
        · exact hunique s₁ hold₁ s₂ hold₂ hname

/-- The snippets of a file are those at its top level, and each is told by its name. -/
lemma topSnippets_eq_ok {snippets : List Snippet} (h : topSnippets d = .ok snippets) :
    snippets = d.fragment.nodes.filterMap Node.snippet?
      ∧ ∀ s ∈ snippets, ∀ s' ∈ snippets, s.name = s'.name → s = s' := by
  simp only [topSnippets] at h
  split at h
  · rename_i hnone
    obtain rfl := Except.ok.inj h
    exact ⟨rfl, (eq_of_repeatedSnippet? hnone).2⟩
  · cases h

/-- There is one place of the code that is shown for a story, if there is any, and this is where the
code is taken from. -/
theorem rawCodeSpan_eq_ok_iff (hfile : readStoriesFile d = .ok f) :
    f.rawCodeSpan e a = .ok span ↔ ShownCode d.fragment.nodes e a.template span := by
  obtain ⟨-, -, hsnippets⟩ := parts_of_readStoriesFile hfile
  obtain ⟨htop, hunique⟩ := topSnippets_eq_ok hsnippets
  constructor
  · intro h
    rw [StoriesFile.rawCodeSpan] at h
    obtain ⟨hown, hblank⟩ | ⟨span', hown, hshown⟩ := ownCode?_cases e
    · cases htemplate : a.template with
      | none =>
          rw [hown, htemplate] at h
          obtain rfl := Except.ok.inj h
          exact .tag hblank rfl
      | some template =>
          rw [hown, htemplate] at h
          dsimp only at h
          split at h
          · rename_i s hfind
            obtain rfl := Except.ok.inj h
            have hs : Node.snippet s ∈ d.fragment.nodes := by
              rw [← mem_filterMap_snippet?, ← htop]
              exact List.mem_of_find?_eq_some hfind
            exact .template hblank rfl hs (by simpa using List.find?_some hfind)
          · cases h
    · rw [hown] at h
      obtain rfl := Except.ok.inj h
      exact hshown _ _
  · intro h
    rw [StoriesFile.rawCodeSpan]
    cases h with
    | children hnodes hname hbefore =>
        simp only [Markup.Element.ownCode?, hnodes, find?_snippet_append hname hbefore]
    | content hnone hfirst hleading hloud hlast htrailing hloud' =>
        simp only [Markup.Element.ownCode?, find?_snippet_eq_none hnone,
          spanOfNodes?_filter hfirst hleading hloud hlast htrailing hloud']
    | @template name s hblank htemplate hs hname =>
        have hmem : s ∈ f.snippets := htop ▸ mem_filterMap_snippet?.mpr hs
        have hfind : f.snippets.find? (fun s => s.name = name.toList) = some s := by
          cases hfound : f.snippets.find? fun s => s.name = name.toList with
          | none => exact absurd hname (by simpa using List.find?_eq_none.mp hfound s hmem)
          | some s' =>
              have hname' : s'.name = name.toList := by simpa using List.find?_some hfound
              rw [hunique s' (List.mem_of_find?_eq_some hfound) s hmem (hname'.trans hname.symm)]
        simp only [ownCode?_eq_none hblank, htemplate, hfind]
    | tag hblank htemplate => simp only [ownCode?_eq_none hblank, htemplate]

/-! ### Its text -/

lemma Span.InText.start {t : List Char} {s : Span} (h : s.InText t) : Boundary t s.start := by
  obtain ⟨w, hw⟩ := h
  obtain ⟨before, behind, rfl, hstart, -⟩ := slice?_eq_some_iff.mp hw
  exact ⟨before, _, rfl, hstart⟩

lemma Span.InText.stop {t : List Char} {s : Span} (h : s.InText t) : Boundary t s.stop := by
  obtain ⟨w, hw⟩ := h
  obtain ⟨before, behind, rfl, hstart, hstop⟩ := slice?_eq_some_iff.mp hw
  exact ⟨before ++ w, behind, by simp, by rw [byteLength_append]; omega⟩

lemma Span.InText.le {t : List Char} {s : Span} (h : s.InText t) : s.start ≤ s.stop := by
  obtain ⟨w, hw⟩ := h
  obtain ⟨_, _, -, -, hstop⟩ := slice?_eq_some_iff.mp hw
  omega

/-- From the first part of a fragment that is not blank to the last, there is text. -/
lemma inText_content {t : List Char} {nodes leading before behind trailing : List Node}
    {first last : Node} (hnodes : ∀ n ∈ nodes, n.span.InText t)
    (hordered : nodes.Pairwise fun n m => n.span.stop ≤ m.span.start)
    (hfirst : nodes = leading ++ first :: behind) (hleading : ∀ n ∈ leading, n.isBlank = true)
    (hlast : nodes = before ++ last :: trailing) (hloud' : last.isBlank = false) :
    (⟨first.span.start, last.span.stop⟩ : Span).InText t := by
  have hf := hnodes first (by simp [hfirst])
  have hl := hnodes last (by simp [hlast])
  refine exists_slice? hf.start hl.stop ?_
  rcases List.append_eq_append_iff.mp (hfirst.symm.trans hlast) with ⟨m, rfl, hm⟩ | ⟨m, rfl, hm⟩
  · cases m with
    | nil =>
        obtain rfl := (List.cons.inj hm).1
        exact hf.le
    | cons n m =>
        -- the last part stands behind the first
        obtain ⟨rfl, rfl⟩ := List.cons.inj hm
        rw [hfirst] at hordered
        have hstop := (List.pairwise_cons.mp (List.pairwise_append.mp hordered).2.1).1 last (by simp)
        exact Nat.le_trans hf.le (Nat.le_trans hstop hl.le)
  · cases m with
    | nil =>
        obtain rfl := (List.cons.inj hm).1
        exact hf.le
    | cons n m =>
        obtain rfl := (List.cons.inj hm).1
        exact absurd (hleading last (by simp)) (by simp [hloud'])

/-- The place of the code that is shown for a story has its text. -/
lemma ShownCode.inText {t : List Char} {top : List Node} {template : Option String}
    (h : ShownCode top e template span) (he : (Node.element e).Nested t)
    (htop : ∀ n ∈ top, n.Nested t) : span.InText t := by
  have hbody {s : Snippet} (hs : (Node.snippet s).Nested t) : s.body.span.InText t :=
    hs.encloses.fragmentsInText s.body (List.mem_singleton_self _)
  cases h with
  | @children before behind s hnodes _ _ =>
      have hs : Node.snippet s ∈ e.fragment.nodes := by simp [hnodes]
      exact hbody (he.child hs)
  | content _ hfirst hleading _ hlast _ hloud' =>
      have hordered := (he.encloses.tiled e.fragment (List.mem_singleton_self _)).pairwise
      exact inText_content (fun n hn => (he.child hn).encloses.inText)
        (List.pairwise_map.mp hordered) hfirst hleading hlast hloud'
  | template _ _ hs _ => exact hbody (htop _ hs)
  | tag _ _ => exact he.encloses.inText

end

/-! ### Its literal -/

/-- A property of an object is printed with the object. -/
lemma exists_printProperties (depth : Nat) {p : Property} {properties : List Property}
    (hp : p ∈ properties) :
    ∃ left right, printProperties depth properties = left ++ p.print depth ++ right := by
  induction properties with
  | nil => cases hp
  | cons q properties ih =>
      rcases List.mem_cons.mp hp with rfl | hp
      · cases properties with
        | nil => exact ⟨[], [], by simp [printProperties_singleton]⟩
        | cons q' properties =>
            exact ⟨[], ',' :: newLine depth ++ printProperties depth (q' :: properties),
              by simp [printProperties_cons_cons]⟩
      · obtain ⟨left, right, hprint⟩ := ih hp
        cases properties with
        | nil => cases hp
        | cons q' properties =>
            refine ⟨q.print depth ++ ',' :: newLine depth ++ left, right, ?_⟩
            simp [printProperties_cons_cons, hprint]

lemma exists_print_of_mem (depth : Nat) {p : Property} {o : ObjectLiteral}
    (hp : p ∈ o.properties) :
    ∃ left right, o.print depth = left ++ p.print (depth + 1) ++ right := by
  obtain ⟨span, properties⟩ := o
  cases properties with
  | nil => cases hp
  | cons q properties =>
      obtain ⟨left, right, hprint⟩ := exists_printProperties (depth + 1) hp
      refine ⟨'{' :: newLine (depth + 1) ++ left, right ++ newLine depth ++ ['}'], ?_⟩
      rw [print_of_cons, hprint]
      simp

/-- The value for the runtime is an entry of its own. -/
lemma exists_mem_setInternal (value : Expr) (o : ObjectLiteral) :
    ∃ key, key.name? = some internalKey
      ∧ .keyValue key value ∈ (ParameterAdditions.setInternal value o).properties := by
  rw [ParameterAdditions.setInternal]
  split
  · rename_i before p behind hsplit
    obtain ⟨-, hentry, -⟩ := splitLast?_eq_some_iff.mp hsplit
    rw [Property.isEntry, Bool.and_eq_true] at hentry
    cases p with
    | keyValue key old =>
        exact ⟨key, name?_of_isNamed hentry.1, List.mem_append_right _ List.mem_cons_self⟩
    | shorthand _ _ | initialized _ _ _ | method _ _ _ _ | spread _ _ => cases hentry.2
  · exact ⟨.identifier nowhere internalKey, rfl, List.mem_append_right _ (List.mem_singleton_self _)⟩

/-- What is changed inside of an object leaves properties of other names alone. -/
lemma mem_inside {name : String} {change : ObjectLiteral → Noted ObjectLiteral} {p : Property}
    {o : ObjectLiteral} (hp : p ∈ o.properties) (hname : p.isNamed name = false) :
    p ∈ (ParameterAdditions.inside name change o).value.properties := by
  rw [ParameterAdditions.inside]
  split
  · exact List.mem_append_left _ hp
  · rename_i before key inner behind hsplit
    obtain ⟨hproperties, hnamed, -⟩ := splitLast?_eq_some_iff.mp hsplit
    rw [hproperties] at hp
    rcases List.mem_append.mp hp with hp | hp
    · exact List.mem_append_left _ hp
    · rcases List.mem_cons.mp hp with rfl | hp
      · exact absurd hnamed (by simp [hname])
      · exact List.mem_append_right _ (List.mem_cons_of_mem _ hp)
  · exact hp

/-- The parameters of a story have the value for the runtime, whatever they have else. -/
lemma exists_mem_addTo (s : Story) (o : ObjectLiteral) :
    ∃ key, key.name? = some internalKey
      ∧ .keyValue key (.object s.internalParameter) ∈ (s.additions.addTo o).value.properties := by
  obtain ⟨key, hkey, hmem⟩ := exists_mem_setInternal (.object s.internalParameter) o
  refine ⟨key, hkey, ?_⟩
  have hnamed : (Property.keyValue key (.object s.internalParameter)).isNamed internalKey = true := by
    simp [Property.isNamed, Property.name?, hkey]
  have hother := isNamed_of_ne hnamed (show internalKey ≠ "docs" by decide)
  cases hdescription : s.description with
  | none => simpa [ParameterAdditions.addTo, Story.additions, hdescription] using hmem
  | some text =>
      simpa [ParameterAdditions.addTo, Story.additions, hdescription,
        ParameterAdditions.addDescription] using mem_inside hmem hother

/-- The value for the runtime begins with the code of the story as a literal. -/
lemma exists_print_internalParameter (s : Story) (depth : Nat) :
    ∃ right, s.internalParameter.print depth
      = '{' :: newLine (depth + 1) ++ "rawCode: ".toList ++ quote s.rawCode ++ right := by
  have hcode : (entry "rawCode" (stringExpr (String.ofList s.rawCode))).print (depth + 1)
      = "rawCode: ".toList ++ quote s.rawCode := by
    simp [print_entry, print_stringExpr]
  rw [Story.internalParameter]
  cases s.attributes.tags with
  | none =>
      refine ⟨newLine depth ++ ['}'], ?_⟩
      simp only [objectOf, print_of_cons, printProperties_singleton, hcode, List.append_assoc,
        List.cons_append]
  | some tags =>
      refine ⟨',' :: newLine (depth + 1) ++ (entry "tags" (stringsExpr tags)).print (depth + 1)
        ++ newLine depth ++ ['}'], ?_⟩
      simp only [objectOf, print_of_cons, printProperties_cons_cons, printProperties_singleton, hcode,
        List.append_assoc, List.cons_append]

/-- The parameters of a story are printed with its code as a literal. -/
lemma exists_print_addTo (s : Story) (o : ObjectLiteral) (depth : Nat) :
    ∃ left right, (s.additions.addTo o).value.print depth
      = left ++ (": \x7b".toList ++ newLine (depth + 2) ++ "rawCode: ".toList ++ quote s.rawCode)
        ++ right := by
  obtain ⟨key, -, hmem⟩ := exists_mem_addTo s o
  obtain ⟨left, right, hprint⟩ := exists_print_of_mem depth hmem
  obtain ⟨behind, hparameter⟩ := exists_print_internalParameter s (depth + 1)
  refine ⟨left ++ key.print (depth + 1), behind ++ right, ?_⟩
  rw [hprint, print_keyValue, print_object, hparameter]
  simp

/-! ### The stories of a file -/

/-- **The code of a story** is the text at a place of the file that is told from what there is to
show, and there is no other such place. In the parameters of the story it is printed as a literal,
which denotes the code and no other text. -/
theorem readStories_rawCode {source : Source} {d : Document} {f : StoriesFile}
    {stories : List Story} (hdoc : readDocument source = .ok d) (hfile : readStoriesFile d = .ok f)
    (hstories : f.readStories = .ok stories) :
    ∀ s ∈ stories, ∃ span before behind,
      (∀ span', ShownCode d.fragment.nodes s.tag.element s.attributes.template span'
          ↔ span' = span)
        ∧ source.text = before ++ s.rawCode ++ behind
        ∧ byteLength before = span.start ∧ byteLength (before ++ s.rawCode) = span.stop
        ∧ (∀ o depth, ∃ left right, (s.additions.addTo o).value.print depth
          = left ++ (": \x7b".toList ++ newLine (depth + 2) ++ "rawCode: ".toList
            ++ quote s.rawCode) ++ right)
        ∧ ∀ text, literalUnits? (quote s.rawCode) = some (unitsOf text) ↔ text = s.rawCode := by
  intro s hs
  obtain ⟨hdocument, htags, -⟩ := parts_of_readStoriesFile hfile
  have hsource : f.source.text = source.text := by
    simp only [readDocument, bind_eq_ok_iff, mapError_eq_ok_iff, pure_eq_ok_iff] at hdoc
    obtain ⟨_, -, _, -, rfl⟩ := hdoc
    rw [StoriesFile.source, hdocument]
  obtain ⟨hnodes, -⟩ := nested_of_readDocument hdoc
  obtain ⟨tag, htag, hread⟩ : ∃ tag ∈ f.stories, s.ReadOff f tag := by
    obtain ⟨i, hi, rfl⟩ := List.mem_iff_getElem.mp hs
    have hall := readStories_forall₂ hstories
    have hlength : i < f.stories.length := hall.length_eq ▸ hi
    exact ⟨_, List.getElem_mem hlength, hall.get hlength hi⟩
  obtain ⟨span, hspan, hcode⟩ := map_eq_ok_iff.mp hread.rawCode
  rw [← hread.tag_eq] at hspan htag
  have hshown := (rawCodeSpan_eq_ok_iff hfile).mp hspan
  have hnested : (Node.element s.tag.element).Nested source.text := by
    obtain ⟨nodes, hwalked, before, behind, rfl, -⟩ := mem_storyTags_iff.mp (htags ▸ htag)
    exact hwalked.forall_mem (fun n hn m hm => hn.child hm) (fun n hn => (hnodes n hn).1) _
      (List.mem_append_right _ List.mem_cons_self)
  obtain ⟨code, hslice⟩ := hshown.inText hnested fun n hn => (hnodes n hn).1
  have hrawCode : s.rawCode = code := by
    rw [← hcode, Source.slice, hsource, hslice]
    rfl
  obtain ⟨before, behind, htext, hstart, hstop⟩ := slice?_eq_some_iff.mp (hrawCode ▸ hslice)
  refine ⟨span, before, behind, fun span' => ?_, by simpa using htext, hstart, ?_,
    exists_print_addTo s, literalUnits?_quote_eq_iff s.rawCode⟩
  · rw [← rawCodeSpan_eq_ok_iff hfile, hspan]
    exact ⟨fun h => (Except.ok.inj h).symm, fun h => h ▸ rfl⟩
  · rw [byteLength_append]
    omega

/-- A component file with stories of every kind: with a template, with content, with a snippet for
children and with nothing. -/
def templatedStories : Source :=
  ⟨"A.stories.svelte", ("<script module>\n".toList
    ++ "  import \x7b defineMeta \x7d from '@storybook/addon-svelte-csf';\n".toList
    ++ "  const \x7b Story \x7d = defineMeta(\x7b\x7d);\n</script>\n".toList
    ++ "\x7b#snippet row()\x7d\"a\\b\n\u2028é\x7b/snippet\x7d".toList
    ++ "<Story name=\"A\" template=\x7brow\x7d /><Story name=\"B\"> b <i>'</i>\n</Story>".toList
    ++ "<Story name=\"C\">c\x7b#snippet children()\x7d$d\x7b/snippet\x7d</Story>".toList
    ++ "<Story name=\"D\"> </Story>".toList)⟩

/-- The codes of the stories of a file. -/
def rawCodes (source : Source) : Except Report (List (List Char)) := do
  let file ← readStoriesFile (← readDocument source)
  return (← file.readStories).map Story.rawCode

lemma rawCodes_templatedStories :
    (rawCodes templatedStories).toOption
      = some ["\"a\\b\n\u2028é".toList, " b <i>'</i>".toList, "$d".toList,
        "<Story name=\"D\"> </Story>".toList] := by
  -- the kernel is faster with characters than with literals
  unfold templatedStories
  repeat rewrite [String.toList_ofList]
  decide +kernel

theorem templatedStories_rawCode :
    ∃ d f stories, readDocument templatedStories = .ok d ∧ readStoriesFile d = .ok f
      ∧ f.readStories = .ok stories
      ∧ stories.map Story.rawCode = ["\"a\\b\n\u2028é".toList, " b <i>'</i>".toList, "$d".toList,
        "<Story name=\"D\"> </Story>".toList]
      ∧ ∀ s ∈ stories, ∃ span before behind,
        (∀ span', ShownCode d.fragment.nodes s.tag.element s.attributes.template span'
            ↔ span' = span)
          ∧ templatedStories.text = before ++ s.rawCode ++ behind
          ∧ byteLength before = span.start ∧ byteLength (before ++ s.rawCode) = span.stop
          ∧ (∀ o depth, ∃ left right, (s.additions.addTo o).value.print depth
            = left ++ (": \x7b".toList ++ newLine (depth + 2) ++ "rawCode: ".toList
              ++ quote s.rawCode) ++ right)
          ∧ ∀ text, literalUnits? (quote s.rawCode) = some (unitsOf text) ↔ text = s.rawCode := by
  have h := toOption_eq_some_iff.mp rawCodes_templatedStories
  simp only [rawCodes, bind_eq_ok_iff, pure_eq_ok_iff] at h
  obtain ⟨d, hdoc, f, hfile, stories, hstories, hcodes⟩ := h
  exact ⟨d, f, stories, hdoc, hfile, hstories, hcodes, readStories_rawCode hdoc hfile hstories⟩

end SvelteStories

/-
Templates, read by moving a cursor:

* `Input.nodes`: the parts up to the ending of what encloses them, in loops and recursions that
  nothing bounds;
* `follows_nodes`: they end, and as `readNodes` does, by induction on what is left of the text. There
  is a lemma for each form of parts, which supposes it of the parts inside;
* `readTemplate_run`: reading a text ends, never leaves the text and always goes forward.
-/
import SvelteStories.Proofs.Cursor.Parts
import SvelteStories.Proofs.Markup.Document
import SvelteStories.Proofs.Markup.Relocation

namespace SvelteStories.Markup.Cursor

/-! ### Parts with others inside -/

mutual

/-- The parts up to the ending of what encloses them. -/
def Input.nodes (i : Input) (enclosure : Enclosure) : Run (List Node) := do
  match ← begins i.text with
  | .ending ending =>
    close i.text enclosure ending
    return []
  | .node form =>
    let start ← cursor
    let n ← i |>.node form
    partFrom start
    let others ← i |>.nodes enclosure
    return n :: others
partial_fixpoint

/-- A part. -/
def Input.node (i : Input) (form : NodeForm) : Run Node :=
  match form with
  | .comment => comment i.text
  | .element => i |>.element
  | .block => i |>.block
  | .tag => tag i.text
  | .expression => expressionTag i.text
  | .text => plainText i.text
partial_fixpoint

/-- An element. -/
def Input.element (i : Input) : Run Node := do
  let start ← cursor
  advance 1
  let name ← readWhile i.text isElementNamePart
  let (attributes, selfClosing) ← i.attributeNodes start name
  let fragment ← i |>.content name selfClosing start
  let stop ← cursor
  return .element ⟨⟨start, stop⟩, .ofName name, name, attributes, fragment, selfClosing⟩
partial_fixpoint

/-- What the element at an offset holds, up to its end. -/
def Input.content (i : Input) (name : List Char) (selfClosing : Bool) (opening : Nat) :
    Run Fragment := do
  let inside ← cursor
  let lower := name.map Char.toLower
  if selfClosing || voidElements.contains lower then return ⟨⟨inside, inside⟩, []⟩
  else if rawTextElements.contains lower then
    let ahead ← rest i.text
    match splitAtFirst ('<' :: '/' :: name) ahead with
    | none => fail (.openElement (String.ofList name)) opening
    | some (found, _) =>
      let stop := inside + byteLength found
      moveTo stop
      closingTag i.text name
      let data ← slice i.text ⟨inside, stop⟩
      return ⟨⟨inside, stop⟩, [.text ⟨inside, stop⟩ data]⟩
  else
    let parts ← i |>.nodes (.element name)
    let stop ← cursor
    closingTag i.text name
    return ⟨⟨inside, stop⟩, parts⟩
partial_fixpoint

/-- A block of any kind. -/
def Input.block (i : Input) : Run Node := do
  let start ← cursor
  let closing ← bracedEnd i.text start
  let (word, code) ← header i.text start closing
  moveTo (closing + 1)
  if word = "snippet".toList then i |>.snippet start word code
  else if branchingBlocks.contains word then
    let fragments ← i |>.branches word
    let stop ← cursor
    return .block ⟨⟨start, stop⟩, word, code, fragments⟩
  else fail (.unknownBlock (String.ofList word)) start
partial_fixpoint

/-- The branches of a block up to its closing clause. -/
def Input.branches (i : Input) (kind : List Char) : Run (List Fragment) := do
  let inside ← cursor
  let parts ← i |>.nodes .block
  let clause ← cursor
  let closing ← bracedEnd i.text clause
  let ahead ← rest i.text
  moveTo (closing + 1)
  if ['{', '/'].isPrefixOf ahead then
    closingClause i.text kind clause closing
    return [⟨⟨inside, clause⟩, parts⟩]
  else
    let others ← i |>.branches kind
    return ⟨⟨inside, clause⟩, parts⟩ :: others
partial_fixpoint

/-- A snippet whose opening clause is at an offset and has its code at a span. -/
def Input.snippet (i : Input) (start : Nat) (word : List Char) (code : Span) : Run Node := do
  let text ← slice i.text code
  let length :=
    ((bytesOf text).takeWhile fun c => isAsciiAlphanumeric c || c = '_' || c = '$').length
  let name ← slice i.text ⟨code.start, code.start + length⟩
  if name.isEmpty then fail .unnamedSnippet code.start
  else
    let inside ← cursor
    let parts ← i |>.nodes .block
    let clause ← cursor
    let ahead ← rest i.text
    if ['{', '/'].isPrefixOf ahead then
      let closing ← bracedEnd i.text clause
      closingClause i.text "snippet".toList clause closing
      moveTo (closing + 1)
      return .snippet ⟨⟨start, closing + 1⟩, name, parameterSpan ⟨word, text, code⟩,
        ⟨⟨inside, clause⟩, parts⟩⟩
    else fail .snippetClause clause
partial_fixpoint

end

/-! ### Elements -/

variable {t : List Char} {i : Input} {p q : Place}

/-- Where less of a text is left than a limit, reading parts ends, and as a reader does. -/
def Leads (i : Input) (limit : Nat) (children : NodeReader) : Prop :=
  ∀ ⦃enclosure p⦄, (Place.start i.text).Reaches p → p.rest.length < limit →
    Follows i.text (i.nodes enclosure) p (children enclosure p)

variable {children : NodeReader} {limit : Nat}

/-- What an element holds, up to its end. -/
lemma follows_content {name : List Char} {selfClosing : Bool} {opening : Place}
    (hsound : children.Sound i.text) (hchildren : Leads i limit children)
    (hopening : (Place.start i.text).Reaches opening) (hp : (Place.start i.text).Reaches p)
    (hlimit : p.rest.length < limit) :
    Follows i.text (i.content name selfClosing opening.offset) p
      (readContent children name selfClosing opening p) := by
  rw [Input.content]
  simp only [readContent]
  refine follows_cursor ?_
  split
  · exact follows_pure hp
  split
  · -- text up to the closing tag
    refine follows_rest hp ?_
    cases hsplit : splitAtFirst ('<' :: '/' :: name) p.rest with
    | none => exact follows_fail (by rintro ⟨⟩) (boundary_of_reaches hopening)
    | some found =>
        obtain ⟨data, behind⟩ := found
        obtain ⟨hrest, hclose⟩ := eq_append_of_splitAtFirst hsplit
        have hreads := Place.reads_after hrest
        have hstop := hp.trans hreads.reaches
        have hopen : ['<', '/'] <+: (p.after data).rest := by
          rw [← List.append_cancel_left (hrest.symm.trans hreads.1)]
          exact (List.prefix_append ['<', '/'] name).trans hclose
        refine follows_moveTo hstop rfl ?_
        have hslice := Place.slice?_of_reads hp hreads
        refine (follows_closingTag hstop hopen).bind_map fun q _ hq => ?_
        exact follows_slice hslice (follows_pure hq)
  · -- parts up to the closing tag
    refine (hchildren hp hlimit).bind fun parts stop hparts hstop => ?_
    have hopen : ['<', '/'] <+: stop.rest := (hsound hp hparts).2
    refine follows_cursor ?_
    exact (follows_closingTag hstop hopen).bind_map fun q _ hq => follows_pure hq

/-- An element. -/
lemma follows_element (hsound : children.Sound i.text) (hchildren : Leads i limit children)
    (hp : (Place.start i.text).Reaches p) (hopen : p.rest.head? = some '<')
    (hlimit : p.rest.length ≤ limit) :
    Follows i.text i.element p (readElement i.read children p) := by
  obtain ⟨hsign, hoffset⟩ := reaches_after_head hp hopen (by decide)
  have hname := reaches_after_run hsign isElementNamePart
  have hreads := reads_elementName hopen
  have hafter : (p.after ['<']).after ((p.after ['<']).run isElementNamePart)
      = p.after ('<' :: (p.after ['<']).run isElementNamePart) :=
    ((Place.reads_head hopen).trans
      ((p.after ['<']).reads_run isElementNamePart)).after_eq.symm
  rw [hafter] at hname
  rw [Input.element, readElement]
  refine follows_cursor (follows_advance hsign hoffset ?_)
  refine follows_readWhile isAsciiTest_isElementNamePart hsign ?_
  rw [hafter]
  have hlength := hreads.length_lt
  refine (follows_attributeNodes hp hname (by omega)).bind fun r inside hattributes hinside => ?_
  have hshorter := (readAttributes_reaches hattributes).length_le
  refine (follows_content hsound hchildren hp hinside (by omega)).bind fun fragment q _ hq => ?_
  exact follows_cursor (follows_pure hq)

/-! ### Blocks and snippets -/

/-- The loop over the branches of a block ends. -/
lemma follows_branches {kind : List Char} {fuel : Nat} (hsound : children.Sound i.text)
    (hchildren : Leads i limit children) (hp : (Place.start i.text).Reaches p)
    (hlimit : p.rest.length < limit) (hfuel : p.rest.length < fuel) :
    Follows i.text (i.branches kind) p (readBranches children kind fuel p) := by
  induction fuel generalizing p with
  | zero => exact absurd hfuel (Nat.not_lt_zero _)
  | succ fuel ih =>
      rw [Input.branches, readBranches]
      refine follows_cursor ((hchildren hp hlimit).bind fun parts clause hparts hclause => ?_)
      refine follows_cursor (follows_bracedEnd hclause fun code q hbraced hq hoffset => ?_)
      refine follows_rest hclause (follows_moveTo hq hoffset ?_)
      have hbraces := (reads_braced hbraced).1
      dsimp only
      split
      · rename_i hslash
        obtain ⟨word, rfl⟩ := exists_cons_of_reads (by decide) hbraces
          (List.isPrefixOf_iff_prefix.mp hslash)
        refine follows_closingClause hclause hbraced (fun hkind => ?_) fun hkind => if_neg hkind
        simp only [if_pos hkind]
        exact follows_pure hq
      · rename_i hother
        split
        · rename_i word
          refine absurd ?_ hother
          rw [List.isPrefixOf_iff_prefix, hbraces.1]
          exact ⟨_, rfl⟩
        · have hlength := hbraces.length_lt
          have hshorter := (hsound hp hparts).1.reaches.length_le
          exact (ih hq (by omega) (by omega)).bind fun others stop _ hstop => follows_pure hstop

/-- A snippet. Its opening clause is at `p`, and `inside` is behind that clause. -/
lemma follows_snippet {h : Header} {inside : Place}
    (hchildren : Leads i limit children) (hheader : slice? i.text h.span = some h.code)
    (hinside : (Place.start i.text).Reaches inside) (hlimit : inside.rest.length < limit) :
    Follows i.text (i.snippet p.offset h.word h.span) inside
      (readSnippet children h p inside) := by
  set name := h.code.takeWhile fun c => isAsciiAlphanumeric c || c = '_' || c = '$' with hname
  have hstart : Boundary i.text h.span.start := by
    obtain ⟨before, behind, ht, hbefore, -⟩ := slice?_eq_some_iff.mp hheader
    exact ⟨before, h.code ++ behind, ht, hbefore⟩
  have hslice : slice? i.text ⟨h.span.start, h.span.start + byteLength name⟩ = some name := by
    have hsplit := hheader
    rw [← List.takeWhile_append_dropWhile (p := fun c => isAsciiAlphanumeric c || c = '_' || c = '$')
      (l := h.code)] at hsplit
    exact (slice?_of_append hsplit).1
  rw [Input.snippet]
  simp only [readSnippet]
  refine follows_slice hheader ?_
  rw [isAsciiTest_snippetName.takeWhile_bytesOf, length_bytesOf]
  refine follows_slice hslice ?_
  rw [← hname]
  split
  · exact follows_fail (by rintro ⟨⟩) hstart
  refine follows_cursor ((hchildren hinside hlimit).bind fun parts clause _ hclause => ?_)
  refine follows_cursor (follows_rest hclause ?_)
  dsimp only
  by_cases hopen : clause.startsWith ['{', '/'] = true
  · have hslash : ['{', '/'].isPrefixOf clause.rest = true := hopen
    simp only [hopen, hslash, Bool.not_true, Bool.false_eq_true, if_true, if_false]
    refine follows_bracedEnd hclause fun code q hbraced hq hoffset => ?_
    obtain ⟨word, rfl⟩ := exists_cons_of_reads (by decide) (reads_braced hbraced).1
      (List.isPrefixOf_iff_prefix.mp hslash)
    refine follows_closingClause hclause hbraced (fun hkind => ?_) fun hkind => ?_
    · have hsame : (trim (('/' :: word).drop 1) != "snippet".toList) = false := by
        rw [bne_eq_false_iff_eq]
        exact hkind
      simp only [hsame]
      refine follows_moveTo hq hoffset ?_
      rw [← hoffset]
      exact follows_pure hq
    · have hsame : (trim (('/' :: word).drop 1) != "snippet".toList) = true :=
        bne_iff_ne.mpr hkind
      simp only [hsame, if_true]
      rfl
  · have hslash : ¬ ['{', '/'].isPrefixOf clause.rest = true := hopen
    simp only [hopen, hslash]
    exact follows_fail (by rintro ⟨⟩) (boundary_of_reaches hclause)

/-- A block of any kind. -/
lemma follows_block (hsound : children.Sound i.text) (hchildren : Leads i limit children)
    (hp : (Place.start i.text).Reaches p) (hopen : ['{', '#'] <+: p.rest)
    (hlimit : p.rest.length ≤ limit) :
    Follows i.text i.block p (readBlock children p) := by
  rw [Input.block, readBlock]
  refine follows_cursor (follows_bracedEnd hp fun code inside hbraced hinside hoffset => ?_)
  have hbraces := (reads_braced hbraced).1
  obtain ⟨code, rfl⟩ := exists_cons_of_reads (by decide) hbraces hopen
  have hlength := hbraces.length_lt
  refine follows_header hp hbraced (by decide) (follows_moveTo hinside hoffset ?_)
  dsimp only
  split
  · exact follows_snippet hchildren (slice?_header hp hbraced (by decide)) hinside (by omega)
  split
  · refine (follows_branches hsound hchildren hinside (by omega)
      (Nat.lt_succ_self _)).bind fun fragments q _ hq => ?_
    exact follows_cursor (follows_pure hq)
  · exact follows_fail (by rintro ⟨⟩) (boundary_of_reaches hp)

/-! ### Templates -/

/-- A block begins with its sign. -/
lemma isPrefix_of_block {s : List Char} (h : beginning s = .node .block) : ['{', '#'] <+: s := by
  rw [beginning.eq_def] at h
  split at h
  case h_7 behind => exact ⟨behind, rfl⟩
  case h_4 c _ _ _ => cases hletter : isAsciiLetter c <;> simp [hletter] at h
  all_goals cases h

/-- A part of a form that has begun. -/
lemma follows_node {form : NodeForm} (hsound : children.Sound i.text)
    (hchildren : Leads i limit children) (hp : (Place.start i.text).Reaches p)
    (hform : beginning p.rest = .node form) (hlimit : p.rest.length ≤ limit) :
    Follows i.text (i.node form) p (readNode i.read children form p) := by
  have hagrees := agrees_beginning p.rest
  rw [hform] at hagrees
  rw [Input.node.eq_def]
  cases form with
  | comment => exact follows_comment hp hagrees
  | element => exact follows_element hsound hchildren hp hagrees hlimit
  | block => exact follows_block hsound hchildren hp (isPrefix_of_block hform) hlimit
  | tag => exact follows_tag hp hagrees
  | expression => exact follows_expressionTag hp
  | text => exact follows_plainText hp (rest_ne_nil_of_form hform)

/-- The loop over the parts of a template ends, and so do all those inside of it. -/
theorem follows_nodes (i : Input) (fuel : Nat) :
    Leads i fuel (readNodes i.read fuel) := by
  induction fuel with
  | zero => exact fun _ _ _ hfuel => absurd hfuel (Nat.not_lt_zero _)
  | succ fuel ih =>
      intro enclosure p hp hfuel
      have hsound := sound_readNodes i.text i.read fuel
      have hle : p.rest.length ≤ fuel := Nat.le_of_lt_succ hfuel
      rw [Input.nodes, readNodes]
      refine follows_begins hp ?_
      cases hbegins : beginning p.rest with
      | ending ending =>
          exact (follows_close hp hbegins).bind_map fun _ _ hq => follows_pure hq
      | node form =>
          refine follows_cursor ((follows_node hsound ih hp hbegins hle).bind fun n q hn hq => ?_)
          have hshorter := length_of_readNode hsound hp hbegins hn
          have hreaches := (readsNode_readNode hsound hp hbegins hn).reaches
          refine follows_partFrom (offset_lt_of_length_lt hreaches hshorter) ?_
          exact (ih hq (by omega)).bind fun others stop _ hstop => follows_pure hstop

/-- The run over a whole text. -/
def template (t : List Char) (read : ExpressionReader) :
    Option (Except Stop (List Node) × State) :=
  Input.nodes ⟨t, read⟩ .document ⟨0, ⟨[0], [], [], []⟩⟩

lemma within_start (t : List Char) : Trace.Within t ⟨[0], [], [], []⟩ where
  cursors n hn := by
    obtain rfl := List.mem_singleton.mp hn
    exact ⟨Nat.zero_le _, [], t, rfl, rfl⟩
  passed := by simp
  slices := by simp
  parts := by simp

/-- The run over a whole text ends as the reader of templates does. -/
lemma ends_template (t : List Char) (read : ExpressionReader) :
    Ends t (readNodes read (t.length + 1) .document (Place.start t)) (template t read) :=
  follows_nodes ⟨t, read⟩ (t.length + 1) (.refl _) (Nat.lt_succ_self _) _ (within_start t)

lemma faultWithin_readTemplate {read : ExpressionReader} {f : ReadFault}
    (h : readTemplate read t = .error f) : FaultWithin t f := by
  have hends := ends_template t read
  rw [readTemplate] at h
  generalize readNodes read (t.length + 1) .document (Place.start t) = outcome at h hends
  generalize template t read = run at hends
  cases hends with
  | done => cases h
  | failed hfault => exact Except.error.inj h ▸ hfault

/-! ### Reports -/

/-- Where an outcome reports a fault of the markup, the report has a place in the text. -/
def ReportsWithin {α : Type} (t : List Char) (x : Except Report α) : Prop :=
  ∀ r message, x = .error r → r.fault = .markupSyntax message →
    ∃ l, r.location = some l ∧ l.offset ≤ byteLength t ∧ Boundary t l.offset

lemma reportsWithin_ok {α : Type} (a : α) : ReportsWithin t (.ok a) := by
  intro r message hr
  cases hr

lemma reportsWithin_reportAt {α : Type} {source : Source} {fault : Fault} {n : Nat}
    (hn : Boundary t n) :
    ReportsWithin t (.error (source.reportAt fault n) : Except Report α) := by
  intro r message hr _
  obtain rfl := Except.error.inj hr
  exact ⟨_, rfl, hn.le, hn⟩

/-- A fault in a script is none of the markup. -/
lemma reportsWithin_script {α : Type} {source : Source} {f : Script.SyntaxFault} :
    ReportsWithin t (.error ((ReadFault.script f).report source) : Except Report α) := by
  intro r message hr hfault
  rw [← Except.error.inj hr] at hfault
  cases hfault

lemma ReportsWithin.bind {α β : Type} {x : Except Report α} {f : α → Except Report β}
    (hx : ReportsWithin t x) (hf : ∀ a, x = .ok a → ReportsWithin t (f a)) :
    ReportsWithin t (x >>= f) := by
  cases x with
  | error r => exact fun r' message hr => hx r' message (by rw [← Except.error.inj hr])
  | ok a => exact hf a rfl

lemma reportsWithin_foldlM {α β : Type} {f : β → α → Except Report β} {as : List α}
    (hf : ∀ b, ∀ a ∈ as, ReportsWithin t (f b a)) (b : β) : ReportsWithin t (as.foldlM f b) := by
  induction as generalizing b with
  | nil => exact reportsWithin_ok b
  | cons a as ih =>
      rw [List.foldlM_cons]
      refine (hf b a List.mem_cons_self).bind fun b' _ => ?_
      exact ih (fun b a ha => hf b a (List.mem_cons_of_mem _ ha)) b'

lemma reportsWithin_add {source : Source} {scripts : Scripts} {e : Element}
    (he : Boundary t e.span.start) : ReportsWithin t (scripts.add source e) := by
  refine ReportsWithin.bind ?_ fun script _ => ?_
  · delta readScript
    dsimp only
    split
    · exact reportsWithin_ok _
    · exact reportsWithin_script
  · dsimp only
    split <;> split_ifs
    · exact reportsWithin_reportAt he
    · exact reportsWithin_ok _
    · exact reportsWithin_reportAt he
    · exact reportsWithin_ok _

/-- An element at the top of a template starts between characters. -/
lemma boundary_of_elementNamed? {name : String} {n : Node} {e : Element} (hn : n.Lossless t)
    (h : n.elementNamed? name = some e) : Boundary t e.span.start := by
  cases hn with
  | element hslice _ _ _ =>
      simp only [Node.elementNamed?] at h
      split_ifs at h
      obtain rfl := Option.some.inj h
      obtain ⟨before, behind, ht, hbefore, -⟩ := slice?_eq_some_iff.mp hslice
      exact ⟨before, _, ht, hbefore⟩
  | _ => cases h

/-- A script that is one too many is reported where it starts. -/
lemma reportsWithin_readDocument (source : Source) :
    ReportsWithin source.text (readDocument source) := by
  rw [readDocument]
  refine ReportsWithin.bind ?_ fun nodes hnodes => ?_
  · cases hread : readTemplate readAttributeExpression source.text with
    | ok nodes => exact reportsWithin_ok nodes
    | error f =>
        have hwithin := faultWithin_readTemplate hread
        cases f with
        | markup cause offset => exact reportsWithin_reportAt hwithin.2
        | script f => exact reportsWithin_script
  · refine ReportsWithin.bind (reportsWithin_foldlM (fun scripts e he => ?_) _) fun _ _ => ?_
    · obtain ⟨n, hn, hname⟩ := List.mem_filterMap.mp he
      have hlossless := (readTemplate_lossless (mapError_eq_ok_iff.mp hnodes)).2 n hn
      exact reportsWithin_add (boundary_of_elementNamed? hlossless hname)
    · exact reportsWithin_ok _

/-- **Staying in the text.** The run over a text ends, in the tree or the fault that `readTemplate`
gives. All that has happened in it lies in the text: wherever the cursor was moved to is between
characters and not past the end, each slice was a range of the text, and each part and each attribute
took the cursor forward. So does the place of every fault of the markup, in what reads the template
and in the report on the file. -/
theorem readTemplate_run (read : ExpressionReader) (t : List Char) :
    (∃ state, template t read = some ((readTemplate read t).mapError .fault, state)
        ∧ state.trace.Within t)
      ∧ (∀ cause offset, readTemplate read t = .error (.markup cause offset) →
          cause ≠ .tooDeep ∧ offset ≤ byteLength t ∧ Boundary t offset)
      ∧ ∀ name r message, readDocument ⟨name, t⟩ = .error r → r.fault = .markupSyntax message →
          ∃ l, r.location = some l ∧ l.offset ≤ byteLength t ∧ Boundary t l.offset := by
  refine ⟨?_, fun cause offset h => ?_, fun name => reportsWithin_readDocument ⟨name, t⟩⟩
  · have hends := ends_template t read
    rw [readTemplate]
    generalize readNodes read (t.length + 1) .document (Place.start t) = outcome at hends
    generalize template t read = run at hends
    cases hends with
    | done _ htrace => exact ⟨_, rfl, htrace⟩
    | failed _ htrace => exact ⟨_, rfl, htrace⟩
  · obtain ⟨hcause, hoffset⟩ := faultWithin_readTemplate h
    exact ⟨hcause, hoffset.le, hoffset⟩

/-- A block whose opening clause is not closed, behind a character of two bytes. -/
def unclosedText : List Char :=
  "é\x7b#if é".toList

theorem unclosedText_run :
    (∃ state, template unclosedText readAttributeExpression
          = some (.error (.fault (.markup .openBrace 2)), state)
        ∧ state.trace.Within unclosedText)
      ∧ (2 ≤ byteLength unclosedText ∧ Boundary unclosedText 2)
      ∧ ∃ l, ((ReadFault.markup .openBrace 2).report ⟨"Unclosed.svelte", unclosedText⟩).location
          = some l ∧ l.offset ≤ byteLength unclosedText ∧ Boundary unclosedText l.offset := by
  have hread : readTemplate readAttributeExpression unclosedText
      = .error (.markup .openBrace 2) := rfl
  have hdocument : readDocument ⟨"Unclosed.svelte", unclosedText⟩
      = .error ((ReadFault.markup .openBrace 2).report ⟨"Unclosed.svelte", unclosedText⟩) := rfl
  obtain ⟨hrun, hfault, hreport⟩ := readTemplate_run readAttributeExpression unclosedText
  rw [hread] at hrun
  exact ⟨hrun, (hfault _ _ hread).2, hreport _ _ _ hdocument rfl⟩

end SvelteStories.Markup.Cursor

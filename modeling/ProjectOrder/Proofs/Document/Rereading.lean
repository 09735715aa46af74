import ProjectOrder.Proofs.Document.Described

/-!
# Reading what was written

Not all that can be written is read as it was written. `Document.ReadsBack` says what a document
must hold for this besides what is judged when it is written, and `parse_eq_reread_iff` that its
text is then read as the document it describes, and only then.
-/

namespace ProjectOrder

open Markup

variable {dialect : Dialect} {entry : Option Entry} {n : Node} {ns : List Node} {tag : Tag}
  {cs : List Char} {text : String} {d : Document}

/-! ## Tags -/

namespace Tag

/-- What a start tag must hold, besides what is judged when it is written, for the element to be
read as it is written. -/
structure ReadsBack (tag : Tag) : Prop where
  name : tag.name.toList = Token.tagName tag.content.toList
  attributes : (Attribute.ofTag byteWidth true tag.content.toList).fault = none
  content : isTagText none tag.content.toList
  first : ∀ c ∈ tag.content.toList.head?, c ≠ '!' ∧ c ≠ '?' ∧ c ≠ '/'
  paired : tag.empty = false →
    tag.content.toList.getLast? ≠ some '/' ∧ isTagText none tag.name.toList

/-- The tag that is read off the content is the one written there if it has its name. -/
theorem sound_reread_iff :
    tag.reread.Sound ↔ tag.name.toList = Token.tagName tag.content.toList ∧
      (Attribute.ofTag byteWidth true tag.content.toList).fault = none := by
  have hname : String.ofList (Token.tagName tag.content.toList) = tag.name ↔
      tag.name.toList = Token.tagName tag.content.toList := by
    rw [← String.toList_inj, String.toList_ofList, eq_comm]
  rw [Sound, reread, ofContent]
  simp only
  split <;> simp_all

/-- A tag that may be written has content, and no nodes inside if it is closed in itself. -/
theorem of_check_eq_ok (h : tag.check ns = .ok ()) :
    tag.content.toList ≠ [] ∧ (tag.empty → ns = []) := by
  unfold check at h
  split at h
  · cases h
  · rename_i hname
    simp only [not_or, Bool.not_eq_true, Option.isNone_eq_false_iff, Option.isSome_iff_exists]
      at hname
    obtain ⟨hne, rest, hrest⟩ := hname
    split at h
    · cases h
    · rename_i hchildren
      refine ⟨?_, fun hempty => by simpa [hempty] using hchildren⟩
      rw [after?_eq_some_iff.1 hrest]
      simp [hne]

end Tag

namespace Node

mutual

/-- Whether the tags and leaves of a node are read as they are written. -/
def ReadsBack : Node → Prop
  | element _ tag ns => tag.ReadsBack ∧ ReadsBackList ns
  | leaf kind text => kind.ReadsBack text.toList

/-- A child list of such nodes. -/
def ReadsBackList : List Node → Prop
  | [] => True
  | n :: ns => n.ReadsBack ∧ ReadsBackList ns

end

/-- The nodes of a list are read as they are written if each of them is. -/
theorem readsBackList_iff : ReadsBackList ns ↔ ∀ n ∈ ns, n.ReadsBack := by
  induction ns with
  | nil => simp [ReadsBackList]
  | cons n ns ih => simp [ReadsBackList, ih]

/-! ## Legible trees -/

/-- Forests whose character data stands apart, none of it empty and none of it markup. -/
structure Joined (ns : List Node) : Prop where
  texts : ∀ text, leaf .text text ∈ ns → text ≠ "" ∧ '<' ∉ text.toList
  apart : (ns.map isText).IsChain fun (a b : Bool) => ¬ (a ∧ b)

/-- Putting a node in front of joined nodes leaves them joined, with its text joined to theirs. -/
theorem Joined.before (hns : Joined ns) (hn : ∀ text, n = leaf .text text → '<' ∉ text.toList) :
    Joined (n.before ns) := by
  rcases before_cases n ns with ⟨heq, hne, hapart⟩ | ⟨heq, -⟩ | ⟨s, t, ms, heq, rfl, rfl⟩
  · rw [heq]
    refine ⟨fun text hmem => ?_, ?_⟩
    · rcases List.mem_cons.1 hmem with rfl | hmem
      · exact ⟨fun hempty => hne (hempty ▸ rfl), hn text rfl⟩
      · exact hns.texts text hmem
    · rw [List.map_cons, List.isChain_cons, List.head?_map]
      refine ⟨?_, hns.apart⟩
      rintro _ hfirst ⟨htext, hfirst'⟩
      obtain ⟨m, hm, rfl⟩ := Option.map_eq_some_iff.1 hfirst
      rw [hapart htext m hm] at hfirst'
      cases hfirst'
  · rw [heq]
    exact hns
  · obtain ⟨hne, htag⟩ := hns.texts t (List.mem_cons_self ..)
    have hs : '<' ∉ s.toList := hn s rfl
    rw [heq]
    refine ⟨fun text hmem => ?_, hns.apart⟩
    rcases List.mem_cons.1 hmem with hmem | hmem
    · cases hmem
      simp [hne, hs, htag]
    · exact hns.texts text (List.mem_cons_of_mem _ hmem)

/-- A single node has its own tokens. -/
@[simp] theorem tokensList_singleton : tokensList [n] = n.tokens := by
  rw [tokensList, tokensList, List.append_nil]

/-- A leaf is legible if its token can be written as it is spelled. -/
theorem legible_leaf_iff {kind : LeafKind} :
    Legible [leaf kind text] ↔
      (Token.leaf kind text.toList).Written (Token.leaf kind text.toList).spelling := by
  constructor
  · intro h
    exact h.written _ (by simp [tokens])
  · intro h
    exact ⟨⟨trivial, trivial⟩, by simpa [tokens] using h, by simp [tokens]⟩

/-- The tokens of an element are those of its tags, and those of its children unless its tag closes
itself. -/
theorem mem_tokens_element {t : Token} :
    t ∈ (element entry tag ns).tokens ↔
      t ∈ (element entry tag []).tokens ∨ tag.empty = false ∧ t ∈ tokensList ns := by
  rw [tokens, tokens]
  split
  · simp_all
  · simp_all [tokensList]
    tauto

/-- An element is legible if its tags are and its children are. -/
theorem legible_element_iff :
    Legible [element entry tag ns] ↔
      tag.Sound ∧ (tag.empty → ns = []) ∧
        (∀ t ∈ (element entry tag []).tokens, t.Written t.spelling) ∧ Legible ns := by
  constructor
  · rintro ⟨⟨⟨htag, hempty, hns⟩, -⟩, hwritten, hapart⟩
    rw [tokensList_singleton] at hwritten hapart
    refine ⟨htag, hempty, fun t ht => hwritten t (mem_tokens_element.2 (.inl ht)), ?_⟩
    cases h : tag.empty with
    | true => exact hempty h ▸ ⟨trivial, by simp [tokensList], by simp [tokensList]⟩
    | false =>
        exact ⟨hns, fun t ht => hwritten t (mem_tokens_element.2 (.inr ⟨h, ht⟩)),
          isChain_tokens_element_iff.1 hapart h⟩
  · rintro ⟨htag, hempty, hown, hns, hwritten, hapart⟩
    refine ⟨⟨⟨htag, hempty, hns⟩, trivial⟩, fun t ht => ?_, ?_⟩
    · rw [tokensList_singleton] at ht
      rcases mem_tokens_element.1 ht with ht | ⟨-, ht⟩
      · exact hown t ht
      · exact hwritten t ht
    · rw [tokensList_singleton, isChain_tokens_element_iff]
      exact fun _ => hapart

/-- A tag that may be written is read as it is written if its element is, apart from what is
inside. -/
theorem readsBack_tag_iff (hcheck : tag.check ns = .ok ()) :
    tag.ReadsBack ↔ tag.reread.Sound ∧
      ∀ t ∈ (element none tag.reread []).tokens, t.Written t.spelling := by
  have hne := (Tag.of_check_eq_ok hcheck).1
  have hname (h : tag.name.toList = Token.tagName tag.content.toList) :
      ∀ c ∈ tag.name.toList, ¬ isSpace c := by
    intro c hc
    rw [h] at hc
    simpa using List.mem_takeWhile_imp hc
  rw [Tag.sound_reread_iff]
  cases hempty : tag.empty with
  | true =>
      have htokens : (element none tag.reread []).tokens = [.emptyTag tag.content.toList] := by
        simp [tokens, Tag.reread, hempty]
      simp only [htokens, List.mem_singleton, forall_eq, Token.written_emptyTag_iff hne]
      constructor
      · rintro ⟨hname, hattributes, hcontent, hfirst, -⟩
        exact ⟨⟨hname, hattributes⟩, hcontent, hfirst⟩
      · rintro ⟨⟨hname, hattributes⟩, hcontent, hfirst⟩
        exact ⟨hname, hattributes, hcontent, hfirst, by simp [hempty]⟩
  | false =>
      have htokens : (element none tag.reread []).tokens =
          [.openTag tag.content.toList, .closeTag tag.name.toList] := by
        simp [tokens, tokensList, Tag.reread, hempty]
      simp only [htokens, List.forall_mem_cons, Token.written_openTag_iff]
      constructor
      · rintro ⟨hname', hattributes, hcontent, hfirst, hpaired⟩
        obtain ⟨hlast, hclose⟩ := hpaired hempty
        exact ⟨⟨hname', hattributes⟩, ⟨hcontent, hfirst, hlast⟩,
          (Token.written_closeTag_iff (hname hname')).2 hclose, by simp⟩
      · rintro ⟨⟨hname', hattributes⟩, ⟨hcontent, hfirst, hlast⟩, hclose, -⟩
        exact ⟨hname', hattributes, hcontent, hfirst,
          fun _ => ⟨hlast, (Token.written_closeTag_iff (hname hname')).1 hclose⟩⟩

/-- A joined forest is legible if its nodes other than character data are. -/
theorem legible_iff_of_joined (h : Joined ns) :
    Legible ns ↔ ∀ n ∈ ns, n.isText = false → Legible [n] := by
  constructor
  · intro hlegible n hn _
    refine ⟨⟨soundList_iff.1 hlegible.sound n hn, trivial⟩, fun t ht => ?_, ?_⟩
    · refine hlegible.written t ?_
      rw [tokensList_singleton] at ht
      rw [tokensList_eq_flatMap]
      exact List.mem_flatMap.2 ⟨n, hn, ht⟩
    · rw [tokensList_singleton]
      exact (isChain_tokensList_iff.1 hlegible.apart).1 n hn
  · intro hnodes
    have hlegible : ∀ n ∈ ns, Legible [n] := by
      intro n hn
      cases htext : n.isText with
      | false => exact hnodes n hn htext
      | true =>
          obtain ⟨text, rfl⟩ := exists_eq_text htext
          obtain ⟨hne, htag⟩ := h.texts text hn
          refine legible_leaf_iff.2 ?_
          exact (Token.Written.text text.toList (by simpa using hne) htag).spelling
    refine ⟨soundList_iff.2 fun n hn => (hlegible n hn).sound.1, fun t ht => ?_, ?_⟩
    · rw [tokensList_eq_flatMap] at ht
      obtain ⟨n, hn, ht⟩ := List.mem_flatMap.1 ht
      exact (hlegible n hn).written t (by rwa [tokensList_singleton])
    · refine isChain_tokensList_iff.2 ⟨fun n hn => ?_, h.apart⟩
      rw [← tokensList_singleton]
      exact (hlegible n hn).apart

/-- The tree of what is written for a forest is joined. -/
theorem joined_rereadList (h : renderList dialect ns = .ok cs) : Joined (rereadList ns) := by
  induction ns generalizing cs with
  | nil => exact ⟨by simp [rereadList], by simp [rereadList]⟩
  | cons n ns ih =>
      obtain ⟨first, rest, hfirst, hrest, -⟩ := renderList_cons_eq_ok_iff.1 h
      refine (ih hrest).before fun text htext => ?_
      cases n with
      | element => cases htext
      | leaf kind s =>
          cases htext
          have hrender : LeafKind.text.render text.toList = .ok first := hfirst
          simpa [LeafKind.forbidden?, List.singleton_infix_iff]
            using (LeafKind.render_eq_ok_iff.1 hrender).1

/-- A forest is read as it is written if the tree of what is written for it is legible, provided
this holds of its nodes. -/
theorem readsBackList_iff_legible (h : renderList dialect ns = .ok cs)
    (hnodes : ∀ n ∈ ns, n.isText = false → (n.ReadsBack ↔ Legible [n.reread])) :
    ReadsBackList ns ↔ Legible (rereadList ns) := by
  rw [readsBackList_iff, legible_iff_of_joined (joined_rereadList h)]
  constructor
  · intro hreads m hm htext
    obtain ⟨n, hn, rfl⟩ := (mem_rereadList_iff htext).1 hm
    exact (hnodes n hn (isText_reread ▸ htext)).1 (hreads n hn)
  · intro hlegible n hn
    cases htext : n.isText with
    | true =>
        obtain ⟨text, rfl⟩ := exists_eq_text htext
        trivial
    | false =>
        have htext' : n.reread.isText = false := isText_reread.trans htext
        exact (hnodes n hn htext).2
          (hlegible _ ((mem_rereadList_iff htext').2 ⟨n, hn, rfl⟩) htext')

/-- A node other than character data is read as it is written if the tree of what is written for it
is legible. -/
theorem readsBack_iff_legible (n : Node) (h : n.render dialect = .ok cs)
    (htext : n.isText = false) :
    n.ReadsBack ↔ Legible [n.reread] := by
  induction n generalizing cs with
  | leaf kind text =>
      have hkind : kind ≠ .text := by
        rintro rfl
        cases htext
      rw [reread, legible_leaf_iff, LeafKind.written_iff_readsBack h]
      simp [ReadsBack, hkind]
  | element entry tag ns ih =>
      obtain ⟨hcheck, inner, hinner, -⟩ := of_render_element_eq_ok h
      have hinside : ReadsBackList ns ↔ Legible (rereadList ns) := by
        refine readsBackList_iff_legible hinner fun n hn htext => ?_
        obtain ⟨cs, hcs⟩ := exists_render_of_mem hinner hn
        exact ih n hn hcs htext
      have hempty : tag.reread.empty → rereadList ns = [] := by
        intro hempty
        rw [(Tag.of_check_eq_ok hcheck).2 hempty, rereadList]
      rw [ReadsBack, reread, legible_element_iff, readsBack_tag_iff hcheck, hinside]
      tauto

/-- Rendered nodes are read as they are written exactly if what is described for them is legible. -/
theorem readsBackList_iff_legible_rereadList (h : renderList dialect ns = .ok cs) :
    ReadsBackList ns ↔ Legible (rereadList ns) := by
  refine readsBackList_iff_legible h fun n hn htext => ?_
  obtain ⟨cs, hcs⟩ := exists_render_of_mem h hn
  exact readsBack_iff_legible n hcs htext

end Node

namespace Document

/-! ## Documents -/

/-- The document that the text of a document describes. -/
def reread (d : Document) : Document :=
  { dialect := d.dialect
    encoding := .utf8
    mark := d.mark
    prolog := Node.rereadList d.prolog
    root := Element.recognize d.dialect ⟨d.root.tag.reread, Node.rereadList d.root.children⟩
    epilog := Node.rereadList d.epilog }

/-- What a document must hold, besides what is judged when it is written, to be read as it is
written: around the root are leaves that are not stray text, and every tag and leaf is read as it is
written. -/
structure ReadsBack (d : Document) : Prop where
  prolog : ∀ n ∈ d.prolog, n.Beside
  epilog : ∀ n ∈ d.epilog, n.Beside
  nodes : Node.ReadsBackList d.nodes

/-- The root of each dialect is known by its name. -/
theorem ofRootElement?_rootElement (dialect : Dialect) :
    Dialect.ofRootElement? dialect.rootElement = some dialect := by
  cases dialect <;> rfl

/-- What is written for a document is the text of its tokens, with its own root element. -/
theorem of_render_eq_ok (h : d.render = .ok text) :
    d.root.tag.name = d.dialect.rootElement ∧ text = String.ofList d.spelling ∧
      ∃ cs, Node.renderList d.dialect d.nodes = .ok cs := by
  unfold render at h
  split at h
  · obtain ⟨cs, hcs, h⟩ := bind_eq_ok_iff.1 h
    cases h
    refine ⟨‹_›, ?_, cs, hcs⟩
    rw [spelling, body, Node.eq_of_renderList_eq_ok _ hcs]
    rfl
  · cases h

/-- What is described for a document is what is described for its nodes. -/
theorem plainList_nodes_reread (hprolog : ∀ n ∈ d.prolog, n.Beside)
    (hepilog : ∀ n ∈ d.epilog, n.Beside) :
    Node.plainList d.reread.nodes = Node.rereadList d.nodes := by
  have hroot : (Node.element none d.root.tag d.root.children).isText = false := rfl
  rw [plainList_nodes (Node.forall_mem_rereadList_beside_iff.2 hprolog)
    (Node.forall_mem_rereadList_beside_iff.2 hepilog), nodes, Node.rereadList_append_cons hroot,
    reread, Element.plainList_recognize, Element.tag_recognize, Node.plainList_rereadList,
    Node.reread]

/-- The document that a text describes is coherent if it is read as it is written. -/
theorem coherent_reread_iff (h : d.render = .ok text) : d.reread.Coherent ↔ d.ReadsBack := by
  obtain ⟨hname, -, cs, hcs⟩ := of_render_eq_ok h
  have hlegible (hprolog : ∀ n ∈ d.prolog, n.Beside) (hepilog : ∀ n ∈ d.epilog, n.Beside) :
      Node.Legible d.reread.nodes ↔ Node.ReadsBackList d.nodes := by
    rw [← Node.legible_plainList_iff, plainList_nodes_reread hprolog hepilog,
      Node.readsBackList_iff_legible_rereadList hcs]
  constructor
  · intro hcoherent
    have hprolog := Node.forall_mem_rereadList_beside_iff.1 hcoherent.prolog
    have hepilog := Node.forall_mem_rereadList_beside_iff.1 hcoherent.epilog
    exact ⟨hprolog, hepilog, (hlegible hprolog hepilog).1 hcoherent.legible⟩
  · rintro ⟨hprolog, hepilog, hnodes⟩
    refine ⟨Node.forall_mem_rereadList_beside_iff.2 hprolog,
      Node.forall_mem_rereadList_beside_iff.2 hepilog, ?_, (hlegible hprolog hepilog).2 hnodes,
      Element.current_recognize (Node.plainList_rereadList _)⟩
    have htag : d.reread.root.tag.name = d.root.tag.name := by
      rw [reread, Element.tag_recognize]
      rfl
    rw [htag, hname]
    exact ofRootElement?_rootElement d.dialect

/-- A document that is written is read again, and as the document that its text describes, exactly
if it holds what is not judged when it is written. -/
theorem parse_eq_reread_iff (h : d.render = .ok text) :
    parse text = .ok d.reread ↔ d.ReadsBack := by
  rw [← coherent_reread_iff h]
  constructor
  · intro hparse
    exact (coherent_of_parse hparse).1
  · intro hcoherent
    have hbody : d.reread.body = d.body := by
      obtain ⟨hprolog, hepilog, -⟩ := (coherent_reread_iff h).1 hcoherent
      rw [body, ← Node.tokensList_plainList, plainList_nodes_reread hprolog hepilog,
        Node.flatMap_tokensList_rereadList, body]
    have hspelling : d.reread.spelling = d.spelling := by
      rw [spelling, spelling, hbody]
      rfl
    rw [(of_render_eq_ok h).2.1, ← hspelling]
    exact hcoherent.parse_spelling

/-- A document made by hand, with an attribute that is not listed and with character data in
pieces. -/
theorem parse_eq_reread_iff_pieces :
    let tag : Tag := ⟨"Project", "Project a='1'", [], false⟩
    let children : List Node :=
      [.leaf .text "b", .leaf .text "", .leaf .text "c", .leaf .comment "d"]
    let d : Document := ⟨.flat, .utf8, true, [.leaf .declaration "xml"], ⟨tag, children⟩, []⟩
    let text := "\uFEFF<?xml?><Project a='1'>bc<!--d--></Project>"
    d.render = .ok text ∧ parse text = .ok d.reread ∧
      d.reread.root.children = [.leaf .text "bc", .leaf .comment "d"] := by
  intro tag children d text
  have hrender : d.render = .ok text := by decide +kernel
  have hfirst : tag.content.toList.head? = some 'P' := by decide
  have htag : tag.ReadsBack :=
    ⟨by decide, by decide +kernel, by decide, by simp [hfirst], by decide⟩
  have hdeclaration : LeafKind.declaration.ReadsBack "xml".toList := by
    unfold LeafKind.ReadsBack
    decide
  have hcomment : LeafKind.comment.ReadsBack "d".toList := by
    unfold LeafKind.ReadsBack
    decide
  have hreads : d.ReadsBack :=
    ⟨by simp [d, Node.Beside, isStrayText], by simp [d],
      hdeclaration, ⟨htag, trivial, trivial, trivial, hcomment, trivial⟩, trivial⟩
  exact ⟨hrender, (parse_eq_reread_iff hrender).2 hreads, by decide +kernel⟩

/-- A comment that ends in a hyphen is written and cannot be read. -/
theorem parse_ne_ok_of_trailing_hyphen :
    let tag : Tag := ⟨"Project", "Project", [], false⟩
    let d : Document := ⟨.flat, .utf8, false, [], ⟨tag, [.leaf .comment "a-"]⟩, []⟩
    d.render = .ok "<Project><!--a---></Project>" ∧
      parse "<Project><!--a---></Project>" = .error (.forest (.read (.token .doubleHyphen))) := by
  decide +kernel

end Document

end ProjectOrder

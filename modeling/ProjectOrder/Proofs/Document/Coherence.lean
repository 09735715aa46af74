import ProjectOrder.Document.Parser
import ProjectOrder.Proofs.Document.Writing

/-!
# Coherent documents

`Document.Coherent` holds of every document that has been read (`coherent_of_parse`) and stays when
it is sorted (`Coherent.sort`). A coherent document is written as the text of its tokens, unless a
tag has no name (`Coherent.render_eq_ok_iff`), and this text is read as the same document again
(`Coherent.parse_spelling`).
-/

namespace ProjectOrder

open Markup

/-! ## Around the root element -/

/-- A node that may stand beside the root element: a leaf that is not stray text. -/
def Node.Beside : Node → Prop
  | .element .. => False
  | n => Document.isStrayText n = false

/-- What stands beside the root is a leaf. -/
theorem Node.Beside.exists_leaf {n : Node} (h : n.Beside) : ∃ kind text, n = .leaf kind text := by
  cases n with
  | element => exact h.elim
  | leaf kind text => exact ⟨kind, text, rfl⟩

namespace Document

variable {order : CaseOrder} {ns prolog epilog : List Node} {root : Element} {d : Document}

/-- The nodes after the root are leaves that are not stray text. -/
theorem epilogOf_eq_ok_iff : epilogOf ns = .ok epilog ↔ ns = epilog ∧ ∀ n ∈ ns, n.Beside := by
  induction ns generalizing epilog with
  | nil => simp [epilogOf]
  | cons n ns ih =>
      cases n with
      | element entry tag children => simp [epilogOf, Node.Beside]
      | leaf kind text =>
          rw [List.forall_mem_cons]
          by_cases hstray : isStrayText (.leaf kind text)
          · simp [epilogOf, Node.Beside, hstray]
          · rw [epilogOf, if_neg hstray, bind_eq_ok_iff]
            simp only [ih]
            constructor
            · rintro ⟨_, ⟨rfl, hns⟩, heq⟩
              exact ⟨Except.ok.inj heq, by simpa [Node.Beside] using hstray, hns⟩
            · rintro ⟨rfl, -, hns⟩
              exact ⟨ns, ⟨rfl, hns⟩, rfl⟩
            · nofun

/-- The root is the only element of a forest, and the nodes around it are leaves that are not stray
text. -/
theorem aroundRoot_eq_ok_iff :
    aroundRoot ns = .ok (prolog, root, epilog) ↔
      (∃ entry, ns = prolog ++ .element entry root.tag root.children :: epilog) ∧
        (∀ n ∈ prolog, n.Beside) ∧ ∀ n ∈ epilog, n.Beside := by
  induction ns generalizing prolog with
  | nil => simp [aroundRoot]
  | cons n ns ih =>
      cases n with
      | element entry tag children =>
          rw [aroundRoot, bind_eq_ok_iff]
          simp only [epilogOf_eq_ok_iff]
          constructor
          · rintro ⟨_, ⟨rfl, hns⟩, heq⟩
            cases heq
            exact ⟨⟨entry, rfl⟩, by simp, hns⟩
          · rintro ⟨⟨entry', heq⟩, hprolog, hepilog⟩
            cases prolog with
            | nil =>
                cases heq
                exact ⟨_, ⟨rfl, hepilog⟩, rfl⟩
            | cons m prolog =>
                cases heq
                -- the first element is the root, so none stands in the prolog
                exact (hprolog _ (List.mem_cons_self ..)).elim
      | leaf kind text =>
          by_cases hstray : isStrayText (.leaf kind text)
          · rw [aroundRoot, if_pos hstray]
            · constructor
              · nofun
              · rintro ⟨⟨entry, heq⟩, hprolog, -⟩
                cases prolog with
                | nil => cases heq
                | cons m prolog =>
                    cases heq
                    have hbeside := hprolog _ (List.mem_cons_self ..)
                    exact absurd hbeside (by simp [Node.Beside, hstray])
            · nofun
          · rw [aroundRoot, if_neg hstray, bind_eq_ok_iff]
            · constructor
              · rintro ⟨⟨before, _, _⟩, haround, heq⟩
                cases heq
                obtain ⟨⟨entry, rfl⟩, hprolog, hepilog⟩ := ih.1 haround
                exact ⟨⟨entry, rfl⟩,
                  List.forall_mem_cons.2 ⟨by simpa [Node.Beside] using hstray, hprolog⟩, hepilog⟩
              · rintro ⟨⟨entry, heq⟩, hprolog, hepilog⟩
                cases prolog with
                | nil => cases heq
                | cons m prolog =>
                    cases heq
                    have hprolog := (List.forall_mem_cons.1 hprolog).2
                    exact ⟨_, ih.2 ⟨⟨entry, rfl⟩, hprolog, hepilog⟩, rfl⟩
            · nofun

/-- The document of a forest is what stands around its root, whose name tells the dialect. -/
theorem ofForest_eq_ok_iff {mark : Bool} :
    ofForest mark ns = .ok d ↔
      ∃ prolog root epilog dialect, aroundRoot ns = .ok (prolog, root, epilog) ∧
        Dialect.ofRootElement? root.tag.name = some dialect ∧
        d = ⟨dialect, .utf8, mark, prolog, root.recognize dialect, epilog⟩ := by
  rw [ofForest, bind_eq_ok_iff]
  constructor
  · rintro ⟨⟨prolog, root, epilog⟩, haround, h⟩
    simp only at h
    split at h <;> cases h
    exact ⟨prolog, root, epilog, _, haround, ‹_›, rfl⟩
  · rintro ⟨prolog, root, epilog, dialect, haround, hdialect, rfl⟩
    refine ⟨_, haround, ?_⟩
    simp only [hdialect]
    rfl

/-! ## Coherence -/

/-- What every document keeps that has been read and sorted. -/
structure Coherent (d : Document) : Prop where
  prolog : ∀ n ∈ d.prolog, n.Beside
  epilog : ∀ n ∈ d.epilog, n.Beside
  dialect : Dialect.ofRootElement? d.root.tag.name = some d.dialect
  legible : Node.Legible d.nodes
  current : d.root.Current d.dialect

/-- The text of a document without its byte order mark. -/
def body (d : Document) : List Char :=
  (Node.tokensList d.nodes).flatMap Token.spelling

/-- The text of a document. -/
def spelling (d : Document) : List Char :=
  if d.mark then Reading.byteOrderMark :: d.body else d.body

/-- The nodes of a document without their entries. -/
theorem plainList_nodes (hprolog : ∀ n ∈ d.prolog, n.Beside) (hepilog : ∀ n ∈ d.epilog, n.Beside) :
    Node.plainList d.nodes =
      d.prolog ++ .element none d.root.tag (Node.plainList d.root.children) :: d.epilog := by
  have hbeside {ns : List Node} (h : ∀ n ∈ ns, n.Beside) : Node.plainList ns = ns :=
    Node.plainList_eq_self_iff.2 fun n hn => by
      obtain ⟨kind, text, rfl⟩ := (h n hn).exists_leaf
      rfl
  rw [nodes, Node.plainList_append, Node.plainList, Node.plain, hbeside hprolog, hbeside hepilog]

/-- A document made of a forest without entries is coherent if the forest is legible, and without
its entries it is this forest. -/
theorem coherent_of_ofForest {mark : Bool} (h : ofForest mark ns = .ok d)
    (hplain : Node.plainList ns = ns) (hlegible : Node.Legible ns) :
    d.Coherent ∧ d.mark = mark ∧ d.encoding = .utf8 ∧ Node.plainList d.nodes = ns := by
  obtain ⟨prolog, root, epilog, dialect, haround, hdialect, rfl⟩ := ofForest_eq_ok_iff.1 h
  obtain ⟨⟨entry, rfl⟩, hprolog, hepilog⟩ := aroundRoot_eq_ok_iff.1 haround
  -- the root was read without entries, and recognition only adds them
  have hroot : (Node.element entry root.tag root.children).plain = _ :=
    Node.plainList_eq_self_iff.1 hplain _ (by simp)
  obtain ⟨rfl, -, hchildren⟩ := Node.element.inj hroot
  have hnodes :
      Node.plainList (nodes ⟨dialect, .utf8, mark, prolog, root.recognize dialect, epilog⟩) =
        prolog ++ .element none root.tag root.children :: epilog := by
    rw [plainList_nodes hprolog hepilog, Element.plainList_recognize, hchildren,
      Element.tag_recognize]
  refine ⟨⟨hprolog, hepilog, ?_, ?_, Element.current_recognize hchildren⟩, rfl, rfl, hnodes⟩
  · rw [Element.tag_recognize]
    exact hdialect
  · rw [← Node.legible_plainList_iff, hnodes]
    exact hlegible

/-- A forest that has been read is legible. -/
theorem legible_of_pieces {ps : List (Token × List Char)} {cs : List Char}
    (hps : ps.map Prod.fst = Node.tokensList ns) (hpieces : Pieces ps cs)
    (hsound : Node.SoundList ns) : Node.Legible ns where
  sound := hsound
  written := fun t ht => by
    obtain ⟨p, hp, rfl⟩ := List.mem_map.1 (hps ▸ ht)
    exact (hpieces.written p hp).spelling
  apart := hps ▸ hpieces.apart

/-- A document that has been read is coherent, and its tokens are those of the text. -/
theorem coherent_of_parse {text : String} (h : parse text = .ok d) :
    d.Coherent ∧ d.encoding = .utf8 ∧
      (d.mark ↔ text.toList.head? = some Reading.byteOrderMark) ∧
      ∃ ps, ps.map Prod.fst = Node.tokensList d.nodes ∧
        Pieces ps (Reading.withoutMark (Reading.withoutMark text.toList)) := by
  unfold parse at h
  simp only at h
  split at h
  · rename_i ns hforest
    obtain ⟨⟨ps, hps, hpieces⟩, hsound, hplain⟩ := Forest.ofReading_within_eq_ok_iff.1 hforest
    obtain ⟨hcoherent, hmark, hencoding, hnodes⟩ :=
      coherent_of_ofForest h hplain (legible_of_pieces hps hpieces hsound)
    refine ⟨hcoherent, hencoding, by simp [hmark], ps, ?_, hpieces⟩
    rw [hps, ← hnodes, Node.tokensList_plainList]
  · cases h

/-- A document without its entries is the forest of the text that it was read from. -/
theorem ofText_of_parse {text : String} (h : parse text = .ok d) :
    Forest.ofText (Reading.withoutMark text.toList) = .ok (Node.plainList d.nodes) := by
  unfold parse at h
  simp only at h
  split at h
  · rename_i ns hforest
    obtain ⟨⟨ps, hps, hpieces⟩, hsound, hplain⟩ := Forest.ofReading_within_eq_ok_iff.1 hforest
    obtain ⟨-, -, -, hnodes⟩ := coherent_of_ofForest h hplain (legible_of_pieces hps hpieces hsound)
    rw [hforest, hnodes]
  · cases h

/-! ## Sorting -/

/-- Sorting a document sorts its nodes. -/
theorem nodes_sort (hprolog : ∀ n ∈ d.prolog, n.Beside) (hepilog : ∀ n ∈ d.epilog, n.Beside) :
    (d.sort order).nodes = Node.sortInner order d.nodes := by
  have hbeside {ns : List Node} (h : ∀ n ∈ ns, n.Beside) : ns.map (Node.sort order) = ns := by
    refine (List.map_congr_left fun n hn => ?_).trans (List.map_id ns)
    obtain ⟨kind, text, rfl⟩ := (h n hn).exists_leaf
    rfl
  rw [Node.sortInner_eq_map, nodes, nodes, List.map_append, List.map_cons, hbeside hprolog,
    hbeside hepilog, Node.sort]
  rfl

/-- Sorting keeps a document coherent. -/
theorem Coherent.sort (h : d.Coherent) : (d.sort order).Coherent where
  prolog := h.prolog
  epilog := h.epilog
  dialect := h.dialect
  legible := nodes_sort h.prolog h.epilog ▸ h.legible.sortInner
  current := h.current.sort

/-- A document sorted under one case order after the other. -/
def sortAll (orders : List CaseOrder) (d : Document) : Document :=
  orders.foldl (fun d order => d.sort order) d

/-- What sorting keeps, sorting again and again keeps. -/
theorem sortAll_induction {P : Document → Prop} (hsort : ∀ d order, P d → P (sort order d))
    (orders : List CaseOrder) (h : P d) : P (d.sortAll orders) := by
  induction orders generalizing d with
  | nil => exact h
  | cons order orders ih => exact ih (hsort d order h)

/-! ## Writing and reading again -/

/-- An element that is the root of a dialect has the name of this root. -/
theorem eq_rootElement {name : String} {dialect : Dialect}
    (h : Dialect.ofRootElement? name = some dialect) : name = dialect.rootElement := by
  unfold Dialect.ofRootElement? at h
  split at h
  · cases h
    assumption
  · split at h <;> cases h
    assumption

/-- The entries of a coherent document fit its dialect. -/
theorem Coherent.fitsList (h : d.Coherent) : Node.FitsList d.dialect d.nodes := by
  have hbeside {ns : List Node} (h : ∀ n ∈ ns, n.Beside) : ∀ n ∈ ns, n.Fits d.dialect := by
    intro n hn
    obtain ⟨kind, text, rfl⟩ := (h n hn).exists_leaf
    trivial
  rw [Node.fitsList_iff, nodes, List.forall_mem_append, List.forall_mem_cons]
  exact ⟨hbeside h.prolog, ⟨by simp, h.current.fitsList⟩, hbeside h.epilog⟩

/-- A coherent document is written as the text of its tokens, unless a tag has no name. -/
theorem Coherent.render_eq_ok_iff (h : d.Coherent) (s : String) :
    d.render = .ok s ↔
      (∀ t ∈ Node.tokensList d.nodes, t.Named) ∧ s = String.ofList d.spelling := by
  rw [render, if_pos (eq_rootElement h.dialect), bind_eq_ok_iff]
  simp only [Node.renderList_eq_ok_iff d.nodes h.legible.sound h.fitsList h.legible.written]
  constructor
  · rintro ⟨_, ⟨hnamed, rfl⟩, hs⟩
    exact ⟨hnamed, (Except.ok.inj hs).symm⟩
  · rintro ⟨hnamed, rfl⟩
    exact ⟨_, ⟨hnamed, rfl⟩, rfl⟩

/-- A coherent document begins with a tag or with a blank. -/
theorem Coherent.head?_body (h : d.Coherent) :
    ∃ c, d.body.head? = some c ∧ (c = '<' ∨ Text.isBlank c) := by
  have hprolog := h.prolog
  have hwritten := h.legible.written
  unfold body
  unfold nodes at hwritten ⊢
  cases hd : d.prolog with
  | nil =>
      refine ⟨'<', ?_, .inl rfl⟩
      rw [List.nil_append, Node.tokensList, Node.tokens]
      split <;> simp [Token.spelling]
  | cons n ns =>
      rw [hd, List.forall_mem_cons] at hprolog
      obtain ⟨kind, text, rfl⟩ := hprolog.1.exists_leaf
      rw [hd, List.cons_append, Node.tokensList, Node.tokens, List.forall_mem_append] at hwritten
      have hne : (Token.leaf kind text.toList).spelling ≠ [] := (hwritten.1 _ (by simp)).ne_nil
      rw [List.cons_append, Node.tokensList, Node.tokens, List.flatMap_append,
        List.flatMap_singleton, List.head?_append_of_ne_nil _ hne]
      cases kind with
      | text =>
          have hblank : text.toList.all Text.isBlank := by
            simpa [Node.Beside, isStrayText, Text.isBlankText] using hprolog.1
          have hspelling : (Token.leaf .text text.toList).spelling = text.toList := by
            simp [Token.spelling, LeafKind.delimiters]
          rw [hspelling] at hne ⊢
          obtain ⟨c, hc⟩ := Option.isSome_iff_exists.1 (List.isSome_head?.2 hne)
          exact ⟨c, hc, .inr (List.all_eq_true.1 hblank c (List.mem_of_mem_head? hc))⟩
      | comment | cdata | declaration | instruction | doctype => exact ⟨'<', rfl, .inl rfl⟩

/-- The text of a document does not begin with a byte order mark of its own. -/
theorem Coherent.head?_body_ne (h : d.Coherent) :
    d.body.head? ≠ some Reading.byteOrderMark := by
  obtain ⟨c, hc, hcase⟩ := h.head?_body
  rw [hc]
  rintro hmark
  cases hmark
  rcases hcase with hcase | hcase <;> exact absurd hcase (by decide)

/-- There is no byte order mark to take off the text of a document. -/
theorem Coherent.withoutMark_body (h : d.Coherent) : Reading.withoutMark d.body = d.body :=
  if_neg h.head?_body_ne

/-- Without its byte order mark, a document is spelled as its text. -/
theorem Coherent.withoutMark_spelling (h : d.Coherent) :
    Reading.withoutMark d.spelling = d.body := by
  unfold spelling
  split
  · rfl
  · exact h.withoutMark_body

/-- The text of a coherent document begins with a byte order mark if the document has one. -/
theorem Coherent.head?_spelling_iff (h : d.Coherent) :
    d.spelling.head? = some Reading.byteOrderMark ↔ d.mark := by
  unfold spelling
  split
  · simp_all
  · simp_all [h.head?_body_ne]

/-- The text of a legible forest is made up of the spellings of its tokens. -/
theorem pieces_flatMap_spelling (h : Node.Legible ns) :
    Pieces ((Node.tokensList ns).map fun t => (t, t.spelling))
      ((Node.tokensList ns).flatMap Token.spelling) where
  text_eq := by simp [List.flatMap_map]
  written := by simpa using h.written
  apart := by simpa [Function.comp_def] using h.apart

/-- The text of a coherent document is read as this document. -/
theorem Coherent.parse_spelling (h : d.Coherent) :
    parse (String.ofList d.spelling) = .ok { d with encoding := .utf8 } := by
  have hforest : Forest.ofText d.body = .ok (Node.plainList d.nodes) := by
    rw [Forest.ofText, Reading.ofText, h.withoutMark_body, Forest.ofReading_within_eq_ok_iff,
      Node.tokensList_plainList]
    refine ⟨⟨_, ?_, pieces_flatMap_spelling h.legible⟩,
      (Node.soundList_plainList_iff _).2 h.legible.sound, Node.plainList_plainList _⟩
    simp [Function.comp_def]
  have hdocument : ofForest d.mark (Node.plainList d.nodes) = .ok { d with encoding := .utf8 } := by
    rw [plainList_nodes h.prolog h.epilog, ofForest_eq_ok_iff]
    refine ⟨d.prolog, ⟨d.root.tag, Node.plainList d.root.children⟩, d.epilog, d.dialect,
      aroundRoot_eq_ok_iff.2 ⟨⟨none, rfl⟩, h.prolog, h.epilog⟩, h.dialect, ?_⟩
    rw [h.current]
  have hmark : decide (d.spelling.head? = some Reading.byteOrderMark) = d.mark := by
    simp [h.head?_spelling_iff]
  simp only [parse, String.toList_ofList, h.withoutMark_spelling, hforest, hmark, hdocument]

end Document

end ProjectOrder

import ProjectOrder.Proofs.Arrangement.Repeated
import ProjectOrder.Proofs.Document.Lineage
import ProjectOrder.Proofs.Document.Rereading

/-!
# What sorting does to the text

Sorting a document moves parts of its text and changes none. `Node.TextShuffled` says which: in
every child list the parts written for entries change places among themselves. Whether a document
can be written does not depend on the order of its nodes. `render_sort_shuffles` puts the two
together.
-/

namespace ProjectOrder

open Markup

/-- A part of the text of a child list: what is written for one of its nodes. -/
structure Part where
  isEntry : Bool
  text : List Char

/-- `PartsShuffled parts moved` says that the parts of entries change places among themselves and
all other parts stay where they are. -/
structure PartsShuffled (parts moved : List Part) : Prop where
  slots : moved.map Part.isEntry = parts.map Part.isEntry
  others : moved.filter (!·.isEntry) = parts.filter (!·.isEntry)
  entries : (moved.filter Part.isEntry).Perm (parts.filter Part.isEntry)

/-- Shuffled parts are the same parts in another order. -/
theorem PartsShuffled.perm {parts moved : List Part} (h : PartsShuffled parts moved) :
    moved.Perm parts :=
  Node.perm_of_filter_perm h.entries h.others

/-- An element is written with the characters inside it in another order if these are. -/
theorem Tag.wrap_perm {inner moved : List Char} (tag : Tag) (h : moved.Perm inner) :
    (tag.wrap moved).Perm (tag.wrap inner) := by
  unfold wrap
  split
  · exact .refl _
  · exact ((h.append_right _).cons _).append_left _ |>.cons _

/-- Whether a tag may be written depends on the nodes inside only in that there are some. -/
theorem Tag.check_eq_ok_congr {tag : Tag} {ns ms : List Node} (h : ns = [] ↔ ms = []) :
    tag.check ns = .ok () ↔ tag.check ms = .ok () := by
  simp only [check, Ne, h]
  split
  · rfl
  · split
    · exact iff_of_false (by simp) (by simp)
    · rfl

namespace Node

variable {order : CaseOrder} {dialect : Dialect} {entry : Option Entry} {tag : Tag}
  {ns : List Node}

/-! ## Texts of nodes -/

/-- The text of a node. -/
def spelling (n : Node) : List Char :=
  n.tokens.flatMap Token.spelling

/-- What is written for a node of a child list. -/
def part (n : Node) : Part :=
  ⟨n.isEntry, n.spelling⟩

/-- The text of some nodes is that of their parts. -/
theorem flatMap_tokensList (ns : List Node) :
    (tokensList ns).flatMap Token.spelling = (ns.map part).flatMap Part.text := by
  rw [tokensList_eq_flatMap, List.flatMap_assoc, List.flatMap_map]
  rfl

/-- The text of an element is that of its parts between its tags. -/
theorem spelling_element :
    (element entry tag ns).spelling = tag.wrap ((ns.map part).flatMap Part.text) := by
  rw [← flatMap_tokensList, wrap_eq_flatMap, spelling]

/-- Arranging a child list shuffles its parts. -/
theorem partsShuffled_arrange : PartsShuffled (ns.map part) ((arrange order ns).map part) where
  slots := by
    rw [List.map_map, List.map_map]
    exact map_arrange fun _ hn => hn
  others := by
    rw [List.filter_map, List.filter_map]
    exact congrArg _ (filter_not_refill fun _ => isEntry_of_mem_sorted)
  entries := (arrange_perm.map part).filter _

/-! ## Shuffled texts -/

mutual

/-- `TextShuffled n cs ds` says that `cs` is the text of a node and that `ds` is this text with the
parts of entries shuffled in every child list inside. The parts of a list are shuffled inside before
they change places. -/
inductive TextShuffled : Node → List Char → List Char → Prop where
  | leaf (kind : LeafKind) (text : String) :
      TextShuffled (.leaf kind text) (Token.leaf kind text.toList).spelling
        (Token.leaf kind text.toList).spelling
  | element (entry : Option Entry) (tag : Tag) (ns : List Node) (parts inner moved : List Part) :
      TextShuffledEach ns parts inner → PartsShuffled inner moved →
      TextShuffled (.element entry tag ns) (tag.wrap (parts.flatMap Part.text))
        (tag.wrap (moved.flatMap Part.text))

/-- `TextShuffledEach ns parts inner` says that `parts` are those of a child list and that `inner`
has each of them with the text shuffled inside. -/
inductive TextShuffledEach : List Node → List Part → List Part → Prop where
  | nil : TextShuffledEach [] [] []
  | cons (n : Node) (ns : List Node) (cs ds : List Char) (parts inner : List Part) :
      TextShuffled n cs ds → TextShuffledEach ns parts inner →
      TextShuffledEach (n :: ns) (⟨n.isEntry, cs⟩ :: parts) (⟨n.isEntry, ds⟩ :: inner)

end

mutual

/-- The text of a sorted node is that of the node, shuffled. -/
theorem textShuffled_sort (n : Node) : TextShuffled n n.spelling (n.sort order).spelling := by
  cases n with
  | leaf kind text =>
      rw [sort, spelling, tokens, List.flatMap_singleton]
      exact .leaf kind text
  | element entry tag ns =>
      rw [sort, spelling_element, spelling_element]
      exact .element entry tag ns _ _ _ (textShuffledEach_sortInner ns) partsShuffled_arrange

/-- Sorting inside some nodes shuffles the text inside each of them. -/
theorem textShuffledEach_sortInner (ns : List Node) :
    TextShuffledEach ns (ns.map part) ((sortInner order ns).map part) := by
  cases ns with
  | nil => exact .nil
  | cons n ns =>
      have hpart : (n.sort order).part = ⟨n.isEntry, (n.sort order).spelling⟩ := by
        rw [part, isEntry_eq_of_key?_eq key?_sort]
      rw [sortInner, List.map_cons, List.map_cons, hpart]
      exact .cons n ns _ _ _ _ (textShuffled_sort n) (textShuffledEach_sortInner ns)

end

mutual

/-- A shuffled text has the characters of the text. -/
theorem TextShuffled.perm {n : Node} {cs ds : List Char} (h : TextShuffled n cs ds) :
    ds.Perm cs := by
  cases h with
  | leaf => exact .refl _
  | element _ _ _ _ _ _ heach hmoved =>
      exact Tag.wrap_perm _ ((hmoved.perm.flatMap_right _).trans heach.perm)

/-- Texts shuffled inside nodes have the same characters. -/
theorem TextShuffledEach.perm {ns : List Node} {parts inner : List Part}
    (h : TextShuffledEach ns parts inner) :
    (inner.flatMap Part.text).Perm (parts.flatMap Part.text) := by
  cases h with
  | nil => exact .refl _
  | cons _ _ _ _ _ _ hhead htail =>
      rw [List.flatMap_cons, List.flatMap_cons]
      exact hhead.perm.append htail.perm

end

/-! ## What can be written -/

/-- An element can be written if its entry fits, its tag may be written and the nodes inside can be
written. -/
theorem exists_render_element_iff :
    (∃ cs, (element entry tag ns).render dialect = .ok cs) ↔
      (∀ e ∈ entry, dialect.fits e.kind tag) ∧ tag.check ns = .ok () ∧
        ∃ inner, renderList dialect ns = .ok inner := by
  constructor
  · intro ⟨cs, h⟩
    have hfits : ∀ e ∈ entry, dialect.fits e.kind tag := by
      intro e he
      obtain rfl : entry = some e := he
      rw [render] at h
      obtain ⟨_, hcheck, -⟩ := bind_eq_ok_iff.1 h
      unfold Entry.check at hcheck
      split at hcheck
      · assumption
      · cases hcheck
    obtain ⟨hcheck, inner, hinner, -⟩ := of_render_element_eq_ok h
    exact ⟨hfits, hcheck, inner, hinner⟩
  · intro ⟨hfits, hcheck, inner, hinner⟩
    refine ⟨tag.wrap inner, ?_⟩
    rw [render_element hfits, hcheck, hinner]
    rfl

/-- Nodes can be rendered exactly if each of them can. -/
theorem exists_renderList_iff :
    (∃ cs, renderList dialect ns = .ok cs) ↔ ∀ n ∈ ns, ∃ cs, n.render dialect = .ok cs := by
  constructor
  · intro ⟨cs, h⟩ n hn
    exact exists_render_of_mem h hn
  · intro h
    induction ns with
    | nil => exact ⟨[], rfl⟩
    | cons n ns ih =>
        rw [List.forall_mem_cons] at h
        obtain ⟨first, hfirst⟩ := h.1
        obtain ⟨rest, hrest⟩ := ih h.2
        exact ⟨first ++ rest, renderList_cons_eq_ok_iff.2 ⟨first, rest, hfirst, hrest, rfl⟩⟩

/-- A sorted node can be written if the node can. -/
theorem exists_render_sort_iff (n : Node) :
    (∃ cs, (n.sort order).render dialect = .ok cs) ↔ ∃ cs, n.render dialect = .ok cs := by
  induction n with
  | leaf => rfl
  | element entry tag ns ih =>
      have hinside : (∀ m ∈ arrange order (sortInner order ns), ∃ cs, m.render dialect = .ok cs) ↔
          ∀ n ∈ ns, ∃ cs, n.render dialect = .ok cs := by
        simp only [arrange_perm.mem_iff, sortInner_eq_map, List.forall_mem_map]
        exact forall₂_congr ih
      have hnil : arrange order (sortInner order ns) = [] ↔ ns = [] := by
        rw [← List.length_eq_zero_iff, arrange_perm.length_eq, sortInner_eq_map, List.length_map,
          List.length_eq_zero_iff]
      rw [sort, exists_render_element_iff, exists_render_element_iff, Tag.check_eq_ok_congr hnil,
        exists_renderList_iff, exists_renderList_iff, hinside]

end Node

namespace Document

variable {d : Document} {t u : String} {order : CaseOrder}

/-- The text before the root element of a document. -/
def front (d : Document) : List Char :=
  (if d.mark then [Reading.byteOrderMark] else []) ++ (d.prolog.map Node.part).flatMap Part.text

/-- The text after the root element. -/
def back (d : Document) : List Char :=
  (d.epilog.map Node.part).flatMap Part.text

/-- `d.TextShuffled t u` says that `t` is the text of a document and that `u` is this text with the
parts of entries shuffled in every child list under the root. -/
inductive TextShuffled (d : Document) : String → String → Prop where
  | intro (root moved : List Char) : d.rootNode.TextShuffled root moved →
      TextShuffled d (String.ofList (d.front ++ root ++ d.back))
        (String.ofList (d.front ++ moved ++ d.back))

/-- Shuffled texts of a document have the same characters. -/
theorem TextShuffled.perm (h : d.TextShuffled t u) : u.toList.Perm t.toList := by
  obtain ⟨root, moved, hroot⟩ := h
  rw [String.toList_ofList, String.toList_ofList]
  exact (hroot.perm.append_left _).append_right _

/-- A document is spelled as what stands before its root, the root, and what stands after it. -/
theorem spelling_eq (d : Document) : d.spelling = d.front ++ d.rootNode.spelling ++ d.back := by
  have hbody : d.body = (d.prolog.map Node.part).flatMap Part.text ++
      (d.rootNode.spelling ++ d.back) := by
    rw [body, nodes, Node.flatMap_tokensList, List.map_append, List.flatMap_append, List.map_cons,
      List.flatMap_cons]
    rfl
  rw [spelling, front, hbody]
  split <;> simp

/-- The text of a sorted document is that of the document, shuffled. -/
theorem textShuffled_spelling_sort :
    d.TextShuffled (String.ofList d.spelling) (String.ofList (d.sort order).spelling) := by
  rw [spelling_eq, spelling_eq]
  exact .intro _ _ (Node.textShuffled_sort d.rootNode)

/-- A document can be written if it has a root of its dialect and its nodes can be written. -/
theorem exists_render_iff :
    (∃ t, d.render = .ok t) ↔ d.root.tag.name = d.dialect.rootElement ∧
      ∀ n ∈ d.nodes, ∃ cs, n.render d.dialect = .ok cs := by
  rw [← Node.exists_renderList_iff]
  constructor
  · intro ⟨t, h⟩
    obtain ⟨hname, -, hnodes⟩ := of_render_eq_ok h
    exact ⟨hname, hnodes⟩
  · intro ⟨hname, cs, hcs⟩
    rw [render, if_pos hname, hcs]
    exact ⟨_, rfl⟩

/-- A sorted document can be written exactly if the document can, and what is written then is the
text of the document with the parts of entries shuffled in every child list. It is as long and has
the same characters. -/
theorem render_sort_shuffles (order : CaseOrder) (d : Document) :
    ((∃ u, (d.sort order).render = .ok u) ↔ ∃ t, d.render = .ok t) ∧
      ∀ t u, d.render = .ok t → (d.sort order).render = .ok u →
        d.TextShuffled t u ∧ u.length = t.length ∧ u.toList.Perm t.toList := by
  constructor
  · have hnodes : (∀ n ∈ (d.sort order).nodes, ∃ cs, n.render d.dialect = .ok cs) ↔
        ∀ n ∈ d.nodes, ∃ cs, n.render d.dialect = .ok cs := by
      rw [nodes, nodes, List.forall_mem_append, List.forall_mem_cons, List.forall_mem_append,
        List.forall_mem_cons]
      exact and_congr_right fun _ => and_congr_left fun _ => Node.exists_render_sort_iff d.rootNode
    rw [exists_render_iff, exists_render_iff]
    exact and_congr_right fun _ => hnodes
  · intro t u ht hu
    obtain ⟨-, rfl, -⟩ := of_render_eq_ok ht
    obtain ⟨-, rfl, -⟩ := of_render_eq_ok hu
    have hshuffled : d.TextShuffled (String.ofList d.spelling)
      (String.ofList (d.sort order).spelling) := textShuffled_spelling_sort
    have hperm := hshuffled.perm
    exact ⟨hshuffled, by simpa using hperm.length_eq, hperm⟩

/-- A folder moves with what is written inside it, and the comments stay between the places. -/
theorem render_sort_shuffles_nested :
    let file (name : String) : Node := .element (some ⟨.file, name, none⟩)
      ⟨"File", "File RelativePath='" ++ name ++ "'", [⟨"RelativePath", name⟩], true⟩ []
    let folder (children : List Node) : Node := .element (some ⟨.folder, "b", none⟩)
      ⟨"Filter", "Filter Name='b'", [⟨"Name", "b"⟩], false⟩ children
    let files (children : List Node) : Node :=
      .element none ⟨"Files", "Files", [], false⟩ children
    let document (children : List Node) : Document := ⟨.nested, .utf8, true, [],
      ⟨⟨"VisualStudioProject", "VisualStudioProject", [], false⟩, [files children]⟩, []⟩
    let x : Node := .leaf .comment "x"
    let d := document [file "a", x, folder [file "d", x, file "c"]]
    let t := "\uFEFF<VisualStudioProject><Files><File RelativePath='a'/><!--x-->" ++
      "<Filter Name='b'><File RelativePath='d'/><!--x--><File RelativePath='c'/></Filter>" ++
      "</Files></VisualStudioProject>"
    let u := "\uFEFF<VisualStudioProject><Files><Filter Name='b'><File RelativePath='c'/>" ++
      "<!--x--><File RelativePath='d'/></Filter><!--x--><File RelativePath='a'/></Files>" ++
      "</VisualStudioProject>"
    d.render = .ok t ∧ (d.sort .upperFirst).render = .ok u ∧ d.TextShuffled t u := by
  intro file folder files document x d t u
  have ht : d.render = .ok t := by decide +kernel
  have hfolder : (folder [file "d", x, file "c"]).sort .upperFirst =
      folder [file "c", x, file "d"] :=
    congrArg folder (Node.arrange_of_two rfl (by decide))
  have hinside : Node.sortInner .upperFirst [file "a", x, folder [file "d", x, file "c"]] =
      [file "a", x, folder [file "c", x, file "d"]] :=
    congrArg (fun n => [file "a", x, n]) hfolder
  have hfiles : (files [file "a", x, folder [file "d", x, file "c"]]).sort .upperFirst =
      files [folder [file "c", x, file "d"], x, file "a"] :=
    congrArg files ((congrArg _ hinside).trans (Node.arrange_of_two rfl (by decide)))
  have hroot : Node.sortList .upperFirst d.root.children =
      [files [folder [file "c", x, file "d"], x, file "a"]] :=
    (Node.arrange_singleton _).trans (congrArg (fun n => [n]) hfiles)
  have hsort : d.sort .upperFirst = document [folder [file "c", x, file "d"], x, file "a"] := by
    rw [sort, hroot]
  have hu : (d.sort .upperFirst).render = .ok u := by
    rw [hsort]
    decide +kernel
  exact ⟨ht, hu, ((render_sort_shuffles .upperFirst d).2 t u ht hu).1⟩

end Document

end ProjectOrder

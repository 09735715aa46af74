import ProjectOrder.Proofs.Document.Coherence
import ProjectOrder.Proofs.Document.Declaration

/-!
# Writing and reading again

A document that has been read declares its encoding: what is written for it, also after sorting,
shows the encoding it is written in. With that, `Faithful.read_of_write` says that what is written
is read as the same document again.
-/

namespace ProjectOrder

open Markup

namespace Document

variable {bytes out : ByteArray} {bs : List UInt8} {cs : List Char} {e : Encoding}
  {order : CaseOrder} {d : Document}

/-! ## Reading and writing bytes -/

/-- Bytes are read as a document if they decode in their encoding to a text that has one. -/
theorem read_eq_ok_iff [Indexes] :
    read bytes = .ok d ↔
      ∃ e cs d₀, encodingOf bytes.data.toList = .ok e ∧ e.decode? bytes.data.toList = some cs ∧
        parse (String.ofList cs) = .ok d₀ ∧ d = { d₀ with encoding := e } := by
  rw [read]
  simp only [bind_eq_ok_iff]
  constructor
  · rintro ⟨e, he, h⟩
    split at h
    · rename_i cs hdecode
      obtain ⟨d₀, hparse, hd⟩ := bind_eq_ok_iff.1 h
      exact ⟨e, cs, d₀, he, hdecode, hparse, (Except.ok.inj hd).symm⟩
    · split at h <;> cases h
  · rintro ⟨e, cs, d₀, he, hdecode, hparse, rfl⟩
    refine ⟨e, he, ?_⟩
    rw [hdecode]
    exact bind_eq_ok_iff.2 ⟨d₀, hparse, rfl⟩

/-- A document is written as bytes if it has a text that its encoding can represent by them. -/
theorem write_eq_ok_iff [Indexes] :
    d.write = .ok out ↔
      ∃ text, d.render = .ok text ∧ d.encoding.encode? text.toList = some out.data.toList := by
  rw [write, bind_eq_ok_iff]
  refine exists_congr fun text => and_congr_right fun _ => ?_
  split
  · rename_i bs hencode
    rw [hencode, Option.some.injEq]
    constructor
    · intro h
      rw [← Except.ok.inj h]
    · rintro rfl
      rfl
  · rename_i hencode
    constructor
    · nofun
    · intro h
      rw [hencode] at h
      cases h

/-- The encoding has no part in the coherence of a document. -/
theorem Coherent.withEncoding (h : d.Coherent) (e : Encoding) :
    ({ d with encoding := e } : Document).Coherent where
  prolog := h.prolog
  epilog := h.epilog
  dialect := h.dialect
  legible := h.legible
  current := h.current

/-- What is read is a coherent document. -/
theorem coherent_of_read [Indexes] (hread : read bytes = .ok d) : d.Coherent := by
  obtain ⟨e, cs, parsed, -, -, hparse, rfl⟩ := read_eq_ok_iff.1 hread
  exact (coherent_of_parse hparse).1.withEncoding e

/-- A coherent document is written as the bytes of its text, unless a tag has no name or a character
has no bytes. -/
theorem Coherent.write_eq_ok_iff [Indexes] (h : d.Coherent) :
    d.write = .ok out ↔
      (∀ t ∈ Node.tokensList d.nodes, t.Named) ∧
        d.encoding.encode? d.spelling = some out.data.toList := by
  rw [Document.write_eq_ok_iff]
  simp only [h.render_eq_ok_iff]
  constructor
  · rintro ⟨_, ⟨hnamed, rfl⟩, hencode⟩
    rw [String.toList_ofList] at hencode
    exact ⟨hnamed, hencode⟩
  · rintro ⟨hnamed, hencode⟩
    exact ⟨_, ⟨hnamed, rfl⟩, by rwa [String.toList_ofList]⟩

/-! ## The encoding that a document shows -/

/-- The content of the declaration that a document begins with. -/
def declared? (d : Document) : Option (List Char) :=
  (Node.tokensList d.nodes).head?.bind Token.declared?

/-- A document declares its encoding if this is the encoding found in its bytes. -/
def DeclaresEncoding [Indexes] (d : Document) : Prop :=
  if d.mark then d.encoding = .utf8
  else encodingIn (d.declared?.map (·.flatMap d.encoding.seen)) = .ok d.encoding

/-- A text with a declaration begins with a tag. -/
theorem head?_of_declaration? (h : declaration? cs ≠ none) : cs.head? = some '<' := by
  obtain ⟨content, hcontent⟩ := Option.ne_none_iff_exists'.1 h
  obtain ⟨⟨rest, rfl⟩, -⟩ := declaration?_eq_some_iff.1 hcontent
  rfl

/-- The declaration seen in the bytes of a text. -/
theorem declaration?_bytesAsText [Indexes] (he : e.IsExact) (hencode : e.encode? cs = some bs) :
    declaration? (bytesAsText bs) = (declaration? cs).map (·.flatMap e.seen) := by
  obtain ⟨hbytes, hseen⟩ := Encoding.bytesAsText_eq_flatMap he hencode
  rw [hbytes, declaration?_flatMap hseen]

/-- The encoding found in the bytes of a text that begins with no byte order mark is the one that
its declaration names. -/
theorem encodingOf_eq_ok_iff [Indexes] (he : e.IsExact) (hencode : e.encode? cs = some bs)
    (hhead : cs.head? ≠ some Reading.byteOrderMark) :
    encodingOf bs = .ok e ↔ encodingIn ((declaration? cs).map (·.flatMap e.seen)) = .ok e := by
  have hunmarked (h : e ≠ .utf8 → Unmarked bs) : Unmarked bs := by
    by_cases hutf8 : e = .utf8
    · exact unmarked_utf8 (hutf8 ▸ hencode) hhead
    · exact h hutf8
  rw [← declaration?_bytesAsText he hencode]
  constructor
  · intro h
    rw [← encodingOf_eq (hunmarked fun hutf8 => (of_encodingOf h hutf8).1), h]
  · intro h
    rw [encodingOf_eq (hunmarked fun hutf8 => ?_), h]
    -- another encoding can only come from a declaration, which begins with a tag
    refine unmarked_of_head? he hencode (head?_of_declaration? fun hnone => hutf8 ?_)
    rw [declaration?_bytesAsText he hencode, hnone] at h
    exact (Except.ok.inj h).symm

/-- Only bytes in UTF-8 can be those of a text with a byte order mark. -/
theorem eq_utf8_of_head? [Indexes] (he : e.IsExact) (hencode : e.encode? cs = some bs)
    (hencoding : encodingOf bs = .ok e) (hhead : cs.head? = some Reading.byteOrderMark) :
    e = .utf8 := by
  by_contra hutf8
  have hdeclaration := (of_encodingOf hencoding hutf8).2
  rw [declaration?_bytesAsText he hencode] at hdeclaration
  have hdeclared : declaration? cs ≠ none := by simpa using hdeclaration
  have htag := head?_of_declaration? hdeclared
  rw [hhead] at htag
  exact absurd htag (by decide)

/-- Sorting leaves the declaration of a document where it is. -/
theorem declared?_sort (h : d.Coherent) : (d.sort order).declared? = d.declared? := by
  rw [declared?, declared?, nodes_sort h.prolog h.epilog, Node.head?_tokensList_sortInner]

/-! ## Faithful documents -/

/-- What every document keeps that has been read from bytes and sorted. -/
structure Faithful [Indexes] (d : Document) : Prop where
  coherent : d.Coherent
  declares : d.DeclaresEncoding

/-- The declaration of a legible forest is its first token. -/
theorem declaration?_body (h : d.Coherent) : declaration? d.body = d.declared? := by
  rw [body, (pieces_flatMap_spelling h.legible).declaration?_eq, declared?]
  simp [Function.comp_def]

/-- A document that has been read is faithful, and its tokens are those of the text. -/
theorem faithful_of_read [Indexes] (hread : read bytes = .ok d) (he : d.encoding.IsExact) :
    d.Faithful ∧ ∃ cs ps, d.encoding.decode? bytes.data.toList = some cs ∧
      (d.mark ↔ cs.head? = some Reading.byteOrderMark) ∧
      ps.map Prod.fst = Node.tokensList d.nodes ∧
      Pieces ps (Reading.withoutMark (Reading.withoutMark cs)) := by
  obtain ⟨e, cs, d₀, hencoding, hdecode, hparse, rfl⟩ := read_eq_ok_iff.1 hread
  obtain ⟨hcoherent, -, hmark, ps, hps, hpieces⟩ := coherent_of_parse hparse
  rw [String.toList_ofList] at hmark hpieces
  have hencode := (Encoding.decode?_eq_some_iff he).1 hdecode
  refine ⟨⟨hcoherent.withEncoding e, ?_⟩, cs, ps, hdecode, hmark, hps, hpieces⟩
  unfold DeclaresEncoding
  split
  · exact eq_utf8_of_head? he hencode hencoding (hmark.1 ‹_›)
  · rename_i hunmarked
    have hhead : cs.head? ≠ some Reading.byteOrderMark := fun hhead => hunmarked (hmark.2 hhead)
    -- without a mark the pieces are those of the whole text
    have htext : Reading.withoutMark (Reading.withoutMark cs) = cs := by
      simp only [Reading.withoutMark, if_neg hhead]
    have hdeclared : declaration? cs = declared? { d₀ with encoding := e } := by
      rw [htext] at hpieces
      rw [hpieces.declaration?_eq, hps]
      rfl
    rw [← hdeclared]
    exact (encodingOf_eq_ok_iff he hencode hhead).1 hencoding

/-- Sorting keeps a document faithful. -/
theorem Faithful.sort [Indexes] (h : d.Faithful) : (d.sort order).Faithful where
  coherent := h.coherent.sort
  declares := by
    have hdeclares := h.declares
    rw [DeclaresEncoding] at hdeclares ⊢
    rw [declared?_sort h.coherent]
    exact hdeclares

/-- What is written for a faithful document is read as this document. -/
theorem Faithful.read_of_write [Indexes] (h : d.Faithful) (he : d.encoding.IsExact)
    (hwrite : d.write = .ok out) : read out = .ok d := by
  have hencode := (h.coherent.write_eq_ok_iff.1 hwrite).2
  have hencoding : encodingOf out.data.toList = .ok d.encoding := by
    have hdeclares := h.declares
    unfold DeclaresEncoding at hdeclares
    split at hdeclares
    · have hhead := h.coherent.head?_spelling_iff.2 ‹_›
      rw [hdeclares] at hencode ⊢
      exact if_pos (take_eq_utf8Mark hencode hhead)
    · rename_i hmark
      have hhead := mt h.coherent.head?_spelling_iff.1 hmark
      have hspelling : d.spelling = d.body := if_neg hmark
      rw [encodingOf_eq_ok_iff he hencode hhead, hspelling, declaration?_body h.coherent]
      exact hdeclares
  rw [read_eq_ok_iff]
  exact ⟨_, _, _, hencoding, (Encoding.decode?_eq_some_iff he).2 hencode,
    h.coherent.parse_spelling, rfl⟩

/-- Whatever is written for a document that has been read in UTF-8 or in an encoding of one byte per
character, and sorted any number of times, is read as this document. -/
theorem read_of_write_sortAll [Indexes] (orders : List CaseOrder) (hread : read bytes = .ok d)
    (he : d.encoding.IsExact) (hwrite : (d.sortAll orders).write = .ok out) :
    read out = .ok (d.sortAll orders) := by
  have hsorted : (d.sortAll orders).Faithful ∧ (d.sortAll orders).encoding.IsExact :=
    sortAll_induction (P := fun d => d.Faithful ∧ d.encoding.IsExact)
      (fun _ _ h => ⟨h.1.sort, h.2⟩) orders ⟨(faithful_of_read hread he).1, he⟩
  exact hsorted.1.read_of_write hsorted.2 hwrite

/-- Two entries change places, and the space in the end tag of the root is not written again. -/
theorem read_of_write_sortAll_swapped :
    let before := "<Project><ItemGroup><C Include='b'/><C Include='a' /></ItemGroup></Project >"
    let after := "<Project><ItemGroup><C Include='a' /><C Include='b'/></ItemGroup></Project>"
    let entry (content name : String) : Node :=
      .element (some ⟨.file, name, none⟩) ⟨"C", content, [⟨"Include", name⟩], true⟩ []
    let a := entry "C Include='a' " "a"
    let b := entry "C Include='b'" "b"
    let document (entries : List Node) : Document :=
      ⟨.flat, .utf8, false, [], ⟨⟨"Project", "Project", [], false⟩,
        [.element none ⟨"ItemGroup", "ItemGroup", [], false⟩ entries]⟩, []⟩
    read before.toUTF8 = .ok (document [b, a]) ∧
      sortAll [.upperFirst] (document [b, a]) = document [a, b] ∧
      read after.toUTF8 = .ok (document [a, b]) := by
  intro before after entry a b document
  have hread : read before.toUTF8 = .ok (document [b, a]) := by decide +kernel
  have hsort : sortAll [.upperFirst] (document [b, a]) = document [a, b] := by
    have hinner : Node.sortInner .upperFirst (document [b, a]).root.children =
        (document (Node.arrange .upperFirst [b, a])).root.children := rfl
    have hgroup : ∀ n ∈ (document [a, b]).root.children, n.isEntry = false := by
      rintro n (_ | ⟨_, ⟨⟩⟩)
      rfl
    have hroot : Node.sortList .upperFirst (document [b, a]).root.children =
        (document [a, b]).root.children := by
      rw [Node.sortList, hinner, Node.arrange_swap rfl rfl (by decide),
        Node.arrange_of_not_isEntry hgroup]
    rw [sortAll, List.foldl_cons, List.foldl_nil, sort, hroot]
  have hwrite : (sortAll [.upperFirst] (document [b, a])).write = .ok after.toUTF8 := by
    rw [hsort]
    decide +kernel
  have hwritten := read_of_write_sortAll [.upperFirst] hread trivial hwrite
  exact ⟨hread, hsort, hsort ▸ hwritten⟩

end Document

end ProjectOrder

import ProjectOrder.Project.Failure
import ProjectOrder.Proofs.Document.Lineage
import ProjectOrder.Proofs.Document.RoundTrip
import ProjectOrder.Proofs.Encoding.Fidelity

/-!
# Documents that can be written

A document that has been read can be written, and also after sorting, with one exception: an element
without a name, such as `< />`, is read but not written. `write_sortAll_fails_iff` says so of
documents in UTF-8 and in the encodings of one byte per character, and which fault tells of it.
-/

namespace ProjectOrder

open Markup

namespace Node

variable {ns : List Node} {n : Node} {dialect : Dialect} {fault : WriteFault}

/-! ## Elements without names -/

/-- The tags of a sound node have names if the node has and every element inside it. -/
theorem forall_named_iff (hn : n.Sound) :
    (∀ t ∈ n.tokens, t.Named) ↔
      ¬ n.HasName "" ∧ ∀ above m, Stands n.children above m → ¬ m.HasName "" := by
  induction n with
  | leaf kind text =>
      rw [children, forall_stands_iff]
      simp [tokens, Token.Named]
  | element entry tag ns ih =>
      obtain ⟨htag, hempty, hns⟩ := hn
      rw [forall_named_element_iff hempty, hasName_element, htag.name_eq_empty_iff, children,
        forall_stands_iff, tokensList_eq_flatMap, List.forall_mem_flatMap]
      exact and_congr_right fun _ => forall₂_congr fun n hmem =>
        ih n hmem (soundList_iff.1 hns n hmem)

/-- The tags of a sound forest have names if every element in it has. -/
theorem forall_named_tokensList_iff (hns : SoundList ns) :
    (∀ t ∈ tokensList ns, t.Named) ↔ ∀ above n, Stands ns above n → ¬ n.HasName "" := by
  rw [forall_stands_iff, tokensList_eq_flatMap, List.forall_mem_flatMap]
  exact forall₂_congr fun n hmem => forall_named_iff (soundList_iff.1 hns n hmem)

/-! ## Faults -/

/-- The fault tells of an element without a name in a forest. -/
def Blames (ns : List Node) (fault : WriteFault) : Prop :=
  ∃ above entry tag ms, Stands ns above (.element entry tag ms) ∧ tag.name = "" ∧
    fault = .unnamedTag tag.content

/-- The fault of some nodes is that of one of them. -/
theorem exists_of_renderList_eq_error (h : renderList dialect ns = .error fault) :
    ∃ n ∈ ns, n.render dialect = .error fault := by
  induction ns with
  | nil => cases h
  | cons n ns ih =>
      rw [renderList, bind_eq_error_iff] at h
      rcases h with h | ⟨_, _, h⟩
      · exact ⟨n, List.mem_cons_self .., h⟩
      · rcases bind_eq_error_iff.1 h with h | ⟨_, _, h⟩
        · obtain ⟨m, hm, hrender⟩ := ih h
          exact ⟨m, List.mem_cons_of_mem _ hm, hrender⟩
        · cases h

/-- A sound node whose entries fit and whose tokens can be read off again is refused only for an
element without a name. -/
theorem blames_of_render_eq_error (hsound : n.Sound) (hfits : n.Fits dialect)
    (hwritten : ∀ t ∈ n.tokens, t.Written t.spelling) (h : n.render dialect = .error fault) :
    Blames [n] fault := by
  induction n with
  | leaf kind text =>
      rw [render, LeafKind.render_eq_ok (hwritten _ (by simp [tokens]))] at h
      cases h
  | element entry tag ns ih =>
      obtain ⟨htag, hempty, hns⟩ := hsound
      rw [render_element hfits.1, bind_eq_error_iff, Tag.check_eq htag hempty] at h
      rcases h with h | ⟨_, -, h⟩
      · split at h
        · cases h
          exact ⟨_, _, _, _, .top (List.mem_singleton_self _), ‹_›, rfl⟩
        · cases h
      · rcases bind_eq_error_iff.1 h with h | ⟨_, _, h⟩
        · obtain ⟨m, hm, hrender⟩ := exists_of_renderList_eq_error h
          have hinside : ∀ t ∈ m.tokens, t.Written t.spelling := by
            refine fun t ht => hwritten t (mem_tokens_of_mem_inside hempty ?_)
            rw [tokensList_eq_flatMap]
            exact List.mem_flatMap.2 ⟨m, hm, ht⟩
          obtain ⟨above, entry', tag', ms, hstands, hblamed⟩ :=
            ih m hm (soundList_iff.1 hns m hm) (fitsList_iff.1 hfits.2 m hm) hinside hrender
          have hstands := hstands.mono (List.cons_subset.2 ⟨hm, List.nil_subset ns⟩)
          exact ⟨_, entry', tag', ms, .inside (List.mem_singleton_self _) hstands, hblamed⟩
        · cases h

end Node

/-! ## Characters -/

/-- Encodings that are exact have bytes for ASCII. -/
theorem Encoding.isSome_encode?_of_ascii [Indexes] {e : Encoding} {c : Char} (he : e.IsExact)
    (hc : c.toNat < 0x80) : (e.encode? [c]).isSome := by
  cases e with
  | utf8 => rfl
  | charset set => simp [encode?, output, Charset.encodeChar?, hc]
  | _ => exact he.elim

namespace Document

variable {bytes : ByteArray} {d : Document} {order : CaseOrder} {fault : WriteFault}

/-- Every character of the tokens of a document has bytes in its encoding. -/
def Encodable [Indexes] (d : Document) : Prop :=
  ∀ t ∈ Node.tokensList d.nodes, ∀ c ∈ t.spelling, (d.encoding.encode? [c]).isSome

/-- A document that has been read consists of characters of its text and of ASCII. -/
theorem encodable_of_read [Indexes] (hread : read bytes = .ok d) (he : d.encoding.IsExact) :
    d.Encodable := by
  obtain ⟨-, cs, ps, hdecode, -, hps, hpieces⟩ := faithful_of_read hread he
  have hencode := (Encoding.decode?_eq_some_iff he).1 hdecode
  have hchars := Encoding.isSome_encode?_iff.1 (Option.isSome_iff_exists.2 ⟨_, hencode⟩)
  have hmark (cs : List Char) : Reading.withoutMark cs ⊆ cs := by
    unfold Reading.withoutMark
    split
    · exact (List.tail_sublist cs).subset
    · exact List.Subset.refl cs
  intro t ht c hc
  obtain ⟨p, hp, rfl⟩ := List.mem_map.1 (hps ▸ ht)
  rcases (hpieces.written p hp).mem_of_mem_spelling hc with hascii | hmem
  · exact Encoding.isSome_encode?_of_ascii he hascii
  · have htext : c ∈ ps.flatMap Prod.snd := List.mem_flatMap.2 ⟨p, hp, hmem⟩
    rw [hpieces.text_eq] at htext
    exact hchars c (hmark _ (hmark _ htext))

/-- Sorting brings in no characters. -/
theorem Encodable.sort [Indexes] (h : d.Encodable) (hd : d.Coherent) :
    (d.sort order).Encodable := by
  intro t ht
  rw [nodes_sort hd.prolog hd.epilog] at ht
  exact h t ((Node.tokensList_sortInner_perm _).mem_iff.1 ht)

/-- The text of a faithful document can be written, with its byte order mark. -/
theorem Encodable.isSome_encode? [Indexes] (h : d.Encodable) (hd : d.Faithful) :
    (d.encoding.encode? d.spelling).isSome := by
  have hdeclares := hd.declares
  unfold DeclaresEncoding at hdeclares
  unfold spelling
  split
  · rw [if_pos ‹_›] at hdeclares
    rw [hdeclares]
    rfl
  · refine Encoding.isSome_encode?_iff.2 fun c hc => ?_
    obtain ⟨t, ht, hc⟩ := List.mem_flatMap.1 hc
    exact h t ht c hc

/-! ## Writing -/

/-- Some element of a document has no name. -/
def HasUnnamed (d : Document) : Prop :=
  ∃ above n, Node.Stands d.nodes above n ∧ n.HasName ""

/-- A document has no unnamed tag if all its tokens have names. -/
theorem Coherent.not_hasUnnamed_iff (h : d.Coherent) :
    ¬ d.HasUnnamed ↔ ∀ t ∈ Node.tokensList d.nodes, t.Named := by
  rw [Node.forall_named_tokensList_iff h.legible.sound, HasUnnamed]
  simp only [not_exists, not_and]

/-- A faithful document is refused only for an element without a name. -/
theorem Faithful.blames_of_write_eq_error [Indexes] (h : d.Faithful) (hchars : d.Encodable)
    (hwrite : d.write = .error fault) : Node.Blames d.nodes fault := by
  have hcoherent := h.coherent
  rw [write, bind_eq_error_iff] at hwrite
  rcases hwrite with hrender | ⟨text, hrender, hencode⟩
  · rw [render, if_pos (eq_rootElement hcoherent.dialect), bind_eq_error_iff] at hrender
    rcases hrender with hrender | ⟨_, _, hrender⟩
    · obtain ⟨n, hn, hrender⟩ := Node.exists_of_renderList_eq_error hrender
      have hsound := Node.soundList_iff.1 hcoherent.legible.sound n hn
      have hfits := Node.fitsList_iff.1 hcoherent.fitsList n hn
      have hwritten : ∀ t ∈ n.tokens, t.Written t.spelling := by
        refine fun t ht => hcoherent.legible.written t ?_
        rw [Node.tokensList_eq_flatMap]
        exact List.mem_flatMap.2 ⟨n, hn, ht⟩
      obtain ⟨above, entry, tag, ms, hstands, hblamed⟩ :=
        Node.blames_of_render_eq_error hsound hfits hwritten hrender
      exact ⟨above, entry, tag, ms,
        hstands.mono (List.cons_subset.2 ⟨hn, List.nil_subset _⟩), hblamed⟩
    · cases hrender
  · obtain ⟨-, rfl⟩ := (hcoherent.render_eq_ok_iff text).1 hrender
    obtain ⟨bs, hbs⟩ := Option.isSome_iff_exists.1 (hchars.isSome_encode? h)
    rw [String.toList_ofList, hbs] at hencode
    cases hencode

/-- A faithful document is refused exactly if some element has no name. -/
theorem Faithful.exists_write_eq_error_iff [Indexes] (h : d.Faithful) (hchars : d.Encodable) :
    (∃ fault, d.write = .error fault) ↔ d.HasUnnamed := by
  constructor
  · rintro ⟨fault, hwrite⟩
    obtain ⟨above, entry, tag, ns, hstands, hname, -⟩ := h.blames_of_write_eq_error hchars hwrite
    exact ⟨above, _, hstands, hname⟩
  · intro hunnamed
    cases hwrite : d.write with
    | error fault => exact ⟨fault, rfl⟩
    | ok out =>
        have hnamed := (h.coherent.write_eq_ok_iff.1 hwrite).1
        exact absurd hunnamed (h.coherent.not_hasUnnamed_iff.2 hnamed)

/-- Sorting leaves the elements without names what they are. -/
theorem Coherent.hasUnnamed_sort_iff (h : d.Coherent) :
    (d.sort order).HasUnnamed ↔ d.HasUnnamed := by
  rw [← not_iff_not, h.sort.not_hasUnnamed_iff, h.not_hasUnnamed_iff,
    nodes_sort h.prolog h.epilog]
  simp only [(Node.tokensList_sortInner_perm _).mem_iff]

/-- A document in UTF-8 or in an encoding of one byte per character that has been read, and sorted
any number of times, can be written unless some element has no name: its tag is empty or begins with
a space. The fault names such a tag. -/
theorem write_sortAll_fails_iff [Indexes] (orders : List CaseOrder) (hread : read bytes = .ok d)
    (he : d.encoding.IsExact) :
    let s := d.sortAll orders
    ((∃ fault, s.write = .error fault) ↔ s.HasUnnamed) ∧ (s.HasUnnamed ↔ d.HasUnnamed) ∧
      (∀ above entry tag ns, Node.Stands s.nodes above (.element entry tag ns) →
        (tag.name = "" ↔ ∀ c ∈ tag.content.toList.head?, isSpace c)) ∧
      ∀ fault, s.write = .error fault →
        Node.Blames s.nodes fault ∧ (Failure.unwritable fault).kind = .serialization := by
  intro s
  obtain ⟨hfaithful, hchars, hunnamed⟩ : s.Faithful ∧ s.Encodable ∧
      (s.HasUnnamed ↔ d.HasUnnamed) :=
    sortAll_induction (P := fun s => s.Faithful ∧ s.Encodable ∧ (s.HasUnnamed ↔ d.HasUnnamed))
      (fun s order h => ⟨h.1.sort, h.2.1.sort h.1.coherent,
        h.1.coherent.hasUnnamed_sort_iff.trans h.2.2⟩)
      orders ⟨(faithful_of_read hread he).1, encodable_of_read hread he, Iff.rfl⟩
  refine ⟨hfaithful.exists_write_eq_error_iff hchars, hunnamed,
    fun above entry tag ns hstands => ?_,
    fun fault hwrite => ⟨hfaithful.blames_of_write_eq_error hchars hwrite, rfl⟩⟩
  have htag : tag.Sound := (hstands.sound hfaithful.coherent.legible.sound).1
  rw [htag.name_eq_empty_iff, Token.tagName]
  cases tag.content.toList with
  | nil => simp
  | cons c cs => simp [List.takeWhile_cons]

/-- An entry without a name is read, and it keeps the document from being written. -/
theorem write_sortAll_fails_iff_unnamed :
    let content := "<Project><ItemGroup>< Include='a'/></ItemGroup></Project>"
    let entry : Node :=
      .element (some ⟨.file, "a", none⟩) ⟨"", " Include='a'", [⟨"Include", "a"⟩], true⟩ []
    let group : Node := .element none ⟨"ItemGroup", "ItemGroup", [], false⟩ [entry]
    let d : Document :=
      ⟨.flat, .utf8, false, [], ⟨⟨"Project", "Project", [], false⟩, [group]⟩, []⟩
    read content.toUTF8 = .ok d ∧ d.encoding.IsExact ∧
      ∃ fault, (d.sortAll [.upperFirst, .lowerFirst]).write = .error fault := by
  intro content entry group d
  have hread : read content.toUTF8 = .ok d := by decide +kernel
  have hunnamed : d.HasUnnamed :=
    ⟨[d.rootNode, group], entry, .inside (.head _) (.inside (.head _) (.top (.head _))), rfl⟩
  obtain ⟨hfails, hsame, -⟩ := write_sortAll_fails_iff [.upperFirst, .lowerFirst] hread trivial
  exact ⟨hread, trivial, hfails.2 (hsame.2 hunnamed)⟩

end Document

end ProjectOrder

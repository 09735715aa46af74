import ProjectOrder.Proofs.Document.RoundTrip

/-!
# Canonical texts

A document that was only read is not always written as the bytes it was read from. Space in end
tags, the spelling of a type declaration's keyword and the second of two byte order marks are lost,
and a tag without a name is refused. `Canonical` excludes these texts, and `write_eq_self_iff` says
that it excludes no others.
-/

namespace ProjectOrder

open Markup

namespace Markup

variable {cs source : List Char} {t : Token}

/-- Whether a text that stands for a token is the one that is written for it: a start tag must have
a name, an end tag must end with its name, and a type declaration must begin with its keyword in
capital letters and one space. -/
def Token.Canonical : Token → List Char → Prop
  | openTag content, _ | emptyTag content, _ => tagName content ≠ []
  | closeTag name, source => source = '<' :: '/' :: (name ++ ['>'])
  | leaf .doctype text, source =>
    source = ['<', '!', 'D', 'O', 'C', 'T', 'Y', 'P', 'E', ' '] ++ text ++ ['>']
  | leaf .., _ => True

/-- A token in its written form is canonical if it has a name and this form is its spelling. -/
theorem Token.Written.canonical_iff (h : t.Written source) :
    t.Canonical source ↔ t.Named ∧ source = t.spelling := by
  cases t with
  | openTag | emptyTag =>
      have hsource := h.eq_spelling (by simp) (by simp)
      simp [Token.Canonical, Token.Named, hsource]
  | closeTag => simp [Token.Canonical, Token.Named, Token.spelling]
  | leaf kind text =>
      cases kind with
      | doctype => simp [Token.Canonical, Token.Named, Token.spelling, LeafKind.delimiters]
      | text | comment | cdata | declaration | instruction =>
          have hsource := h.eq_spelling (by simp) (by simp)
          simp [Token.Canonical, Token.Named, hsource]

/-- A text is canonical if it is made up of canonical pieces and does not begin with two byte order
marks. -/
structure Canonical (cs : List Char) : Prop where
  mark : cs.take 2 ≠ [Reading.byteOrderMark, Reading.byteOrderMark]
  pieces : ∃ ps, Pieces ps (Reading.withoutMark cs) ∧ ∀ p ∈ ps, p.1.Canonical p.2

/-- One byte order mark has no other behind it. -/
theorem take_ne_iff :
    cs.take 2 ≠ [Reading.byteOrderMark, Reading.byteOrderMark] ↔
      Reading.withoutMark (Reading.withoutMark cs) = Reading.withoutMark cs := by
  match cs with
  | [] => simp [Reading.withoutMark]
  | [c] =>
      by_cases h : c = Reading.byteOrderMark <;> simp [Reading.withoutMark, h]
  | c :: c' :: cs =>
      by_cases h : c = Reading.byteOrderMark <;> by_cases h' : c' = Reading.byteOrderMark <;>
        simp [Reading.withoutMark, h, h']

end Markup

namespace Document

variable {bytes : ByteArray} {cs : List Char} {d : Document} {ps : List (Token × List Char)}

/-- The text of a coherent document is canonical if its tags have names. -/
theorem Coherent.canonical_spelling (h : d.Coherent)
    (hnamed : ∀ t ∈ Node.tokensList d.nodes, t.Named) : Canonical d.spelling where
  mark := by
    rw [take_ne_iff, h.withoutMark_spelling, h.withoutMark_body]
  pieces := by
    rw [h.withoutMark_spelling]
    refine ⟨_, pieces_flatMap_spelling h.legible, fun p hp => ?_⟩
    obtain ⟨t, ht, rfl⟩ := List.mem_map.1 hp
    exact (h.legible.written t ht).canonical_iff.2 ⟨hnamed t ht, rfl⟩

/-- A text whose tokens are those of a coherent document is canonical exactly if it is the text of
this document and the tags in it have names. -/
theorem Coherent.canonical_iff (h : d.Coherent)
    (hmark : d.mark ↔ cs.head? = some Reading.byteOrderMark)
    (hps : ps.map Prod.fst = Node.tokensList d.nodes)
    (hpieces : Pieces ps (Reading.withoutMark (Reading.withoutMark cs))) :
    Canonical cs ↔ (∀ t ∈ Node.tokensList d.nodes, t.Named) ∧ cs = d.spelling := by
  constructor
  · rintro ⟨hmarks, qs, hqs, hcanonical⟩
    rw [take_ne_iff.1 hmarks] at hpieces
    -- a text has one division into pieces only
    obtain rfl := hqs.unique hpieces
    have hspelling : ∀ p ∈ qs, p.1.Named ∧ p.2 = p.1.spelling := fun p hp =>
      (hqs.written p hp).canonical_iff.1 (hcanonical p hp)
    have hbody : Reading.withoutMark cs = d.body := by
      rw [body, ← hps, ← hqs.text_eq, List.flatMap_map]
      exact List.flatMap_congr fun p hp => (hspelling p hp).2
    refine ⟨?_, ?_⟩
    · rw [← hps, List.forall_mem_map]
      exact fun p hp => (hspelling p hp).1
    · unfold spelling
      split
      · obtain ⟨tail, rfl⟩ := List.head?_eq_some_iff.1 (hmark.1 ‹_›)
        rw [← hbody]
        rfl
      · rw [← hbody, Reading.withoutMark, if_neg (mt hmark.2 ‹_›)]
  · rintro ⟨hnamed, rfl⟩
    exact h.canonical_spelling hnamed

/-- A document in UTF-8 or in an encoding of one byte per character is written as the bytes it was
read from exactly if their text is canonical. -/
theorem write_eq_self_iff [Indexes] (hread : read bytes = .ok d) (he : d.encoding.IsExact) :
    d.write = .ok bytes ↔
      ∃ cs, d.encoding.decode? bytes.data.toList = some cs ∧ Canonical cs := by
  obtain ⟨hfaithful, cs, ps, hdecode, hmark, hps, hpieces⟩ := faithful_of_read hread he
  have hcanonical := hfaithful.coherent.canonical_iff hmark hps hpieces
  have hsame : d.encoding.encode? d.spelling = some bytes.data.toList ↔ cs = d.spelling := by
    rw [← Encoding.decode?_eq_some_iff he, hdecode, Option.some.injEq]
  rw [hfaithful.coherent.write_eq_ok_iff, hsame, ← hcanonical]
  constructor
  · exact fun h => ⟨cs, hdecode, h⟩
  · rintro ⟨cs', hdecode', h⟩
    rw [hdecode, Option.some.injEq] at hdecode'
    exact hdecode' ▸ h

/-- A text with a declaration, a type declaration, attributes and an end tag is canonical, and its
document is written as it was read. -/
theorem write_eq_self_iff_declared :
    let text := "<?xml version='1.0'?>\n<!DOCTYPE Project>\n<Project Sdk='S'>\n" ++
      "  <ItemGroup><C Include='b'/></ItemGroup>\n</Project>\n"
    let root : Element := ⟨⟨"Project", "Project Sdk='S'", [⟨"Sdk", "S"⟩], false⟩,
      [.leaf .text "\n  ",
        .element none ⟨"ItemGroup", "ItemGroup", [], false⟩
          [.element (some ⟨.file, "b", none⟩) ⟨"C", "C Include='b'", [⟨"Include", "b"⟩], true⟩ []],
        .leaf .text "\n"]⟩
    let document : Document := ⟨.flat, .utf8, false,
      [.leaf .declaration "xml version='1.0'", .leaf .text "\n", .leaf .doctype "Project",
        .leaf .text "\n"], root, [.leaf .text "\n"]⟩
    read text.toUTF8 = .ok document ∧ Canonical text.toList ∧
      document.write = .ok text.toUTF8 := by
  intro text root document
  have hread : read text.toUTF8 = .ok document := by decide +kernel
  have hnamed : ∀ t ∈ Node.tokensList document.nodes, t.Named := by decide +kernel
  have hspelling : document.spelling = text.toList := by decide +kernel
  have hcanonical : Canonical text.toList :=
    hspelling ▸ (coherent_of_read hread).canonical_spelling hnamed
  exact ⟨hread, hcanonical, (write_eq_self_iff hread trivial).2 ⟨_, by decide +kernel, hcanonical⟩⟩

/-- The space in an end tag is read and not written. -/
theorem write_ne_self_of_spaced_endTag :
    let root : Element := ⟨⟨"Project", "Project", [], false⟩, []⟩
    let document : Document := ⟨.flat, .utf8, false, [], root, []⟩
    read "<Project></Project >".toUTF8 = .ok document ∧
      document.write = .ok "<Project></Project>".toUTF8 ∧
      document.write ≠ .ok "<Project></Project >".toUTF8 := by
  intro root document
  have hwrite : document.write = .ok "<Project></Project>".toUTF8 := by decide +kernel
  refine ⟨by decide +kernel, hwrite, ?_⟩
  rw [hwrite]
  decide +kernel

end Document

end ProjectOrder

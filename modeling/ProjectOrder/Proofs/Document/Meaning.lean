import ProjectOrder.Proofs.Document.RoundTrip
import ProjectOrder.Proofs.Encoding.Fidelity

/-!
# What written bytes mean

A document is refused if its encoding has no bytes for a character of its text. That it is not
refused does not mean that the bytes are read as this text: `decode?_of_write_iff` says which texts
they are read as, and that only the characters which the encoding alters stand between the two.
-/

namespace ProjectOrder

namespace Document

variable {d : Document} {text : String}

/-- A text whose document can be written is written in the encoding of the document. -/
theorem write_of_render [Indexes] (hrender : d.render = .ok text) :
    d.write = match d.encoding.encode? text.toList with
      | some bytes => .ok ⟨bytes.toArray⟩
      | none => .error (.notEncodable d.encoding) := by
  rw [write, hrender]
  show (match d.encoding.encode? text.toList with | some bytes => _ | none => _) = _
  cases d.encoding.encode? text.toList <;> rfl

/-- In an encoding in which documents can be read, and with the published indexes, a text is refused
exactly for a character without bytes. The bytes of any other text are read as the text with each
character as it is read, so as this text exactly if the encoding alters none of its characters. -/
theorem decode?_of_write_iff [Indexes] (hindexes : Indexes.IsStandard)
    (he : d.encoding.output = d.encoding) (hrender : d.render = .ok text) :
    (d.write = .error (.notEncodable d.encoding) ↔
        ∃ c ∈ text.toList, d.encoding.encode? [c] = none) ∧
      ∀ out, d.write = .ok out →
        d.encoding.decode? out.data.toList = some (text.toList.map d.encoding.readAs) ∧
          (d.encoding.decode? out.data.toList = some text.toList ↔
            ∀ c ∈ text.toList, ¬ d.encoding.Alters c) := by
  constructor
  · have hsome : (d.encoding.encode? text.toList).isSome ↔
        ∀ c ∈ text.toList, (d.encoding.encode? [c]).isSome := Encoding.isSome_encode?_iff
    have hrefused : (∃ c ∈ text.toList, d.encoding.encode? [c] = none) ↔
        d.encoding.encode? text.toList = none := by
      rw [← Option.not_isSome_iff_eq_none, hsome]
      simp
    rw [hrefused, write_of_render hrender]
    cases d.encoding.encode? text.toList <;> simp
  · intro out hwrite
    obtain ⟨_, hrender', hencode⟩ := write_eq_ok_iff.1 hwrite
    obtain rfl := Except.ok.inj (hrender.symm.trans hrender')
    exact ⟨Encoding.decode?_of_encode? hindexes he hencode,
      Encoding.decode?_eq_self_iff hindexes he hencode⟩

/-- Katakana of both widths stay what they are in Shift JIS, and the yen sign becomes a
backslash. -/
theorem decode?_of_write_iff_yen :
    let d : Document := ⟨.flat, .shiftJis, false, [], ⟨⟨"Project", "Project", [], false⟩,
      [.leaf .comment "ｱア\u00A5"]⟩, []⟩
    let out := "<Project><!--".toUTF8 ++ ⟨#[0xB1, 0x83, 0x41, 0x5C]⟩ ++ "--></Project>".toUTF8
    Indexes.IsStandard ∧ d.encoding.output = d.encoding ∧
      d.render = .ok "<Project><!--ｱア\u00A5--></Project>" ∧ d.write = .ok out ∧
      d.encoding.decode? out.data.toList = some "<Project><!--ｱア\\--></Project>".toList := by
  intro d out
  have hrender : d.render = .ok "<Project><!--ｱア\u00A5--></Project>" := by decide +kernel
  have hwrite : d.write = .ok out := by decide +kernel
  obtain ⟨hdecode, -⟩ :=
    (decode?_of_write_iff Indexes.isStandard_excerpt rfl hrender).2 out hwrite
  have hread : "<Project><!--ｱア\u00A5--></Project>".toList.map d.encoding.readAs =
      "<Project><!--ｱア\\--></Project>".toList := by decide +kernel
  exact ⟨Indexes.isStandard_excerpt, rfl, hrender, hwrite, hread ▸ hdecode⟩

/-- A document with a half-width katakana in ISO-2022-JP is read and written, and no fault tells
that the character has become another one. -/
theorem decode?_write_ne_of_katakana :
    let content := "<?xml version='1.0' encoding='iso-2022-jp'?>" ++
      "<Project><!--\x1B(I1\x1B(B--></Project>"
    let d : Document := ⟨.flat, .iso2022Jp, false,
      [.leaf .declaration "xml version='1.0' encoding='iso-2022-jp'"],
      ⟨⟨"Project", "Project", [], false⟩, [.leaf .comment "ｱ"]⟩, []⟩
    let text := "<?xml version='1.0' encoding='iso-2022-jp'?><Project><!--ｱ--></Project>"
    read content.toUTF8 = .ok d ∧ d.render = .ok text ∧
      ∃ out, d.write = .ok out ∧ d.encoding.decode? out.data.toList ≠ some text.toList := by
  intro content d text
  have hrender : d.render = .ok text := by decide +kernel
  have hchars : text.toList.all (fun c => c = 'ｱ' || (d.encoding.encode? [c]).isSome) = true := by
    decide +kernel
  have hsome : (d.encoding.encode? text.toList).isSome := by
    refine Encoding.isSome_encode?_iff.2 fun c hc => ?_
    have hchar := List.all_eq_true.1 hchars c hc
    rw [Bool.or_eq_true, decide_eq_true_eq] at hchar
    rcases hchar with rfl | h
    · exact Encoding.Iso2022Jp.isSome_encodeFrom_iff.2 (by
        simpa using Encoding.Iso2022Jp.isSome_place?_katakana Indexes.isStandard_excerpt rfl)
    · exact h
  obtain ⟨bs, hencode⟩ := Option.isSome_iff_exists.1 hsome
  have hwrite : d.write = .ok ⟨bs.toArray⟩ := by rw [write_of_render hrender, hencode]
  refine ⟨by decide +kernel, hrender, _, hwrite, fun hdecode => ?_⟩
  have hsame := (Encoding.decode?_eq_self_iff Indexes.isStandard_excerpt rfl hencode).1 hdecode
    'ｱ' (by decide +kernel)
  exact hsame (.inr ⟨by decide, by decide⟩)

end Document

end ProjectOrder

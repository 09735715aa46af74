import ProjectOrder.Proofs.Encoding.Transparent
import ProjectOrder.Proofs.Markup.Pieces

/-!
# The declared encoding

The encoding of a document depends on its byte order mark and on the declaration at its front, and
on nothing after it: `encodingOf_eq` for bytes without a mark. The declaration seen in the bytes is
the one in the text (`declaration?_flatMap`), and the one that is the first piece of the text
(`Pieces.declaration?_eq`).
-/

namespace ProjectOrder

open Markup

namespace Markup

variable {c : Char} {cs content rest : List Char} {seen : Char → List Char} {t : Token}
  {ps : List (Token × List Char)}

/-! ## Declarations in front -/

/-- The content of the declaration that a text begins with. -/
def declaration? (cs : List Char) : Option (List Char) :=
  ((after? ['<', '?'] cs).bind (cut? ['?', '>'])).bind fun p =>
    if Token.instructionKind p.1 = .declaration then some p.1 else none

/-- The content of a token that is a declaration. -/
def Token.declared? : Token → Option (List Char)
  | leaf .declaration content => some content
  | _ => none

/-- Only a declaration declares anything, namely its content. -/
theorem Token.declared?_eq_some_iff :
    t.declared? = some content ↔ t = leaf .declaration content := by
  unfold declared?
  split <;> simp_all

/-- A text has a declaration if it begins with one, which goes as far as the first `?>`. -/
theorem declaration?_eq_some_iff :
    declaration? cs = some content ↔
      (∃ rest, cs = ['<', '?'] ++ content ++ ['?', '>'] ++ rest) ∧ Closes ['?', '>'] content ∧
        Token.instructionKind content = .declaration := by
  rw [declaration?, Option.bind_eq_some_iff]
  constructor
  · rintro ⟨⟨text, rest⟩, hcut, hkind⟩
    obtain ⟨hcs, hcloses⟩ := Token.after?_bind_cut?_eq_some_iff.1 hcut
    split at hkind <;> cases hkind
    exact ⟨⟨rest, hcs⟩, hcloses, ‹_›⟩
  · rintro ⟨⟨rest, hcs⟩, hcloses, hkind⟩
    exact ⟨(content, rest), Token.after?_bind_cut?_eq_some_iff.2 ⟨hcs, hcloses⟩, if_pos hkind⟩

/-- A declaration begins with an `x`. -/
theorem head?_of_instructionKind (h : Token.instructionKind content = .declaration) :
    content.head? = some 'x' := by
  unfold Token.instructionKind at h
  split at h
  · simp [after?_eq_some_iff.1 ‹_›]
  · simp [after?_eq_some_iff.1 ‹_›]
  · cases h

/-- The written form of a declaration is its content between `<?` and the first `?>`. -/
theorem Token.written_declaration_iff {source : List Char} :
    Written (leaf .declaration content) source ↔
      source = ['<', '?'] ++ content ++ ['?', '>'] ∧ Closes ['?', '>'] content ∧
        instructionKind content = .declaration := by
  constructor
  · intro h
    generalize htoken : leaf .declaration content = t at h
    cases h with
    | text | cdata | comment | doctype | closeTag => cases htoken
    | instruction text _ hcloses =>
        obtain ⟨hkind, rfl⟩ := leaf.inj htoken
        exact ⟨rfl, hcloses, hkind.symm⟩
    | tag text =>
        unfold ofTag at htoken
        split at htoken <;> cases htoken
  · rintro ⟨rfl, hcloses, hkind⟩
    have hwritten := Written.instruction content (by simp [head?_of_instructionKind hkind]) hcloses
    rwa [hkind] at hwritten

/-- A text begins with a declaration exactly if this is its first token. -/
theorem next?_declared?_iff :
    (∃ t rest, Token.next? c cs = .ok (t, rest) ∧ t.declared? = some content) ↔
      declaration? (c :: cs) = some content := by
  simp only [Token.declared?_eq_some_iff, declaration?_eq_some_iff, Token.next?_eq_ok_iff]
  constructor
  · rintro ⟨_, rest, ⟨source, hcs, hwritten, -⟩, rfl⟩
    obtain ⟨rfl, hcloses, hkind⟩ := Token.written_declaration_iff.1 hwritten
    exact ⟨⟨rest, hcs⟩, hcloses, hkind⟩
  · rintro ⟨⟨rest, hcs⟩, hcloses, hkind⟩
    exact ⟨_, rest, ⟨_, hcs, Token.written_declaration_iff.2 ⟨rfl, hcloses, hkind⟩,
      by simp [Token.isText]⟩, rfl⟩

/-- The declaration that a text begins with is its first piece. -/
theorem Pieces.declaration?_eq (h : Pieces ps cs) :
    declaration? cs = (ps.map Prod.fst).head?.bind Token.declared? := by
  cases ps with
  | nil =>
      rw [nil_iff.1 h]
      rfl
  | cons p ps =>
      obtain ⟨c, tail, rest, rfl, -, hnext, -⟩ := cons_iff.1 h
      apply Option.ext
      intro content
      rw [← next?_declared?_iff]
      simp [hnext]

/-! ## Declarations in bytes -/

/-- Characters above ASCII are no spaces of markup. -/
theorem isSpace_eq_false_of_above (hc : 0x80 ≤ c.toNat) : isSpace c = false := by
  rw [Bool.eq_false_iff]
  intro hspace
  simp only [isSpace, Bool.or_eq_true, beq_iff_eq] at hspace
  rcases hspace with ((rfl | rfl) | rfl) | rfl <;> exact absurd hc (by decide)

/-- The kind of an instruction can be told from what is seen of it. -/
theorem instructionKind_flatMap (hcs : ∀ c ∈ cs, Transparent seen c) :
    Token.instructionKind (cs.flatMap seen) = Token.instructionKind cs := by
  rw [Token.instructionKind, Token.instructionKind, after?_flatMap hcs (by simp)]
  cases hafter : after? ['x', 'm', 'l'] cs with
  | none => rfl
  | some rest =>
      cases rest with
      | nil => rfl
      | cons c rest =>
          have hc : Transparent seen c := hcs c (by simp [after?_eq_some_iff.1 hafter])
          unfold Transparent at hc
          split at hc
          · simp [hc]
          · obtain ⟨x, xs, hseen⟩ := List.exists_cons_of_ne_nil hc.1
            have hx : 0x80 ≤ x.toNat := hc.2 x (by simp [hseen])
            have hc : isSpace c = false := isSpace_eq_false_of_above (by omega)
            simp [hseen, isSpace_eq_false_of_above hx, hc]

/-- The declaration in what is seen of a text is what is seen of its declaration. -/
theorem declaration?_flatMap (hcs : ∀ c ∈ cs, Transparent seen c) :
    declaration? (cs.flatMap seen) = (declaration? cs).map (·.flatMap seen) := by
  rw [declaration?, declaration?, after?_flatMap hcs (by simp)]
  cases hafter : after? ['<', '?'] cs with
  | none => rfl
  | some rest =>
      have hrest : ∀ c ∈ rest, Transparent seen c :=
        fun c hc => hcs c (by simp [after?_eq_some_iff.1 hafter, hc])
      rw [Option.map_some, Option.bind_some, Option.bind_some, cut?_flatMap hrest (by simp)]
      cases hcut : cut? ['?', '>'] rest with
      | none => rfl
      | some p =>
          have hp : ∀ c ∈ p.1, Transparent seen c :=
            fun c hc => hrest c (by simp [cut?_eq_append hcut, hc])
          rw [Option.map_some, Option.bind_some, Option.bind_some, instructionKind_flatMap hp]
          split <;> rfl

end Markup

namespace Document

variable {bs : List UInt8} {cs : List Char} {e : Encoding}

/-! ## Marks in front -/

/-- Bytes that begin with no byte order mark. -/
structure Unmarked (bs : List UInt8) : Prop where
  utf8 : bs.take 3 ≠ utf8Mark
  utf16 : ¬ (bs.take 2 = [0xFF, 0xFE] ∨ bs.take 2 = [0xFE, 0xFF])

/-- The label in the content of a declaration. -/
def labelIn : Option (List Char) → Except ParseFault (Option String)
  | none => .ok none
  | some content =>
    let listing := Attribute.ofTag (fun _ => 1) false content
    match listing.attributes.find? (·.key = "encoding"), listing.fault with
    | some a, _ => .ok (some a.value)
    | none, some fault => .error (.declaration fault)
    | none, none => .ok none

/-- The encoding of a label, and UTF-8 without one. -/
def encodingOfLabel : Option String → Except ParseFault Encoding
  | none => .ok .utf8
  | some label =>
    match Encoding.ofLabel? label.toList with
    | none =>
      .error (.unknownEncoding (Text.Utf8.lossy (label.toList.map fun c => c.toNat.toUInt8)))
    | some e => if e.output = e then .ok e else .error (.unsupportedEncoding e)

/-- The encoding that a declaration names, and UTF-8 without one. -/
def encodingIn (declaration : Option (List Char)) : Except ParseFault Encoding := do
  encodingOfLabel (← labelIn declaration)

/-- The declared label of some bytes is that of the declaration with which they begin as text. -/
theorem declaredLabel?_eq (bs : List UInt8) :
    declaredLabel? bs = labelIn (declaration? (bytesAsText bs)) := by
  unfold declaredLabel?
  cases bytesAsText bs with
  | nil => rfl
  | cons c cs =>
      simp only
      cases hdeclaration : declaration? (c :: cs) with
      | some content =>
          obtain ⟨t, rest, hnext, ht⟩ := next?_declared?_iff.2 hdeclaration
          rw [Token.declared?_eq_some_iff] at ht
          rw [hnext, ht]
          rfl
      | none =>
          split
          · rename_i content rest hnext
            have hsome := next?_declared?_iff.1 ⟨_, rest, hnext, rfl⟩
            rw [hdeclaration] at hsome
            cases hsome
          · rfl

/-- The encoding of bytes without a mark is told by the declaration at their front. -/
theorem encodingOf_eq (h : Unmarked bs) :
    encodingOf bs = encodingIn (declaration? (bytesAsText bs)) := by
  rw [encodingOf, if_neg h.utf8, namedEncoding, if_neg h.utf16, declaredLabel?_eq, encodingIn]
  refine congrArg _ (funext fun label => ?_)
  cases label with
  | none => rfl
  | some label =>
      cases hfound : Encoding.ofLabel? label.toList with
      | none =>
          simp only [encodingOfLabel, hfound]
          rfl
      | some e =>
          simp only [encodingOfLabel, hfound]
          rfl

/-- Bytes in which another encoding than UTF-8 is found have no mark but a declaration. -/
theorem of_encodingOf (h : encodingOf bs = .ok e) (he : e ≠ .utf8) :
    Unmarked bs ∧ declaration? (bytesAsText bs) ≠ none := by
  unfold encodingOf at h
  split at h
  · exact absurd (Except.ok.inj h).symm he
  · rename_i hutf8
    unfold namedEncoding at h
    split at h
    · cases h
    · rename_i hutf16
      refine ⟨⟨hutf8, hutf16⟩, fun hnone => ?_⟩
      rw [declaredLabel?_eq, hnone] at h
      exact he (Except.ok.inj h).symm

/-- A mark in front of bytes shows in the first of them. -/
theorem unmarked_of_first {b : UInt8} (hutf8 : (b :: bs).take 3 ≠ utf8Mark)
    (hutf16 : b.toNat < 0xFE) : Unmarked (b :: bs) := by
  refine ⟨hutf8, ?_⟩
  rintro (h | h) <;> cases bs <;> cases h <;> simp at hutf16

/-- The bytes of a text that begins with a tag have no mark. -/
theorem unmarked_of_head? [Indexes] (he : e.IsExact) (hencode : e.encode? cs = some bs)
    (hhead : cs.head? = some '<') : Unmarked bs := by
  obtain ⟨htext, hcs⟩ := Encoding.bytesAsText_eq_flatMap he hencode
  obtain ⟨tail, rfl⟩ := List.head?_eq_some_iff.1 hhead
  have hseen : e.seen '<' = ['<'] := hcs '<' (List.mem_cons_self ..)
  cases bs with
  | nil => simp [hseen, bytesAsText] at htext
  | cons b bs =>
      have hfirst : Char.ofNat b.toNat = '<' := by
        simpa [hseen, bytesAsText] using congrArg List.head? htext
      have hb : b.toNat = 0x3C := by
        rw [← Encoding.toNat_ofNat_byte, hfirst]
        rfl
      refine unmarked_of_first (fun h => ?_) (by omega)
      have hmark : b = 0xEF := (List.cons.inj h).1
      simp [hmark] at hb

/-- Bytes are unmarked if the first of them begins no mark. -/
theorem unmarked_of_ofNat {n : Nat} (hn : n < 0xFE) (hne : n ≠ 0xEF) :
    Unmarked (UInt8.ofNat n :: bs) := by
  have hbyte : (UInt8.ofNat n).toNat = n := Encoding.toNat_ofNat_of_lt (by omega)
  refine unmarked_of_first (fun h => ?_) (by omega)
  rw [(List.cons.inj h).1] at hbyte
  exact hne hbyte.symm

/-- The bytes of a text in UTF-8 have no mark if the text has none. -/
theorem unmarked_utf8 [Indexes] (hencode : Encoding.utf8.encode? cs = some bs)
    (hhead : cs.head? ≠ some Reading.byteOrderMark) : Unmarked bs := by
  rw [Encoding.encode?_utf8, Option.some.injEq] at hencode
  subst hencode
  cases cs with
  | nil => exact ⟨by simp [utf8Mark], by simp⟩
  | cons c cs =>
      have hc : c.val.toNat ≠ 0xFEFF := fun hval =>
        hhead (congrArg some (Char.ext (UInt32.toNat_inj.1 hval)))
      rw [List.flatMap_cons]
      unfold String.utf8EncodeChar
      simp only
      split
      · exact unmarked_of_ofNat (by omega) (by omega)
      · split
        · exact unmarked_of_ofNat (by omega) (by omega)
        · split
          · -- the first byte may be that of the mark, and then one of the next two is another
            refine unmarked_of_first (fun h => hc ?_) ?_
            · obtain ⟨h₁, h⟩ := List.cons.inj h
              obtain ⟨h₂, h⟩ := List.cons.inj h
              obtain ⟨h₃, -⟩ := List.cons.inj h
              have h₁ := congrArg UInt8.toNat h₁
              have h₂ := congrArg UInt8.toNat h₂
              have h₃ := congrArg UInt8.toNat h₃
              rw [Encoding.toNat_ofNat_of_lt (by omega)] at h₁ h₂ h₃
              simp only [UInt8.reduceToNat] at h₁ h₂ h₃
              omega
            · rw [Encoding.toNat_ofNat_of_lt (by omega)]
              omega
          · exact unmarked_of_ofNat (by omega) (by omega)

/-- The bytes of a text in UTF-8 have the mark of UTF-8 if the text has a mark. -/
theorem take_eq_utf8Mark [Indexes] (hencode : Encoding.utf8.encode? cs = some bs)
    (hhead : cs.head? = some Reading.byteOrderMark) : bs.take 3 = utf8Mark := by
  rw [Encoding.encode?_utf8, Option.some.injEq] at hencode
  subst hencode
  obtain ⟨tail, rfl⟩ := List.head?_eq_some_iff.1 hhead
  rfl

end Document

end ProjectOrder

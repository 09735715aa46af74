import ProjectOrder.Document.Parser
import ProjectOrder.Proofs.Encoding.Exact
import ProjectOrder.Proofs.Markup.Cuts

/-!
# Encoded text seen as characters

The bytes of a text in an exact encoding, seen as characters, show each ASCII character as it is and
any other as characters above ASCII (`bytesAsText_eq_flatMap`). So markup is cut in the bytes where
it is cut in the text: `cut?_flatMap`.
-/

namespace ProjectOrder

open Markup Document

/-- A character is transparent if it is seen in the bytes as itself, or as something above ASCII if
it is above ASCII. -/
def Transparent (seen : Char → List Char) (c : Char) : Prop :=
  if c.toNat < 0x80 then seen c = [c] else seen c ≠ [] ∧ ∀ x ∈ seen c, 0x80 ≤ x.toNat

namespace Markup

variable {seen : Char → List Char} {c s : Char} {start stop cs : List Char}

/-! ## Cuts in what is seen -/

/-- A character above ASCII is not the beginning of a start in ASCII. -/
theorem after?_cons_of_above (hs : s.toNat < 0x80) (hc : 0x80 ≤ c.toNat) :
    after? (s :: start) (c :: cs) = none := by
  have hne : c ≠ s := by
    rintro rfl
    omega
  simp [after?, hne]

/-- A beginning of what is seen of a text is the beginning of the text. -/
theorem after?_flatMap (hcs : ∀ c ∈ cs, Transparent seen c) (hstart : ∀ s ∈ start, s.toNat < 0x80) :
    after? start (cs.flatMap seen) = (after? start cs).map (·.flatMap seen) := by
  induction start generalizing cs with
  | nil => rfl
  | cons s start ih =>
      cases cs with
      | nil => rfl
      | cons c cs =>
          rw [List.forall_mem_cons] at hcs hstart
          have hc := hcs.1
          unfold Transparent at hc
          split at hc
          · rw [List.flatMap_cons, hc, List.singleton_append, after?, after?]
            split
            · exact ih hcs.2 hstart.2
            · rfl
          · obtain ⟨x, xs, hseen⟩ := List.exists_cons_of_ne_nil hc.1
            have hx : 0x80 ≤ x.toNat := hc.2 x (by simp [hseen])
            rw [List.flatMap_cons, hseen, List.cons_append, after?_cons_of_above hstart.1 hx,
              after?_cons_of_above hstart.1 (by omega), Option.map_none]

/-- What is above ASCII holds no delimiter and no beginning of one. -/
theorem cut?_append_of_above {before : List Char} (hs : s.toNat < 0x80)
    (hbefore : ∀ x ∈ before, 0x80 ≤ x.toNat) :
    cut? (s :: stop) (before ++ cs) = (cut? (s :: stop) cs).map fun p => (before ++ p.1, p.2) := by
  induction before with
  | nil => simp
  | cons x before ih =>
      rw [List.forall_mem_cons] at hbefore
      rw [List.cons_append, cut?_cons_of_not_after? (after?_cons_of_above hs hbefore.1),
        ih hbefore.2]
      cases cut? (s :: stop) cs <;> rfl

/-- A cut in what is seen of a text is a cut in the text. -/
theorem cut?_flatMap (hcs : ∀ c ∈ cs, Transparent seen c)
    (hstop : ∀ x ∈ s :: stop, x.toNat < 0x80) :
    cut? (s :: stop) (cs.flatMap seen) =
      (cut? (s :: stop) cs).map fun p => (p.1.flatMap seen, p.2.flatMap seen) := by
  induction cs with
  | nil => rfl
  | cons c cs ih =>
      have hstart := after?_flatMap hcs hstop
      rw [List.forall_mem_cons] at hcs
      have hc := hcs.1
      unfold Transparent at hc
      split at hc
      · rw [List.flatMap_cons, hc, List.singleton_append] at hstart ⊢
        cases hafter : after? (s :: stop) (c :: cs) with
        | some rest =>
            rw [hafter, Option.map_some] at hstart
            rw [cut?_cons_of_after? hstart, cut?_cons_of_after? hafter]
            rfl
        | none =>
            rw [hafter, Option.map_none] at hstart
            rw [cut?_cons_of_not_after? hstart, cut?_cons_of_not_after? hafter, ih hcs.2]
            cases cut? (s :: stop) cs with
            | none => rfl
            | some p => simp [hc]
      · -- no delimiter begins in what is seen of a character above ASCII
        have hs := hstop s (List.mem_cons_self ..)
        rw [List.flatMap_cons, cut?_append_of_above hs hc.2, ih hcs.2,
          cut?_cons_of_not_after? (after?_cons_of_above hs (by omega))]
        cases cut? (s :: stop) cs with
        | none => rfl
        | some p => simp

end Markup

namespace Encoding

variable {e : Encoding} {b : UInt8} {bs : List UInt8} {c : Char} {cs : List Char}

/-! ## Bytes of exact encodings -/

/-- The character of a byte has the number of the byte. -/
theorem toNat_ofNat_byte (b : UInt8) : (Char.ofNat b.toNat).toNat = b.toNat :=
  Charset.toNat_ofNat_of_isValidChar (.inl (by have := b.toNat_lt; omega))

/-- A number below 256 is that of its byte. -/
theorem toNat_ofNat_of_lt {n : Nat} (h : n < 0x100) : (UInt8.ofNat n).toNat = n :=
  UInt8.toNat_ofNat_of_lt' h

/-- The bytes of a character above ASCII in UTF-8 are above ASCII. -/
theorem le_of_mem_utf8EncodeChar (hc : 0x80 ≤ c.toNat) (hb : b ∈ String.utf8EncodeChar c) :
    0x80 ≤ b.toNat := by
  have hc : ¬ c.val.toNat ≤ 0x7F := by
    have hval : c.toNat = c.val.toNat := rfl
    omega
  unfold String.utf8EncodeChar at hb
  simp only [if_neg hc] at hb
  split at hb
  · simp only [List.mem_cons, List.not_mem_nil, or_false] at hb
    rcases hb with rfl | rfl <;> rw [toNat_ofNat_of_lt] <;> omega
  · split at hb
    · simp only [List.mem_cons, List.not_mem_nil, or_false] at hb
      rcases hb with rfl | rfl | rfl <;> rw [toNat_ofNat_of_lt] <;> omega
    · simp only [List.mem_cons, List.not_mem_nil, or_false] at hb
      rcases hb with rfl | rfl | rfl | rfl <;> rw [toNat_ofNat_of_lt] <;> omega

variable [Indexes]

/-- What is seen of a character in the bytes of an encoding. -/
def seen (e : Encoding) (c : Char) : List Char :=
  bytesAsText ((e.encode? [c]).getD [])

/-- What is seen of a character in UTF-8 are its bytes. -/
theorem seen_utf8 (c : Char) : seen utf8 c = bytesAsText (String.utf8EncodeChar c) := by
  rw [seen, encode?_utf8, List.flatMap_singleton]
  rfl

/-- UTF-8 is transparent to every character. -/
theorem transparent_utf8 (c : Char) : Transparent (seen utf8) c := by
  rw [Transparent, seen_utf8]
  split
  · rename_i hascii
    have hle : c.val.toNat ≤ 0x7F := Nat.le_of_lt_succ hascii
    have hbyte : (UInt8.ofNat c.val.toNat).toNat = c.toNat := toNat_ofNat_of_lt (by omega)
    simp only [String.utf8EncodeChar, if_pos hle, bytesAsText, List.map_cons, List.map_nil, hbyte,
      Char.ofNat_toNat]
  · rename_i habove
    refine ⟨by simp [bytesAsText], fun x hx => ?_⟩
    obtain ⟨b, hb, rfl⟩ := List.mem_map.1 hx
    rw [toNat_ofNat_byte]
    exact le_of_mem_utf8EncodeChar (by omega) hb

/-- What is seen of a character in a single-byte encoding is its byte. -/
theorem seen_charset {set : Charset} (h : set.encodeChar? c = some b) :
    seen (.charset set) c = [Char.ofNat b.toNat] := by
  simp [seen, encode?, output, h, bytesAsText]

/-- Single-byte encodings are transparent to all characters that they have. -/
theorem transparent_charset {set : Charset} (h : set.encodeChar? c = some b) :
    Transparent (seen (.charset set)) c := by
  rw [Transparent, seen_charset h]
  have hdecode := Charset.decodeByte?_eq_some_iff.2 h
  unfold Charset.decodeByte? at hdecode
  split at hdecode
  · rename_i hascii
    obtain rfl : Char.ofNat b.toNat = c := by simpa using hdecode
    rw [toNat_ofNat_byte, if_pos hascii]
  · rename_i habove
    simp only [Option.map_eq_some_iff, Option.filter_eq_some_iff, decide_eq_true_eq] at hdecode
    obtain ⟨n, ⟨hi, hn⟩, rfl⟩ := hdecode
    obtain ⟨hle, hvalid⟩ := set.isTable_upperHalf.valid n (List.mem_of_getElem? hi) hn
    rw [Charset.toNat_ofNat_of_isValidChar hvalid, if_neg (by omega)]
    refine ⟨by simp, fun x hx => ?_⟩
    obtain rfl : x = Char.ofNat b.toNat := by simpa using hx
    rw [toNat_ofNat_byte]
    omega

/-- The bytes of a text show its characters one after the other, each of them transparent. -/
theorem bytesAsText_eq_flatMap (he : e.IsExact) (h : e.encode? cs = some bs) :
    bytesAsText bs = cs.flatMap e.seen ∧ ∀ c ∈ cs, Transparent e.seen c := by
  cases e with
  | utf8 =>
      rw [encode?_utf8, Option.some.injEq] at h
      subst h
      refine ⟨?_, fun c _ => transparent_utf8 c⟩
      rw [bytesAsText, List.map_flatMap, funext seen_utf8]
      rfl
  | charset set =>
      change cs.mapM set.encodeChar? = some bs at h
      induction cs generalizing bs with
      | nil =>
          obtain rfl : [] = bs := by simpa using h
          exact ⟨rfl, by simp⟩
      | cons c cs ih =>
          simp only [List.mapM_cons, Option.bind_eq_bind, Option.bind_eq_some_iff] at h
          obtain ⟨b, hb, bs, hbs, heq⟩ := h
          cases heq
          obtain ⟨htext, hcs⟩ := ih hbs
          refine ⟨?_, List.forall_mem_cons.2 ⟨transparent_charset hb, hcs⟩⟩
          rw [List.flatMap_cons, seen_charset hb, ← htext]
          rfl
  | _ => exact he.elim

end Encoding

end ProjectOrder

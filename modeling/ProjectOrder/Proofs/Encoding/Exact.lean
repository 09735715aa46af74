import ProjectOrder.Encoding.Codec

/-!
# Exact encodings

In UTF-8 and in the encodings of one byte per character, reading and writing are inverse to each
other: `decode?_eq_some_iff`. So a text has one form in bytes, and this form is read as the text.
-/

namespace ProjectOrder

variable {bs : List UInt8} {cs : List Char}

/-- A number below 256 is that of its byte. -/
theorem Encoding.toNat_toUInt8 {n : Nat} (h : n < 0x100) : n.toUInt8.toNat = n :=
  UInt8.toNat_ofNat_of_lt' h

/-! ## UTF-8 -/

/-- What the loop that lists bytes comes to. -/
theorem byteArray_toList_loop (bytes : ByteArray) (i : Nat) (seen : List UInt8) :
    ByteArray.toList.loop bytes i seen = seen.reverse ++ bytes.data.toList.drop i := by
  fun_induction ByteArray.toList.loop bytes i seen with
  | case1 i seen hi ih =>
      have hlength : i < bytes.data.toList.length := by simpa using hi
      rw [ih, List.drop_eq_getElem_cons hlength]
      simp [ByteArray.get!, hi]
  | case2 i seen hi =>
      have hlength : bytes.data.toList.length ≤ i := by simpa using hi
      rw [List.drop_of_length_le hlength, List.append_nil]

/-- The list of bytes is that of the array below. -/
theorem byteArray_toList (bytes : ByteArray) : bytes.toList = bytes.data.toList := by
  simp [ByteArray.toList, byteArray_toList_loop]

/-- The bytes of a text are those of its characters. -/
theorem toList_toUTF8_ofList (cs : List Char) :
    (String.ofList cs).toUTF8.toList = cs.flatMap String.utf8EncodeChar := by
  rw [String.toUTF8_eq_toByteArray, String.toByteArray_ofList, byteArray_toList, List.utf8Encode,
    List.toList_data_toByteArray]

/-- Bytes are read as UTF-8 if they are the bytes of a text. -/
theorem fromUTF8?_eq_some_iff {bytes : ByteArray} {s : String} :
    String.fromUTF8? bytes = some s ↔ s.toUTF8 = bytes := by
  constructor
  · intro h
    unfold String.fromUTF8? at h
    split at h <;> cases h
    rfl
  · rintro rfl
    exact dif_pos s.isValidUTF8

namespace Charset

/-! ## Character sets -/

/-- Whether no number but 0 occurs twice in a table or at all in `seen`, a set of numbers as the
bits of a number. -/
def distinctFrom (seen : Nat) : List Nat → Bool
  | [] => true
  | n :: ns => (n == 0 || !seen.testBit n) && distinctFrom (seen ||| (1 <<< n)) ns

/-- What a table of the upper half must have: it is not too long, its characters lie above ASCII,
and it names none of them twice. -/
structure IsTable (table : List Nat) : Prop where
  length_le : table.length ≤ 128
  valid : ∀ n ∈ table, n ≠ 0 → 0x80 ≤ n ∧ n.isValidChar
  distinct : distinctFrom 0 table

/-- The upper half of every single-byte encoding is such a table. -/
theorem isTable_upperHalf (c : Charset) : IsTable c.upperHalf := by
  cases c <;> exact ⟨by decide +kernel, by decide +kernel, by decide +kernel⟩

variable {c : Charset} {seen i n : Nat} {table : List Nat} {b : UInt8} {ch : Char}

/-- A number in a table without repetitions has not been seen before. -/
theorem testBit_of_distinctFrom (h : distinctFrom seen table) (hmem : n ∈ table) (hn : n ≠ 0) :
    seen.testBit n = false := by
  induction table generalizing seen with
  | nil => cases hmem
  | cons m table ih =>
      simp only [distinctFrom, Bool.and_eq_true] at h
      rcases List.mem_cons.1 hmem with rfl | hmem
      · simpa [hn] using h.1
      · have hbit := ih h.2 hmem
        rw [Nat.testBit_or, Bool.or_eq_false_iff] at hbit
        exact hbit.1

/-- In a table without repetitions a number is found where it stands. -/
theorem idxOf?_eq_some (h : distinctFrom seen table) (hi : table[i]? = some n) (hn : n ≠ 0) :
    table.idxOf? n = some i := by
  induction table generalizing seen i with
  | nil => simp at hi
  | cons m table ih =>
      simp only [distinctFrom, Bool.and_eq_true] at h
      rw [List.idxOf?_cons]
      cases i with
      | zero =>
          obtain rfl : m = n := by simpa using hi
          simp
      | succ i =>
          have hi : table[i]? = some n := by simpa using hi
          have hbit := testBit_of_distinctFrom h.2 (List.mem_of_getElem? hi) hn
          -- the number is found further on, so it is not the one in front
          have hne : m ≠ n := by
            rintro rfl
            simp [Nat.testBit_or, Nat.one_shiftLeft] at hbit
          simp [hne, ih h.2 hi]

/-- The number of the character of a number is this number, where it is that of a character. -/
theorem toNat_ofNat_of_isValidChar (h : n.isValidChar) : (Char.ofNat n).toNat = n := by
  rw [Char.ofNat, dif_pos h]
  rfl

/-- A byte is read as a character exactly if the character is written as this byte. -/
theorem decodeByte?_eq_some_iff : c.decodeByte? b = some ch ↔ c.encodeChar? ch = some b := by
  have htable := c.isTable_upperHalf
  have hbyte := b.toNat_lt
  constructor
  · intro h
    unfold decodeByte? at h
    split at h
    · rename_i hascii
      obtain rfl : Char.ofNat b.toNat = ch := by simpa using h
      have hchar : (Char.ofNat b.toNat).toNat = b.toNat :=
        toNat_ofNat_of_isValidChar (.inl (by omega))
      rw [encodeChar?, hchar, if_pos hascii]
      simp
    · rename_i hascii
      simp only [Option.map_eq_some_iff, Option.filter_eq_some_iff, decide_eq_true_eq] at h
      obtain ⟨n, ⟨hi, hn⟩, rfl⟩ := h
      obtain ⟨hle, hvalid⟩ := htable.valid n (List.mem_of_getElem? hi) hn
      rw [encodeChar?, toNat_ofNat_of_isValidChar hvalid, if_neg (by omega),
        idxOf?_eq_some htable.distinct hi hn, Option.map_some]
      rw [Nat.add_sub_cancel' (by omega)]
      simp
  · intro h
    unfold encodeChar? at h
    split at h
    · rename_i hascii
      obtain rfl : ch.toNat.toUInt8 = b := by simpa using h
      have hchar : ch.toNat.toUInt8.toNat = ch.toNat := Encoding.toNat_toUInt8 (by omega)
      rw [decodeByte?, hchar, if_pos hascii, Char.ofNat_toNat]
    · rename_i hascii
      obtain ⟨i, hi, rfl⟩ := Option.map_eq_some_iff.1 h
      obtain ⟨hlt, hget, -⟩ := List.idxOf?_eq_some_iff.1 hi
      have hlength := htable.length_le
      have hplace : (0x80 + i).toUInt8.toNat = 0x80 + i := Encoding.toNat_toUInt8 (by omega)
      have hfound : c.upperHalf[i]? = some ch.toNat := by
        rw [List.getElem?_eq_getElem hlt, hget]
      rw [decodeByte?, hplace, if_neg (by omega), Nat.add_sub_cancel_left, hfound]
      simp [Option.filter, show ch.toNat ≠ 0 by omega]

end Charset

namespace Encoding

/-- UTF-8 and the encodings of one byte per character. -/
def IsExact : Encoding → Prop
  | utf8 | charset _ => True
  | _ => False

/-- Two functions that are inverse to each other member by member are so on whole lists. -/
theorem mapM_eq_some_iff {α β : Type} {f : α → Option β} {g : β → Option α}
    (h : ∀ a b, f a = some b ↔ g b = some a) {as : List α} {bs : List β} :
    as.mapM f = some bs ↔ bs.mapM g = some as := by
  induction as generalizing bs with
  | nil => cases bs <;> simp [Option.bind_eq_some_iff]
  | cons a as ih =>
      cases bs with
      | nil => simp [Option.bind_eq_some_iff]
      | cons b bs => simp [Option.bind_eq_some_iff, h, ih]

variable [Indexes] {e : Encoding}

/-- UTF-8 has bytes for every text. -/
theorem encode?_utf8 (cs : List Char) :
    encode? utf8 cs = some (cs.flatMap String.utf8EncodeChar) := by
  rw [← toList_toUTF8_ofList]
  rfl

/-- Bytes in an exact encoding are read as a text exactly if the text is written as these bytes. -/
theorem decode?_eq_some_iff (he : e.IsExact) : e.decode? bs = some cs ↔ e.encode? cs = some bs := by
  cases e with
  | utf8 =>
      rw [encode?_utf8, decode?, Option.map_eq_some_iff, Option.some.injEq]
      simp only [fromUTF8?_eq_some_iff]
      constructor
      · rintro ⟨s, hs, rfl⟩
        have hlist := congrArg ByteArray.toList hs
        rw [← String.ofList_toList (s := s), toList_toUTF8_ofList, byteArray_toList] at hlist
        simpa using hlist
      · rintro rfl
        refine ⟨String.ofList cs, ?_, String.toList_ofList⟩
        apply ByteArray.ext
        rw [← Array.toList_inj, ← byteArray_toList, toList_toUTF8_ofList]
  | charset c => exact mapM_eq_some_iff fun _ _ => Charset.decodeByte?_eq_some_iff
  | _ => exact he.elim

end Encoding

end ProjectOrder

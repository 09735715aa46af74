import ProjectOrder.Encoding.Codec
import ProjectOrder.Encoding.Excerpt
import ProjectOrder.Proofs.Encoding.Exact

/-!
# Tables of characters

What is found for a character in a table leads back to it: its pointer in an index
(`Index.char?_of_mem`) and the two bytes of the pointer (`Layout.pointer?_bytes`), and the number of
its four bytes (`Gb18030.point?_of_number?`). `Indexes.IsStandard` is what written text rests on in
the published indexes; the excerpt has it.
-/

namespace ProjectOrder

namespace Encoding

/-! ## Indexes -/

variable {size pointer : Nat} {rows : List (Nat × Char)} {index : Index size} {c : Char}

/-- A pointer that is found stands in a row with its character. -/
theorem mem_of_firstPointer? (h : firstPointer? rows c = some pointer) : (pointer, c) ∈ rows := by
  obtain ⟨⟨_, d⟩, hfind, rfl⟩ := Option.map_eq_some_iff.1 h
  obtain rfl : d = c := by simpa using List.find?_some hfind
  exact List.mem_of_find?_eq_some hfind

/-- A character has a pointer if it stands in a row. -/
theorem isSome_firstPointer?_iff : (firstPointer? rows c).isSome ↔ ∃ row ∈ rows, row.2 = c := by
  simp only [firstPointer?, Option.isSome_map, List.find?_isSome, decide_eq_true_eq]

namespace Index

/-- The rows of an index have different pointers, so each of them is found by its own. -/
theorem char?_of_mem (h : (pointer, c) ∈ index.rows) : index.char? pointer = some c := by
  obtain ⟨before, after, hrows⟩ := List.append_of_mem h
  refine List.lookup_eq_some_iff.2 ⟨before, after, hrows, fun row hrow => ?_⟩
  have hascending := index.ascending
  rw [hrows, List.pairwise_append] at hascending
  have hlt : row.1 < pointer := hascending.2.2 row hrow _ (List.mem_cons_self ..)
  simpa using Nat.ne_of_gt hlt

/-- The pointer found for a character is the smallest that stands for it. -/
theorem pointer?_le {other : Nat} (h : index.pointer? c = some pointer)
    (hother : (other, c) ∈ index.rows) : pointer ≤ other := by
  obtain ⟨⟨_, d⟩, hfind, rfl⟩ := Option.map_eq_some_iff.1 h
  obtain ⟨-, before, after, hrows, hbefore⟩ := List.find?_eq_some_iff_append.1 hfind
  have hascending := index.ascending
  rw [hrows] at hother hascending
  rcases List.mem_append.1 hother with hmem | hmem
  · simpa using hbefore _ hmem
  rcases List.mem_cons.1 hmem with heq | hmem
  · exact Nat.le_of_eq (congrArg Prod.fst heq).symm
  · have hafter := (List.pairwise_cons.1 (List.pairwise_append.1 hascending).2.1).1
    exact Nat.le_of_lt (hafter _ hmem)

end Index

namespace Axis

variable {axis : Axis} {n : Nat} {b : UInt8}

/-- The byte of a number lies above it by a distance that depends on the side of the gap. -/
theorem toNat_byte (h : n < axis.count) :
    (axis.byte n).toNat = n + if n < axis.gap then axis.low else axis.high := by
  have hlow := axis.low_le_high
  have hhigh := axis.high_le
  refine toNat_toUInt8 ?_
  split <;> omega

/-- The byte of a number is read as the number. -/
theorem number?_byte (h : n < axis.count) : axis.number? (axis.byte n) = some n := by
  have hlow := axis.low_le_high
  simp only [number?, toNat_byte h]
  by_cases hgap : n < axis.gap
  · rw [if_pos hgap, if_pos (by omega), Option.some.injEq]
    omega
  · rw [if_neg hgap, if_neg (by omega), if_pos (by omega), Option.some.injEq]
    omega

/-- A byte that has a number lies before or behind the gap. -/
theorem of_number? (h : axis.number? b = some n) :
    (axis.low ≤ b.toNat ∧ b.toNat < axis.low + axis.gap) ∨
      (axis.high + axis.gap ≤ b.toNat ∧ b.toNat < axis.high + axis.count) := by
  simp only [number?] at h
  split at h
  · exact .inl ‹_ ∧ _›
  split at h
  · exact .inr ‹_ ∧ _›
  · cases h

/-- No byte of an axis is below its low distance. -/
theorem low_le_of_number? (h : axis.number? b = some n) : axis.low ≤ b.toNat := by
  have hlow := axis.low_le_high
  have hsides := of_number? h
  omega

end Axis

namespace Layout

variable {layout : Layout} {b t : UInt8}

/-- The bytes of a pointer spell this pointer. -/
theorem pointer?_bytes (h : pointer < layout.size) :
    ∃ b t, layout.bytes pointer = [b, t] ∧ layout.pointer? b t = some pointer := by
  have hrow : pointer / layout.trail.count < layout.lead.count :=
    Nat.div_lt_of_lt_mul (by rwa [Nat.mul_comm])
  have hpos : 0 < layout.trail.count := Nat.pos_of_mul_pos_left (Nat.zero_lt_of_lt h)
  have hcolumn : pointer % layout.trail.count < layout.trail.count := Nat.mod_lt _ hpos
  refine ⟨_, _, rfl, ?_⟩
  rw [pointer?, Axis.number?_byte hrow, Axis.number?_byte hcolumn]
  exact congrArg some (Nat.div_add_mod' ..)

/-- Two bytes that spell a pointer number a row and a column. -/
theorem number?_of_pointer? (h : layout.pointer? b t = some pointer) :
    ∃ row column, layout.lead.number? b = some row ∧ layout.trail.number? t = some column := by
  unfold pointer? at h
  split at h
  · exact ⟨_, _, ‹_›, ‹_›⟩
  · cases h

/-- Neither byte of a pointer is below the low distance of its axis. -/
theorem low_le_of_pointer? (h : layout.pointer? b t = some pointer) :
    layout.lead.low ≤ b.toNat ∧ layout.trail.low ≤ t.toNat := by
  obtain ⟨row, column, hrow, hcolumn⟩ := number?_of_pointer? h
  exact ⟨Axis.low_le_of_number? hrow, Axis.low_le_of_number? hcolumn⟩

/-- Two bytes are read as the character in the row of their pointer. -/
theorem char?_of_pointer? (h : layout.pointer? b t = some pointer)
    (hrow : (pointer, c) ∈ index.rows) : layout.char? index b t = some c := by
  rw [char?, h, Option.bind_some, Index.char?_of_mem hrow]

/-- Where two bytes have a pointer with a row, they are read as its character and the rest is
left. -/
theorem next?_of_pointer? {rest : List UInt8} (h : layout.pointer? b t = some pointer)
    (hrow : (pointer, c) ∈ index.rows) : layout.next? index b (t :: rest) = some ([c], rest) := by
  rw [next?, char?_of_pointer? h hrow]
  rfl

end Layout

/-- No byte of a half-width katakana begins two bytes of Shift JIS. -/
theorem Layout.not_halfWidth_of_pointer? {b t : UInt8}
    (h : Layout.shiftJis.pointer? b t = some pointer) :
    ¬ (0xA1 ≤ b ∧ b ≤ 0xDF) := by
  obtain ⟨row, _, hrow, -⟩ := Layout.number?_of_pointer? h
  rw [UInt8.le_iff_toNat_le, UInt8.le_iff_toNat_le]
  show ¬ (0xA1 ≤ b.toNat ∧ b.toNat ≤ 0xDF)
  rcases Axis.of_number? hrow with ⟨hle, hlt⟩ | ⟨hle, hlt⟩
  · have hlt : b.toNat < 0x81 + 0x1F := hlt
    omega
  · have hle : 0xC1 + 0x1F ≤ b.toNat := hle
    omega

/-! ## Tables of runs -/

variable {runs : List (Nat × Nat × Nat)} {n point : Nat}

/-- Ascending runs begin at the bound or above. -/
theorem Ascending.le {bound : Nat} {run : Nat × Nat × Nat} (h : Ascending bound runs)
    (hrun : run ∈ runs) : bound ≤ run.1 := by
  induction runs generalizing bound with
  | nil => cases hrun
  | cons r runs ih =>
      obtain ⟨first, start, length⟩ := r
      obtain ⟨hfirst, htail⟩ := h
      rcases List.mem_cons.1 hrun with rfl | hmem
      · exact hfirst
      · have hlater := ih htail hmem
        omega

/-- In a table without overlaps the run of a number is found. -/
theorem Ascending.find?_eq {bound : Nat} {run : Nat × Nat × Nat} (h : Ascending bound runs)
    (hrun : run ∈ runs) (hle : run.1 ≤ n) (hlt : n < run.1 + run.2.2) :
    (runs.find? fun (first, _, length) => first ≤ n && n < first + length) = some run := by
  induction runs generalizing bound with
  | nil => cases hrun
  | cons r runs ih =>
      obtain ⟨first, start, length⟩ := r
      rcases List.mem_cons.1 hrun with rfl | hmem
      · rw [List.find?_cons_of_pos (by simp [hle, hlt])]
      · -- the first run has ended where the one of the number begins
        have hended := h.2.le hmem
        rw [List.find?_cons_of_neg (by simp; omega)]
        exact ih h.2 hmem

/-- The run that the number of a code point comes from. -/
theorem exists_of_numberIn? (h : numberIn? runs point = some n) :
    ∃ first start length, (first, start, length) ∈ runs ∧ start ≤ point ∧
      point < start + length ∧ n = first + (point - start) := by
  obtain ⟨⟨first, start, length⟩, hrun, rfl⟩ := Option.map_eq_some_iff.1 h
  have hplace := List.find?_some hrun
  simp only [Bool.and_eq_true, decide_eq_true_eq] at hplace
  exact ⟨first, start, length, List.mem_of_find?_eq_some hrun, hplace.1, hplace.2, rfl⟩

/-- The number found for a code point leads back to it. -/
theorem pointIn?_of_numberIn? (hruns : Ascending 0 runs) (h : numberIn? runs point = some n) :
    pointIn? runs n = some point := by
  obtain ⟨first, start, length, hrun, hle, hlt, rfl⟩ := exists_of_numberIn? h
  have hfind := hruns.find?_eq (n := first + (point - start)) hrun (by simp) (by simp; omega)
  rw [pointIn?, hfind, Option.map_some, Option.some.injEq]
  show start + (first + (point - start) - first) = point
  omega

/-- The numbers of a table end where its runs end. -/
theorem numberIn?_lt {bound : Nat} (hbound : ∀ run ∈ runs, run.1 + run.2.2 ≤ bound)
    (h : numberIn? runs point = some n) : n < bound := by
  obtain ⟨first, start, length, hrun, hle, hlt, rfl⟩ := exists_of_numberIn? h
  have hend : first + length ≤ bound := hbound _ hrun
  omega

namespace Kana

/-! ## Half-width katakana -/

/-- The half-width katakana are characters. -/
theorem isValidChar_halfWidth (hn : n < halfWidthCount) : (halfWidthFirst + n).isValidChar := by
  unfold halfWidthFirst
  unfold halfWidthCount at hn
  exact .inr (by omega)

/-- The half-width katakana are those with an index below their count. -/
theorem halfWidthIndex?_eq_some_iff :
    halfWidthIndex? c = some n ↔ n < halfWidthCount ∧ c = halfWidth n := by
  unfold halfWidthIndex? halfWidth
  constructor
  · intro h
    split at h
    · obtain rfl := Option.some.inj h
      refine ⟨by omega, ?_⟩
      rw [Nat.add_sub_cancel' (by omega), Char.ofNat_toNat]
    · cases h
  · rintro ⟨hn, rfl⟩
    rw [Charset.toNat_ofNat_of_isValidChar (isValidChar_halfWidth hn), if_pos (by omega)]
    simp

/-- The ordinary forms as a list that can be computed with. -/
theorem exists_wideForms : ∃ forms : List Char, wideForms = forms ∧
    forms.length = halfWidthCount ∧
    forms.all (fun w => w.toNat < halfWidthFirst && japaneseForm w == w &&
      (numberIn? Indexes.kana w.toNat).isSome) = true := by
  refine ⟨?forms, ?literal, ?length, ?all⟩
  case literal =>
    unfold wideForms
    with_reducible exact String.toList_ofList
  case length => decide +kernel
  case all => decide +kernel

/-- Every half-width katakana has an ordinary form. None of these is half-width, and the Japanese
set has them as they are, in the runs at hand. -/
theorem wideForms_spec : wideForms.length = halfWidthCount ∧
    ∀ w ∈ wideForms, w.toNat < halfWidthFirst ∧ japaneseForm w = w ∧
      (numberIn? Indexes.kana w.toNat).isSome := by
  obtain ⟨_, rfl, hlength, hforms⟩ := exists_wideForms
  refine ⟨hlength, fun w hw => ?_⟩
  have hform := List.all_eq_true.1 hforms w hw
  simpa [and_assoc] using hform

/-- Half-width katakana differ from any character that is none. -/
theorem ne_of_halfWidthIndex? {d : Char} (h : halfWidthIndex? c = some n)
    (hd : halfWidthIndex? d = none) : c ≠ d := by
  rintro rfl
  rw [hd] at h
  cases h

/-- A half-width katakana is widened to one of the ordinary forms. -/
theorem widen_of_halfWidthIndex? (h : halfWidthIndex? c = some n) : widen c ∈ wideForms := by
  have hsome : (wideForms[n]?).isSome := by
    rw [isSome_getElem?, wideForms_spec.1]
    exact (halfWidthIndex?_eq_some_iff.1 h).1
  obtain ⟨w, hw⟩ := Option.isSome_iff_exists.1 hsome
  rw [widen, h, Option.bind_some, hw]
  exact List.mem_of_getElem? hw

end Kana

namespace Gb18030

/-! ## Four-byte sequences -/

/-- The runs of four-byte sequences are in order. -/
theorem ascending_ranges : Ascending 0 ranges := by decide +kernel

/-- The runs of four-byte sequences end before number 39420. -/
theorem ranges_le : ∀ run ∈ ranges, run.1 + run.2.2 ≤ 39420 := by decide +kernel

/-- No code point has a number above that of the last one. -/
theorem number?_lt (h : number? point = some n) (hpoint : point < 0x110000) : n ≤ 1237575 := by
  unfold number? at h
  split at h
  · obtain rfl := Option.some.inj h
    decide
  · split at h
    · obtain ⟨h, -⟩ := Option.filter_eq_some_iff.1 h
      have hlt : n < 39420 := numberIn?_lt ranges_le h
      omega
    · have heq := Option.some.inj h
      omega

/-- A number that is found for a code point stands for this code point. -/
theorem point?_of_number? (h : number? point = some n) (hpoint : point < 0x110000) :
    point? n = some point := by
  unfold number? at h
  split at h
  · obtain rfl := Option.some.inj h
    rw [‹point = privatePoint›]
    exact if_pos rfl
  · split at h
    · obtain ⟨h, hother⟩ := Option.filter_eq_some_iff.1 h
      have hlt : n < 39420 := numberIn?_lt ranges_le h
      rw [point?, if_neg (by simpa using hother), if_pos (by omega)]
      exact pointIn?_of_numberIn? ascending_ranges h
    · have heq := Option.some.inj h
      have hother : n ≠ privateNumber := by
        unfold privateNumber
        omega
      rw [point?, if_neg hother, if_neg (by omega), if_pos (by omega), Option.some.injEq]
      omega

/-- The four bytes of a number are read as this number. -/
theorem numberOfBytes?_bytesOfNumber (hn : n ≤ 1237575) :
    ∃ a b c d : UInt8, bytesOfNumber n = [a, b, c, d] ∧ 0x81 ≤ a.toNat ∧
      (0x30 ≤ b ∧ b ≤ 0x39) ∧ numberOfBytes? a b c d = some n := by
  refine ⟨_, _, _, _, rfl, ?_, ?_, ?_⟩
  · rw [toNat_toUInt8 (by omega)]
    omega
  · rw [UInt8.le_iff_toNat_le, UInt8.le_iff_toNat_le, toNat_toUInt8 (by omega)]
    show 0x30 ≤ _ ∧ _ ≤ 0x39
    omega
  · simp only [numberOfBytes?]
    rw [toNat_toUInt8 (by omega), toNat_toUInt8 (by omega), toNat_toUInt8 (by omega),
      toNat_toUInt8 (by omega), if_pos (by omega)]
    simp only [Option.some.injEq]
    omega

end Gb18030

end Encoding

open Encoding

namespace Indexes

/-! ## The published indexes -/

/-- What written text rests on in the published indexes. -/
structure IsStandard [Indexes] : Prop where
  /-- The user area of Shift JIS has no rows. -/
  userArea : ∀ row ∈ jis0208.rows, ¬ (userArea.1 ≤ row.1 ∧ row.1 ≤ userArea.2)
  /-- Rows which only Shift JIS can spell repeat characters of the other rows. -/
  repeated : ∀ row ∈ jis0208.rows, Layout.eucJp.size ≤ row.1 →
    ∃ first ∈ jis0208.rows, first.1 < Layout.eucJp.size ∧ first.2 = row.2
  /-- The Japanese set has the ordinary forms of half-width katakana. -/
  kana : ∀ w ∈ Kana.wideForms, ∃ row ∈ jis0208.rows, row.2 = w
  /-- The characters that have moved have rows with their new code points. -/
  moved : ∀ row ∈ Gb18030.moved, row.2 ∈ gb18030.rows

/-- The excerpt has what written text rests on. -/
theorem isStandard_excerpt : excerpt.IsStandard where
  userArea _ hrow harea := by
    have hlt := lt_of_mem_rowsOf kana_le hrow
    exact absurd (Nat.lt_of_le_of_lt harea.1 hlt) (by decide)
  repeated _ hrow hle := by
    have hlt := lt_of_mem_rowsOf kana_le hrow
    exact absurd (Nat.lt_of_le_of_lt hle hlt) (by decide)
  kana w hw := by
    obtain ⟨n, hn⟩ := Option.isSome_iff_exists.1 (Kana.wideForms_spec.2 w hw).2.2
    obtain ⟨first, start, length, hrun, hle, hlt, -⟩ := exists_of_numberIn? hn
    refine ⟨_, mem_rowsOf_iff.2 ⟨first, start, length, hrun, w.toNat - start, by omega, rfl⟩, ?_⟩
    show Char.ofNat (start + (w.toNat - start)) = w
    rw [Nat.add_sub_cancel' hle, Char.ofNat_toNat]
  moved _ := List.mem_map_of_mem

variable [Indexes] {pointer : Nat} {c : Char}

/-- The Japanese encodings of 94 rows can spell the pointers that they write. -/
theorem IsStandard.pointer?_lt (hindexes : IsStandard) (h : jis0208.pointer? c = some pointer) :
    pointer < Layout.eucJp.size := by
  have hrow : (pointer, c) ∈ jis0208.rows := mem_of_firstPointer? h
  rcases Nat.lt_or_ge pointer Layout.eucJp.size with hlt | hle
  · exact hlt
  · obtain ⟨⟨first, _⟩, hfirst, hlt, rfl⟩ := hindexes.repeated _ hrow hle
    exact Nat.lt_of_le_of_lt (Index.pointer?_le h hfirst) hlt

end Indexes

end ProjectOrder

import ProjectOrder.Proofs.Encoding.Tables

/-!
# What written text is read as

Not every encoding reads what it writes. The Japanese encodings write some characters as others that
look like them, the Chinese ones write the old code points of characters that have moved, and no
fault tells of it. `Encoding.readAs` says which character a written one is read as,
`decode?_of_encode?` that whole texts are read so, and `decode?_eq_self_iff` which texts stay what
they are.
-/

namespace ProjectOrder.Encoding

/-- The form of a character in ASCII or in the Japanese set: backslash and tilde stand for the yen
sign and the overline. -/
def Kana.lookAlike (c : Char) : Char :=
  if c = '\u00A5' then '\\' else if c = '\u203E' then '~' else japaneseForm c

/-- The code point that a character has in GB 18030 now. -/
def Gb18030.present (c : Char) : Char :=
  match moved.lookup c with
  | some (_, form) => form
  | none => c

/-- The character that is read where an encoding writes a character. -/
def readAs : Encoding → Char → Char
  | gbk, c | gb18030, c => Gb18030.present c
  | eucJp, c | shiftJis, c => Kana.lookAlike c
  | iso2022Jp, c => japaneseForm (Kana.widen c)
  | _, c => c

/-- The characters that an encoding writes as others: in GBK and GB 18030 those that have moved; in
the Japanese encodings the yen sign and the overline as backslash and tilde, the minus sign in full
width, and half-width katakana in their ordinary form. -/
def Alters : Encoding → Char → Prop
  | gbk, c | gb18030, c => c ∈ Gb18030.moved.map Prod.fst
  | eucJp, c | shiftJis, c => c = '\u00A5' ∨ c = '\u203E' ∨ c = '\u2212'
  | iso2022Jp, c => c = '\u2212' ∨ 0xFF61 ≤ c.toNat ∧ c.toNat ≤ 0xFF9F
  | _, _ => False

variable {e : Encoding} {b : UInt8} {bs ws : List UInt8} {c d : Char} {cs : List Char} {n : Nat}

/-! ## Characters that stay -/

/-- A character of ASCII is none above it. -/
theorem ne_of_ascii (hc : c.toNat < 0x80) (hd : 0x80 ≤ d.toNat) : c ≠ d := by
  rintro rfl
  omega

/-- Only the minus sign has another form in Japanese encodings. -/
theorem japaneseForm_of_ne (hc : c ≠ '\u2212') : japaneseForm c = c :=
  if_neg hc

/-- Characters of ASCII are as wide as they are. -/
theorem Kana.widen_of_ascii (hc : c.toNat < 0x80) : Kana.widen c = c := by
  have hnone : Kana.halfWidthIndex? c = none := by
    rw [Kana.halfWidthIndex?, if_neg]
    unfold Kana.halfWidthFirst
    omega
  rw [Kana.widen, hnone]
  rfl

/-- A character that has not moved has no place among those that have. -/
theorem Gb18030.lookup_moved_eq_none_iff :
    moved.lookup c = none ↔ c ∉ moved.map Prod.fst := by
  rw [List.lookup_eq_none_iff, List.mem_map]
  constructor
  · rintro hnone ⟨row, hrow, rfl⟩
    simpa using hnone row hrow
  · intro hnone row hrow
    rw [bne_iff_ne]
    rintro rfl
    exact hnone ⟨row, hrow, rfl⟩

/-- A character that has not moved is present as itself. -/
theorem Gb18030.present_of_not_mem (hc : c ∉ moved.map Prod.fst) : present c = c := by
  rw [present, lookup_moved_eq_none_iff.2 hc]

/-- The characters that have moved lie above ASCII, and all have other code points now. -/
theorem Gb18030.moved_spec : ∀ row ∈ moved, 0x80 ≤ row.1.toNat ∧ present row.1 ≠ row.1 := by
  decide +kernel

/-- The characters that are present as others are those that have moved. -/
theorem Gb18030.present_ne_self_iff : present c ≠ c ↔ c ∈ moved.map Prod.fst := by
  constructor
  · intro hne
    rcases Decidable.em (c ∈ moved.map Prod.fst) with h | h
    · exact h
    · exact absurd (present_of_not_mem h) hne
  · intro h
    obtain ⟨row, hrow, rfl⟩ := List.mem_map.1 h
    exact (moved_spec row hrow).2

/-- Half-width katakana are no look-alikes of other characters. -/
theorem Kana.lookAlike_of_halfWidthIndex? (h : Kana.halfWidthIndex? c = some n) :
    Kana.lookAlike c = c := by
  have hne {d : Char} : Kana.halfWidthIndex? d = none → c ≠ d := Kana.ne_of_halfWidthIndex? h
  rw [lookAlike, if_neg (hne rfl), if_neg (hne rfl), japaneseForm, if_neg (hne rfl)]

/-- ASCII is the same in all encodings. -/
theorem readAs_of_ascii (hc : c.toNat < 0x80) : e.readAs c = c := by
  have hne {d : Char} (hd : 0x80 ≤ d.toNat) : c ≠ d := ne_of_ascii hc hd
  have hform : japaneseForm c = c := japaneseForm_of_ne (hne (by decide))
  cases e with
  | gbk | gb18030 =>
      refine Gb18030.present_of_not_mem fun hmem => ?_
      obtain ⟨row, hrow, rfl⟩ := List.mem_map.1 hmem
      have habove := (Gb18030.moved_spec row hrow).1
      omega
  | eucJp | shiftJis =>
      rw [readAs, Kana.lookAlike, if_neg (hne (by decide)), if_neg (hne (by decide)), hform]
  | iso2022Jp => rw [readAs, Kana.widen_of_ascii hc, hform]
  | _ => rfl

/-- The characters that Japanese encodings take for others are the yen sign, the overline and the
minus sign. -/
theorem Kana.lookAlike_ne_self_iff :
    Kana.lookAlike c ≠ c ↔ c = '\u00A5' ∨ c = '\u203E' ∨ c = '\u2212' := by
  unfold lookAlike japaneseForm
  split
  · subst c
    decide
  split
  · subst c
    decide
  split
  · subst c
    decide
  · simp_all

/-- In ISO-2022-JP the minus sign and half-width katakana become other characters, and nothing else
does. -/
theorem Kana.japaneseForm_widen_ne_self_iff :
    japaneseForm (Kana.widen c) ≠ c ↔ c = '\u2212' ∨ 0xFF61 ≤ c.toNat ∧ c.toNat ≤ 0xFF9F := by
  have hrange : (Kana.halfWidthIndex? c).isSome ↔ 0xFF61 ≤ c.toNat ∧ c.toNat ≤ 0xFF9F := by
    unfold halfWidthIndex? halfWidthFirst halfWidthCount
    split <;> simp <;> omega
  rw [← hrange]
  cases h : halfWidthIndex? c with
  | none =>
      have hwiden : widen c = c := by
        rw [widen, h]
        rfl
      rw [hwiden, japaneseForm]
      split
      · subst c
        decide
      · simp_all
  | some i =>
      -- the ordinary form lies before half-width katakana, also where it is written in another form
      have hbelow := (wideForms_spec.2 _ (widen_of_halfWidthIndex? h)).1
      have habove := hrange.1 (Option.isSome_iff_exists.2 ⟨i, h⟩)
      refine iff_of_true (fun heq => ?_) (.inr rfl)
      unfold japaneseForm at heq
      unfold halfWidthFirst at hbelow
      split at heq
      · subst c
        exact absurd habove (by decide)
      · rw [heq] at hbelow
        omega

/-- A character is read as another one exactly if the encoding alters it. -/
theorem readAs_ne_self_iff : e.readAs c ≠ c ↔ e.Alters c := by
  cases e with
  | gbk | gb18030 => exact Gb18030.present_ne_self_iff
  | eucJp | shiftJis => exact Kana.lookAlike_ne_self_iff
  | iso2022Jp => exact Kana.japaneseForm_widen_ne_self_iff
  | _ => exact iff_of_false (fun h => h rfl) id

/-! ## Bytes that yield a character -/

/-- Some bytes yield a character if the character is read off them, whatever bytes follow. -/
def Yields (special : UInt8 → List UInt8 → Option (List Char × List UInt8)) (ws : List UInt8)
    (c : Char) : Prop :=
  ∀ n rest, decodeWith special (n + 1) (ws ++ rest) = (decodeWith special n rest).map (c :: ·)

variable {special : UInt8 → List UInt8 → Option (List Char × List UInt8)}
  {write : Char → Option (List UInt8)} {f : Char → Char}

/-- A traversal succeeds if it does at every member. -/
theorem isSome_mapM_iff {α β : Type} {f : α → Option β} {as : List α} :
    (as.mapM f).isSome ↔ ∀ a ∈ as, (f a).isSome := by
  induction as with
  | nil => simp
  | cons a as ih =>
      rw [List.mapM_cons, List.forall_mem_cons, ← ih]
      cases f a <;> cases as.mapM f <;> simp

/-- Numbers between two others are so as bytes. -/
theorem toUInt8_between (lo hi : Nat) (hlo : lo ≤ n) (hhi : n ≤ hi) (h : hi < 0x100) :
    lo.toUInt8 ≤ n.toUInt8 ∧ n.toUInt8 ≤ hi.toUInt8 := by
  rw [UInt8.le_iff_toNat_le, UInt8.le_iff_toNat_le, toNat_toUInt8 (by omega),
    toNat_toUInt8 (by omega), toNat_toUInt8 h]
  exact ⟨hlo, hhi⟩

/-- A number below 128 is a byte of ASCII. -/
theorem toUInt8_lt (h : n < 0x80) : n.toUInt8 < 0x80 := by
  rw [UInt8.lt_iff_toNat_lt, toNat_toUInt8 (by omega)]
  exact h

/-- A byte of 128 or more is not ASCII. -/
theorem not_lt_of_le_toNat (h : 0x80 ≤ b.toNat) : ¬ b < 0x80 := by
  rw [UInt8.lt_iff_toNat_lt]
  exact Nat.not_lt.2 h

/-- A number from 128 on is no byte of ASCII. -/
theorem not_toUInt8_lt (h : 0x80 ≤ n) (h' : n < 0x100) : ¬ n.toUInt8 < 0x80 :=
  not_lt_of_le_toNat (by rwa [toNat_toUInt8 h'])

/-- Different numbers are different bytes. -/
theorem toUInt8_ne (k : Nat) (hne : n ≠ k) (h : n < 0x100) (hk : k < 0x100) :
    n.toUInt8 ≠ k.toUInt8 := by
  rw [Ne, ← UInt8.toNat_inj, toNat_toUInt8 h, toNat_toUInt8 hk]
  exact hne

/-- A byte of ASCII yields the character of its number. -/
theorem yields_ascii (h : n < 0x80) : Yields special [n.toUInt8] (Char.ofNat n) := by
  intro k rest
  rw [List.singleton_append, decodeWith, if_pos (toUInt8_lt h), toNat_toUInt8 (by omega)]

/-- Bytes that begin above ASCII yield what the special reading of the first finds in the rest. -/
theorem yields_special (hb : ¬ b < 0x80) (h : ∀ rest, special b (ws ++ rest) = some ([c], rest)) :
    Yields special (b :: ws) c := by
  intro k rest
  rw [List.cons_append, decodeWith, if_neg hb, h]
  rfl

/-- The bytes of a pointer yield what is read for the pointer. -/
theorem yields_bytes {layout : Layout} {pointer : Nat} (hlow : 0x80 ≤ layout.lead.low)
    (hpointer : pointer < layout.size)
    (h : ∀ b t rest, layout.pointer? b t = some pointer →
      special b (t :: rest) = some ([c], rest)) :
    Yields special (layout.bytes pointer) c := by
  obtain ⟨b, t, hbytes, hread⟩ := Layout.pointer?_bytes hpointer
  have hlead := (Layout.low_le_of_pointer? hread).1
  rw [hbytes]
  exact yields_special (not_lt_of_le_toNat (by omega)) fun rest => h b t rest hread

/-- Bytes that yield a character are at least one. -/
theorem Yields.ne_nil (h : Yields special ws c) : ws ≠ [] := by
  rintro rfl
  have hnone := h 0 []
  simp [decodeWith] at hnone

/-- A text is written character by character. -/
theorem encodeWith_cons_eq_some_iff :
    encodeWith write (c :: cs) = some bs ↔
      ∃ ws rest, (if c.toNat < 0x80 then some [c.toNat.toUInt8] else write c) = some ws ∧
        encodeWith write cs = some rest ∧ bs = ws ++ rest := by
  simp only [encodeWith, List.mapM_cons, Option.map_eq_some_iff, Option.bind_eq_bind,
    Option.bind_eq_some_iff, Option.pure_def, Option.some.injEq]
  constructor
  · rintro ⟨_, ⟨ws, hws, wss, hwss, rfl⟩, rfl⟩
    exact ⟨ws, _, hws, ⟨wss, hwss, rfl⟩, rfl⟩
  · rintro ⟨ws, _, hws, ⟨wss, hwss, rfl⟩, rfl⟩
    exact ⟨_, ⟨ws, hws, wss, hwss, rfl⟩, rfl⟩

/-- A text can be written if each of its characters can. -/
theorem isSome_encodeWith_iff :
    (encodeWith write cs).isSome ↔ ∀ c ∈ cs, (encodeWith write [c]).isSome := by
  simp only [encodeWith, Option.isSome_map, isSome_mapM_iff, List.mem_singleton, forall_eq]

/-- A text is read as its characters are if what is written for each of them yields a character. -/
theorem decodeWith_of_encodeWith (hascii : ∀ c, c.toNat < 0x80 → f c = c)
    (hwrite : ∀ c ws, write c = some ws → Yields special ws (f c))
    (h : encodeWith write cs = some bs) : decodeWith special bs.length bs = some (cs.map f) := by
  have hfuel : cs.length ≤ bs.length ∧
      ∀ n, cs.length ≤ n → decodeWith special n bs = some (cs.map f) := by
    induction cs generalizing bs with
    | nil =>
        obtain rfl : [] = bs := by simpa [encodeWith] using h
        exact ⟨Nat.le_refl _, fun n _ => by cases n <;> rfl⟩
    | cons c cs ih =>
        obtain ⟨ws, rest, hws, hrest, rfl⟩ := encodeWith_cons_eq_some_iff.1 h
        obtain ⟨hlength, hread⟩ := ih hrest
        have hyields : Yields special ws (f c) := by
          split at hws
          · rename_i hc
            obtain rfl := Option.some.inj hws
            rw [hascii c hc]
            have hyields : Yields special _ _ := yields_ascii hc
            rwa [Char.ofNat_toNat] at hyields
          · exact hwrite c ws hws
        have hpos := List.length_pos_iff.2 hyields.ne_nil
        refine ⟨by simp only [List.length_append, List.length_cons]; omega, fun n hn => ?_⟩
        obtain ⟨n, rfl⟩ : ∃ k, n = k + 1 := ⟨n - 1, by simp at hn; omega⟩
        rw [hyields n rest, hread n (by simpa using hn)]
        rfl
  exact hfuel.2 _ hfuel.1

namespace Iso2022Jp

/-- An ASCII character that is no control of shifts is read in ASCII, and but for backslash and
tilde also in the Japanese variant. -/
theorem single?_ascii (hn : n < 0x80) (hshift : isShift n = false)
    (hmode : mode = .ascii ∨ mode = .roman ∧ n ≠ 0x5C ∧ n ≠ 0x7E) :
    single? mode n.toUInt8 = some (Char.ofNat n) := by
  have hbyte : n.toUInt8.toNat = n := toNat_toUInt8 (by omega)
  rcases hmode with rfl | ⟨rfl, hyen, hoverline⟩
  · simp [single?, hbyte, hn, hshift]
  · simp [single?, hbyte, hn, hshift, hyen, hoverline]

/-- A byte that does not shift is no escape. -/
theorem ne_escape (hn : n < 0x80) (hshift : isShift n = false) : n.toUInt8 ≠ 0x1B := by
  refine toUInt8_ne 0x1B ?_ (by omega) (by decide)
  rintro rfl
  cases hshift

end Iso2022Jp

/-! ## Chinese and Korean encodings -/

variable [Indexes] {pointer : Nat}

/-- The four bytes of a number yield the character at its code point. -/
theorem yields_bytesOfNumber (hn : n ≤ 1237575) (h : Gb18030.point? n = some c.toNat) :
    Yields specialGb (Gb18030.bytesOfNumber n) c := by
  obtain ⟨b₁, b₂, b₃, b₄, hbytes, hle, hdigit, hnumber⟩ := Gb18030.numberOfBytes?_bytesOfNumber hn
  have heuro : b₁ ≠ 0x80 := by
    rintro rfl
    exact absurd hle (by decide)
  rw [hbytes]
  refine yields_special (not_lt_of_le_toNat (by omega)) fun rest => ?_
  simp [specialGb, fourBytes?, heuro, hdigit, hnumber, h]

/-- Where a character has a number, its four bytes yield it. -/
theorem yields_of_number? (h : (Gb18030.number? c.toNat).map Gb18030.bytesOfNumber = some ws) :
    Yields specialGb ws c := by
  obtain ⟨n, hn, rfl⟩ := Option.map_eq_some_iff.1 h
  have hpoint : c.toNat < 0x110000 := by
    have hvalid : c.toNat.isValidChar := c.valid
    unfold Nat.isValidChar at hvalid
    omega
  exact yields_bytesOfNumber (Gb18030.number?_lt hn hpoint) (Gb18030.point?_of_number? hn hpoint)

/-- The pointer of a character is that of the character it is read as. -/
theorem mem_of_gbPointer? (hindexes : Indexes.IsStandard) (h : gbPointer? c = some pointer) :
    (pointer, Gb18030.present c) ∈ Indexes.gb18030.rows := by
  cases hlookup : Gb18030.moved.lookup c with
  | some row =>
      obtain ⟨number, form⟩ := row
      obtain ⟨before, after, hmoved, -⟩ := List.lookup_eq_some_iff.1 hlookup
      simp only [gbPointer?, hlookup, Option.some.injEq] at h
      rw [← h, Gb18030.present, hlookup]
      exact hindexes.moved _ (hmoved ▸ List.mem_append_right _ (List.mem_cons_self ..))
  | none =>
      simp only [gbPointer?, hlookup] at h
      rw [Gb18030.present, hlookup]
      exact mem_of_firstPointer? h

/-- The two bytes of a GBK pointer yield the character as it is present. -/
theorem yields_of_gbPointer? (hindexes : Indexes.IsStandard) (h : gbPointer? c = some pointer) :
    Yields specialGb (Layout.gb.bytes pointer) (Gb18030.present c) := by
  have hrow := mem_of_gbPointer? hindexes h
  refine yields_bytes (by decide) (Indexes.gb18030.lt_size _ hrow) fun b t rest hread => ?_
  obtain ⟨hlead, htrail⟩ := Layout.low_le_of_pointer? hread
  have heuro : b ≠ 0x80 := by
    rintro rfl
    exact absurd hlead (by decide)
  have hdigit : ¬ (0x30 ≤ t ∧ t ≤ 0x39) := by
    rintro ⟨-, hle⟩
    rw [UInt8.le_iff_toNat_le] at hle
    exact absurd (Nat.le_trans htrail hle) (by decide)
  rw [specialGb, if_neg heuro]
  show (if _ then _ else _) = _
  rw [if_neg hdigit, Layout.next?_of_pointer? hread hrow]

/-- The bytes of a character in GBK yield it as it is present. -/
theorem yields_gbkBytes (hindexes : Indexes.IsStandard) (h : gbkBytes? c = some ws) :
    Yields specialGb ws (Gb18030.present c) := by
  unfold gbkBytes? at h
  split at h
  · cases h
  split at h
  · obtain rfl := Option.some.inj h
    subst c
    exact yields_special (by decide) fun rest => rfl
  · obtain ⟨pointer, hpointer, rfl⟩ := Option.map_eq_some_iff.1 h
    exact yields_of_gbPointer? hindexes hpointer

/-- The bytes of a character in GB 18030 yield it as it is present. -/
theorem yields_gb18030Bytes (hindexes : Indexes.IsStandard) (h : gb18030Bytes? c = some ws) :
    Yields specialGb ws (Gb18030.present c) := by
  unfold gb18030Bytes? at h
  split at h
  · cases h
  split at h
  · rename_i pointer hpointer
    obtain rfl := Option.some.inj h
    exact yields_of_gbPointer? hindexes hpointer
  · -- only a character that has not moved is written in four bytes
    rename_i hnone
    have hmoved : Gb18030.moved.lookup c = none := by
      unfold gbPointer? at hnone
      split at hnone
      · cases hnone
      · assumption
    rw [Gb18030.present, hmoved]
    exact yields_of_number? h

/-- The pointers with which characters are written in Big5 are none of those with marks. -/
theorem yields_of_big5Pointer? (h : big5Pointer? c = some pointer) :
    Yields specialBig5 (Layout.big5.bytes pointer) c := by
  have hmem : (pointer, c) ∈ Indexes.big5.rows.filter fun row => big5First ≤ row.1 := by
    have hmem := mem_of_firstPointer? h
    split at hmem
    · exact List.mem_reverse.1 hmem
    · exact hmem
  obtain ⟨hrow, hfirst⟩ := List.mem_filter.1 hmem
  have hmarked : big5Marked.lookup pointer = none := by
    have hbefore : ∀ row ∈ big5Marked, row.1 < big5First := by decide
    refine List.lookup_eq_none_iff.2 fun row hmem => ?_
    have hlt := hbefore row hmem
    have hle : big5First ≤ pointer := of_decide_eq_true hfirst
    simp only [bne_iff_ne, ne_eq]
    omega
  refine yields_bytes (by decide) (Indexes.big5.lt_size _ hrow) fun b t rest hread => ?_
  simp [specialBig5, hread, hmarked, Index.char?_of_mem hrow]

/-- The two bytes of a pointer of EUC-KR yield the character. -/
theorem yields_of_eucKrPointer? (h : Indexes.eucKr.pointer? c = some pointer) :
    Yields (Layout.eucKr.next? Indexes.eucKr) (Layout.eucKr.bytes pointer) c := by
  have hrow := mem_of_firstPointer? h
  exact yields_bytes (by decide) (Indexes.eucKr.lt_size _ hrow) fun b t rest hread =>
    Layout.next?_of_pointer? hread hrow

/-! ## Japanese encodings of bytes above ASCII -/

/-- The bytes of a character in EUC-JP yield what looks like it. -/
theorem yields_eucJpBytes (hindexes : Indexes.IsStandard) (h : eucJpBytes? c = some ws) :
    Yields specialEucJp ws (Kana.lookAlike c) := by
  unfold eucJpBytes? at h
  split at h
  · obtain rfl := Option.some.inj h
    subst c
    exact yields_ascii (n := 0x5C) (by decide)
  split at h
  · obtain rfl := Option.some.inj h
    subst c
    exact yields_ascii (n := 0x7E) (by decide)
  split at h
  · rename_i i hi
    obtain rfl := Option.some.inj h
    obtain ⟨hlt, hc⟩ := Kana.halfWidthIndex?_eq_some_iff.1 hi
    rw [Kana.lookAlike_of_halfWidthIndex? hi]
    refine yields_special (by decide) fun rest => ?_
    unfold Kana.halfWidthCount at hlt
    have htrail : 0xA1 ≤ (0xA1 + i).toUInt8 ∧ (0xA1 + i).toUInt8 ≤ 0xDF :=
      toUInt8_between 0xA1 0xDF (by omega) (by omega) (by decide)
    rw [List.singleton_append, specialEucJp, if_pos rfl, if_pos htrail, toNat_toUInt8 (by omega),
      Nat.add_sub_cancel_left, ← hc]
  · obtain ⟨pointer, hpointer, rfl⟩ := Option.map_eq_some_iff.1 h
    have hrow := mem_of_firstPointer? hpointer
    rw [Kana.lookAlike, if_neg ‹_›, if_neg ‹_›]
    refine yields_bytes (by decide) (hindexes.pointer?_lt hpointer) fun b t rest hread => ?_
    have hlead := (Layout.low_le_of_pointer? hread).1
    have hshift : b ≠ 0x8E ∧ b ≠ 0x8F := by
      constructor <;> rintro rfl <;> exact absurd hlead (by decide)
    rw [specialEucJp, if_neg hshift.1, if_neg hshift.2, Layout.next?_of_pointer? hread hrow]

/-- The bytes of a character in Shift JIS yield what looks like it. -/
theorem yields_shiftJisBytes (hindexes : Indexes.IsStandard) (h : shiftJisBytes? c = some ws) :
    Yields specialShiftJis ws (Kana.lookAlike c) := by
  unfold shiftJisBytes? at h
  split at h
  · obtain rfl := Option.some.inj h
    subst c
    exact yields_special (by decide) fun rest => rfl
  split at h
  · obtain rfl := Option.some.inj h
    subst c
    exact yields_ascii (n := 0x5C) (by decide)
  split at h
  · obtain rfl := Option.some.inj h
    subst c
    exact yields_ascii (n := 0x7E) (by decide)
  split at h
  · rename_i i hi
    obtain rfl := Option.some.inj h
    obtain ⟨hlt, hc⟩ := Kana.halfWidthIndex?_eq_some_iff.1 hi
    rw [Kana.lookAlike_of_halfWidthIndex? hi]
    unfold Kana.halfWidthCount at hlt
    refine yields_special (not_toUInt8_lt (by omega) (by omega)) fun rest => ?_
    have hrange : 0xA1 ≤ (0xA1 + i).toUInt8 ∧ (0xA1 + i).toUInt8 ≤ 0xDF :=
      toUInt8_between 0xA1 0xDF (by omega) (by omega) (by decide)
    have hother : (0xA1 + i).toUInt8 ≠ 0x80 := toUInt8_ne 0x80 (by omega) (by omega) (by decide)
    unfold specialShiftJis
    rw [if_neg hother, if_pos hrange, toNat_toUInt8 (by omega),
      Nat.add_sub_cancel_left, ← hc, List.nil_append]
  · obtain ⟨pointer, hpointer, rfl⟩ := Option.map_eq_some_iff.1 h
    have hrow := (List.mem_filter.1 (mem_of_firstPointer? hpointer)).1
    rw [Kana.lookAlike, if_neg ‹_›, if_neg ‹_›]
    refine yields_bytes (by decide) (Indexes.jis0208.lt_size _ hrow) fun b t rest hread => ?_
    have hlead := (Layout.low_le_of_pointer? hread).1
    have hother : b ≠ 0x80 := by
      rintro rfl
      exact absurd hlead (by decide)
    rw [specialShiftJis, if_neg hother, if_neg (Layout.not_halfWidth_of_pointer? hread)]
    simp only [hread, Option.bind_eq_bind, Option.bind_some, if_neg (hindexes.userArea _ hrow),
      Index.char?_of_mem hrow]
    rfl

/-! ## Escape sequences -/

namespace Iso2022Jp

variable {mode next : Mode} {escaped : Bool} {rest : List UInt8}

/-- A byte that is no escape is a character in a single-byte mode. -/
theorem decodeFrom_single (h : single? mode b = some c) (hmode : mode ≠ .doubleByte)
    (hb : b ≠ 0x1B) :
    decodeFrom mode escaped (b :: rest) = (decodeFrom mode false rest).map (c :: ·) := by
  rw [decodeFrom.eq_def]
  split
  · cases ‹b :: rest = []›
  · exact absurd (List.cons.inj ‹_›).1 hb
  · rename_i heq
    obtain ⟨rfl, rfl⟩ := List.cons.inj heq
    rw [if_neg hmode, h]
    cases decodeFrom mode false rest <;> rfl

/-- Two bytes of which the first is no escape are a character in the double-byte mode. -/
theorem decodeFrom_double {b' : UInt8} (hb : b ≠ 0x1B)
    (h : Layout.iso2022Jp.char? Indexes.jis0208 b b' = some c) :
    decodeFrom .doubleByte escaped (b :: b' :: rest) =
      (decodeFrom .doubleByte false rest).map (c :: ·) := by
  rw [decodeFrom.eq_def]
  split
  · cases ‹b :: b' :: rest = []›
  · exact absurd (List.cons.inj ‹_›).1 hb
  · rename_i heq
    obtain ⟨rfl, rfl⟩ := List.cons.inj heq
    simp only [if_pos, h]
    cases decodeFrom .doubleByte false rest <;> rfl

/-- After another character an escape sequence switches the mode. -/
theorem decodeFrom_escape (mode next : Mode) :
    decodeFrom mode false (next.escape ++ rest) = decodeFrom next true rest := by
  cases next <;> rfl

/-- The bytes in which a character is placed are read as this character, or as the one in the same
cell. -/
theorem decodeFrom_place? (hindexes : Indexes.IsStandard) (h : place? mode c = some (next, bs)) :
    decodeFrom next escaped (bs ++ rest) =
      (decodeFrom next false rest).map (iso2022Jp.readAs c :: ·) := by
  simp only [place?] at h
  split at h
  · cases h
  have hshift : isShift c.toNat = false := by simpa using ‹¬ isShift c.toNat›
  split at h
  · -- ASCII, in the current mode if this is the Japanese variant and has the character
    rename_i hascii
    rw [readAs_of_ascii hascii]
    have hescape := ne_escape hascii hshift
    split at h
    · obtain ⟨rfl, rfl⟩ := Prod.mk.inj (Option.some.inj h)
      have hsingle : single? .roman _ = _ :=
        single?_ascii hascii hshift (.inr ⟨rfl, ‹mode = .roman ∧ _›.2⟩)
      rw [List.singleton_append, decodeFrom_single hsingle (by decide) hescape, Char.ofNat_toNat]
    · obtain ⟨rfl, rfl⟩ := Prod.mk.inj (Option.some.inj h)
      have hsingle := single?_ascii hascii hshift (.inl rfl)
      rw [List.singleton_append, decodeFrom_single hsingle (by decide) hescape, Char.ofNat_toNat]
  split at h
  · obtain ⟨rfl, rfl⟩ := Prod.mk.inj (Option.some.inj h)
    subst c
    exact decodeFrom_single rfl (by decide) (by decide)
  split at h
  · obtain ⟨rfl, rfl⟩ := Prod.mk.inj (Option.some.inj h)
    subst c
    exact decodeFrom_single rfl (by decide) (by decide)
  · obtain ⟨pointer, hpointer, h⟩ := Option.map_eq_some_iff.1 h
    obtain ⟨rfl, rfl⟩ := Prod.mk.inj h
    have hrow := mem_of_firstPointer? hpointer
    have hlt : pointer < Layout.iso2022Jp.size := hindexes.pointer?_lt hpointer
    obtain ⟨b, t, hbytes, hread⟩ := Layout.pointer?_bytes hlt
    have hlead := (Layout.low_le_of_pointer? hread).1
    have hescape : b ≠ 0x1B := by
      rintro rfl
      exact absurd hlead (by decide)
    rw [hbytes]
    exact decodeFrom_double hescape (Layout.char?_of_pointer? hread hrow)

/-- A text is read from the mode that it is written from. -/
theorem decodeFrom_of_encodeFrom (hindexes : Indexes.IsStandard)
    (h : encodeFrom mode cs = some bs) :
    decodeFrom mode false bs = some (cs.map iso2022Jp.readAs) := by
  induction cs generalizing mode bs with
  | nil =>
      obtain rfl := Option.some.inj h
      cases mode <;> rfl
  | cons c cs ih =>
      simp only [encodeFrom, Option.bind_eq_bind, Option.bind_eq_some_iff] at h
      obtain ⟨⟨next, placed⟩, hplace, rest, hrest, h⟩ := h
      obtain rfl := Option.some.inj h
      simp only at hrest ⊢
      have hread (escaped : Bool) :
          decodeFrom next escaped (placed ++ rest) = some ((c :: cs).map iso2022Jp.readAs) := by
        rw [decodeFrom_place? hindexes hplace, ih hrest]
        rfl
      -- a switch of the mode is read first, if there is one
      split
      · subst next
        exact hread false
      · rw [List.append_assoc, decodeFrom_escape, hread true]

end Iso2022Jp

/-! ## Whole texts -/

/-- Whatever is written for a text is read as the text with each character as it is read. -/
theorem decode?_of_encode? (hindexes : Indexes.IsStandard) (he : e.output = e)
    (h : e.encode? cs = some bs) : e.decode? bs = some (cs.map e.readAs) := by
  have hencode := h
  unfold encode? at hencode
  rw [he] at hencode
  cases e with
  | utf8 =>
      show decode? utf8 bs = some (cs.map id)
      rw [List.map_id, decode?_eq_some_iff (e := utf8) trivial, h]
  | charset set =>
      show decode? (charset set) bs = some (cs.map id)
      rw [List.map_id, decode?_eq_some_iff (e := charset set) trivial, h]
  | gbk =>
      exact decodeWith_of_encodeWith (fun _ => readAs_of_ascii (e := gbk))
        (fun _ _ => yields_gbkBytes hindexes) hencode
  | gb18030 =>
      exact decodeWith_of_encodeWith (fun _ => readAs_of_ascii (e := gb18030))
        (fun _ _ => yields_gb18030Bytes hindexes) hencode
  | big5 =>
      refine decodeWith_of_encodeWith (fun _ _ => rfl) (fun c ws hws => ?_) hencode
      obtain ⟨pointer, hpointer, rfl⟩ := Option.map_eq_some_iff.1 hws
      exact yields_of_big5Pointer? hpointer
  | eucKr =>
      refine decodeWith_of_encodeWith (fun _ _ => rfl) (fun c ws hws => ?_) hencode
      obtain ⟨pointer, hpointer, rfl⟩ := Option.map_eq_some_iff.1 hws
      exact yields_of_eucKrPointer? hpointer
  | eucJp =>
      exact decodeWith_of_encodeWith (fun _ => readAs_of_ascii (e := eucJp))
        (fun _ _ => yields_eucJpBytes hindexes) hencode
  | shiftJis =>
      exact decodeWith_of_encodeWith (fun _ => readAs_of_ascii (e := shiftJis))
        (fun _ _ => yields_shiftJisBytes hindexes) hencode
  | iso2022Jp => exact Iso2022Jp.decodeFrom_of_encodeFrom hindexes hencode
  | replacement | utf16be | utf16le => cases he

/-- Written text is read as it was exactly if the encoding alters none of its characters. -/
theorem decode?_eq_self_iff (hindexes : Indexes.IsStandard) (he : e.output = e)
    (h : e.encode? cs = some bs) : e.decode? bs = some cs ↔ ∀ c ∈ cs, ¬ e.Alters c := by
  have hsame : cs.map e.readAs = cs.map id ↔ ∀ c ∈ cs, e.readAs c = c := List.map_inj_left
  rw [List.map_id] at hsame
  rw [decode?_of_encode? hindexes he h, Option.some.injEq, hsame]
  simp only [← readAs_ne_self_iff, Ne, Decidable.not_not]

/-! ## Characters that cannot be written -/

namespace Iso2022Jp

/-- Whether a character can be placed does not depend on the mode. -/
theorem isSome_place? (mode : Mode) (c : Char) :
    (place? mode c).isSome = (place? .ascii c).isSome := by
  simp only [place?]
  repeat' split
  all_goals simp_all

/-- Whatever the mode, a text can be written if each of its characters can be placed. -/
theorem isSome_encodeFrom_iff {mode : Mode} :
    (encodeFrom mode cs).isSome ↔ ∀ c ∈ cs, (place? .ascii c).isSome := by
  induction cs generalizing mode with
  | nil => simp [encodeFrom]
  | cons c cs ih =>
      rw [List.forall_mem_cons, ← isSome_place? mode c, encodeFrom]
      cases hplace : place? mode c with
      | none => simp
      | some placed =>
          have hrest := @ih placed.1
          cases hencode : encodeFrom placed.1 cs with
          | none => simp_all
          | some rest => simp_all

/-- Half-width katakana can be written, though not as they are. -/
theorem isSome_place?_katakana {mode : Mode} (hindexes : Indexes.IsStandard)
    (h : Kana.halfWidthIndex? c = some n) : (place? mode c).isSome := by
  have hne {d : Char} : Kana.halfWidthIndex? d = none → c ≠ d := Kana.ne_of_halfWidthIndex? h
  have hlarge : 0xFF61 ≤ c.toNat := by
    unfold Kana.halfWidthIndex? at h
    split at h
    · exact ‹_ ∧ _›.1
    · cases h
  have hshift : ¬ isShift c.toNat := by
    simp only [isShift, Bool.or_eq_true, beq_iff_eq]
    omega
  have hwide := Kana.widen_of_halfWidthIndex? h
  have hpointer : (Indexes.jis0208.pointer? (japaneseForm (Kana.widen c))).isSome := by
    rw [(Kana.wideForms_spec.2 _ hwide).2.1]
    exact isSome_firstPointer?_iff.2 (hindexes.kana _ hwide)
  simp only [place?]
  rwa [if_neg hshift, if_neg (by omega), if_neg (hne rfl), if_neg (hne rfl), Option.isSome_map]

end Iso2022Jp

/-- A text can be written if each of its characters can be. -/
theorem isSome_encode?_iff : (e.encode? cs).isSome ↔ ∀ c ∈ cs, (e.encode? [c]).isSome := by
  unfold encode?
  cases e.output with
  | charset set => simp only [isSome_mapM_iff, List.mem_singleton, forall_eq]
  | iso2022Jp => simp only [Iso2022Jp.encode?, Iso2022Jp.isSome_encodeFrom_iff, List.mem_singleton,
      forall_eq]
  | gbk | gb18030 | eucJp | shiftJis | big5 | eucKr => exact isSome_encodeWith_iff
  | utf8 | replacement | utf16be | utf16le => simp

end ProjectOrder.Encoding

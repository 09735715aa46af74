import Mathlib.Data.List.Chain
import ProjectOrder.Markup.Reading
import ProjectOrder.Proofs.Markup.Spelling

/-!
# Texts in pieces

`Pieces ps cs` cuts a text into tokens without using the reader. `within_eq_iff` says that reading
finds the tokens of a text exactly if the text has such pieces and the tags in them are nested, and
`Pieces.unique` that it has no others.
-/

namespace ProjectOrder.Markup

/-- Two tokens may stand side by side: character data is not followed by more of it. -/
def Token.Apart (t u : Token) : Prop :=
  ¬ (t.isText ∧ u.isText)

/-- `Pieces ps cs` says that a text is made up of tokens, each with the text that stands for it. -/
structure Pieces (ps : List (Token × List Char)) (cs : List Char) : Prop where
  text_eq : ps.flatMap Prod.snd = cs
  written : ∀ p ∈ ps, p.1.Written p.2
  apart : (ps.map Prod.fst).IsChain Token.Apart

variable {c : Char} {cs rest source : List Char} {names inner : List (List Char)} {t : Token}
  {ts : List Token} {p : Token × List Char} {ps qs : List (Token × List Char)}

/-- A written token has at least one character. -/
theorem Token.Written.ne_nil (h : t.Written source) : source ≠ [] := by
  cases h with
  | text _ hne => exact hne
  | cdata | comment | doctype | instruction | closeTag | tag => simp

namespace Pieces

/-- Only the empty text has no pieces. -/
theorem nil_iff : Pieces [] cs ↔ cs = [] := by
  constructor
  · intro h
    exact h.text_eq.symm
  · rintro rfl
    exact ⟨rfl, by simp, by simp⟩

/-- The empty text has no pieces. -/
theorem eq_nil_of_nil (h : Pieces ps []) : ps = [] := by
  cases ps with
  | nil => rfl
  | cons p ps =>
      have hne := (h.written p (by simp)).ne_nil
      have htext := h.text_eq
      simp [hne] at htext

/-- Pieces begin with a tag exactly if their text does. -/
theorem head?_eq_iff (h : Pieces ps rest) :
    (∀ c ∈ rest.head?, c = '<') ↔ ∀ p ∈ ps.head?, p.1.isText = false := by
  cases ps with
  | nil => simp [nil_iff.1 h]
  | cons p ps =>
      have hwritten := h.written p (by simp)
      have hhead : rest.head? = p.2.head? := by
        rw [← h.text_eq, List.flatMap_cons, List.head?_append_of_ne_nil _ hwritten.ne_nil]
      obtain ⟨c, hc⟩ := Option.isSome_iff_exists.1 (List.isSome_head?.2 hwritten.ne_nil)
      have hiff := hwritten.head?_eq_some_iff
      rw [hc, Option.some.injEq] at hiff
      simpa [hhead, hc] using hiff

/-- A token stands apart from the first piece unless both are character data. -/
theorem apart_head?_iff :
    (∀ u ∈ (ps.map Prod.fst).head?, t.Apart u) ↔
      (t.isText → ∀ q ∈ ps.head?, q.1.isText = false) := by
  cases ps <;> simp [Token.Apart]

/-- The first piece of a text is its first token. -/
theorem cons_iff :
    Pieces (p :: ps) cs ↔
      ∃ c tail rest, cs = c :: tail ∧ cs = p.2 ++ rest ∧ Token.next? c tail = .ok (p.1, rest) ∧
        Pieces ps rest := by
  constructor
  · intro h
    have hwritten := h.written p (by simp)
    have hchain := List.isChain_cons.1 (List.map_cons ▸ h.apart)
    have hrest : Pieces ps (ps.flatMap Prod.snd) :=
      ⟨rfl, fun q hq => h.written q (List.mem_cons_of_mem _ hq), hchain.2⟩
    have htext : cs = p.2 ++ ps.flatMap Prod.snd := h.text_eq.symm
    cases cs with
    | nil => exact absurd (h.eq_nil_of_nil) (by simp)
    | cons c tail =>
        have hhead : p.1.isText → ∀ c ∈ (ps.flatMap Prod.snd).head?, c = '<' :=
          fun hp => hrest.head?_eq_iff.2 (apart_head?_iff.1 hchain.1 hp)
        exact ⟨c, tail, _, rfl, htext, hwritten.next?_eq_ok hhead htext, hrest⟩
  · rintro ⟨c, tail, rest, rfl, htext, hnext, hrest⟩
    obtain ⟨source, hsource, hwritten, hhead⟩ := Token.next?_eq_ok_iff.1 hnext
    obtain rfl : p.2 = source := List.append_cancel_right (htext.symm.trans hsource)
    refine ⟨by rw [List.flatMap_cons, hrest.text_eq, htext], ?_, ?_⟩
    · rintro q (_ | ⟨_, hq⟩)
      · exact hwritten
      · exact hrest.written q hq
    · rw [List.map_cons, List.isChain_cons]
      exact ⟨apart_head?_iff.2 fun hp => hrest.head?_eq_iff.1 (hhead hp), hrest.apart⟩

/-- A text has no more than one division into pieces. -/
theorem unique (hps : Pieces ps cs) (hqs : Pieces qs cs) : ps = qs := by
  induction ps generalizing cs qs with
  | nil =>
      obtain rfl := nil_iff.1 hps
      exact hqs.eq_nil_of_nil.symm
  | cons p ps ih =>
      obtain ⟨c, tail, rest, rfl, htext, hnext, hrest⟩ := cons_iff.1 hps
      cases qs with
      | nil => cases nil_iff.1 hqs
      | cons q qs =>
          obtain ⟨_, _, rest', heq, htext', hnext', hrest'⟩ := cons_iff.1 hqs
          cases heq
          rw [hnext, Except.ok.injEq, Prod.mk.injEq] at hnext'
          obtain ⟨htoken, rfl⟩ := hnext'
          have hsource : p.2 = q.2 := List.append_cancel_right (htext.symm.trans htext')
          rw [Prod.ext htoken hsource, ih hrest hrest']

end Pieces

/-- Reading the empty text ends without tokens and without a fault. -/
theorem Reading.within_nil : Reading.within names [] = ⟨[], none⟩ := by
  unfold Reading.within
  rfl

/-- Reading a text reads its first token and goes on behind it. -/
theorem Reading.within_cons (hnext : Token.next? c cs = .ok (t, rest))
    (hnest : t.nest names = .ok inner) :
    Reading.within names (c :: cs) =
      ⟨t :: (Reading.within inner rest).tokens, (Reading.within inner rest).fault⟩ := by
  conv => lhs; unfold Reading.within
  split
  · simp_all
  · rename_i heq
    rw [hnext, Except.ok.injEq, Prod.mk.injEq] at heq
    obtain ⟨rfl, rfl⟩ := heq
    rw [hnest]

/-- Reading a text finds its tokens if it is made up of pieces and its tags are nested in the open
elements. -/
theorem Reading.within_eq_iff :
    Reading.within names cs = ⟨ts, none⟩ ↔
      (∃ ps, ps.map Prod.fst = ts ∧ Pieces ps cs) ∧
        ∃ inner, ts.foldlM Token.nest names = .ok inner := by
  constructor
  · intro h
    -- the pieces are found token by token, as the text is read
    fun_induction Reading.within names cs generalizing ts with
    | case1 names =>
        cases h
        exact ⟨⟨[], rfl, Pieces.nil_iff.2 rfl⟩, names, rfl⟩
    | case2 | case3 => cases h
    | case4 names c tail t rest hnext names' hnest =>
        rename_i ih
        rw [Reading.mk.injEq] at h
        obtain ⟨rfl, hfault⟩ := h
        have hread : Reading.within names' rest = ⟨(Reading.within names' rest).tokens, none⟩ := by
          rw [← hfault]
        obtain ⟨⟨ps, hps, hpieces⟩, inner, hinner⟩ := ih hread
        obtain ⟨source, hsource, -⟩ := Token.next?_eq_ok_iff.1 hnext
        refine ⟨⟨(t, source) :: ps, by rw [List.map_cons, hps], ?_⟩, inner, ?_⟩
        · exact Pieces.cons_iff.2 ⟨c, tail, rest, rfl, hsource, hnext, hpieces⟩
        · rw [List.foldlM_cons, hnest]
          exact hinner
  · rintro ⟨⟨ps, rfl, hps⟩, inner, hnest⟩
    induction ps generalizing names cs with
    | nil =>
        obtain rfl := Pieces.nil_iff.1 hps
        exact within_nil
    | cons p ps ih =>
        obtain ⟨c, tail, rest, rfl, -, hnext, hrest⟩ := Pieces.cons_iff.1 hps
        rw [List.map_cons, List.foldlM_cons] at hnest
        cases hfirst : p.1.nest names with
        | error fault => simp [hfirst, bind, Except.bind] at hnest
        | ok names' =>
            rw [hfirst] at hnest
            rw [within_cons hnext hfirst, ih hrest hnest]
            rfl

/-- The tokens of a reading without fault are nested. -/
theorem Reading.exists_foldlM_nest (h : (within names cs).fault = none) :
    ∃ inner, (within names cs).tokens.foldlM Token.nest names = .ok inner :=
  (within_eq_iff.1 (h ▸ rfl : within names cs = ⟨(within names cs).tokens, none⟩)).2

end ProjectOrder.Markup

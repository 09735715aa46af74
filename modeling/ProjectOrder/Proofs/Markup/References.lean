import Mathlib.Data.List.Infix
import ProjectOrder.Markup.Reference
import ProjectOrder.Proofs.Markup.Cuts

/-!
# What references stand for

`Resolved cs out` relates a text to the one it stands for, reference by reference, and
`resolve?_eq_some_iff` says that resolving finds this text. A written value is read as the text it
stands for, or as it is where one of its references stands for nothing: `Reads`.
-/

namespace ProjectOrder.Markup

/-- A text is closed by a character that it does not hold. -/
theorem closes_singleton_iff {c : Char} {cs : List Char} : Closes [c] cs ↔ c ∉ cs := by
  rw [← List.nil_append [c], closes_concat_iff List.not_mem_nil, List.nil_append,
    List.singleton_infix_iff]

namespace Reference

variable {cs out body rest : List Char} {c : Char} {written value : String}

/-- `Resolved cs out` says that `out` is what a text stands for when its references are resolved. A
reference runs from `&` to the next `;`. -/
inductive Resolved : List Char → List Char → Prop where
  | nil : Resolved [] []
  | char {c : Char} {cs out : List Char} : c ≠ '&' → Resolved cs out → Resolved (c :: cs) (c :: out)
  | reference {body cs out : List Char} {c : Char} : '&' ∉ body → ';' ∉ body →
      character? body = some c → Resolved cs out → Resolved ('&' :: (body ++ ';' :: cs)) (c :: out)

/-- A character other than `&` stands for itself. -/
theorem resolve?_cons (hc : c ≠ '&') : resolve? (c :: cs) = (resolve? cs).map (c :: ·) := by
  rw [resolve?, if_neg hc]

/-- A reference stands for its character. -/
theorem resolve?_reference (hamp : '&' ∉ body) (hend : ';' ∉ body) :
    resolve? ('&' :: (body ++ ';' :: rest)) =
      (character? body).bind fun c => (resolve? rest).map (c :: ·) := by
  have hcut : cut? [';'] (body ++ ';' :: rest) = some (body, rest) :=
    cut?_eq_some_iff.2 ⟨by simp, closes_singleton_iff.2 hend⟩
  rw [resolve?, if_pos rfl]
  split
  · rename_i hnone
    rw [hcut] at hnone
    cases hnone
  · rename_i hsome
    rw [hcut] at hsome
    cases hsome
    rw [if_neg hamp]
    cases character? body <;> cases resolve? rest <;> rfl

/-- Resolving finds what a text stands for. -/
theorem resolve?_eq_some_iff : resolve? cs = some out ↔ Resolved cs out := by
  constructor
  · intro h
    fun_induction resolve? cs generalizing out with
    | case1 =>
        cases h
        exact .nil
    | case2 | case3 => cases h
    | case4 cs body rest hcut hamp ih =>
        obtain ⟨hcs, hcloses⟩ := cut?_eq_some_iff.1 hcut
        obtain ⟨c, hc, h⟩ := Option.bind_eq_some_iff.1 h
        obtain ⟨tail, htail, h⟩ := Option.bind_eq_some_iff.1 h
        cases h
        rw [hcs, List.append_assoc, List.singleton_append]
        exact .reference hamp (closes_singleton_iff.1 hcloses) hc (ih htail)
    | case5 c cs hc ih =>
        obtain ⟨tail, htail, rfl⟩ := Option.map_eq_some_iff.1 h
        exact .char hc (ih htail)
  · intro h
    induction h with
    | nil => simp [resolve?]
    | char hc _ ih => rw [resolve?_cons hc, ih, Option.map_some]
    | reference hamp hend hc _ ih => rw [resolve?_reference hamp hend, hc, ih]; rfl

/-- `Reads written value` says that a written value is read as another: as the text that it stands
for or, if one of its references cannot be resolved, as it is. -/
inductive Reads (written : String) : String → Prop where
  | resolved (out : List Char) : Resolved written.toList out → Reads written (String.ofList out)
  | asWritten : (∀ out, ¬ Resolved written.toList out) → Reads written written

/-- A written value is read as what resolving makes of it. -/
theorem reads_iff : Reads written value ↔ value = resolve written := by
  unfold resolve
  constructor
  · rintro (⟨out, hout⟩ | hnone)
    · rw [resolve?_eq_some_iff.2 hout]
    · have hresolve : resolve? written.toList = none :=
        Option.eq_none_iff_forall_ne_some.2 fun out hout => hnone out (resolve?_eq_some_iff.1 hout)
      rw [hresolve]
  · rintro rfl
    split
    · exact .resolved _ (resolve?_eq_some_iff.1 ‹_›)
    · refine .asWritten fun out hout => ?_
      simp_all [resolve?_eq_some_iff.2 hout]

end Reference

end ProjectOrder.Markup

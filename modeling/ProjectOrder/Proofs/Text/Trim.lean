import Mathlib.Data.List.TakeWhile
import ProjectOrder.Text.Blank

/-!
# Texts without the blanks at their ends

Stripping takes a run of characters off either end of a text (`exists_eq_append_strip`), and what
may be taken off does not show in the stripped text (`strip_append_append`). Texts that are the same
but for blanks at their ends have as many characters that are not blank: `ink_eq_of_strip_eq`.
-/

namespace ProjectOrder.Text

variable {p : Char → Bool} {front cs ds back : List Char}

/-- A text is the stripped one between what has been taken off. -/
theorem exists_eq_append_strip (p : Char → Bool) (cs : List Char) :
    ∃ front back, cs = front ++ strip p cs ++ back ∧ (∀ c ∈ front, p c) ∧ ∀ c ∈ back, p c := by
  have hfront : cs = cs.takeWhile p ++ cs.dropWhile p := List.takeWhile_append_dropWhile.symm
  have hback : (cs.dropWhile p).reverse = (cs.dropWhile p).reverse.takeWhile p ++
      (cs.dropWhile p).reverse.dropWhile p := List.takeWhile_append_dropWhile.symm
  refine ⟨cs.takeWhile p, ((cs.dropWhile p).reverse.takeWhile p).reverse, ?_,
    fun c hc => List.mem_takeWhile_imp hc,
    fun c hc => List.mem_takeWhile_imp (List.mem_reverse.1 hc)⟩
  rw [strip, List.append_assoc, ← List.reverse_append, ← hback, List.reverse_reverse, ← hfront]

/-- What may be taken off at the ends does not show in a stripped text. -/
theorem strip_append_append (hfront : ∀ c ∈ front, p c) (hback : ∀ c ∈ back, p c) :
    strip p (front ++ cs ++ back) = strip p cs := by
  have hreverse : ∀ c ∈ back.reverse, p c := fun c hc => hback c (List.mem_reverse.1 hc)
  rw [strip, strip, List.append_assoc, List.dropWhile_append_of_pos hfront, List.dropWhile_append]
  split
  · rename_i hnone
    rw [List.dropWhile_eq_nil_iff.2 hback, List.isEmpty_iff.1 hnone]
  · rw [List.reverse_append, List.dropWhile_append_of_pos hreverse]

/-- How many characters of a text are not blank. -/
def ink (cs : List Char) : Nat :=
  cs.countP fun c => !isBlank c

/-- Two texts have the ink of both. -/
@[simp] theorem ink_append : ink (cs ++ ds) = ink cs + ink ds :=
  List.countP_append

/-- A character adds at most one to the ink. -/
theorem ink_cons_le {c : Char} : ink (c :: cs) ≤ ink cs + 1 := by
  rw [ink, List.countP_cons]
  split <;> simp [ink]

/-- A character that is not blank adds one to the ink. -/
theorem ink_cons_of_not_blank {c : Char} (hc : isBlank c = false) : ink (c :: cs) = ink cs + 1 := by
  rw [ink, List.countP_cons]
  simp [hc, ink]

/-- Blanks have no ink. -/
theorem ink_eq_zero_of_blank (h : ∀ c ∈ cs, isBlank c) : ink cs = 0 :=
  List.countP_eq_zero.2 fun c hc => by simp [h c hc]

/-- Stripping blanks takes no ink. -/
theorem ink_strip : ink (strip isBlank cs) = ink cs := by
  obtain ⟨front, back, hcs, hfront, hback⟩ := exists_eq_append_strip isBlank cs
  have hink := congrArg ink hcs
  rw [ink_append, ink_append, ink_eq_zero_of_blank hfront, ink_eq_zero_of_blank hback] at hink
  omega

/-- Texts that are the same but for blanks at their ends have as much ink. -/
theorem ink_eq_of_strip_eq (h : strip isBlank cs = strip isBlank ds) : ink cs = ink ds := by
  rw [← ink_strip, h, ink_strip]

end ProjectOrder.Text

/-!
# Tables of runs

Where consecutive numbers stand for consecutive code points, a table need only hold the runs of
them: number of the first, its code point, length.
-/

namespace ProjectOrder.Encoding

/-- The number of a code point in a table of runs. -/
def numberIn? (runs : List (Nat × Nat × Nat)) (point : Nat) : Option Nat :=
  (runs.find? fun (_, first, length) => first ≤ point && point < first + length).map
    fun (number, first, _) => number + (point - first)

/-- The code point of a number in a table of runs. -/
def pointIn? (runs : List (Nat × Nat × Nat)) (n : Nat) : Option Nat :=
  (runs.find? fun (first, _, length) => first ≤ n && n < first + length).map
    fun (first, point, _) => point + (n - first)

/-- The rows of a table of runs: every number with its character. -/
def rowsOf (runs : List (Nat × Nat × Nat)) : List (Nat × Char) :=
  runs.flatMap fun (first, point, length) =>
    (List.range length).map fun i => (first + i, Char.ofNat (point + i))

/-- The runs of numbers begin at a bound or above it, and each begins where the one before it has
ended. -/
def Ascending (bound : Nat) : List (Nat × Nat × Nat) → Prop
  | [] => True
  | (first, _, length) :: runs => bound ≤ first ∧ Ascending (first + length) runs

instance decidableAscending (bound : Nat) : ∀ runs, Decidable (Ascending bound runs)
  | [] => inferInstanceAs (Decidable True)
  | (first, _, length) :: runs =>
    have := decidableAscending (first + length) runs
    inferInstanceAs (Decidable (bound ≤ first ∧ Ascending (first + length) runs))

variable {runs : List (Nat × Nat × Nat)} {row : Nat × Char} {bound : Nat}

/-- The rows of some runs are those of each run: one for each of its numbers. -/
theorem mem_rowsOf_iff : row ∈ rowsOf runs ↔ ∃ first point length,
    (first, point, length) ∈ runs ∧ ∃ i < length, (first + i, Char.ofNat (point + i)) = row := by
  simp only [rowsOf, List.mem_flatMap, Prod.exists, List.mem_map, List.mem_range]

/-- The numbers of a table end where its runs end. -/
theorem lt_of_mem_rowsOf (hbound : ∀ run ∈ runs, run.1 + run.2.2 ≤ bound) (h : row ∈ rowsOf runs) :
    row.1 < bound := by
  obtain ⟨first, point, length, hrun, i, hi, rfl⟩ := mem_rowsOf_iff.1 h
  have hend : first + length ≤ bound := hbound _ hrun
  show first + i < bound
  omega

/-- The rows of ascending runs have no pointer below the bound. -/
theorem Ascending.le_of_mem_rowsOf (h : Ascending bound runs) (hrow : row ∈ rowsOf runs) :
    bound ≤ row.1 := by
  induction runs generalizing bound with
  | nil => cases hrow
  | cons run runs ih =>
      obtain ⟨first, point, length⟩ := run
      rw [rowsOf, List.flatMap_cons, List.mem_append] at hrow
      rcases hrow with hrow | hrow
      · obtain ⟨i, -, rfl⟩ := List.mem_map.1 hrow
        exact Nat.le_trans h.1 (Nat.le_add_right ..)
      · have hlater := ih h.2 hrow
        have hfirst := h.1
        omega

/-- In a table without overlaps the numbers of the rows ascend. -/
theorem Ascending.pairwise_rowsOf (h : Ascending bound runs) :
    (rowsOf runs).Pairwise fun row later => row.1 < later.1 := by
  induction runs generalizing bound with
  | nil => exact .nil
  | cons run runs ih =>
      obtain ⟨first, point, length⟩ := run
      rw [rowsOf, List.flatMap_cons, List.pairwise_append]
      refine ⟨?_, ih h.2, fun row hrow later hlater => ?_⟩
      · rw [List.pairwise_map]
        exact List.pairwise_lt_range.imp fun hlt => Nat.add_lt_add_left hlt _
      · -- the first run has ended where the others begin
        obtain ⟨i, hi, rfl⟩ := List.mem_map.1 hrow
        have hbegin := h.2.le_of_mem_rowsOf hlater
        have hi := List.mem_range.1 hi
        show first + i < later.1
        omega

end ProjectOrder.Encoding

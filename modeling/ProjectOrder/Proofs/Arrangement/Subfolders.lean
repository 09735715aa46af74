import ProjectOrder.Proofs.Arrangement.Slots
import ProjectOrder.Proofs.Collation.Names

/-!
# Folders and their subfolders

In the order of keys the folders at an identifier and below it stand together, and those that spell
the identifier itself come first. `Key.subfolders_together` says so of any keys in order, and
`Node.folderRun_arrange` of the entries of an arranged child list.
-/

namespace ProjectOrder

/-! ## Runs in lists -/

section Runs

variable {α : Type} {r : α → α → Prop} {p : α → Prop} {as : List α}

/-- Where what has a property comes before what lacks it, a list is split in two. -/
theorem exists_split_of_pairwise (h : as.Pairwise fun a b => p b → p a) :
    ∃ front back, as = front ++ back ∧ (∀ a ∈ front, p a) ∧ ∀ a ∈ back, ¬ p a := by
  induction as with
  | nil => exact ⟨[], [], rfl, by simp, by simp⟩
  | cons a as ih =>
      obtain ⟨hhead, htail⟩ := List.pairwise_cons.1 h
      by_cases ha : p a
      · obtain ⟨front, back, rfl, hfront, hback⟩ := ih htail
        exact ⟨a :: front, back, rfl, List.forall_mem_cons.2 ⟨ha, hfront⟩, hback⟩
      · have hnone : ∀ b ∈ as, ¬ p b := fun b hb hpb => ha (hhead b hb hpb)
        exact ⟨[], a :: as, rfl, by simp, List.forall_mem_cons.2 ⟨ha, hnone⟩⟩

/-- Where a property passes to all that is between two that have it, those that have it stand
together. -/
theorem exists_run_of_pairwise (hbetween : ∀ a b c, r a b → r b c → p a → p c → p b)
    (h : as.Pairwise r) :
    ∃ before run after, as = before ++ run ++ after ∧ (∀ a ∈ run, p a) ∧
      ∀ a ∈ before ++ after, ¬ p a := by
  induction as with
  | nil => exact ⟨[], [], [], rfl, by simp, by simp⟩
  | cons a as ih =>
      obtain ⟨hhead, htail⟩ := List.pairwise_cons.1 h
      by_cases ha : p a
      · -- the run begins here, so it ends where the property does
        have hends : as.Pairwise fun b c => p c → p b :=
          htail.imp_of_mem fun {b c} hb _ hbc => hbetween a b c (hhead b hb) hbc ha
        obtain ⟨front, back, rfl, hfront, hback⟩ := exists_split_of_pairwise hends
        exact ⟨[], a :: front, back, rfl, List.forall_mem_cons.2 ⟨ha, hfront⟩, hback⟩
      · obtain ⟨before, run, after, rfl, hrun, hothers⟩ := ih htail
        exact ⟨a :: before, run, after, rfl, hrun, List.forall_mem_cons.2 ⟨ha, hothers⟩⟩

end Runs

namespace Key

variable {order : CaseOrder} {p : String} {j k l : Key} {ks : List Key}

/-- Whether a key is a folder with an identifier's segments up to letter case. -/
def Spells (p : String) (k : Key) : Prop :=
  k.kind = .folder ∧ Alike (segments p) k.name

/-- Whether a key is a folder whose segments begin with an identifier's up to letter case: the
folder itself or one below it. -/
def IsWithin (p : String) (k : Key) : Prop :=
  k.kind = .folder ∧ BeginsAlike (segments p) k.name

/-- A key that spells an identifier is within it. -/
theorem Spells.isWithin (h : k.Spells p) : k.IsWithin p :=
  ⟨h.1, h.2.beginsAlike⟩

/-! ## Folders in order -/

/-- No file comes before a folder. -/
theorem kind_eq_folder_of_isLE (h : (compare order j k).isLE) (hk : k.kind = .folder) :
    j.kind = .folder := by
  have hrank := Ordering.isLE_left_of_isLE_then h
  cases hj : j.kind with
  | folder => rfl
  | file =>
      rw [hj, hk] at hrank
      cases hrank

/-- A key between two folders at or below an identifier is such a folder. -/
theorem IsWithin.of_between (hj : j.IsWithin p) (hl : l.IsWithin p)
    (hjk : (compare order j k).isLE) (hkl : (compare order k l).isLE) : k.IsWithin p := by
  have hk : k.kind = .folder := kind_eq_folder_of_isLE hkl hl.1
  rw [compare_of_kind_eq (hj.1.trans hk.symm)] at hjk
  rw [compare_of_kind_eq (hk.trans hl.1.symm)] at hkl
  exact ⟨hk, hj.2.of_between hl.2 (Ordering.isLE_left_of_isLE_then hjk)
    (Ordering.isLE_left_of_isLE_then hkl)⟩

/-- A folder comes before those below it. -/
theorem Spells.compare_eq_lt (hj : j.Spells p) (hk : k.IsWithin p) (hbelow : ¬ k.Spells p) :
    compare order j k = .lt := by
  have hname : ¬ Alike (segments p) k.name := fun h => hbelow ⟨hk.1, h⟩
  rw [compare_of_kind_eq (hj.1.trans hk.1.symm), hj.2.compareLex_eq_lt hk.2 hname]
  rfl

/-- `FolderRun p ks` says that the folders at and below an identifier stand together among keys, and
that those that spell it come first. -/
def FolderRun (p : String) (ks : List Key) : Prop :=
  ∃ before spellings below after, ks = before ++ (spellings ++ below) ++ after ∧
    (∀ k ∈ spellings, k.Spells p) ∧ (∀ k ∈ below, k.IsWithin p ∧ ¬ k.Spells p) ∧
    ∀ k ∈ before ++ after, ¬ k.IsWithin p

/-- Keys in order hold the folders at and below an identifier as one run. -/
theorem folderRun_of_pairwise (h : ks.Pairwise fun j k => (compare order j k).isLE) :
    FolderRun p ks := by
  obtain ⟨before, run, after, rfl, hrun, hothers⟩ :=
    exists_run_of_pairwise (p := IsWithin p) (fun _ _ _ hjk hkl hj hl => hj.of_between hl hjk hkl) h
  have hsorted : run.Pairwise fun j k => (compare order j k).isLE :=
    (List.pairwise_append.1 (List.pairwise_append.1 h).1).2.1
  have hfirst : run.Pairwise fun j k => k.Spells p → j.Spells p := by
    refine hsorted.imp_of_mem fun {j k} hj _ hjk hk => ?_
    by_contra hbelow
    rw [Std.OrientedCmp.gt_of_lt (hk.compare_eq_lt (hrun j hj) hbelow)] at hjk
    cases hjk
  obtain ⟨spellings, below, rfl, hspellings, hbelow⟩ := exists_split_of_pairwise hfirst
  exact ⟨before, spellings, below, after, rfl, hspellings,
    fun k hk => ⟨hrun k (List.mem_append_right _ hk), hbelow k hk⟩, hothers⟩

/-- Subfolders stay together behind their parent. What is between two folders at or below an
identifier is such a folder, a spelling of the identifier comes before the folders below it, and so
in any keys in order these folders form one run that starts with the spellings. -/
theorem subfolders_together (order : CaseOrder) (p : String) :
    (∀ x y z : Key, compare order x y ≠ .gt → compare order y z ≠ .gt →
      x.IsWithin p → z.IsWithin p → y.IsWithin p) ∧
    (∀ x y : Key, x.Spells p → y.IsWithin p → ¬ y.Spells p → compare order x y = .lt) ∧
    ∀ ks : List Key, ks.Pairwise (fun j k => compare order j k ≠ .gt) → FolderRun p ks := by
  refine ⟨fun x y z hxy hyz hx hz => ?_, fun x y hx hy hbelow => hx.compare_eq_lt hy hbelow,
    fun ks hks => ?_⟩
  · exact hx.of_between hz (Ordering.ne_gt_iff_isLE.1 hxy) (Ordering.ne_gt_iff_isLE.1 hyz)
  · exact folderRun_of_pairwise (hks.imp Ordering.ne_gt_iff_isLE.1)

/-- A space comes before a separator as a character, and yet `A B` does not come between `A` and
`A\B`. Doubled and trailing separators make no difference. -/
theorem subfolders_together_space :
    let parent : Key := ⟨.folder, "A\\\\"⟩
    let child : Key := ⟨.folder, "A\\\\B"⟩
    let other : Key := ⟨.folder, "a/c"⟩
    let apart : Key := ⟨.folder, "A B"⟩
    compare .upperFirst parent child ≠ .gt ∧ compare .upperFirst child other ≠ .gt ∧
      parent.Spells "a" ∧ other.IsWithin "a" ∧ ¬ other.Spells "a" ∧
      child.IsWithin "a" ∧ compare .upperFirst parent other = .lt ∧
      FolderRun "a" [parent, child, other, apart] := by
  intro parent child other apart
  have hsorted : [parent, child, other, apart].Pairwise
      fun j k => compare .upperFirst j k ≠ .gt := by decide
  have hparent : parent.Spells "a" := ⟨rfl, by decide⟩
  have hother : other.IsWithin "a" := ⟨rfl, [['a']], [['c']], by decide, by decide⟩
  have hbelow : ¬ other.Spells "a" := fun h => absurd h.2 (by decide)
  have hfirst : compare .upperFirst parent child ≠ .gt := by decide
  have hsecond : compare .upperFirst child other ≠ .gt := by decide
  obtain ⟨hbetween, hless, hrun⟩ := subfolders_together .upperFirst "a"
  exact ⟨hfirst, hsecond, hparent, hother, hbelow,
    hbetween parent child other hfirst hsecond hparent.isWithin hother,
    hless parent other hparent hother hbelow, hrun _ hsorted⟩

end Key

namespace Node

/-- The keys of the entries of an arranged child list hold the folders at and below an identifier as
one run. -/
theorem folderRun_arrange (order : CaseOrder) (p : String) (ns : List Node) :
    Key.FolderRun p ((arrange order ns).filterMap key?) := by
  have hplaced : Placed order ns (arrange order ns) := placed_iff.2 rfl
  have hsorted : ((arrange order ns).filterMap key?).Pairwise
      fun j k => (Key.compare order j k).isLE := by
    refine List.pairwise_filterMap.2 ((List.pairwise_filter.1 hplaced.sorted).imp ?_)
    intro m n hle j hj k hk
    rw [← le_of_key? hj hk]
    exact hle (isEntry_iff_key?.2 ⟨j, hj⟩) (isEntry_iff_key?.2 ⟨k, hk⟩)
  exact Key.folderRun_of_pairwise hsorted

end Node

end ProjectOrder

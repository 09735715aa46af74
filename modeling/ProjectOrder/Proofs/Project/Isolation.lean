import ProjectOrder.Proofs.Files.Script
import ProjectOrder.Proofs.Project.Pairs

/-!
# The two files of a project

Runs on files and on projects are scripts about these files (`within_runFile`, `within_runProject`),
so what becomes of a file depends on that file alone (`runFile_agreeAt`) and is not seen at other
places (`agreeAt_runFile_of_not_same`). The two files of a project are therefore processed as if
each were alone (`runProject_fst`), and neither can tell what state the other is in:
`runProject_isolated`.
-/

namespace ProjectOrder

variable {settings : Settings} {mode : Mode} {d e : Disk} {p q : FilePath}

/-! ## Runs as scripts -/

section Scripts

open Script (Within)

variable {paths : List FilePath}

/-- To examine a file takes two operations on it, or one. -/
theorem perform_examine [Indexes] (settings : Settings) (p : FilePath) :
    (examine settings p : Script _).perform = examine settings p := by
  rw [examine, examine, Script.perform_bind, Script.perform_present]
  congr 1
  funext present
  cases present with
  | false => rfl
  | true =>
      simp only [if_true]
      rw [Script.perform_bind, Script.perform_read]
      congr 1
      funext content
      cases content <;> rfl

/-- Examining a file is a script about this file. -/
theorem within_examine [Indexes] (settings : Settings) (hp : p ∈ paths) :
    (examine settings p : Script _).Within paths := by
  refine .step p _ _ rfl hp fun present => ?_
  cases present with
  | false => exact .done _
  | true =>
      refine .step p _ _ rfl hp fun content => ?_
      cases content <;> exact .done _

/-- Carrying out a plan is the same as a script and as an action. -/
theorem perform_carryOut (mode : Mode) (p : FilePath) (plan : Plan) :
    (carryOut mode p plan : Script _).perform = carryOut mode p plan := by
  cases plan with
  | keep => rfl
  | replace tally output =>
      cases mode with
      | check => rfl
      | write =>
          rw [carryOut, carryOut, Script.perform_bind, Script.perform_replace]
          congr 1
          funext written
          cases written <;> rfl

/-- Carrying out a plan for a file is a script about this file. -/
theorem within_carryOut (mode : Mode) (hp : p ∈ paths) (plan : Plan) :
    (carryOut mode p plan : Script _).Within paths := by
  cases plan with
  | keep => exact .done _
  | replace tally output =>
      cases mode with
      | check => exact .done _
      | write =>
          refine .step p _ _ rfl hp fun written => ?_
          cases written <;> exact .done _

/-- A run on a file is the same as a script and as an action. -/
theorem perform_runFile [Indexes] (settings : Settings) (mode : Mode) (p : FilePath) :
    (runFile settings mode p : Script _).perform = runFile settings mode p := by
  rw [runFile, runFile, Script.perform_bind, perform_examine]
  congr 1
  funext result
  cases result with
  | error failure => rfl
  | ok plan => exact perform_carryOut mode p plan

/-- A run on a file is about this file. -/
theorem within_runFile [Indexes] (settings : Settings) (mode : Mode) (hp : p ∈ paths) :
    (runFile settings mode p : Script _).Within paths := by
  refine (within_examine settings hp).bind fun result => ?_
  cases result with
  | error failure => exact .done _
  | ok plan => exact within_carryOut mode hp plan

/-- A run on a project is the same as a script and as an action. -/
theorem perform_runProject [Indexes] (settings : Settings) (mode : Mode) (p : FilePath) :
    (runProject settings mode p : Script _).perform = runProject settings mode p := by
  simp only [runProject, Script.perform_bind, Script.perform_present, perform_runFile]
  congr 1
  funext result
  congr 1
  funext present
  cases present <;> simp [perform_runFile]

/-- A run on a project is about its two files. -/
theorem within_runProject [Indexes] (settings : Settings) (mode : Mode) (p : FilePath) :
    (runProject settings mode p : Script _).Within [p, settings.companion p] := by
  refine (within_runFile settings mode (by simp)).bind fun result => ?_
  refine .step (settings.companion p) _ _ rfl (by simp) fun present => ?_
  cases present with
  | false => exact .done _
  | true => exact (within_runFile settings mode (by simp)).bind fun _ => .done _

end Scripts

/-! ## Runs on one file -/

/-- Runs on a file at which two disks agree have one result, and wherever the disks agree before the
runs they agree after them. -/
theorem runFile_agreeAt [Indexes] (settings : Settings) (mode : Mode) (h : d.AgreeAt e p) :
    ((runFile settings mode p : StateM Disk _).run d).1 =
        ((runFile settings mode p : StateM Disk _).run e).1 ∧
      ∀ q, d.AgreeAt e q → ((runFile settings mode p : StateM Disk _).run d).2.AgreeAt
        ((runFile settings mode p : StateM Disk _).run e).2 q := by
  rw [← perform_runFile]
  exact (within_runFile settings mode (List.mem_singleton_self p)).perform_agreeAt
    (List.forall_mem_singleton.2 h)

/-- A run on a file is not seen at any other path. -/
theorem agreeAt_runFile_of_not_same [Indexes] (settings : Settings) (mode : Mode) (d : Disk)
    (h : ¬ q.same p) : ((runFile settings mode p : StateM Disk _).run d).2.AgreeAt d q := by
  rw [← perform_runFile]
  exact (within_runFile settings mode (List.mem_singleton_self p)).agreeAt_of_not_same
    (List.forall_mem_singleton.2 h) d

/-- A run on a file never skips it. -/
theorem runFile_fst_ne_skipped [Indexes] (settings : Settings) (mode : Mode) (p : FilePath)
    (d : Disk) :
    ((runFile settings mode p : StateM Disk _).run d).1 ≠ .ok .skipped := by
  cases mode with
  | check =>
      rw [runFile_check]
      rcases d.planAt settings p with failure | plan
      · exact nofun
      · cases plan <;> exact nofun
  | write =>
      rcases runFile_write_cases settings p d with
        ⟨failure, hrun⟩ | ⟨-, hrun⟩ | ⟨tally, output, -, -, hrun⟩ <;>
      · rw [hrun]
        exact nofun

/-! ## Runs on a project -/

/-- The report on a project of which each file is processed alone. -/
def PairReport.alone [Indexes] (settings : Settings) (mode : Mode) (d : Disk) (p : FilePath) :
    PairReport :=
  let filters := settings.companion p
  ⟨⟨p, .itemList, ((runFile settings mode p : StateM Disk _).run d).1⟩,
    ⟨filters, .filters,
      if d.present filters then ((runFile settings mode filters : StateM Disk _).run d).1
      else .ok .skipped⟩⟩

/-- A run on a project, step by step: the filters file is looked for on the disk that the run on the
item list leaves. -/
theorem runProject_run [Indexes] (settings : Settings) (mode : Mode) (p : FilePath) (d : Disk) :
    (runProject settings mode p : StateM Disk _).run d =
      let filters := settings.companion p
      let first := (runFile settings mode p : StateM Disk _).run d
      let second := (runFile settings mode filters : StateM Disk _).run first.2
      if first.2.present filters then
        (⟨⟨p, .itemList, first.1⟩, ⟨filters, .filters, second.1⟩⟩, second.2)
      else (⟨⟨p, .itemList, first.1⟩, ⟨filters, .filters, .ok .skipped⟩⟩, first.2) := by
  generalize hfirst : (runFile settings mode p : StateM Disk _).run d = first
  obtain ⟨result, d₁⟩ := first
  dsimp only
  generalize hsecond :
    (runFile settings mode (settings.companion p) : StateM Disk _).run d₁ = second
  obtain ⟨result', d₂⟩ := second
  cases hpresent : d₁.present (settings.companion p) with
  | true => rw [runProject_of_present hfirst hpresent hsecond, if_pos rfl]
  | false => rw [runProject_of_absent hfirst hpresent, if_neg Bool.false_ne_true]

section Apart

variable (hapart : ¬ (settings.companion p).same p)

include hapart

/-- The run on the item list is not seen at the filters file. -/
theorem agreeAt_companion [Indexes] (mode : Mode) (d : Disk) :
    ((runFile settings mode p : StateM Disk _).run d).2.AgreeAt d (settings.companion p) :=
  agreeAt_runFile_of_not_same settings mode d hapart

/-- Each file of a project is processed as if it were alone. -/
theorem runProject_fst [Indexes] (mode : Mode) (d : Disk) :
    ((runProject settings mode p : StateM Disk _).run d).1 = .alone settings mode d p := by
  have hagree := agreeAt_companion hapart mode d
  rw [runProject_run, PairReport.alone, ← hagree.present,
    ← (runFile_agreeAt settings mode hagree).1]
  dsimp only
  split <;> rfl

/-- After a run on a project, the item list is as the run on it alone leaves it. -/
theorem agreeAt_itemList_runProject [Indexes] (mode : Mode) (d : Disk) :
    ((runProject settings mode p : StateM Disk _).run d).2.AgreeAt
      ((runFile settings mode p : StateM Disk _).run d).2 p := by
  rw [runProject_run]
  dsimp only
  split
  · refine agreeAt_runFile_of_not_same settings mode _ ?_
    rwa [FilePath.same_comm]
  · exact .refl _ p

/-- After runs on a project on two disks that agree at its filters file, the disks agree there. -/
theorem agreeAt_filters_runProject [Indexes] (mode : Mode)
    (h : d.AgreeAt e (settings.companion p)) :
    ((runProject settings mode p : StateM Disk _).run d).2.AgreeAt
      ((runProject settings mode p : StateM Disk _).run e).2 (settings.companion p) := by
  have hfirst : ((runFile settings mode p : StateM Disk _).run d).2.AgreeAt
      ((runFile settings mode p : StateM Disk _).run e).2 (settings.companion p) :=
    ((agreeAt_companion hapart mode d).trans h).trans (agreeAt_companion hapart mode e).symm
  rw [runProject_run, runProject_run]
  dsimp only
  rw [hfirst.present]
  split
  · exact (runFile_agreeAt settings mode hfirst).2 _ hfirst
  · exact hfirst

end Apart

/-- Neither file of a project can tell what state the other is in. The result for the item list and
what the file is like afterwards depend on the item list alone, those for the filters file on the
filters file alone. The item list is processed as if there were no project, and so is the filters
file, which is skipped exactly if it is not there. -/
theorem runProject_isolated [Indexes] (settings : Settings) (mode : Mode) (p : FilePath)
    (hapart : ¬ (settings.companion p).same p) :
    let filters := settings.companion p
    let run := (runProject settings mode p : StateM Disk _).run
    (∀ d e : Disk, d.AgreeAt e p →
      (run d).1.itemList.result = (run e).1.itemList.result ∧ (run d).2.AgreeAt (run e).2 p) ∧
    (∀ d e : Disk, d.AgreeAt e filters →
      (run d).1.filters.result = (run e).1.filters.result ∧ (run d).2.AgreeAt (run e).2 filters) ∧
    ∀ d : Disk,
      (run d).1.itemList.result = ((runFile settings mode p : StateM Disk _).run d).1 ∧
      ((run d).1.filters.result = .ok .skipped ↔ d.present filters = false) ∧
      (d.present filters →
        (run d).1.filters.result = ((runFile settings mode filters : StateM Disk _).run d).1) := by
  intro filters run
  have hreport (d : Disk) : (run d).1 = .alone settings mode d p := runProject_fst hapart mode d
  refine ⟨fun d e h => ?_, fun d e h => ?_, fun d => ?_⟩
  · obtain ⟨hresult, hafter⟩ := runFile_agreeAt settings mode h
    rw [hreport d, hreport e]
    exact ⟨hresult, ((agreeAt_itemList_runProject hapart mode d).trans (hafter p h)).trans
      (agreeAt_itemList_runProject hapart mode e).symm⟩
  · have hresult := (runFile_agreeAt settings mode h).1
    rw [hreport d, hreport e]
    refine ⟨?_, agreeAt_filters_runProject hapart mode h⟩
    simp only [PairReport.alone, filters] at hresult ⊢
    rw [hresult, h.present]
  · rw [hreport d]
    refine ⟨rfl, ?_, fun hpresent => if_pos hpresent⟩
    show (if d.present filters then _ else _) = _ ↔ _
    cases hpresent : d.present filters with
    | true => simpa using runFile_fst_ne_skipped settings mode filters d
    | false => simp

/-- A project with both files beside projects that have only one of them. -/
theorem runProject_isolated_twoFiles :
    let p : FilePath := ⟨"p.vcxproj"⟩
    let filters := Settings.default.companion p
    let content := Document.twoFilesContent "b" "a"
    let both := Disk.ofFiles [(p, content), (filters, content)]
    let itemListOnly := Disk.ofFiles [(p, content)]
    let filtersOnly := Disk.ofFiles [(filters, content)]
    let run := (runProject .default .write p : StateM Disk _).run
    ¬ filters.same p ∧
      (itemListOnly.AgreeAt both p ∧
        (run itemListOnly).1.itemList.result = (run both).1.itemList.result ∧
        (run itemListOnly).2.AgreeAt (run both).2 p) ∧
      (filtersOnly.AgreeAt both filters ∧
        (run filtersOnly).1.filters.result = (run both).1.filters.result ∧
        (run filtersOnly).2.AgreeAt (run both).2 filters) ∧
      (run itemListOnly).1.filters.result = .ok .skipped ∧
      (both.present filters ∧ (run both).1.filters.result =
        ((runFile .default .write filters : StateM Disk _).run both).1) := by
  intro p filters content both itemListOnly filtersOnly run
  have hapart : ¬ filters.same p := by decide
  have hother : p.same filters = false := by decide
  have hitemList : itemListOnly.AgreeAt both p := by
    constructor <;> simp [itemListOnly, both, Disk.ofFiles]
  have hfilters : filtersOnly.AgreeAt both filters := by
    constructor <;> simp [filtersOnly, both, Disk.ofFiles, hother]
  have hpresent : both.present filters := by simp [both, Disk.ofFiles]
  have habsent : itemListOnly.present filters = false := by
    simp [itemListOnly, Disk.ofFiles, hother]
  clear_value both itemListOnly filtersOnly
  have hisolated := runProject_isolated .default .write p hapart
  exact ⟨hapart, ⟨hitemList, hisolated.1 _ _ hitemList⟩, ⟨hfilters, hisolated.2.1 _ _ hfilters⟩,
    (hisolated.2.2 itemListOnly).2.1.2 habsent, hpresent, (hisolated.2.2 both).2.2 hpresent⟩

end ProjectOrder

import Mathlib.Data.List.Forall2
import ProjectOrder.Proofs.Project.Isolation

/-!
# What a check foretells

A check of a file says what sorting it would come to: `Disk.Foretells` lists the ways in which the
two results go together. For projects without a file in common the same holds of all reports, in
whatever order the operations of the runs follow each other, for the report on a project is then the
one that it has alone (`reports_eq_alone`). Both are put together in `check_foretells`.
-/

namespace ProjectOrder

variable {settings : Settings} {mode : Mode} {d d' : Disk} {p : FilePath} {ps : List FilePath}
  {reports : List PairReport}

/-! ## Projects apart -/

/-- The item lists and filters files of some projects are at places that are all different. -/
def Settings.Apart (s : Settings) (projects : List FilePath) : Prop :=
  (projects.flatMap fun p => [p, s.companion p]).Pairwise fun p q => ¬ p.same q

namespace Settings.Apart

/-- The two files of each project are apart. -/
theorem companion (h : settings.Apart ps) (hp : p ∈ ps) : ¬ (settings.companion p).same p := by
  obtain ⟨hfiles, -⟩ := List.pairwise_flatMap.1 h
  rw [FilePath.same_comm]
  exact List.rel_of_pairwise_cons (hfiles p hp) (List.mem_singleton_self _)

/-- Runs on projects that are apart do not meet. -/
theorem separate [Indexes] (h : settings.Apart ps) (mode : Mode) :
    (ps.map fun p => (runProject settings mode p : Script _)).Pairwise Script.Separate := by
  obtain ⟨-, hprojects⟩ := List.pairwise_flatMap.1 h
  refine List.pairwise_map.2 (hprojects.imp fun {p q} hpq => ?_)
  exact ⟨_, _, within_runProject settings mode p, within_runProject settings mode q, hpq⟩

end Settings.Apart

/-- Runs on projects one after the other are one of the ways in which they run side by side. -/
theorem sideBySide_runProjects [Indexes] (settings : Settings) (mode : Mode) (ps : List FilePath)
    (d : Disk) :
    Script.SideBySide d (ps.map fun p => runProject settings mode p)
      ((runProjects settings mode ps : StateM Disk _).run d).1
      ((runProjects settings mode ps : StateM Disk _).run d).2 := by
  induction ps generalizing d with
  | nil => exact .refl
  | cons p ps ih =>
      generalize hfirst : (runProject settings mode p : StateM Disk _).run d = first
      obtain ⟨report, d₁⟩ := first
      have hrest := ih d₁
      generalize hrun : (runProjects settings mode ps : StateM Disk _).run d₁ = rest at hrest
      obtain ⟨reports, d₂⟩ := rest
      rw [runProjects_cons hfirst hrun]
      refine Script.SideBySide.cons ?_ hrest
      rw [perform_runProject, hfirst]

/-- The report on each of some projects that are apart is the one that it has alone. -/
theorem reports_eq_alone [Indexes] (hapart : settings.Apart ps)
    (h : Script.SideBySide d (ps.map fun p => runProject settings mode p) reports d') :
    reports = ps.map (.alone settings mode d) := by
  rw [h.results_eq (hapart.separate mode), Script.alone, List.map_map]
  refine List.map_congr_left fun p hp => ?_
  show ((runProject settings mode p : Script _).perform.run d).1 = _
  rw [perform_runProject, runProject_fst (hapart.companion hp)]

/-! ## What a check says about sorting -/

/-- `d.Foretells path checked sorted` says that on the disk `d` the result of checking a file goes
together with the result of sorting it. Only where the check finds entries out of order may the two
differ, and only because the file cannot be written. -/
inductive Disk.Foretells (d : Disk) (path : FilePath) :
    Except Failure Outcome → Except Failure Outcome → Prop
  | failed (failure : Failure) : Foretells d path (.error failure) (.error failure)
  | unchanged : Foretells d path (.ok .unchanged) (.ok .unchanged)
  | skipped : Foretells d path (.ok .skipped) (.ok .skipped)
  | sorted (tally : Tally) : d.writeFault? path = none →
      Foretells d path (.ok (.sorted tally)) (.ok (.sorted tally))
  | missing (tally : Tally) : d.writeFault? path = some .notFound →
      Foretells d path (.ok (.sorted tally)) (.error (.notFound path))
  | unwritable (tally : Tally) (fault : IoFault) : d.writeFault? path = some fault →
      fault ≠ .notFound → Foretells d path (.ok (.sorted tally)) (.error (.operation "write" path))

/-- The reports of a check and of a run that sorts are about one file, and what the check says goes
together with what becomes of the file. -/
def Disk.ForetellsReport (d : Disk) (checked sorted : Report) : Prop :=
  sorted.path = checked.path ∧ sorted.part = checked.part ∧
    d.Foretells checked.path checked.result sorted.result

/-- A check of a project goes together with a run that sorts it, file by file. -/
structure Disk.ForetellsPair (d : Disk) (checked sorted : PairReport) : Prop where
  itemList : d.ForetellsReport checked.itemList sorted.itemList
  filters : d.ForetellsReport checked.filters sorted.filters

/-- A fault of writing is told as a missing file or as an operation that has failed. -/
theorem Disk.foretells_of_fault {fault : IoFault} (h : d.writeFault? p = some fault)
    (tally : Tally) : d.Foretells p (.ok (.sorted tally)) (.error (.ofIo "write" p fault)) := by
  by_cases hmissing : fault = .notFound
  · subst hmissing
    exact .missing tally h
  · have hfailure : Failure.ofIo "write" p fault = .operation "write" p := by
      cases fault with
      | notFound => exact absurd rfl hmissing
      | _ => rfl
    rw [hfailure]
    exact .unwritable tally fault h hmissing

/-- A check of a file foretells what sorting it comes to. -/
theorem runFile_foretold [Indexes] (settings : Settings) (p : FilePath) (d : Disk) :
    d.Foretells p ((runFile settings .check p : StateM Disk _).run d).1
      ((runFile settings .write p : StateM Disk _).run d).1 := by
  rw [runFile_check]
  cases hplan : d.planAt settings p with
  | error failure =>
      rw [runFile_of_error hplan]
      exact .failed failure
  | ok plan =>
      rw [runFile_of_ok hplan]
      cases plan with
      | keep => exact .unchanged
      | replace tally output =>
          cases hfault : d.writeFault? p with
          | some fault =>
              rw [carryOut_run_of_fault hfault]
              exact Disk.foretells_of_fault hfault tally
          | none =>
              rw [carryOut_run_of_ok hfault]
              exact .sorted tally hfault

/-- A check of a project whose files are processed alone foretells what sorting them comes to. -/
theorem PairReport.alone_foretold [Indexes] (settings : Settings) (d : Disk) (p : FilePath) :
    d.ForetellsPair (.alone settings .check d p) (.alone settings .write d p) := by
  refine ⟨⟨rfl, rfl, runFile_foretold settings p d⟩, rfl, rfl, ?_⟩
  rw [alone, alone]
  dsimp only
  split
  · exact runFile_foretold settings (settings.companion p) d
  · exact .skipped

/-- Checking foretells what sorting comes to. This is so for a single file, and for projects that
are apart it is so for the report in every position, whether the projects are processed one after
the other or side by side. -/
theorem check_foretells [Indexes] (settings : Settings) (d : Disk) :
    (∀ p, d.Foretells p ((runFile settings .check p : StateM Disk _).run d).1
      ((runFile settings .write p : StateM Disk _).run d).1) ∧
    ∀ projects, settings.Apart projects →
      List.Forall₂ d.ForetellsPair ((runProjects settings .check projects : StateM Disk _).run d).1
        ((runProjects settings .write projects : StateM Disk _).run d).1 ∧
      ∀ checked sorted d₁ d₂,
        Script.SideBySide d (projects.map fun p => runProject settings .check p) checked d₁ →
        Script.SideBySide d (projects.map fun p => runProject settings .write p) sorted d₂ →
        List.Forall₂ d.ForetellsPair checked sorted := by
  refine ⟨fun p => runFile_foretold settings p d, fun projects hapart => ?_⟩
  have hreports {checked sorted : List PairReport} {d₁ d₂ : Disk}
      (hchecked : Script.SideBySide d
        (projects.map fun p => runProject settings .check p) checked d₁)
      (hsorted : Script.SideBySide d
        (projects.map fun p => runProject settings .write p) sorted d₂) :
      List.Forall₂ d.ForetellsPair checked sorted := by
    rw [reports_eq_alone hapart hchecked, reports_eq_alone hapart hsorted]
    rw [List.forall₂_map_left_iff, List.forall₂_map_right_iff]
    exact List.forall₂_same.2 fun p _ => PairReport.alone_foretold settings d p
  exact ⟨hreports (sideBySide_runProjects settings .check projects d)
    (sideBySide_runProjects settings .write projects d), fun _ _ _ _ => hreports⟩

/-- Two projects on a disk that nothing can be written to: the one that is out of order fails as
foretold. -/
theorem check_foretells_readOnly :
    let p : FilePath := ⟨"p.vcxproj"⟩
    let q : FilePath := ⟨"q.vcxproj"⟩
    let files := Disk.ofFiles [(p, Document.twoFilesContent "b" "a")]
    let d : Disk := { files with writeFault? := fun _ => some .permissionDenied }
    Settings.default.Apart [p, q] ∧
      (∃ tally, ((runFile .default .check p : StateM Disk _).run d).1 = .ok (.sorted tally)) ∧
      ((runFile .default .write p : StateM Disk _).run d).1 = .error (.operation "write" p) ∧
      List.Forall₂ d.ForetellsPair ((runProjects .default .check [p, q] : StateM Disk _).run d).1
        ((runProjects .default .write [p, q] : StateM Disk _).run d).1 ∧
      ∃ checked sorted d₁ d₂,
        Script.SideBySide d ([p, q].map fun p => runProject .default .check p) checked d₁ ∧
        Script.SideBySide d ([p, q].map fun p => runProject .default .write p) sorted d₂ ∧
        List.Forall₂ d.ForetellsPair checked sorted := by
  intro p q files d
  have hapart : Settings.default.Apart [p, q] := by
    rw [Settings.Apart]
    decide
  obtain ⟨-, -, tally, hplan⟩ := Disk.planAt_twoFiles .default p
  have hplan : d.planAt .default p =
      .ok (.replace tally (Document.twoFilesContent "a" "b")) := hplan
  have hfault : d.writeFault? p = some .permissionDenied := rfl
  obtain ⟨checked, d₁, hchecked⟩ :=
    Script.exists_sideBySide d ([p, q].map fun p => runProject .default .check p)
  obtain ⟨sorted, d₂, hsorted⟩ :=
    Script.exists_sideBySide d ([p, q].map fun p => runProject .default .write p)
  obtain ⟨hone, htwo⟩ := (check_foretells .default d).2 [p, q] hapart
  refine ⟨hapart, ⟨tally, ?_⟩, ?_, hone, checked, sorted, d₁, d₂, hchecked, hsorted,
    htwo _ _ _ _ hchecked hsorted⟩
  · rw [runFile_check, hplan]
    rfl
  · rw [runFile_of_ok hplan, carryOut_run_of_fault hfault]
    rfl

end ProjectOrder

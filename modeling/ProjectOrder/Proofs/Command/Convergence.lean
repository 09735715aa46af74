import ProjectOrder.Proofs.Command.Steady
import ProjectOrder.Proofs.Project.Overlap
import ProjectOrder.Proofs.Project.Pairs

/-!
# Sorting projects again

Once the files of projects have been sorted without a failure, there is nothing left to do:
`project_converges`. A second command loads the settings and finds the projects of the first one,
and their files are in order.
-/

namespace ProjectOrder

/-! ## How commands end -/

/-- No fault ends a command with the status of success. -/
theorem CommandFault.exitStatus_ne_zero (fault : CommandFault) : fault.exitStatus ≠ 0 := by
  have hkind (kind : FailureKind) : kind.exitStatus ≠ 0 := by cases kind <;> decide
  cases fault with
  | failure failure => exact hkind failure.kind
  | io => exact hkind .io
  | invalidArguments | usage | unsorted => simp [exitStatus]
  | files failed worst => exact hkind worst

/-- The exit status is 0 exactly if the command ends with success. -/
theorem Output.exitStatus_eq_zero_iff {o : Output} : o.exitStatus = 0 ↔ o.fault = none := by
  cases h : o.fault with
  | none => simp [exitStatus, h]
  | some fault => simp [exitStatus, h, fault.exitStatus_ne_zero]

/-- A command that writes ends with success exactly if no file has failed. -/
theorem Count.fault?_eq_none_iff {rs : List Report} :
    (ofReports rs).fault? = none ↔ ∀ r ∈ rs, r.isFailure = false := by
  have hworst (kinds : List FailureKind) : FailureKind.worst? kinds = none ↔ kinds = [] := by
    cases kinds <;> simp [FailureKind.worst?]
  have hkind (r : Report) : r.failureKind? = none ↔ r.isFailure = false := by
    cases h : r.result <;> simp [Report.failureKind?, Report.isFailure, h, Except.toBool]
  rw [fault?, Option.map_eq_none_iff, ofReports, hworst, List.filterMap_eq_nil_iff]
  simp only [hkind]

/-- A command that checks ends with success exactly if no file has failed and none is out of
order. -/
theorem Count.checkFault?_eq_none_iff {rs : List Report} :
    (ofReports rs).checkFault? = none ↔ ∀ r ∈ rs, r.isFailure = false ∧ r.changed = false := by
  rw [checkFault?, Option.or_eq_none_iff, fault?_eq_none_iff]
  simp [ofReports, forall_and]

/-! ## Files in order -/

/-- The projects that some paths stand for are in order: to check them succeeds and reports no file
out of order, to sort them succeeds, and neither changes anything. -/
structure InOrder [Indexes] (ctx : Context) (i : Invocation) (paths : List FilePath) (d : Disk) :
    Prop where
  check : ∃ output reports,
    ({ i with command := some (.check paths) }.run ctx : StateM Disk _).run d = (output, d) ∧
      output.exitStatus = 0 ∧
      (reportProjects ctx i .check paths : StateM Disk _).run d = (.ok reports, d) ∧
      ∀ r ∈ reports, r.changed = false
  project : ∃ output,
    ({ i with command := some (.project paths) }.run ctx : StateM Disk _).run d = (output, d) ∧
      output.exitStatus = 0

variable {ctx : Context} {i : Invocation} {settings : Settings} {mode : Mode}
  {paths projects : List FilePath} {pairs : List PairReport} {d d' : Disk}

/-- The reports of a command are those of the runs on the projects that it finds. -/
theorem run_reportProjects [Indexes]
    (hsettings : (settingsFor ctx i : StateM Disk _).run d = (.ok settings, d))
    (hprojects : (findProjects paths : StateM Disk _).run d = (.ok projects, d))
    (hruns : (runProjects settings mode projects : StateM Disk _).run d = (pairs, d')) :
    (reportProjects ctx i mode paths : StateM Disk _).run d =
      (.ok (pairs.flatMap PairReport.files), d') := by
  simp only [reportProjects, Disk.run_bind, hsettings, hprojects, hruns]
  rfl

/-- Reports come from runs on the projects that the command finds. -/
theorem exists_of_run_reportProjects [Indexes] {reports : List Report}
    (h : (reportProjects ctx i mode paths : StateM Disk _).run d = (.ok reports, d')) :
    ∃ settings projects pairs, (settingsFor ctx i : StateM Disk _).run d = (.ok settings, d) ∧
      (findProjects paths : StateM Disk _).run d = (.ok projects, d) ∧
      (runProjects settings mode projects : StateM Disk _).run d = (pairs, d') ∧
      reports = pairs.flatMap PairReport.files := by
  obtain ⟨settings, hsettings, h⟩ := (steady_settingsFor ctx i).exists_of_bind h fun _ => ⟨_, rfl⟩
  obtain ⟨projects, hprojects, h⟩ := (steady_findProjects paths).exists_of_bind h fun _ => ⟨_, rfl⟩
  cases h
  exact ⟨settings, projects, _, hsettings, hprojects, rfl, rfl⟩

/-- A check of files that are in order succeeds. -/
theorem run_check_of_reports [Indexes] {reports : List Report}
    (h : (reportProjects ctx i .check paths : StateM Disk _).run d = (.ok reports, d'))
    (hreports : ∀ r ∈ reports, r.isFailure = false ∧ r.changed = false) :
    (runCheck ctx i paths : StateM Disk _).run d =
      (.succeeded (reports.map (·.line .check) ++ [.passed "all files sorted"]), d') := by
  simp only [runCheck, Disk.run_bind, h, Count.checkFault?_eq_none_iff.2 hreports]
  rfl

/-- A project command in which no file fails succeeds. -/
theorem run_project_of_reports [Indexes] {reports : List Report}
    (h : (reportProjects ctx i .write paths : StateM Disk _).run d = (.ok reports, d'))
    (hreports : ∀ r ∈ reports, r.isFailure = false) :
    (runProjectCommand ctx i paths : StateM Disk _).run d =
      (.succeeded (reports.map (·.line .write) ++ [(Count.ofReports reports).line]), d') := by
  simp only [runProjectCommand, Disk.run_bind, h, Count.fault?_eq_none_iff.2 hreports]
  rfl

/-- A project command that succeeds has found projects, and none of their files has failed. -/
theorem exists_of_run_project [Indexes] {output : Output}
    (h : (runProjectCommand ctx i paths : StateM Disk _).run d = (output, d'))
    (hstatus : output.exitStatus = 0) :
    ∃ settings projects pairs, (settingsFor ctx i : StateM Disk _).run d = (.ok settings, d) ∧
      (findProjects paths : StateM Disk _).run d = (.ok projects, d) ∧
      (runProjects settings .write projects : StateM Disk _).run d = (pairs, d') ∧
      ∀ pair ∈ pairs, pair.hasFailure = false := by
  rw [runProjectCommand, Disk.run_bind] at h
  generalize hrun : (reportProjects ctx i .write paths : StateM Disk _).run d = first at h
  obtain ⟨result, d₁⟩ := first
  cases result with
  | error fault =>
      cases h
      exact absurd hstatus fault.exitStatus_ne_zero
  | ok reports =>
      cases h
      obtain ⟨settings, projects, pairs, hsettings, hprojects, hruns, rfl⟩ :=
        exists_of_run_reportProjects hrun
      have hok := Count.fault?_eq_none_iff.1 (Output.exitStatus_eq_zero_iff.1 hstatus)
      rw [List.forall_mem_flatMap] at hok
      refine ⟨settings, projects, pairs, hsettings, hprojects, hruns, fun pair hpair => ?_⟩
      rw [PairReport.hasFailure, List.any_eq_false]
      simpa using hok pair hpair

/-- Projects that are kept are in order. -/
theorem inOrder_of_keeps [Indexes]
    (hsettings : (settingsFor ctx i : StateM Disk _).run d = (.ok settings, d))
    (hprojects : (findProjects paths : StateM Disk _).run d = (.ok projects, d))
    (hkeeps : ∀ p ∈ projects, d.Keeps settings p) : InOrder ctx i paths d := by
  have hrun (mode : Mode) :=
    run_reportProjects hsettings hprojects (runProjects_of_keeps hkeeps mode)
  have hquiet : ∀ r ∈ (projects.map (PairReport.ofKept settings d)).flatMap PairReport.files,
      r.isFailure = false ∧ r.changed = false := by
    rw [List.forall_mem_flatMap, List.forall_mem_map]
    exact fun p _ => PairReport.files_ofKept settings d p
  have hcheck := run_check_of_reports (hrun .check) hquiet
  have hproject := run_project_of_reports (hrun .write) fun r hr => (hquiet r hr).1
  exact ⟨⟨_, _, hcheck, rfl, hrun .check, fun r hr => (hquiet r hr).2⟩, ⟨_, hproject, rfl⟩⟩

/-! ## Sorting again -/

/-- The files of some projects: their item lists and, where there are any, their filters files. -/
def Disk.projectFiles (d : Disk) (settings : Settings) (projects : List FilePath) : List FilePath :=
  projects.flatMap fun p =>
    p :: if d.present (settings.companion p) then [settings.companion p] else []

/-- A disk that has settled until all files of the projects are kept has the projects in order. -/
theorem inOrder_of_settling [Indexes] (hsettling : d.Settling settings d')
    (hsettings : (settingsFor ctx i : StateM Disk _).run d = (.ok settings, d))
    (hprojects : (findProjects paths : StateM Disk _).run d = (.ok projects, d))
    (hkeeps : ∀ p ∈ projects, d'.Keeps settings p) : InOrder ctx i paths d' :=
  inOrder_of_keeps
    ((steady_settingsFor ctx i).run_eq hsettling (congrArg Prod.fst hsettings))
    ((steady_findProjects paths).run_eq hsettling (congrArg Prod.fst hprojects)) hkeeps

/-- On files in UTF-8 or in encodings of one byte per character, sorting comes to its end in one
pass. A file that has been sorted or found in order is in order from then on. After a project
command that succeeds, the projects are in order; and so they are after any overlapping runs on
their files of which none fails. -/
theorem project_converges [Indexes]
    (hd : d.Consistent) (hexact : d.HasExactEncodings) (ctx : Context)
    (i : Invocation) (paths : List FilePath) :
    (∀ settings path outcome d',
      (runFile settings .write path : StateM Disk _).run d = (.ok outcome, d') →
      ∀ mode, (runFile settings mode path : StateM Disk _).run d' = (.ok .unchanged, d')) ∧
    (∀ output d',
      ({ i with command := some (.project paths) }.run ctx : StateM Disk _).run d = (output, d') →
      output.exitStatus = 0 → InOrder ctx i paths d') ∧
    ∀ settings projects w, (settingsFor ctx i : StateM Disk _).run d = (.ok settings, d) →
      (findProjects paths : StateM Disk _).run d = (.ok projects, d) →
      Overlap.Steps settings (.start d (d.projectFiles settings projects)) w →
      (∀ job ∈ w.jobs, ∃ outcome, job.stage = .finished (.ok outcome)) →
      InOrder ctx i paths w.disk := by
  refine ⟨fun settings path outcome d' hrun mode => ?_, fun output d' hrun hstatus => ?_,
    fun settings projects w hsettings hprojects hsteps hok => ?_⟩
  · rw [runFile_of_ok (Disk.planAt_keep_of_runFile hexact hd hrun), carryOut_run (.inr rfl)]
    rfl
  · obtain ⟨settings, projects, pairs, hsettings, hprojects, hruns, hpairs⟩ :=
      exists_of_run_project hrun hstatus
    have hsettling := Disk.settles_runProjects settings projects d hd hexact
    rw [hruns] at hsettling
    exact inOrder_of_settling hsettling hsettings hprojects
      (Disk.keeps_of_runProjects hd hexact hruns hpairs)
  · have hreached := Overlap.reached_of_steps hd hexact hsteps
    have hkeep := hreached.planAt_keep hok
    rw [Disk.projectFiles, List.forall_mem_flatMap] at hkeep
    refine inOrder_of_settling hreached.settling hsettings hprojects fun p hp => ?_
    obtain ⟨hitemList, hfilters⟩ := List.forall_mem_cons.1 (hkeep p hp)
    refine ⟨hitemList, fun hpresent => hfilters _ ?_⟩
    rw [← hreached.settling.present, if_pos hpresent]
    exact List.mem_singleton_self _

/-- A project without a filters file, in which two entries change places. -/
theorem project_converges_twoFiles :
    let p : FilePath := ⟨"p.vcxproj"⟩
    let d := Disk.ofFiles [(p, Document.twoFilesContent "b" "a")]
    let ctx : Context := ⟨[], none⟩
    let i : Invocation := ⟨none, none, false, 0, none⟩
    ∃ output d',
      ({ i with command := some (.project [p]) }.run ctx : StateM Disk _).run d = (output, d') ∧
        output.exitStatus = 0 ∧ d'.content p = .ok (Document.twoFilesContent "a" "b") ∧
        InOrder ctx i [p] d' := by
  intro p d ctx i
  obtain ⟨hd, hexact, tally, hplan⟩ := Disk.planAt_twoFiles .default p
  have hsettings : (settingsFor ctx i : StateM Disk _).run d = (.ok .default, d) := rfl
  have hprojects : (findProjects [p] : StateM Disk _).run d = (.ok [p], d) := rfl
  have hfile : (runFile .default .write p : StateM Disk _).run d =
      (.ok (.sorted tally), d.put p (Document.twoFilesContent "a" "b")) := by
    rw [runFile_of_ok hplan, carryOut_run_of_ok rfl]
  have hproject := runProject_of_absent hfile (by decide)
  have hreports := run_reportProjects hsettings hprojects (runProjects_cons hproject rfl)
  have hrun := run_project_of_reports hreports
    (by simp [PairReport.files, Report.isFailure, Except.toBool])
  exact ⟨_, _, hrun, rfl, Disk.content_put_of_same (FilePath.same_refl p),
    (project_converges hd hexact ctx i [p]).2.1 _ _ hrun rfl⟩

end ProjectOrder

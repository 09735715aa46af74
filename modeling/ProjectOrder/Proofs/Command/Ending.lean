import ProjectOrder.Proofs.Command.Convergence

/-!
# How commands end

A command that processes files ends by what became of each of them, in whatever order: `Ending` says
how from the number of failures, the worst kind of failure and the number of files out of order, and
`ends_by_reports` that the commands end so. A command that does not get as far as its files fails
and has changed nothing.
-/

namespace ProjectOrder

/-! ## Endings -/

/-- The kinds of failure from the mildest to the gravest, with their exit statuses. -/
def FailureKind.scale : List (FailureKind × Nat) :=
  [(.notFound, 66), (.malformedInput, 65), (.io, 74), (.config, 78), (.serialization, 70)]

/-- The fault with which files of these reports end a command, and the exit status. -/
inductive Ending (mode : Mode) (rs : List Report) : Option CommandFault → Nat → Prop where
  /-- The gravest kind among the failures decides the status, also if other files are out of
  order. -/
  | failed {milder graver : List (FailureKind × Nat)} {kind : FailureKind} {status : Nat} :
      FailureKind.scale = milder ++ (kind, status) :: graver →
      kind ∈ rs.filterMap Report.failureKind? →
      (∀ g ∈ graver, g.1 ∉ rs.filterMap Report.failureKind?) →
      Ending mode rs (some (.files (rs.countP Report.isFailure) kind)) status
  /-- A check without failures has found files out of order. -/
  | unsorted : mode = .check → rs.countP Report.isFailure = 0 → 0 < rs.countP Report.changed →
      Ending mode rs (some (.unsorted (rs.countP Report.changed))) 1
  | success : rs.countP Report.isFailure = 0 → (mode = .check → rs.countP Report.changed = 0) →
      Ending mode rs none 0

/-- The fault by which a count ends a command that writes or checks. -/
def Count.faultIn? (c : Count) : Mode → Option CommandFault
  | .write => c.fault?
  | .check => c.checkFault?

variable {mode : Mode} {rs rs' : List Report} {fault : Option CommandFault} {status : Nat}

namespace FailureKind

variable {kind : FailureKind} {kinds : List FailureKind}

/-- Different kinds of failure have different ranks. -/
theorem rank_inj {a b : FailureKind} (h : a.rank = b.rank) : a = b := by
  cases a <;> cases b <;> first | rfl | cases h

/-- The worst of some kinds is one of them and none of them ranks above it. -/
theorem worst?_spec (h : worst? kinds = some kind) :
    kind ∈ kinds ∧ ∀ k ∈ kinds, k.rank ≤ kind.rank := by
  induction kinds generalizing kind with
  | nil => cases h
  | cons k kinds ih =>
      obtain rfl := Option.some.inj h
      cases hrest : worst? kinds with
      | none =>
          have hnil : kinds = [] := by
            cases kinds with
            | nil => rfl
            | cons => cases hrest
          simp [hnil]
      | some w =>
          obtain ⟨hmem, hle⟩ := ih hrest
          rw [Option.elim_some, worse]
          split
          · exact ⟨.tail _ hmem, List.forall_mem_cons.2 ⟨by omega, hle⟩⟩
          · refine ⟨.head _, List.forall_mem_cons.2 ⟨Nat.le_refl _, fun l hl => ?_⟩⟩
            have := hle l hl
            omega

/-- The worst kind is the one among the kinds that none of them is worse than. -/
theorem worst?_eq_some_iff :
    worst? kinds = some kind ↔ kind ∈ kinds ∧ ∀ k ∈ kinds, k.rank ≤ kind.rank := by
  refine ⟨worst?_spec, fun ⟨hmem, hle⟩ => ?_⟩
  cases hworst : worst? kinds with
  | none =>
      cases kinds with
      | nil => cases hmem
      | cons => cases hworst
  | some w =>
      obtain ⟨hw, hge⟩ := worst?_spec hworst
      rw [rank_inj (Nat.le_antisymm (hle w hw) (hge kind hmem))]

/-- On the scale a kind stands with its exit status, and after it stand the kinds worse than it. -/
theorem of_scale_eq {milder graver : List (FailureKind × Nat)}
    (h : scale = milder ++ (kind, status) :: graver) :
    status = kind.exitStatus ∧ ∀ k, k ∈ graver.map Prod.fst ↔ kind.rank < k.rank := by
  have hstatus : ∀ step ∈ scale, step.2 = step.1.exitStatus := by decide
  have hsorted : scale.Pairwise fun a b => a.1.rank < b.1.rank := by decide
  have hall (k : FailureKind) : k ∈ scale.map Prod.fst := by cases k <;> decide
  rw [h] at hstatus hsorted hall
  obtain ⟨-, hgraver, hmilder⟩ := List.pairwise_append.1 hsorted
  refine ⟨hstatus (kind, status) (by simp), fun k => ⟨fun hk => ?_, fun hk => ?_⟩⟩
  · obtain ⟨step, hstep, rfl⟩ := List.mem_map.1 hk
    exact List.rel_of_pairwise_cons hgraver hstep
  · have hplace := hall k
    rw [List.map_append, List.map_cons, List.mem_append, List.mem_cons] at hplace
    rcases hplace with hbefore | rfl | hafter
    · obtain ⟨step, hstep, rfl⟩ := List.mem_map.1 hbefore
      have : step.1.rank < kind.rank := hmilder step hstep _ (.head _)
      omega
    · omega
    · exact hafter

/-- Every kind stands on the scale with its status. -/
theorem mem_scale (kind : FailureKind) : (kind, kind.exitStatus) ∈ scale := by
  cases kind <;> decide

/-- The worst of some kinds is the last one on the scale. -/
theorem worst?_eq_some_iff_of_scale_eq {milder graver : List (FailureKind × Nat)}
    (h : scale = milder ++ (kind, status) :: graver) :
    worst? kinds = some kind ↔ kind ∈ kinds ∧ ∀ g ∈ graver, g.1 ∉ kinds := by
  have hgraver := (of_scale_eq h).2
  rw [worst?_eq_some_iff]
  refine and_congr_right fun _ => ⟨fun hmost g hg hmem => ?_, fun hnone k hk => ?_⟩
  · have hlt := (hgraver g.1).1 (List.mem_map_of_mem hg)
    exact Nat.not_lt.2 (hmost g.1 hmem) hlt
  · refine Nat.not_lt.1 fun hlt => ?_
    obtain ⟨g, hg, rfl⟩ := List.mem_map.1 ((hgraver k).2 hlt)
    exact hnone g hg hk

end FailureKind

namespace Count

variable {c : Count}

/-- No file has failed exactly if there is no fault. -/
theorem countP_isFailure_eq_zero_iff :
    rs.countP Report.isFailure = 0 ↔ (ofReports rs).fault? = none := by
  rw [fault?_eq_none_iff, List.countP_eq_zero]
  simp

/-- A failure ends a command, whether it writes or checks. -/
theorem faultIn?_of_worst {kind : FailureKind} (h : c.worst = some kind) :
    c.faultIn? mode = some (.files c.failed kind) := by
  have hfault : c.fault? = some (.files c.failed kind) := by
    rw [fault?, h]
    rfl
  cases mode with
  | write => exact hfault
  | check =>
      rw [faultIn?, checkFault?, hfault]
      rfl

/-- Files out of order end a check without failures. -/
theorem faultIn?_of_fault?_eq_none (h : c.fault? = none) :
    c.faultIn? mode = if mode = .check ∧ 0 < c.sorted then some (.unsorted c.sorted) else none := by
  cases mode with
  | write => exact h
  | check => simp [faultIn?, checkFault?, h]

end Count

/-- The count of the reports decides how a command ends. -/
theorem ending_iff : Ending mode rs fault status ↔
    fault = (Count.ofReports rs).faultIn? mode ∧ status = fault.elim 0 CommandFault.exitStatus := by
  constructor
  · rintro (⟨hscale, hkind, hgraver⟩ | ⟨hmode, hok, hchanged⟩ | ⟨hok, hchanged⟩)
    · have hworst := (FailureKind.worst?_eq_some_iff_of_scale_eq hscale).2 ⟨hkind, hgraver⟩
      exact ⟨(Count.faultIn?_of_worst (c := .ofReports rs) hworst).symm,
        (FailureKind.of_scale_eq hscale).1⟩
    · rw [Count.faultIn?_of_fault?_eq_none (Count.countP_isFailure_eq_zero_iff.1 hok)]
      exact ⟨(if_pos ⟨hmode, hchanged⟩).symm, rfl⟩
    · rw [Count.faultIn?_of_fault?_eq_none (Count.countP_isFailure_eq_zero_iff.1 hok)]
      exact ⟨(if_neg fun h => h.2.ne' (hchanged h.1)).symm, rfl⟩
  · rintro ⟨rfl, rfl⟩
    cases hworst : (Count.ofReports rs).worst with
    | some kind =>
        obtain ⟨milder, graver, hscale⟩ := List.append_of_mem kind.mem_scale
        obtain ⟨hkind, hgraver⟩ := (FailureKind.worst?_eq_some_iff_of_scale_eq hscale).1 hworst
        rw [Count.faultIn?_of_worst hworst]
        exact .failed hscale hkind hgraver
    | none =>
        have hfault : (Count.ofReports rs).fault? = none := by
          rw [Count.fault?, hworst]
          rfl
        have hok := Count.countP_isFailure_eq_zero_iff.2 hfault
        rw [Count.faultIn?_of_fault?_eq_none hfault]
        split
        · rename_i hunsorted
          exact .unsorted hunsorted.1 hok hunsorted.2
        · rename_i hsorted
          exact .success hok fun hmode => Nat.eq_zero_of_not_pos fun hpos => hsorted ⟨hmode, hpos⟩

/-- The order of the reports does not matter. -/
theorem Ending.of_perm (hperm : rs.Perm rs') (h : Ending mode rs fault status) :
    Ending mode rs' fault status := by
  have hkinds := hperm.filterMap Report.failureKind?
  cases h with
  | failed hscale hkind hgraver =>
      rw [hperm.countP_eq]
      exact .failed hscale (hkinds.subset hkind) fun g hg hmem =>
        hgraver g hg (hkinds.symm.subset hmem)
  | unsorted hmode hok hchanged =>
      rw [hperm.countP_eq] at hok hchanged ⊢
      exact .unsorted hmode hok hchanged
  | success hok hchanged =>
      rw [hperm.countP_eq] at hok hchanged
      exact .success hok hchanged

/-! ## Counting -/

/-- Every file is sorted, unchanged, skipped or failed. -/
theorem Count.total_ofReports (rs : List Report) :
    (ofReports rs).sorted + (ofReports rs).unchanged + (ofReports rs).skipped +
      (ofReports rs).failed = rs.length := by
  simp only [ofReports]
  induction rs with
  | nil => rfl
  | cons r rs ih =>
      have hone : (if r.changed then 1 else 0) + (if r.isUnchanged then 1 else 0) +
          (if r.isSkipped then 1 else 0) + (if r.isFailure then 1 else 0) = 1 := by
        obtain ⟨path, part, result⟩ := r
        rcases result with failure | tally | _ | _ <;> rfl
      simp only [List.countP_cons, List.length_cons]
      omega

/-- Runs on files report on these files. -/
theorem map_path_sortFiles [Indexes] (settings : Settings) (ps : List FilePath) (d : Disk) :
    ((sortFiles settings ps : StateM Disk _).run d).1.map Report.path = ps := by
  induction ps generalizing d with
  | nil => rfl
  | cons p ps ih =>
      rw [sortFiles, Disk.run_bind, Disk.run_bind]
      exact congrArg (p :: ·) (ih _)

/-- A run on a project reports on its two files. -/
theorem map_path_runProject [Indexes] (settings : Settings) (mode : Mode) (p : FilePath)
    (d : Disk) :
    ((runProject settings mode p : StateM Disk _).run d).1.files.map Report.path =
      [p, settings.companion p] := by
  cases hpresent : ((runFile settings mode p : StateM Disk _).run d).2.present
      (settings.companion p) with
  | true =>
      rw [runProject_of_present rfl hpresent rfl]
      rfl
  | false =>
      rw [runProject_of_absent rfl hpresent]
      rfl

/-- Runs on projects report on both files of each project. -/
theorem map_path_runProjects [Indexes] (settings : Settings) (mode : Mode) (ps : List FilePath)
    (d : Disk) :
    (((runProjects settings mode ps : StateM Disk _).run d).1.flatMap PairReport.files).map
      Report.path = ps.flatMap fun p => [p, settings.companion p] := by
  induction ps generalizing d with
  | nil => rfl
  | cons p ps ih =>
      rw [runProjects_cons Prod.mk.eta.symm Prod.mk.eta.symm, List.flatMap_cons, List.map_append,
        map_path_runProject, ih, List.flatMap_cons]

/-! ## Commands on files -/

/-- What a command that processes files is asked to do. -/
inductive Work where
  /-- Sort single files. -/
  | files (paths : List FilePath)
  /-- Sort or check the projects that some paths stand for. -/
  | projects (mode : Mode) (paths : List FilePath)

namespace Work

/-- The command for some work. -/
def command : Work → Command
  | files paths => .sort paths
  | projects .write paths => .project paths
  | projects .check paths => .check paths

/-- Whether the work writes or checks. -/
def toMode : Work → Mode
  | files _ => .write
  | projects mode _ => mode

/-- The files that there is work on: those that are found, and the filters files of projects. -/
def targets (settings : Settings) (found : List FilePath) : Work → List FilePath
  | files _ => found
  | projects .. => found.flatMap fun p => [p, settings.companion p]

/-- The reports on the files or projects that there is work on. -/
def process [Indexes] (settings : Settings) (found : List FilePath) :
    Work → StateM Disk (List Report)
  | files _ => sortFiles settings found
  | projects mode _ => do return (← runProjects settings mode found).flatMap PairReport.files

variable (ctx : Context) (i : Invocation) (d : Disk)

/-- The settings are loaded, and there are files or projects to work on. -/
inductive Ready : Work → Settings → List FilePath → Prop where
  | files {paths : List FilePath} {settings : Settings} :
      ((settingsFor ctx i : StateM Disk _).run d).1 = .ok settings →
      Ready (.files paths) settings paths
  | projects {goal : Mode} {paths found : List FilePath} {settings : Settings} :
      ((settingsFor ctx i : StateM Disk _).run d).1 = .ok settings →
      ((search paths : StateM Disk _).run d).1 = .ok found → found ≠ [] →
      Ready (.projects goal paths) settings found

/-- The work cannot begin. The fault says why, and it has this exit status. -/
inductive Unready : Work → CommandFault → Nat → Prop where
  /-- The settings cannot be loaded. -/
  | settings {w : Work} {fault : SettingsFault} :
      ((Settings.load (globalSettingsPath? ctx.environment) (i.settingsDirectory ctx)
        ctx.environment : StateM Disk _).run d).1 = .error fault →
      Unready w (.failure (.settings fault)) 78
  /-- A directory cannot be searched. -/
  | search {goal : Mode} {paths : List FilePath} {settings : Settings} {failure : Failure}
      {code : Nat} :
      ((settingsFor ctx i : StateM Disk _).run d).1 = .ok settings →
      ((search paths : StateM Disk _).run d).1 = .error failure →
      (failure.kind, code) ∈ FailureKind.scale →
      Unready (.projects goal paths) (.failure failure) code
  /-- There are no projects. -/
  | nothing {goal : Mode} {paths : List FilePath} {settings : Settings} :
      ((settingsFor ctx i : StateM Disk _).run d).1 = .ok settings →
      ((search paths : StateM Disk _).run d).1 = .ok [] →
      Unready (.projects goal paths) (.invalidArguments "no project files found") 64

end Work

variable {ctx : Context} {i : Invocation} {d d' : Disk} {w : Work} {paths found : List FilePath}
  {settings : Settings}

/-- What settings are found depends on whether they can be loaded. -/
theorem run_settingsFor_fst : ((settingsFor ctx i : StateM Disk _).run d).1 =
    match ((Settings.load (globalSettingsPath? ctx.environment) (i.settingsDirectory ctx)
      ctx.environment : StateM Disk _).run d).1 with
    | .error fault => .error (.failure (.settings fault))
    | .ok settings => .ok (settings.overlay i.layer) := by
  rw [settingsFor, Disk.run_bind]
  cases ((Settings.load _ _ _ : StateM Disk _).run d).1 <;> rfl

/-- What projects are found depends on the search for them. -/
theorem run_findProjects_fst : ((findProjects paths : StateM Disk _).run d).1 =
    match ((search paths : StateM Disk _).run d).1 with
    | .error failure => .error (.failure failure)
    | .ok [] => .error (.invalidArguments "no project files found")
    | .ok found => .ok found := by
  rw [findProjects, Disk.run_bind]
  rcases ((search paths : StateM Disk _).run d).1 with failure | _ | _ <;> rfl

/-- Where the settings cannot be had, a command on files fails so and leaves the disk as it is. -/
theorem run_files_of_error [Indexes] {fault : CommandFault}
    (h : (settingsFor ctx i : StateM Disk _).run d = (.error fault, d)) :
    ({ i with command := some (Work.files paths).command }.run ctx : StateM Disk _).run d =
      (.failed fault, d) := by
  show (runSort ctx i paths : StateM Disk _).run d = _
  simp only [runSort, Disk.run_bind, h]
  rfl

/-- With settings, a command on files ends as the reports on its files say. -/
theorem run_files_of_ok [Indexes]
    (hsettings : (settingsFor ctx i : StateM Disk _).run d = (.ok settings, d))
    (hruns : (sortFiles settings paths : StateM Disk _).run d = (rs, d')) :
    ∃ output, ({ i with command := some (Work.files paths).command }.run ctx :
        StateM Disk _).run d = (output, d') ∧
      output.fault = (Count.ofReports rs).faultIn? .write := by
  show ∃ output, (runSort ctx i paths : StateM Disk _).run d = _ ∧ _
  simp only [runSort, Disk.run_bind, hsettings, hruns]
  exact ⟨_, rfl, rfl⟩

/-- Where there are no reports, a command on projects fails so and leaves the disk as it is. -/
theorem run_projects_of_error [Indexes] {fault : CommandFault}
    (h : (reportProjects ctx i mode paths : StateM Disk _).run d = (.error fault, d)) :
    ({ i with command := some (Work.projects mode paths).command }.run ctx : StateM Disk _).run d =
      (.failed fault, d) := by
  cases mode with
  | write =>
      show (runProjectCommand ctx i paths : StateM Disk _).run d = _
      simp only [runProjectCommand, Disk.run_bind, h]
      rfl
  | check =>
      show (runCheck ctx i paths : StateM Disk _).run d = _
      simp only [runCheck, Disk.run_bind, h]
      rfl

/-- With reports, a command on projects ends as they say. -/
theorem run_projects_of_ok [Indexes]
    (h : (reportProjects ctx i mode paths : StateM Disk _).run d = (.ok rs, d')) :
    ∃ output, ({ i with command := some (Work.projects mode paths).command }.run ctx :
        StateM Disk _).run d = (output, d') ∧
      output.fault = (Count.ofReports rs).faultIn? mode := by
  cases mode with
  | write =>
      show ∃ output, (runProjectCommand ctx i paths : StateM Disk _).run d = _ ∧ _
      simp only [runProjectCommand, Disk.run_bind, h]
      exact ⟨_, rfl, rfl⟩
  | check =>
      show ∃ output, (runCheck ctx i paths : StateM Disk _).run d = _ ∧ _
      simp only [runCheck, Disk.run_bind, h, Count.faultIn?]
      cases (Count.ofReports rs).checkFault? <;> exact ⟨_, rfl, rfl⟩

/-- Loading the settings changes nothing, whatever comes of it. -/
theorem run_settingsFor {r : Except CommandFault Settings}
    (h : ((settingsFor ctx i : StateM Disk _).run d).1 = r) :
    (settingsFor ctx i : StateM Disk _).run d = (r, d) :=
  Prod.ext h ((steady_settingsFor ctx i).disk d)

/-- Finding projects changes nothing, whatever comes of it. -/
theorem run_findProjects {r : Except CommandFault (List FilePath)}
    (h : ((findProjects paths : StateM Disk _).run d).1 = r) :
    (findProjects paths : StateM Disk _).run d = (r, d) :=
  Prod.ext h ((steady_findProjects paths).disk d)

/-- Work that cannot begin changes nothing. -/
theorem Work.Unready.run_eq [Indexes] {fault : CommandFault} (h : w.Unready ctx i d fault status) :
    ({ i with command := some w.command }.run ctx : StateM Disk _).run d = (.failed fault, d) ∧
      fault.exitStatus = status := by
  cases h with
  | settings hload =>
      have hfault := run_settingsFor (run_settingsFor_fst.trans (by rw [hload]))
      refine ⟨?_, rfl⟩
      cases w with
      | files paths => exact run_files_of_error hfault
      | projects mode paths =>
          refine run_projects_of_error ?_
          simp only [reportProjects, Disk.run_bind, hfault]
          rfl
  | search hsettings hsearch hstatus =>
      have hfault := run_findProjects (run_findProjects_fst.trans (by rw [hsearch]))
      obtain ⟨milder, graver, hscale⟩ := List.append_of_mem hstatus
      refine ⟨run_projects_of_error ?_, (FailureKind.of_scale_eq hscale).1.symm⟩
      simp only [reportProjects, Disk.run_bind, run_settingsFor hsettings, hfault]
      rfl
  | nothing hsettings hsearch =>
      have hfault := run_findProjects (run_findProjects_fst.trans (by rw [hsearch]))
      refine ⟨run_projects_of_error ?_, rfl⟩
      simp only [reportProjects, Disk.run_bind, run_settingsFor hsettings, hfault]
      rfl

/-- A command on projects processes them one after the other and reports on both files of each. -/
theorem run_process_projects [Indexes] {pairs : List PairReport}
    (h : (runProjects settings mode found : StateM Disk _).run d = (pairs, d')) :
    ((Work.projects mode paths).process settings found).run d =
      (pairs.flatMap PairReport.files, d') := by
  simp only [Work.process, Disk.run_bind, h]
  rfl

/-- There is a report on each file that there is work on. -/
theorem Work.map_path_process [Indexes] (w : Work) (settings : Settings) (found : List FilePath)
    (d : Disk) :
    ((w.process settings found).run d).1.map Report.path = w.targets settings found := by
  cases w with
  | files paths => exact map_path_sortFiles settings found d
  | projects mode paths =>
      rw [run_process_projects rfl]
      exact map_path_runProjects settings mode found d

/-- Each project has two files. -/
theorem Work.length_targets_projects (mode : Mode) (paths found : List FilePath)
    (settings : Settings) :
    ((Work.projects mode paths).targets settings found).length = 2 * found.length := by
  rw [targets, List.length_flatMap]
  simp [Nat.mul_comm]

/-- Work that can begin ends by the count of its reports. -/
theorem Work.Ready.exists_run [Indexes] (h : w.Ready ctx i d settings found) :
    ∃ rs output d', (w.process settings found).run d = (rs, d') ∧
      ({ i with command := some w.command }.run ctx : StateM Disk _).run d = (output, d') ∧
      output.fault = (Count.ofReports rs).faultIn? w.toMode := by
  cases h with
  | files hsettings =>
      obtain ⟨output, hrun, hfault⟩ := run_files_of_ok (run_settingsFor hsettings) rfl
      exact ⟨_, output, _, rfl, hrun, hfault⟩
  | @projects mode paths _ _ hsettings hsearch hfound =>
      have hprojects : (findProjects paths : StateM Disk _).run d = (.ok found, d) := by
        refine run_findProjects (run_findProjects_fst.trans ?_)
        rw [hsearch]
        cases found with
        | nil => exact absurd rfl hfound
        | cons => rfl
      have hreports : (reportProjects ctx i mode paths : StateM Disk _).run d = _ :=
        run_reportProjects (run_settingsFor hsettings) hprojects rfl
      obtain ⟨output, hrun, hfault⟩ := run_projects_of_ok hreports
      exact ⟨_, output, _, run_process_projects rfl, hrun, hfault⟩

/-- Work can begin or not. -/
theorem Work.unready_or_ready (ctx : Context) (i : Invocation) (d : Disk) (w : Work) :
    (∃ fault status, w.Unready ctx i d fault status) ∨
      ∃ settings found, w.Ready ctx i d settings found := by
  have hload : ((settingsFor ctx i : StateM Disk _).run d).1 = _ := run_settingsFor_fst
  split at hload
  · exact .inl ⟨_, _, .settings ‹_›⟩
  · cases w with
    | files paths => exact .inr ⟨_, _, .files hload⟩
    | projects mode paths =>
        cases hsearch : ((search paths : StateM Disk _).run d).1 with
        | error failure => exact .inl ⟨_, _, .search hload hsearch failure.kind.mem_scale⟩
        | ok found =>
            by_cases hfound : found = []
            · exact .inl ⟨_, _, .nothing hload (hfound ▸ hsearch)⟩
            · exact .inr ⟨_, _, .projects hload hsearch hfound⟩

/-! ## Whole commands -/

/-- A command that gets as far as its files reports on each of them and ends by these reports, in
whatever order: with the number of failures and the status of the gravest one, else, if it checks,
with the number of files out of order, else with success. Projects count as two files each. A
command that does not get so far has changed nothing. -/
theorem ends_by_reports [Indexes] (ctx : Context) (i : Invocation) (w : Work) (d : Disk) :
    let run := ({ i with command := some w.command }.run ctx : StateM Disk _).run d
    (∀ settings found, w.Ready ctx i d settings found →
      ∃ reports output d', (w.process settings found).run d = (reports, d') ∧ run = (output, d') ∧
        reports.map Report.path = w.targets settings found ∧
        (∀ rs fault status, rs.Perm reports →
          (Ending w.toMode rs fault status ↔ output.fault = fault ∧ output.exitStatus = status)) ∧
        ∀ mode paths, w = .projects mode paths →
          let c := Count.ofReports reports
          c.sorted + c.unchanged + c.skipped + c.failed = 2 * found.length) ∧
    (∀ fault status, w.Unready ctx i d fault status →
      run = (.failed fault, d) ∧ (Output.failed fault).exitStatus = status) ∧
    ((∃ settings found, w.Ready ctx i d settings found) ∨
      ∃ fault status, w.Unready ctx i d fault status) := by
  refine ⟨fun settings found hready => ?_, fun fault status hunready => hunready.run_eq,
    (w.unready_or_ready ctx i d).symm⟩
  obtain ⟨reports, output, d', hprocess, hrun, hfault⟩ := hready.exists_run
  have hpaths : reports.map Report.path = w.targets settings found := by
    rw [← w.map_path_process settings found d, hprocess]
  have htotal (mode : Mode) (paths : List FilePath) (hw : w = .projects mode paths) :
      reports.length = 2 * found.length := by
    rw [← Work.length_targets_projects mode paths, ← hw, ← hpaths, List.length_map]
  refine ⟨reports, output, d', hprocess, hrun, hpaths, fun rs fault status hperm => ?_,
    fun mode paths hw => (Count.total_ofReports reports).trans (htotal mode paths hw)⟩
  have hstatus : output.exitStatus = output.fault.elim 0 CommandFault.exitStatus := by
    cases h : output.fault <;> simp [Output.exitStatus, h]
  have hending : Ending w.toMode rs fault status ↔ Ending w.toMode reports fault status :=
    ⟨.of_perm hperm, .of_perm hperm.symm⟩
  rw [hending, ending_iff, ← hfault, hstatus]
  constructor
  · rintro ⟨rfl, rfl⟩
    exact ⟨rfl, rfl⟩
  · rintro ⟨rfl, rfl⟩
    exact ⟨rfl, rfl⟩

/-- A check of a project that is out of order and of an empty file: the failure decides. -/
theorem ends_by_reports_mixed :
    let p : FilePath := ⟨"p.vcxproj"⟩
    let q : FilePath := ⟨"q.vcxproj"⟩
    let d := Disk.ofFiles [(p, Document.twoFilesContent "b" "a"), (q, .empty)]
    let ctx : Context := ⟨[], none⟩
    let i : Invocation := ⟨none, none, false, 0, none⟩
    let w : Work := .projects .check [p, q]
    w.Ready ctx i d .default [p, q] ∧
      ∃ output d', ({ i with command := some w.command }.run ctx : StateM Disk _).run d =
        (output, d') ∧ output.fault = some (.files 1 .malformedInput) ∧ output.exitStatus = 65 := by
  intro p q d ctx i w
  have hsearch : ((search [p, q] : StateM Disk _).run d).1 = .ok [p, q] := by decide +kernel
  have hready : w.Ready ctx i d .default [p, q] := .projects rfl hsearch (by decide)
  obtain ⟨tally, hplan⟩ : ∃ tally, d.planAt .default p =
      .ok (.replace tally (Document.twoFilesContent "a" "b")) := by
    obtain ⟨-, tally, hplan⟩ := Plan.ofContent_twoFiles .default
    exact ⟨tally, Disk.planAt_eq_ok_iff.2 ⟨by simp [d, Disk.ofFiles], _,
      by simp [d, Disk.ofFiles], hplan⟩⟩
  have hfault : d.planAt .default q = .error (.malformed .noRoot) := by decide +kernel
  have hp : (runProject .default .check p : StateM Disk _).run d = _ :=
    runProject_of_absent (by rw [runFile_check, hplan]) (by decide +kernel)
  have hq : (runProject .default .check q : StateM Disk _).run d = _ :=
    runProject_of_absent (by rw [runFile_check, hfault]) (by decide +kernel)
  obtain ⟨reports, output, d', hprocess, hrun, -, hending, -⟩ :=
    (ends_by_reports ctx i w d).1 .default [p, q] hready
  have hruns : (runProjects .default .check [p, q] : StateM Disk _).run d = _ :=
    runProjects_cons hp (runProjects_cons hq rfl)
  obtain ⟨hreports, rfl⟩ := Prod.mk.inj (hprocess.symm.trans (run_process_projects hruns))
  have hkinds : reports.filterMap Report.failureKind? = [.malformedInput] := by rw [hreports]; rfl
  have hfailed : reports.countP Report.isFailure = 1 := by rw [hreports]; rfl
  have hend : Ending .check reports _ 65 :=
    .failed (show _ = [(FailureKind.notFound, 66)] ++ (.malformedInput, 65) :: _ from rfl)
      (by rw [hkinds]; decide) (by rw [hkinds]; decide)
  rw [hfailed] at hend
  exact ⟨hready, output, _, hrun, (hending _ _ _ (.refl _)).1 hend⟩

end ProjectOrder

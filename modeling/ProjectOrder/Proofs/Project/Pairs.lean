import ProjectOrder.Proofs.Project.Settling

/-!
# Runs on projects

Nothing is to be done about a project if its item list is kept and, where there is one, its filters
file: `Disk.Keeps`. Runs on projects settle disks, a run without failures leaves projects that are
kept (`Disk.keeps_of_runProjects`), and runs on projects that are kept find no file out of order and
change nothing (`runProjects_of_keeps`).
-/

namespace ProjectOrder

variable {settings : Settings} {mode : Mode} {d d' d'' : Disk} {p : FilePath} {ps : List FilePath}
  {report : PairReport} {result result' : Except Failure Outcome}

/-! ## Reports -/

/-- A file has not failed if it has an outcome. -/
theorem Report.isFailure_eq_false_iff {r : Report} :
    r.isFailure = false ↔ ∃ outcome, r.result = .ok outcome := by
  cases h : r.result <;> simp [isFailure, h, Except.toBool]

/-- A project has not failed if both its files have outcomes. -/
theorem PairReport.hasFailure_eq_false_iff :
    report.hasFailure = false ↔
      (∃ outcome, report.itemList.result = .ok outcome) ∧
        ∃ outcome, report.filters.result = .ok outcome := by
  rw [← Report.isFailure_eq_false_iff, ← Report.isFailure_eq_false_iff]
  simp [hasFailure, files]

/-- What is told about a project that is kept. -/
def PairReport.ofKept (settings : Settings) (d : Disk) (p : FilePath) : PairReport :=
  ⟨⟨p, .itemList, .ok .unchanged⟩, ⟨settings.companion p, .filters,
    .ok (if d.present (settings.companion p) then .unchanged else .skipped)⟩⟩

/-- The reports on a project that is kept tell of no failure and of no file out of order. -/
theorem PairReport.files_ofKept (settings : Settings) (d : Disk) (p : FilePath) :
    ∀ r ∈ (ofKept settings d p).files, r.isFailure = false ∧ r.changed = false := by
  rw [files, List.forall_mem_cons, List.forall_mem_singleton, ofKept]
  refine ⟨⟨rfl, rfl⟩, ?_⟩
  cases d.present (settings.companion p) <;> exact ⟨rfl, rfl⟩

/-! ## One project -/

variable [Indexes]

/-- Nothing is to be done about the files of a project. -/
structure Disk.Keeps (d : Disk) (settings : Settings) (p : FilePath) : Prop where
  itemList : d.planAt settings p = .ok .keep
  filters : d.present (settings.companion p) → d.planAt settings (settings.companion p) = .ok .keep

/-- A project that is kept stays so. -/
theorem Disk.Settling.keeps (h : d.Settling settings d') (hkeeps : d.Keeps settings p) :
    d'.Keeps settings p where
  itemList := h.planAt_keep hkeeps.itemList
  filters hpresent := h.planAt_keep (hkeeps.filters (h.present ▸ hpresent))

/-- Where there is a filters file, a run on a project is a run on each of its files. -/
theorem runProject_of_present
    (hfirst : (runFile settings mode p : StateM Disk _).run d = (result, d'))
    (hpresent : d'.present (settings.companion p))
    (hsecond : (runFile settings mode (settings.companion p) : StateM Disk _).run d' =
      (result', d'')) :
    (runProject settings mode p : StateM Disk _).run d =
      (⟨⟨p, .itemList, result⟩, ⟨settings.companion p, .filters, result'⟩⟩, d'') := by
  simp only [runProject, Disk.run_bind, hfirst, Disk.run_present, hpresent, if_true, hsecond]
  rfl

/-- Where there is no filters file, a run on a project is a run on its item list. -/
theorem runProject_of_absent
    (hfirst : (runFile settings mode p : StateM Disk _).run d = (result, d'))
    (hpresent : d'.present (settings.companion p) = false) :
    (runProject settings mode p : StateM Disk _).run d =
      (⟨⟨p, .itemList, result⟩, ⟨settings.companion p, .filters, .ok .skipped⟩⟩, d') := by
  simp only [runProject, Disk.run_bind, hfirst, Disk.run_present, hpresent]
  rfl

/-- A run on a project settles disks. -/
theorem Disk.settles_runProject (settings : Settings) (p : FilePath) :
    Settles settings (runProject settings .write p) := by
  refine (settles_runFile settings p).bind fun _ => ?_
  refine .bind (.of_run_eq fun _ => rfl) fun present => ?_
  cases present with
  | true => exact (settles_runFile settings _).bind fun _ => .of_run_eq fun _ => rfl
  | false => exact .of_run_eq fun _ => rfl

/-- A run on a project in which no file fails leaves a project that is kept. -/
theorem Disk.keeps_of_runProject (hd : d.Consistent) (hexact : d.HasExactEncodings)
    (h : (runProject settings .write p : StateM Disk _).run d = (report, d'))
    (hreport : report.hasFailure = false) : d'.Keeps settings p := by
  have hfirst := settles_runFile settings p d hd hexact
  generalize hrun : (runFile settings .write p : StateM Disk _).run d = first at hfirst
  obtain ⟨result, d₁⟩ := first
  simp only at hfirst
  cases hpresent : d₁.present (settings.companion p) with
  | true =>
      have hexact' := hfirst.hasExactEncodings hexact
      have hsecond := settles_runFile settings (settings.companion p) d₁ hfirst.consistent hexact'
      generalize hrun' :
        (runFile settings .write (settings.companion p) : StateM Disk _).run d₁ = second at hsecond
      obtain ⟨result', d₂⟩ := second
      rw [runProject_of_present hrun hpresent hrun'] at h
      cases h
      obtain ⟨⟨outcome, rfl⟩, outcome', rfl⟩ := PairReport.hasFailure_eq_false_iff.1 hreport
      exact ⟨hsecond.planAt_keep (planAt_keep_of_runFile hexact hd hrun),
        fun _ => planAt_keep_of_runFile hexact' hfirst.consistent hrun'⟩
  | false =>
      rw [runProject_of_absent hrun hpresent] at h
      cases h
      obtain ⟨⟨outcome, rfl⟩, -⟩ := PairReport.hasFailure_eq_false_iff.1 hreport
      exact ⟨planAt_keep_of_runFile hexact hd hrun, by simp [hpresent]⟩

/-- A run on a project that is kept finds both files in order and changes nothing. -/
theorem runProject_of_keeps (h : d.Keeps settings p) (mode : Mode) :
    (runProject settings mode p : StateM Disk _).run d = (.ofKept settings d p, d) := by
  have hkeep {q : FilePath} (hq : d.planAt settings q = .ok .keep) :
      (runFile settings mode q : StateM Disk _).run d = (.ok .unchanged, d) := by
    rw [runFile_of_ok hq, carryOut_run (.inr rfl)]
    rfl
  cases hpresent : d.present (settings.companion p) with
  | true =>
      rw [runProject_of_present (hkeep h.itemList) hpresent (hkeep (h.filters hpresent))]
      simp [PairReport.ofKept, hpresent]
  | false =>
      rw [runProject_of_absent (hkeep h.itemList) hpresent]
      simp [PairReport.ofKept, hpresent]

/-! ## Many projects -/

/-- Runs on projects are run one after the other. -/
theorem runProjects_cons {reports : List PairReport}
    (hfirst : (runProject settings mode p : StateM Disk _).run d = (report, d'))
    (hrest : (runProjects settings mode ps : StateM Disk _).run d' = (reports, d'')) :
    (runProjects settings mode (p :: ps) : StateM Disk _).run d = (report :: reports, d'') := by
  simp only [runProjects, Disk.run_bind, hfirst, hrest]
  rfl

/-- Runs on projects settle disks. -/
theorem Disk.settles_runProjects (settings : Settings) (ps : List FilePath) :
    Settles settings (runProjects settings .write ps) := by
  induction ps with
  | nil => exact .of_run_eq fun _ => rfl
  | cons p ps ih =>
      exact (settles_runProject settings p).bind fun _ => ih.bind fun _ => .of_run_eq fun _ => rfl

/-- Runs in which no file fails leave projects that are kept. -/
theorem Disk.keeps_of_runProjects (hd : d.Consistent) (hexact : d.HasExactEncodings)
    {reports : List PairReport}
    (h : (runProjects settings .write ps : StateM Disk _).run d = (reports, d'))
    (hreports : ∀ report ∈ reports, report.hasFailure = false) :
    ∀ p ∈ ps, d'.Keeps settings p := by
  induction ps generalizing d reports with
  | nil => simp
  | cons p ps ih =>
      have hfirst := settles_runProject settings p d hd hexact
      generalize hrun : (runProject settings .write p : StateM Disk _).run d = first at hfirst
      obtain ⟨report, d₁⟩ := first
      have hexact' := hfirst.hasExactEncodings hexact
      have hrest := settles_runProjects settings ps d₁ hfirst.consistent hexact'
      generalize hrun' : (runProjects settings .write ps : StateM Disk _).run d₁ = rest at hrest
      obtain ⟨reports', d₂⟩ := rest
      rw [runProjects_cons hrun hrun'] at h
      cases h
      obtain ⟨hreport, hreports⟩ := List.forall_mem_cons.1 hreports
      exact List.forall_mem_cons.2 ⟨hrest.keeps (keeps_of_runProject hd hexact hrun hreport),
        ih hfirst.consistent hexact' hrun' hreports⟩

/-- Runs on projects that are kept find all files in order and change nothing. -/
theorem runProjects_of_keeps (h : ∀ p ∈ ps, d.Keeps settings p) (mode : Mode) :
    (runProjects settings mode ps : StateM Disk _).run d = (ps.map (.ofKept settings d), d) := by
  induction ps with
  | nil => rfl
  | cons p ps ih =>
      obtain ⟨hp, hps⟩ := List.forall_mem_cons.1 h
      exact runProjects_cons (runProject_of_keeps hp mode) (ih hps)

end ProjectOrder

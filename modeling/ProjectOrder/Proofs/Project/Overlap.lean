import Mathlib.Logic.Relation
import ProjectOrder.Command.Run
import ProjectOrder.Proofs.Project.Settling

/-!
# Runs that overlap

Each run on a file takes two steps: it examines the file, and later it carries its plan out.
`Overlap.Step` lets the steps of several runs follow each other in any order. Whatever the order,
every file holds its own content or what this comes to, and in the end the disk is the one that the
runs leave one after the other: `Overlap.disk_eq_of_finished`.
-/

namespace ProjectOrder

namespace Overlap

/-- How far a run has come. -/
inductive Stage where
  /-- The file has not been read. -/
  | waiting
  /-- The file has been read, and this is to be done about it. -/
  | examined (plan : Plan)
  | finished (result : Except Failure Outcome)

/-- How far a run has come once it has read its file. -/
def Stage.ofExamination : Except Failure Plan → Stage
  | .error failure => finished (.error failure)
  | .ok plan => examined plan

/-- A run on a file. -/
structure Job where
  path : FilePath
  stage : Stage

/-- A disk and the runs on it. -/
structure World where
  disk : Disk
  jobs : List Job

/-- The runs on some files before any of them has begun. -/
def World.start (d : Disk) (paths : List FilePath) : World :=
  ⟨d, paths.map fun p => ⟨p, .waiting⟩⟩

/-- Whether all runs have come to an end. -/
def World.Finished (w : World) : Prop :=
  ∀ job ∈ w.jobs, ∃ result, job.stage = .finished result

variable [Indexes]

/-- Some run takes its next step. No write fails. -/
inductive Step (settings : Settings) : World → World → Prop where
  | examine (d d' : Disk) (before after : List Job) (p : FilePath) (result : Except Failure Plan) :
      (ProjectOrder.examine settings p : StateM Disk _).run d = (result, d') →
      Step settings ⟨d, before ++ ⟨p, .waiting⟩ :: after⟩
        ⟨d', before ++ ⟨p, .ofExamination result⟩ :: after⟩
  | carryOut (d d' : Disk) (before after : List Job) (p : FilePath) (plan : Plan)
      (outcome : Outcome) :
      (ProjectOrder.carryOut .write p plan : StateM Disk _).run d = (.ok outcome, d') →
      Step settings ⟨d, before ++ ⟨p, .examined plan⟩ :: after⟩
        ⟨d', before ++ ⟨p, .finished (.ok outcome)⟩ :: after⟩

/-- Any number of steps. -/
abbrev Steps (settings : Settings) : World → World → Prop :=
  Relation.ReflTransGen (Step settings)

variable {settings : Settings} {paths : List FilePath} {q : FilePath} {d d' : Disk} {w w' : World}
  {job : Job}

/-! ## What holds of each run -/

/-- What is known of a run on a disk that has settled from `d`. -/
def Job.Sound (settings : Settings) (d d' : Disk) (job : Job) : Prop :=
  match job.stage with
  | .waiting => True
  | .examined .keep => d'.planAt settings job.path = .ok .keep
  | .examined (.replace tally output) =>
    d.planAt settings job.path = .ok (.replace tally output)
  | .finished (.ok _) => d'.planAt settings job.path = .ok .keep
  | .finished (.error _) => d'.AtRest settings job.path

/-- What is known of a run stays true while the disk settles. -/
theorem Job.Sound.mono {d'' : Disk} (h : job.Sound settings d d')
    (hsettling : d'.Settling settings d'') : job.Sound settings d d'' := by
  obtain ⟨p, stage⟩ := job
  cases stage with
  | waiting => trivial
  | examined plan =>
      cases plan with
      | keep => exact hsettling.planAt_keep h
      | replace tally output => exact h
  | finished result =>
      cases result with
      | ok outcome => exact hsettling.planAt_keep h
      | error failure => exact hsettling.atRest h

/-- What is known of a run that has examined its file. -/
theorem Job.sound_ofExamination (hsettling : d.Settling settings d') (hexact : d.HasExactEncodings)
    (p : FilePath) :
    Job.Sound settings d d' ⟨p, .ofExamination (d'.planAt settings p)⟩ := by
  cases hplan : d'.planAt settings p with
  | error failure =>
      rcases d'.atRest_or_replace settings p with hrest | ⟨tally, output, hreplace⟩
      · exact hrest
      · rw [hplan] at hreplace
        cases hreplace
  | ok plan =>
      cases plan with
      | keep => exact hplan
      | replace tally output => exact hsettling.planAt_replace hexact hplan

/-! ## What steps keep -/

/-- What holds of a world that the runs on some files have reached from a disk. -/
structure Reached (settings : Settings) (d : Disk) (paths : List FilePath) (w : World) : Prop where
  paths_eq : w.jobs.map Job.path = paths
  settling : d.Settling settings w.disk
  /-- No other file has changed. -/
  content_eq : ∀ q, (∀ p ∈ paths, ¬ q.same p) → w.disk.content q = d.content q
  sound : ∀ job ∈ w.jobs, job.Sound settings d w.disk

/-- What holds of every world that is reached holds at the start. -/
theorem reached_start (hd : d.Consistent) (paths : List FilePath) :
    Reached settings d paths (.start d paths) where
  paths_eq := by simp [World.start, Function.comp_def]
  settling := .refl hd
  content_eq _ _ := rfl
  sound := by
    simp only [World.start, List.forall_mem_map]
    exact fun _ _ => trivial

/-- A step keeps what holds of a world, if it settles the disk, changes no other file than that of
the run, and what is known of the run holds afterwards. -/
theorem Reached.next {before after : List Job} {p : FilePath} {stage stage' : Stage}
    (h : Reached settings d paths ⟨d', before ++ ⟨p, stage⟩ :: after⟩)
    (hexact : d.HasExactEncodings) {d'' : Disk} (hsettling : d'.Settling settings d'')
    (hcontent : ∀ q, ¬ q.same p → d''.content q = d'.content q)
    (hsound : Job.Sound settings d d'' ⟨p, stage'⟩) :
    Reached settings d paths ⟨d'', before ++ ⟨p, stage'⟩ :: after⟩ where
  paths_eq := by
    rw [← h.paths_eq]
    simp
  settling := h.settling.trans hsettling hexact
  content_eq q hq := by
    have hp : p ∈ paths := by
      rw [← h.paths_eq]
      simp
    exact (hcontent q (hq p hp)).trans (h.content_eq q hq)
  sound := by
    have hjobs := h.sound
    simp only [List.forall_mem_append, List.forall_mem_cons] at hjobs ⊢
    obtain ⟨hbefore, -, hafter⟩ := hjobs
    exact ⟨fun job hjob => (hbefore job hjob).mono hsettling, hsound,
      fun job hjob => (hafter job hjob).mono hsettling⟩

/-- Every step keeps what holds of a world. -/
theorem Reached.step (h : Reached settings d paths w) (hd : d.Consistent)
    (hexact : d.HasExactEncodings) (hstep : Step settings w w') :
    Reached settings d paths w' := by
  cases hstep with
  | examine d₁ d₂ before after p result hrun =>
      rw [examine_run] at hrun
      cases hrun
      exact h.next hexact (.refl h.settling.consistent) (fun _ _ => rfl)
        (Job.sound_ofExamination h.settling hexact p)
  | carryOut d₁ d₂ before after p plan outcome hrun =>
      have hjob : Job.Sound settings d d₁ ⟨p, .examined plan⟩ := h.sound _ (by simp)
      cases plan with
      | keep =>
          rw [carryOut_run (.inr rfl)] at hrun
          cases hrun
          exact h.next hexact (.refl h.settling.consistent) (fun _ _ => rfl) hjob
      | replace tally output =>
          cases hfault : d₁.writeFault? p with
          | some fault =>
              rw [carryOut_run_of_fault hfault] at hrun
              cases hrun
          | none =>
              rw [carryOut_run_of_ok hfault] at hrun
              cases hrun
              have hput := h.settling.put hexact hd hjob hfault
              refine h.next hexact hput (fun q => Disk.content_put_of_not_same) ?_
              exact Disk.planAt_of_settled hexact (hput.present.trans h.settling.present) hjob
                (Disk.content_put_of_same (FilePath.same_refl p))

/-- Whatever steps are taken, what holds of a world is kept. -/
theorem reached_of_steps (hd : d.Consistent) (hexact : d.HasExactEncodings)
    (h : Steps settings (.start d paths) w) : Reached settings d paths w := by
  induction h with
  | refl => exact reached_start hd paths
  | tail _ hstep ih => exact ih.step hd hexact hstep

/-! ## Where steps lead -/

/-- A file that is no longer as it was holds its document sorted. -/
theorem Reached.content_cases (h : Reached settings d paths w) (q : FilePath) :
    w.disk.content q = d.content q ∨
      ∃ content document output, d.content q = .ok content ∧
        Document.read content = .ok document ∧
        (document.sort settings.caseOrder).write = .ok output ∧ w.disk.content q = .ok output := by
  rcases h.settling.content q with hsame | ⟨-, hsettled⟩
  · exact .inl hsame
  · rcases d.atRest_or_replace settings q with hrest | ⟨tally, output, hplan⟩
    · exact .inl (hsettled.trans hrest)
    · obtain ⟨-, content, hcontent, hreplace⟩ := Disk.planAt_eq_ok_iff.1 hplan
      obtain ⟨document, hread, -, -, hwrite, -⟩ := Plan.ofContent_eq_replace_iff.1 hreplace
      rw [Disk.settle_of_replace hplan] at hsettled
      exact .inr ⟨content, document, output, hcontent, hread, hwrite, hsettled⟩

/-- When all runs have come to an end, all their files are at rest. -/
theorem Reached.atRest (h : Reached settings d paths w) (hfinished : w.Finished) :
    ∀ p ∈ paths, w.disk.AtRest settings p := by
  rw [← h.paths_eq, List.forall_mem_map]
  intro job hjob
  obtain ⟨result, hstage⟩ := hfinished job hjob
  have hsound := h.sound job hjob
  rw [Job.Sound, hstage] at hsound
  cases result with
  | ok outcome => exact Disk.atRest_of_keep hsound
  | error failure => exact hsound

/-- When all runs have come to an end and none has failed, all their files are kept. -/
theorem Reached.planAt_keep (h : Reached settings d paths w)
    (hok : ∀ job ∈ w.jobs, ∃ outcome, job.stage = .finished (.ok outcome)) :
    ∀ p ∈ paths, w.disk.planAt settings p = .ok .keep := by
  rw [← h.paths_eq, List.forall_mem_map]
  intro job hjob
  obtain ⟨outcome, hstage⟩ := hok job hjob
  have hsound := h.sound job hjob
  rwa [Job.Sound, hstage] at hsound

/-- As long as files can be written, runs that have not come to an end go on. -/
theorem exists_step (hfault : ∀ p, w.disk.writeFault? p = none) (h : ¬ w.Finished) :
    ∃ w', Step settings w w' := by
  obtain ⟨d, jobs⟩ := w
  obtain ⟨⟨p, stage⟩, hjob, hstage⟩ : ∃ job ∈ jobs, ∀ result, job.stage ≠ .finished result := by
    simpa [World.Finished] using h
  obtain ⟨before, after, rfl⟩ := List.append_of_mem hjob
  cases stage with
  | waiting => exact ⟨_, .examine d d before after p _ examine_run⟩
  | examined plan =>
      cases plan with
      | keep => exact ⟨_, .carryOut d d before after p _ _ (carryOut_run (.inr rfl))⟩
      | replace tally output =>
          exact ⟨_, .carryOut d _ before after p _ _ (carryOut_run_of_ok (hfault p))⟩
  | finished result => exact absurd rfl (hstage result)

/-! ## Runs one after the other -/

/-- Runs one after the other settle disks. -/
theorem settles_sortFiles (settings : Settings) (paths : List FilePath) :
    Disk.Settles settings (sortFiles settings paths) := by
  induction paths with
  | nil => exact .of_run_eq fun _ => rfl
  | cons p paths ih =>
      exact (Disk.settles_runFile settings p).bind fun _ => ih.bind fun _ => .of_run_eq fun _ => rfl

/-- Runs one after the other change no other files. -/
theorem content_sortFiles (h : ∀ p ∈ paths, ¬ q.same p) :
    ((sortFiles settings paths : StateM Disk _).run d).2.content q = d.content q := by
  induction paths generalizing d with
  | nil => rfl
  | cons p paths ih =>
      obtain ⟨hp, hpaths⟩ := List.forall_mem_cons.1 h
      exact (ih hpaths).trans (Disk.content_runFile_of_not_same hp)

/-- Runs one after the other leave their files at rest if these can come to rest. -/
theorem atRest_sortFiles (hd : d.Consistent) (hexact : d.HasExactEncodings)
    (h : ∀ p ∈ paths, d.CanRest settings p) :
    ∀ p ∈ paths, ((sortFiles settings paths : StateM Disk _).run d).2.AtRest settings p := by
  induction paths generalizing d with
  | nil => simp
  | cons p paths ih =>
      have hfirst := Disk.settles_runFile settings p d hd hexact
      have hexact' := hfirst.hasExactEncodings hexact
      obtain ⟨hp, hpaths⟩ := List.forall_mem_cons.1 h
      have hrest := Disk.atRest_runFile hexact hd hp
      exact List.forall_mem_cons.2
        ⟨(settles_sortFiles settings paths _ hfirst.consistent hexact').atRest hrest,
          ih hfirst.consistent hexact' fun q hq => hfirst.canRest (hpaths q hq)⟩

/-- In whatever order the steps of runs follow each other, as long as no write fails, every file
holds its own content or its document sorted; and when all runs have come to an end, the disk is the
one that the runs leave one after the other. -/
theorem disk_eq_of_finished (hd : d.Consistent) (hexact : d.HasExactEncodings)
    (h : Steps settings (.start d paths) w) :
    (∀ q, w.disk.content q = d.content q ∨
      ∃ content document output, d.content q = .ok content ∧
        Document.read content = .ok document ∧
        (document.sort settings.caseOrder).write = .ok output ∧ w.disk.content q = .ok output) ∧
      (w.Finished → w.disk = ((sortFiles settings paths : StateM Disk _).run d).2) := by
  have hreached := reached_of_steps hd hexact h
  refine ⟨hreached.content_cases, fun hfinished => ?_⟩
  have hrest := hreached.atRest hfinished
  have hsorted := settles_sortFiles settings paths d hd hexact
  have hsortedRest := atRest_sortFiles hd hexact fun p hp =>
    hreached.settling.canRest_of_atRest hexact (hrest p hp)
  refine hreached.settling.ext_content hsorted fun q => ?_
  by_cases hq : ∃ p ∈ paths, q.same p
  · -- both disks have the file at rest, so it holds what it came to
    obtain ⟨p, hp, hsame⟩ := hq
    have hsame' : p.same q := by rwa [FilePath.same_comm]
    have hone := (hrest p hp).of_same hreached.settling.consistent hsame'
    have htwo := (hsortedRest p hp).of_same hsorted.consistent hsame'
    rw [hreached.settling.content_eq_settle hexact hone, hsorted.content_eq_settle hexact htwo]
  · have hother : ∀ p ∈ paths, ¬ q.same p := fun p hp hsame => hq ⟨p, hp, hsame⟩
    rw [hreached.content_eq q hother, content_sortFiles hother]

end Overlap

/-- Two runs read a file before either of them has written it. -/
theorem Overlap.disk_eq_of_finished_twice :
    let p : FilePath := ⟨"p.vcxproj"⟩
    let d := Disk.ofFiles [(p, Document.twoFilesContent "b" "a")]
    ∃ w, Steps .default (.start d [p, p]) w ∧ w.Finished ∧
      w.disk.content p = .ok (Document.twoFilesContent "a" "b") ∧
      w.disk = ((sortFiles .default [p, p] : StateM Disk _).run d).2 := by
  intro p d
  obtain ⟨hd, hexact, tally, hplan⟩ := Disk.planAt_twoFiles .default p
  let output := Document.twoFilesContent "a" "b"
  let planned : Job := ⟨p, .examined (.replace tally output)⟩
  let done : Job := ⟨p, .finished (.ok (.sorted tally))⟩
  have hexamine :
      (examine .default p : StateM Disk _).run d = (.ok (.replace tally output), d) := by
    rw [examine_run, hplan]
  have hfirst : Step .default (.start d [p, p]) ⟨d, [planned, ⟨p, .waiting⟩]⟩ :=
    .examine d d [] _ p _ hexamine
  have hsecond : Step .default ⟨d, [planned, ⟨p, .waiting⟩]⟩ ⟨d, [planned, planned]⟩ :=
    .examine d d [planned] [] p _ hexamine
  have hthird : Step .default ⟨d, [planned, planned]⟩ ⟨d.put p output, [done, planned]⟩ :=
    .carryOut d _ [] _ p _ _ (carryOut_run_of_ok rfl)
  have hfourth : Step .default ⟨d.put p output, [done, planned]⟩
      ⟨(d.put p output).put p output, [done, done]⟩ :=
    .carryOut _ _ [done] [] p _ _ (carryOut_run_of_ok rfl)
  have hsteps := (((Relation.ReflTransGen.single hfirst).tail hsecond).tail hthird).tail hfourth
  have hfinished : World.Finished ⟨(d.put p output).put p output, [done, done]⟩ := by
    simp [World.Finished, done]
  exact ⟨_, hsteps, hfinished, Disk.content_put_of_same (FilePath.same_refl p),
    (disk_eq_of_finished hd hexact hsteps).2 hfinished⟩

end ProjectOrder

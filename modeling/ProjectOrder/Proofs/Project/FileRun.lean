import ProjectOrder.Proofs.Files.Disk
import ProjectOrder.Proofs.Project.Planning

/-!
# Runs on one file

What a run on one file does to a disk. `runFile_write_cases` lists the ways in which it ends: it
fails or finds the file in order and changes nothing, or it replaces the content of this one file by
its document sorted (`runFile_all_or_nothing`). Verification never makes a difference to documents
in UTF-8 or in an encoding of one byte per character: `runFile_verify`.
-/

namespace ProjectOrder

/-- What has become of a file when a plan for it is carried out. -/
def Plan.outcome : Plan → Outcome
  | keep => .unchanged
  | replace tally _ => .sorted tally

/-- The plan for the file at a path. -/
def Disk.planAt [Indexes] (d : Disk) (settings : Settings) (path : FilePath) :
    Except Failure Plan :=
  if d.present path then
    match d.content path with
    | .error fault => .error (.ofIo "read" path fault)
    | .ok content => Plan.ofContent settings content
  else .error (.notFound path)

variable {settings : Settings} {mode : Mode} {path q : FilePath} {d : Disk} {plan : Plan}
  {tally : Tally} {output : ByteArray}

/-! ## Steps of a run -/

/-- There is a plan for a file only if it is there and its content can be read. -/
theorem Disk.planAt_eq_ok_iff [Indexes] :
    d.planAt settings path = .ok plan ↔
      d.present path ∧ ∃ content, d.content path = .ok content ∧
        Plan.ofContent settings content = .ok plan := by
  unfold planAt
  split
  · cases d.content path <;> simp [*]
  · simp [*]

/-- Examining a file finds the plan for it and changes nothing. -/
theorem examine_run [Indexes] :
    (examine settings path : StateM Disk _).run d = (d.planAt settings path, d) := by
  rw [examine, Disk.run_bind, Disk.run_present, Disk.planAt]
  cases d.present path with
  | false => rfl
  | true =>
      simp only [if_true]
      rw [Disk.run_bind, Disk.run_read]
      cases d.content path <;> rfl

/-- Where nothing is to be written, carrying a plan out changes nothing. -/
theorem carryOut_run (h : mode = .check ∨ plan = .keep) :
    (carryOut mode path plan : StateM Disk _).run d = (.ok plan.outcome, d) := by
  cases plan with
  | keep => rfl
  | replace tally output =>
      cases mode with
      | check => rfl
      | write => simp at h

/-- Where the file cannot be written, carrying a plan out fails and changes nothing. -/
theorem carryOut_run_of_fault {fault : IoFault} (h : d.writeFault? path = some fault) :
    (carryOut .write path (.replace tally output) : StateM Disk _).run d =
      (.error (.ofIo "write" path fault), d) := by
  rw [carryOut, Disk.run_bind, Disk.run_replace_of_fault d path h]
  rfl

/-- Where the file can be written, carrying a plan out replaces it by the output. -/
theorem carryOut_run_of_ok (h : d.writeFault? path = none) :
    (carryOut .write path (.replace tally output) : StateM Disk _).run d =
      (.ok (.sorted tally), d.put path output) := by
  rw [carryOut, Disk.run_bind, Disk.run_replace_of_ok d path h]
  rfl

/-! ## Whole runs -/

/-- Where there is no plan, a run fails in the same way and changes nothing. -/
theorem runFile_of_error [Indexes] {failure : Failure}
    (h : d.planAt settings path = .error failure) :
    (runFile settings mode path : StateM Disk _).run d = (.error failure, d) := by
  rw [runFile, Disk.run_bind, examine_run, h]
  rfl

/-- Where there is a plan, a run carries it out. -/
theorem runFile_of_ok [Indexes] (h : d.planAt settings path = .ok plan) :
    (runFile settings mode path : StateM Disk _).run d =
      (carryOut mode path plan : StateM Disk _).run d := by
  rw [runFile, Disk.run_bind, examine_run, h]

/-- Checking a file tells what is planned for it and changes nothing. -/
theorem runFile_check [Indexes] :
    (runFile settings .check path : StateM Disk _).run d =
      ((d.planAt settings path).map Plan.outcome, d) := by
  cases h : d.planAt settings path with
  | error failure => exact runFile_of_error h
  | ok plan => rw [runFile_of_ok h, carryOut_run (.inl rfl)]; rfl

/-- A run that writes fails and changes nothing, finds the file in order and changes nothing, or
writes what is planned for it. -/
theorem runFile_write_cases [Indexes] (settings : Settings) (path : FilePath) (d : Disk) :
    (∃ failure, (runFile settings .write path : StateM Disk _).run d = (.error failure, d)) ∨
      (d.planAt settings path = .ok .keep ∧
        (runFile settings .write path : StateM Disk _).run d = (.ok .unchanged, d)) ∨
      ∃ tally output, d.planAt settings path = .ok (.replace tally output) ∧
        d.writeFault? path = none ∧
        (runFile settings .write path : StateM Disk _).run d =
          (.ok (.sorted tally), d.put path output) := by
  cases h : d.planAt settings path with
  | error failure => exact .inl ⟨failure, runFile_of_error h⟩
  | ok plan =>
      cases plan with
      | keep => exact .inr (.inl ⟨rfl, by rw [runFile_of_ok h, carryOut_run (.inr rfl)]; rfl⟩)
      | replace tally output =>
          cases hfault : d.writeFault? path with
          | some fault => exact .inl ⟨_, by rw [runFile_of_ok h, carryOut_run_of_fault hfault]⟩
          | none =>
              refine .inr (.inr ⟨tally, output, rfl, rfl, ?_⟩)
              rw [runFile_of_ok h, carryOut_run_of_ok hfault]

/-! ## How a run ends -/

/-- `d.Rewritten path output d'` says that `d'` is the disk `d` with the content of one file
replaced. The file has been there before, and nothing else has changed. -/
structure Disk.Rewritten (d : Disk) (path : FilePath) (output : ByteArray) (d' : Disk) : Prop where
  present : d.present path ∧ d'.present path
  content : ∀ q, q.same path → d'.content q = .ok output
  others : ∀ q, ¬ q.same path → d'.content q = d.content q ∧ d'.present q = d.present q
  writeFault? : d'.writeFault? = d.writeFault?
  listing? : d'.listing? = d.listing?

/-- A file that is there is rewritten by putting another content there. -/
theorem Disk.rewritten_put (h : d.present path) : d.Rewritten path output (d.put path output) where
  present := ⟨h, by simp [put]⟩
  content _ hq := content_put_of_same hq
  others _ hq := ⟨content_put_of_not_same hq, present_put_of_not_same hq⟩
  writeFault? := rfl
  listing? := rfl

/-- The ways in which a run on a file that writes may end: with which result, and on which disk. -/
inductive Disk.RunEnds [Indexes] (settings : Settings) (path : FilePath) (d : Disk) :
    Except Failure Outcome → Disk → Prop where
  | failed (failure : Failure) : RunEnds settings path d (.error failure) d
  /-- The document is in order. -/
  | unchanged (content : ByteArray) (document : Document) :
      d.content path = .ok content →
      Document.read content = .ok document →
      document.sort settings.caseOrder = document →
      RunEnds settings path d (.ok .unchanged) d
  /-- The file holds the document sorted. With verification, this has been read back. -/
  | sorted (content output : ByteArray) (document : Document) (d' : Disk) :
      d.content path = .ok content →
      Document.read content = .ok document →
      0 < (document.tally settings.caseOrder).moved →
      (document.sort settings.caseOrder).write = .ok output →
      (settings.verify → ∃ again, Document.read output = .ok again ∧
        document.entries.Perm again.entries) →
      d.Rewritten path output d' →
      RunEnds settings path d (.ok (.sorted (document.tally settings.caseOrder))) d'

/-- A run on a file changes nothing, unless it replaces the file by its document sorted; and it
changes nothing at all if it only checks. -/
theorem runFile_all_or_nothing [Indexes] (settings : Settings) (path : FilePath) (d : Disk) :
    (∃ result d', (runFile settings .write path : StateM Disk _).run d = (result, d') ∧
      d.RunEnds settings path result d') ∧
    ∃ result, (runFile settings .check path : StateM Disk _).run d = (result, d) := by
  refine ⟨?_, _, runFile_check⟩
  rcases runFile_write_cases settings path d with
    ⟨failure, hrun⟩ | ⟨hkeep, hrun⟩ | ⟨tally, output, hplan, -, hrun⟩
  · exact ⟨_, d, hrun, .failed failure⟩
  · obtain ⟨-, content, hcontent, hkeep⟩ := Disk.planAt_eq_ok_iff.1 hkeep
    obtain ⟨document, hread, hsorted⟩ := Plan.ofContent_eq_keep_iff.1 hkeep
    exact ⟨_, d, hrun, .unchanged content document hcontent hread hsorted⟩
  · obtain ⟨hpresent, content, hcontent, hplan⟩ := Disk.planAt_eq_ok_iff.1 hplan
    obtain ⟨document, hread, hsorted, rfl, hwrite, hverify⟩ := Plan.ofContent_eq_replace_iff.1 hplan
    have hmoved : 0 < (document.tally settings.caseOrder).moved := by
      simpa [Tally.changed] using Document.tally_changed_iff.2 hsorted
    have hagain (h : settings.verify) := verifyOutput_eq_ok_iff.1 (hverify h)
    exact ⟨_, _, hrun, .sorted content output document _ hcontent hread hmoved hwrite hagain
      (Disk.rewritten_put hpresent)⟩

/-! ## Verification -/

/-- Plans for a file in UTF-8 or in an encoding of one byte per character depend on the case order
alone. -/
theorem Disk.planAt_eq_of_caseOrder_eq [Indexes] {other : Settings}
    (hexact : ∀ content, d.content path = .ok content → HasExactEncoding content)
    (horder : settings.caseOrder = other.caseOrder) :
    d.planAt settings path = d.planAt other path := by
  rw [planAt, planAt]
  cases hcontent : d.content path with
  | error fault => rfl
  | ok content =>
      simp only [Plan.ofContent_eq_of_caseOrder_eq (hexact content hcontent) horder]

/-- Verification changes neither what a run on a file tells nor what it does, if the file is in
UTF-8 or in an encoding of one byte per character. -/
theorem runFile_verify [Indexes] (settings : Settings) (mode : Mode) (path : FilePath) (d : Disk)
    (hexact : ∀ content, d.content path = .ok content → HasExactEncoding content) :
    (runFile { settings with verify := true } mode path : StateM Disk _).run d =
      (runFile { settings with verify := false } mode path : StateM Disk _).run d := by
  have hplan : d.planAt { settings with verify := true } path =
      d.planAt { settings with verify := false } path :=
    Disk.planAt_eq_of_caseOrder_eq hexact rfl
  cases h : d.planAt { settings with verify := false } path with
  | error failure => rw [runFile_of_error (hplan.trans h), runFile_of_error h]
  | ok plan => rw [runFile_of_ok (hplan.trans h), runFile_of_ok h]

/-- Two entries change places, verified or not. -/
theorem runFile_verify_twoFiles :
    let p : FilePath := ⟨"p.vcxproj"⟩
    let d := Disk.ofFiles [(p, Document.twoFilesContent "b" "a")]
    (∀ content, d.content p = .ok content → HasExactEncoding content) ∧
      (runFile { Settings.default with verify := true } .write p : StateM Disk _).run d =
        (runFile { Settings.default with verify := false } .write p : StateM Disk _).run d := by
  intro p d
  have hexact : ∀ content, d.content p = .ok content → HasExactEncoding content := by
    intro content hcontent
    obtain ⟨file, hfile, rfl⟩ := Disk.exists_of_content_ofFiles hcontent
    rw [List.mem_singleton.1 hfile]
    exact (Plan.ofContent_twoFiles .default).1
  exact ⟨hexact, runFile_verify .default .write p d hexact⟩

end ProjectOrder

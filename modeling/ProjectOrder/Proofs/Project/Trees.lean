import ProjectOrder.Command.Run
import ProjectOrder.Proofs.Files.Tree
import ProjectOrder.Proofs.Project.Isolation
import ProjectOrder.Proofs.Project.Pairs

/-!
# Runs on trees

What is proved of runs on disks holds on trees. Started on a tree and on a disk that it mirrors at
some paths, two programs run alike if they have one result and the tree mirrors the disk afterwards:
`Tree.RunAlike`. Runs on files and on projects at such paths do (`Mirrors.sortFiles`,
`Mirrors.runProjects`): a file that is written has been read before, so no run makes a file, and no
path comes to lead elsewhere.
-/

namespace ProjectOrder

namespace Tree

variable {α β : Type} {paths : List FilePath} {t : Tree} {d : Disk} {p q : FilePath}
  {settings : Settings}

/-- Started on the tree `t` and on the disk `d`, two programs have one result, and they leave a tree
that mirrors the disk at the paths. -/
structure RunAlike (paths : List FilePath) (t : Tree) (d : Disk) (x : StateM Tree α)
    (y : StateM Disk α) : Prop where
  result : (x.run t).1 = (y.run d).1
  mirrors : (x.run t).2.Mirrors (y.run d).2 paths

/-! ## Programs and their parts -/

/-- Doing nothing is the same on a tree and on a disk. -/
theorem Mirrors.pure (h : t.Mirrors d paths) (a : α) :
    RunAlike paths t d (Pure.pure a) (Pure.pure a) :=
  ⟨rfl, h⟩

/-- Programs run alike if their first parts do and, from where these end, the rest does. -/
theorem RunAlike.bind {x : StateM Tree α} {y : StateM Disk α} {f : α → StateM Tree β}
    {g : α → StateM Disk β} (hx : RunAlike paths t d x y)
    (hrest : RunAlike paths (x.run t).2 (y.run d).2 (f (y.run d).1) (g (y.run d).1)) :
    RunAlike paths t d (x >>= f) (y >>= g) := by
  have hrun : (x >>= f).run t = (f (y.run d).1).run (x.run t).2 := by
    rw [← hx.result]
    rfl
  constructor <;> rw [hrun, Disk.run_bind]
  · exact hrest.result
  · exact hrest.mirrors

/-- Looking for a path is the same on a tree and on the disk that it mirrors. -/
theorem Mirrors.present (h : t.Mirrors d paths) (hp : p ∈ paths) :
    RunAlike paths t d (FileSystem.present p) (FileSystem.present p) :=
  ⟨(h.actsAt p hp).present, h⟩

/-- Reading a path is the same on a tree and on the disk that it mirrors. -/
theorem Mirrors.read (h : t.Mirrors d paths) (hp : p ∈ paths) :
    RunAlike paths t d (FileSystem.read p) (FileSystem.read p) :=
  ⟨(h.actsAt p hp).read, h⟩

/-- A file that can be read is replaced in the tree as it is on the disk. -/
theorem Mirrors.replace {old : ByteArray} (h : t.Mirrors d paths) (hp : p ∈ paths)
    (hread : d.content p = .ok old) (content : ByteArray) :
    RunAlike paths t d (FileSystem.replace p content) (FileSystem.replace p content) := by
  have hacts := h.actsAt p hp
  have hrun : (FileSystem.replace p content : StateM Tree _).run t =
      step (·.replace p content) t := rfl
  cases hfault : t.writeFault? p with
  | some fault =>
      have hdisk : (FileSystem.replace p content : StateM Disk _).run d = (.error fault, d) :=
        Disk.run_replace_of_fault d p (hacts.writeFault? ▸ hfault)
      constructor <;> rw [hrun, step, replace_of_writeFault? hfault, hdisk]
      exact h
  | none =>
      obtain ⟨l, hresolve, hfile, hreplace⟩ := replace_of_read (hacts.read.trans hread) hfault
      have hdisk :
          (FileSystem.replace p content : StateM Disk _).run d = (.ok (), d.put p content) :=
        Disk.run_replace_of_ok d p (hacts.writeFault? ▸ hfault)
      constructor <;> rw [hrun, step, hreplace, hdisk]
      exact h.put hp hresolve hfile

/-- Carrying out a plan for a file that can be read does in a tree what it does on the disk. -/
theorem Mirrors.carryOut {old : ByteArray} (h : t.Mirrors d paths) (mode : Mode) (hp : p ∈ paths)
    (hread : d.content p = .ok old) (plan : Plan) :
    RunAlike paths t d (carryOut mode p plan) (carryOut mode p plan) := by
  cases plan with
  | keep => exact h.pure _
  | replace tally output =>
      cases mode with
      | check => exact h.pure _
      | write =>
          refine (h.replace hp hread output).bind ?_
          cases ((FileSystem.replace p output : StateM Disk _).run d).1 <;>
            exact Mirrors.pure (h.replace hp hread output).mirrors _

/-! ## Runs -/

section Runs

variable [Indexes]

/-- Examining a file is the same on a tree and on the disk that it mirrors. -/
theorem Mirrors.examine (h : t.Mirrors d paths) (settings : Settings) (hp : p ∈ paths) :
    RunAlike paths t d (examine settings p) (examine settings p) := by
  refine (h.present hp).bind ?_
  generalize ((FileSystem.present p : StateM Disk _).run d).1 = there
  cases there with
  | false => exact h.pure _
  | true =>
      refine (h.read hp).bind ?_
      generalize ((FileSystem.read p : StateM Disk _).run d).1 = content
      cases content <;> exact h.pure _

/-- A run on one of the paths does in a tree what it does on a disk that the tree mirrors there. -/
theorem Mirrors.runFile (h : t.Mirrors d paths) (settings : Settings) (mode : Mode)
    (hp : p ∈ paths) :
    RunAlike paths t d (runFile settings mode p) (runFile settings mode p) := by
  have hexamine := h.examine settings hp
  refine hexamine.bind ?_
  have hafter := hexamine.mirrors
  rw [examine_run] at hafter ⊢
  cases hplan : d.planAt settings p with
  | error failure => exact hafter.pure _
  | ok plan =>
      -- a plan is made from a content, so the file is there to be replaced
      obtain ⟨-, content, hread, -⟩ := Disk.planAt_eq_ok_iff.1 hplan
      exact hafter.carryOut mode hp hread plan

/-- A run on a project with both its files among the paths does in a tree what it does on the
disk. -/
theorem Mirrors.runProject (h : t.Mirrors d paths) (mode : Mode) (hp : p ∈ paths)
    (hcompanion : settings.companion p ∈ paths) :
    RunAlike paths t d (runProject settings mode p) (runProject settings mode p) := by
  have hitem := h.runFile settings mode hp
  refine hitem.bind ?_
  have hpresent := hitem.mirrors.present hcompanion
  refine hpresent.bind ?_
  generalize ((FileSystem.present (settings.companion p) : StateM Disk _).run _).1 = there
  cases there with
  | false => exact hpresent.mirrors.pure _
  | true =>
      have hfilters := hpresent.mirrors.runFile settings mode hcompanion
      exact hfilters.bind (hfilters.mirrors.pure _)

/-- Runs on projects with all their files among the paths do in a tree what they do on the disk. -/
theorem Mirrors.runProjects {projects : List FilePath} (h : t.Mirrors d paths) (mode : Mode)
    (hprojects : ∀ p ∈ projects, p ∈ paths ∧ settings.companion p ∈ paths) :
    RunAlike paths t d (runProjects settings mode projects)
      (runProjects settings mode projects) := by
  induction projects generalizing t d with
  | nil => exact h.pure _
  | cons p projects ih =>
      obtain ⟨hp, hprojects⟩ := List.forall_mem_cons.1 hprojects
      have hfirst := h.runProject mode hp.1 hp.2
      have hrest := ih hfirst.mirrors hprojects
      exact hfirst.bind (hrest.bind (hrest.mirrors.pure _))

/-- Runs on files among the paths do in a tree what they do on the disk. -/
theorem Mirrors.sortFiles {files : List FilePath} (h : t.Mirrors d paths) (settings : Settings)
    (hfiles : ∀ p ∈ files, p ∈ paths) :
    RunAlike paths t d (sortFiles settings files) (sortFiles settings files) := by
  induction files generalizing t d with
  | nil => exact h.pure _
  | cons p files ih =>
      obtain ⟨hp, hfiles⟩ := List.forall_mem_cons.1 hfiles
      have hfirst := h.runFile settings .write hp
      have hrest := ih hfirst.mirrors hfiles
      exact hfirst.bind (hrest.bind (hrest.mirrors.pure _))

/-! ## Trees on their own -/

/-- A run on a file of a tree is not seen on any path that is apart from it. -/
theorem read_runFile_of_apart (settings : Settings) (mode : Mode) (h : t.Apart p q) :
    ((runFile settings mode p : StateM Tree _).run t).2.read q = t.read q := by
  have happart : t.AreApart [p, q] := by
    intro r hr r' hr'
    simp only [List.mem_cons, List.not_mem_nil, or_false] at hr hr'
    rcases hr with rfl | rfl <;> rcases hr' with rfl | rfl
    · exact .inl rfl
    · exact .inr h
    · exact .inr h.symm
    · exact .inl rfl
  have hmirrors := mirrors_toDisk happart
  have hrun := hmirrors.runFile settings mode List.mem_cons_self
  have hq : q ∈ [p, q] := by simp
  rw [(hrun.mirrors.actsAt q hq).read, (hmirrors.actsAt q hq).read]
  exact (agreeAt_runFile_of_not_same settings mode _ h.symm.not_same).content

/-- Projects in a tree that have been sorted without a failure are in order for any later run, which
changes nothing. -/
theorem runProjects_twice {projects : List FilePath} (happart : t.AreApart paths)
    (hprojects : ∀ p ∈ projects, p ∈ paths ∧ settings.companion p ∈ paths)
    (hexact : ∀ p ∈ paths, ∀ content, t.read p = .ok content → HasExactEncoding content)
    {reports : List PairReport} {t' : Tree}
    (hrun : (runProjects settings .write projects : StateM Tree _).run t = (reports, t'))
    (hreports : ∀ report ∈ reports, report.hasFailure = false) (mode : Mode) :
    (∀ report ∈ ((runProjects settings mode projects : StateM Tree _).run t').1,
        ∀ r ∈ report.files, r.isFailure = false ∧ r.changed = false) ∧
      ∀ q ∈ paths,
        ((runProjects settings mode projects : StateM Tree _).run t').2.read q = t'.read q := by
  obtain ⟨hresult, hmirrors⟩ := (mirrors_toDisk happart).runProjects .write hprojects
  rw [hrun] at hresult hmirrors
  have hexactDisk : (t.toDisk paths).HasExactEncodings := by
    intro p content hcontent
    obtain ⟨q, hq, hread⟩ := exists_of_content_toDisk hcontent
    exact hexact q hq content hread
  have hkeeps := Disk.keeps_of_runProjects consistent_toDisk hexactDisk
    (Prod.ext hresult.symm rfl) hreports
  have hsecond := hmirrors.runProjects mode hprojects
  have hdisk := runProjects_of_keeps hkeeps mode
  constructor
  · rw [hsecond.result, hdisk]
    exact List.forall_mem_map.2 fun p _ => PairReport.files_ofKept settings _ p
  · intro q hq
    rw [(hsecond.mirrors.actsAt q hq).read, hdisk, (hmirrors.actsAt q hq).read]

end Runs

end Tree

end ProjectOrder

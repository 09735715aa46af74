import Mathlib.Logic.Relation
import ProjectOrder.Proofs.Files.Disk

/-!
# Scripts

A program on files taken apart into its operations. `Script` is one more monad with operations on
files, so the definitions of the program can be read in it; `Script.perform` carries the operations
out one after the other. Scripts may also run side by side, the operations of one between those of
another: `Script.Step`. If no two of them meet at a place, each has the result that it has alone
(`Script.results_eq`).
-/

namespace ProjectOrder

/-- An operation on files. -/
inductive Operation where
  | read (path : FilePath)
  | write (path : FilePath) (content : ByteArray)
  | replace (path : FilePath) (content : ByteArray)
  | present (path : FilePath)
  | isDirectory (path : FilePath)
  | createDirectories (path : FilePath)
  | findFiles (path : FilePath) (extensions : List String)

namespace Operation

/-- What an operation answers. -/
def Answer : Operation → Type
  | read _ => Except IoFault ByteArray
  | write .. | replace .. | createDirectories _ => Except IoFault Unit
  | present _ | isDirectory _ => Bool
  | findFiles .. => Except IoFault (List FilePath)

/-- Carry an operation out. -/
def perform {m : Type → Type} [FileSystem m] : (operation : Operation) → m operation.Answer
  | read path => FileSystem.read path
  | write path content => FileSystem.write path content
  | replace path content => FileSystem.replace path content
  | present path => FileSystem.present path
  | isDirectory path => FileSystem.isDirectory path
  | createDirectories path => FileSystem.createDirectories path
  | findFiles path extensions => FileSystem.findFiles path extensions

/-- The file that an operation is about. Operations on directories are about none. -/
def file? : Operation → Option FilePath
  | read path | write path _ | replace path _ | present path => some path
  | isDirectory _ | createDirectories _ | findFiles .. => none

variable {d e : Disk} {p q : FilePath}

/-- An operation on a file at which two disks agree answers the same on both, and leaves them
agreeing wherever they have agreed. -/
theorem perform_agreeAt (operation : Operation) (hfile : operation.file? = some p)
    (h : d.AgreeAt e p) :
    ((operation.perform : StateM Disk _).run d).1 = ((operation.perform : StateM Disk _).run e).1 ∧
      ∀ q, d.AgreeAt e q → ((operation.perform : StateM Disk _).run d).2.AgreeAt
        ((operation.perform : StateM Disk _).run e).2 q := by
  cases operation with
  | read => cases hfile; exact ⟨h.content, fun _ hq => hq⟩
  | present => cases hfile; exact ⟨h.present, fun _ hq => hq⟩
  | write _ content | replace _ content => cases hfile; exact h.writeStep content
  | isDirectory | createDirectories | findFiles => cases hfile

/-- An operation on a file is not seen at any other place. -/
theorem agreeAt_of_not_same (operation : Operation) (hfile : operation.file? = some p)
    (h : ¬ q.same p) (d : Disk) : ((operation.perform : StateM Disk _).run d).2.AgreeAt d q := by
  cases operation with
  | read | present => exact .refl d q
  | write _ content | replace _ content => cases hfile; exact Disk.agreeAt_writeStep h content
  | isDirectory | createDirectories | findFiles => cases hfile

end Operation

/-- A program that takes one operation after the other, each chosen by the answers so far. -/
inductive Script (α : Type) where
  | done (result : α)
  | step (operation : Operation) (next : operation.Answer → Script α)

namespace Script

variable {α β : Type}

/-- One script and then another. -/
def bind : Script α → (α → Script β) → Script β
  | done a, f => f a
  | step operation next, f => step operation fun answer => (next answer).bind f

instance : Monad Script where
  pure := done
  bind := bind

instance : FileSystem Script where
  read path := step (.read path) done
  write path content := step (.write path content) done
  replace path content := step (.replace path content) done
  present path := step (.present path) done
  isDirectory path := step (.isDirectory path) done
  createDirectories path := step (.createDirectories path) done
  findFiles path extensions := step (.findFiles path extensions) done

/-- Carry the operations of a script out, one after the other. -/
def perform : Script α → StateM Disk α
  | done a => pure a
  | step operation next => do (next (← operation.perform)).perform

variable {s : Script α} {f : α → Script β} {d e : Disk} {operation : Operation}

/-- Doing nothing leaves nothing to perform. -/
@[simp]
theorem perform_pure (a : α) : (pure a : Script α).perform = pure a :=
  rfl

/-- A script that is done has its result, on any disk. -/
@[simp]
theorem perform_done (a : α) (d : Disk) : (done a).perform.run d = (a, d) :=
  rfl

/-- A script is performed operation by operation. -/
theorem perform_step (next : operation.Answer → Script α) (d : Disk) :
    (step operation next).perform.run d =
      (next ((operation.perform : StateM Disk _).run d).1).perform.run
        ((operation.perform : StateM Disk _).run d).2 :=
  rfl

/-- Scripts one after the other are performed one after the other. -/
@[simp]
theorem perform_bind (s : Script α) (f : α → Script β) :
    (s >>= f).perform = s.perform >>= fun a => (f a).perform := by
  induction s with
  | done a => rfl
  | step operation next ih =>
      show operation.perform >>= (fun answer => (next answer >>= f).perform) = _
      simp only [ih]
      rfl

/-- Looking for a path, as a script, is the operation itself. -/
@[simp]
theorem perform_present (p : FilePath) :
    (FileSystem.present p : Script Bool).perform = FileSystem.present p :=
  rfl

/-- Reading a path, as a script, is the operation itself. -/
@[simp]
theorem perform_read (p : FilePath) :
    (FileSystem.read p : Script _).perform = FileSystem.read p :=
  rfl

/-- Replacing a file, as a script, is the operation itself. -/
@[simp]
theorem perform_replace (p : FilePath) (content : ByteArray) :
    (FileSystem.replace p content : Script _).perform = FileSystem.replace p content :=
  rfl

/-! ## Scripts on given files -/

/-- A script whose operations are all about files at given paths. -/
inductive Within (paths : List FilePath) : Script α → Prop
  | done (a : α) : Within paths (done a)
  | step (p : FilePath) (operation : Operation) (next : operation.Answer → Script α) :
      operation.file? = some p → p ∈ paths → (∀ answer, Within paths (next answer)) →
      Within paths (step operation next)

variable {paths others : List FilePath}

/-- Scripts about some files, one after the other, are about these files. -/
theorem Within.bind (hs : Within paths s) (hf : ∀ a, Within paths (f a)) :
    Within paths (s >>= f) := by
  induction hs with
  | done a => exact hf a
  | step p operation next hfile hp _ ih => exact .step p operation _ hfile hp ih

/-- Carried out on two disks that agree at its files, a script has one result, and wherever the
disks have agreed they agree afterwards. -/
theorem Within.perform_agreeAt (hs : Within paths s) (h : ∀ p ∈ paths, d.AgreeAt e p) :
    (s.perform.run d).1 = (s.perform.run e).1 ∧
      ∀ q, d.AgreeAt e q → (s.perform.run d).2.AgreeAt (s.perform.run e).2 q := by
  induction hs generalizing d e with
  | done a => exact ⟨rfl, fun _ hq => hq⟩
  | step p operation next hfile hp _ ih =>
      obtain ⟨hanswer, hafter⟩ := operation.perform_agreeAt hfile (h p hp)
      have hrest := ih ((operation.perform : StateM Disk _).run e).1 fun q hq => hafter q (h q hq)
      rw [perform_step, perform_step, hanswer]
      exact ⟨hrest.1, fun q hq => hrest.2 q (hafter q hq)⟩

/-- A script is not seen at places that are none of its files. -/
theorem Within.agreeAt_of_not_same (hs : Within paths s) {q : FilePath}
    (hq : ∀ p ∈ paths, ¬ q.same p) (d : Disk) : (s.perform.run d).2.AgreeAt d q := by
  induction hs generalizing d with
  | done a => exact .refl d q
  | step p operation next hfile hp _ ih =>
      rw [perform_step]
      exact (ih _ _).trans (operation.agreeAt_of_not_same hfile (hq p hp) d)

/-! ## Scripts side by side -/

/-- Some script takes its next operation. -/
inductive Step : Disk × List (Script α) → Disk × List (Script α) → Prop
  | step (d d' : Disk) (before after : List (Script α)) (operation : Operation)
      (next : operation.Answer → Script α) (answer : operation.Answer) :
      (operation.perform : StateM Disk _).run d = (answer, d') →
      Step (d, before ++ step operation next :: after) (d', before ++ next answer :: after)

/-- Run side by side from the disk `d`, the operations of each between those of the others, the
scripts may come to an end with these results on the disk `d'`. -/
def SideBySide (d : Disk) (scripts : List (Script α)) (results : List α) (d' : Disk) : Prop :=
  Relation.ReflTransGen Step (d, scripts) (d', results.map done)

/-- One script may run to its end while the others wait. -/
theorem steps_perform (s : Script α) (before after : List (Script α)) (d : Disk) :
    Relation.ReflTransGen Step (d, before ++ s :: after)
      ((s.perform.run d).2, before ++ done (s.perform.run d).1 :: after) := by
  induction s generalizing d with
  | done a => exact .refl
  | step operation next ih =>
      rw [perform_step]
      exact .head (.step d _ before after operation next _ (Prod.eta _).symm) (ih _ _)

/-- The first script may run to its end before the others begin. -/
theorem SideBySide.cons {scripts : List (Script α)} {results : List α} {d' d'' : Disk} {a : α}
    (hs : s.perform.run d = (a, d')) (h : SideBySide d' scripts results d'') :
    SideBySide d (s :: scripts) (a :: results) d'' := by
  have hfirst := steps_perform s [] scripts d
  rw [hs] at hfirst
  have hrest : Relation.ReflTransGen Step (d', .done a :: scripts)
      (d'', .done a :: results.map done) := by
    refine Relation.ReflTransGen.lift
      (fun w : Disk × List (Script α) => (w.1, Script.done a :: w.2)) ?_ _ _ h
    rintro _ _ ⟨d, d', before, after, operation, next, answer, hrun⟩
    exact .step d d' (.done a :: before) after operation next answer hrun
  exact hfirst.trans hrest

/-- Whatever scripts run side by side, they can come to an end. -/
theorem exists_sideBySide (d : Disk) (scripts : List (Script α)) :
    ∃ results d', SideBySide d scripts results d' := by
  induction scripts generalizing d with
  | nil => exact ⟨[], d, .refl⟩
  | cons s scripts ih =>
      obtain ⟨results, d', h⟩ := ih (s.perform.run d).2
      exact ⟨_, d', h.cons (Prod.eta _).symm⟩

/-- Two scripts do not meet: each is about files of its own. -/
def Separate (s t : Script α) : Prop :=
  ∃ paths others, Within paths s ∧ Within others t ∧ ∀ p ∈ paths, ∀ q ∈ others, ¬ p.same q

/-- Scripts are separate in either order. -/
theorem Separate.symm {t : Script α} (h : Separate s t) : Separate t s := by
  obtain ⟨paths, others, hs, ht, hsame⟩ := h
  refine ⟨others, paths, ht, hs, fun q hq p hp => ?_⟩
  rw [FilePath.same_comm]
  exact hsame p hp q hq

section Separate

variable {t : Script α} {rest : operation.Answer → Script α}
  (h : Separate (step operation rest) t)

include h

/-- Scripts that do not meet do not meet later on. -/
theorem Separate.next (answer : operation.Answer) : Separate (rest answer) t := by
  obtain ⟨paths, others, hs, ht, hsame⟩ := h
  cases hs with
  | step p _ _ hfile hp hrest => exact ⟨paths, others, hrest answer, ht, hsame⟩

/-- An operation of one script makes no difference to a script that it does not meet. -/
theorem Separate.perform_eq (d : Disk) :
    (t.perform.run ((operation.perform : StateM Disk _).run d).2).1 = (t.perform.run d).1 := by
  obtain ⟨paths, others, hs, ht, hsame⟩ := h
  cases hs with
  | step p _ _ hfile hp hrest =>
      refine (ht.perform_agreeAt fun q hq => ?_).1
      refine operation.agreeAt_of_not_same hfile ?_ d
      rw [FilePath.same_comm]
      exact hsame p hp q hq

end Separate

/-- The results that some scripts have if each is carried out alone. -/
def alone (d : Disk) (scripts : List (Script α)) : List α :=
  scripts.map fun s => (s.perform.run d).1

/-- A step keeps the results that scripts which do not meet have alone. -/
theorem Step.alone_eq {w w' : Disk × List (Script α)} (hstep : Step w w')
    (h : w.2.Pairwise Separate) : alone w'.1 w'.2 = alone w.1 w.2 ∧ w'.2.Pairwise Separate := by
  obtain ⟨d, d', before, after, operation, next, answer, hrun⟩ := hstep
  obtain ⟨hbefore, hafter, hacross⟩ := List.pairwise_append.1 h
  obtain ⟨hnext, hafter⟩ := List.pairwise_cons.1 hafter
  have hearlier : ∀ t ∈ before, Separate (Script.step operation next) t := fun t ht =>
    (hacross t ht _ List.mem_cons_self).symm
  have hanswer : answer = ((operation.perform : StateM Disk _).run d).1 := by rw [hrun]
  have hdisk : d' = ((operation.perform : StateM Disk _).run d).2 := by rw [hrun]
  constructor
  · have hother {t : Script α} (ht : Separate (Script.step operation next) t) :
        (t.perform.run d').1 = (t.perform.run d).1 := by
      rw [hdisk]
      exact ht.perform_eq d
    have hown : ((next answer).perform.run d').1 =
        ((Script.step operation next).perform.run d).1 := by
      rw [perform_step, hanswer, hdisk]
    simp only [alone, List.map_append, List.map_cons, hown]
    rw [List.map_congr_left fun t ht => hother (hearlier t ht),
      List.map_congr_left fun t ht => hother (hnext t ht)]
  · refine List.pairwise_append.2 ⟨hbefore, List.pairwise_cons.2 ⟨fun t ht => ?_, hafter⟩,
      fun t ht => List.forall_mem_cons.2 ⟨?_, fun u hu => ?_⟩⟩
    · exact (hnext t ht).next answer
    · exact ((hearlier t ht).next answer).symm
    · exact hacross t ht u (List.mem_cons_of_mem _ hu)

/-- Scripts that run side by side and do not meet have the results that each has alone. -/
theorem SideBySide.results_eq {scripts : List (Script α)} {results : List α} {d' : Disk}
    (h : SideBySide d scripts results d') (hseparate : scripts.Pairwise Separate) :
    results = alone d scripts := by
  have hsteps {w w' : Disk × List (Script α)} (hsteps : Relation.ReflTransGen Step w w')
      (hw : w.2.Pairwise Separate) : alone w'.1 w'.2 = alone w.1 w.2 ∧ w'.2.Pairwise Separate := by
    induction hsteps with
    | refl => exact ⟨rfl, hw⟩
    | tail _ hstep ih =>
        obtain ⟨halone, hseparate⟩ := hstep.alone_eq ih.2
        exact ⟨halone.trans ih.1, hseparate⟩
  have hend : alone d' (results.map done) = results := by simp [alone, Function.comp_def]
  rw [← hend]
  exact (hsteps h hseparate).1

end Script

end ProjectOrder

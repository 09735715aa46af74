import ProjectOrder.Command.Run
import ProjectOrder.Proofs.Project.Settling
import ProjectOrder.Proofs.Settings.Disjoint

/-!
# What does not change while files settle

A command looks at its settings files and at the directories that it searches. Both stay the same
while files settle: a settings file is no document, so it is never written, and searching reads no
contents. `steady_settingsFor` and `steady_findProjects` say so of the settings and of the projects
of a command.
-/

namespace ProjectOrder

/-! ## What is read and searched -/

/-- A layer is read from the file at its path, if there is one, and reading it changes nothing. -/
theorem Layer.run_load (path : FilePath) (d : Disk) :
    (Layer.load (some path) : StateM Disk _).run d =
      (if d.present path then
        match d.content path with
        | .error fault => .error (.unreadable path fault)
        | .ok content => ofContent path content
      else .ok .empty, d) := by
  rw [Layer.load, Disk.run_bind, Disk.run_present]
  cases d.present path with
  | false => rfl
  | true =>
      simp only [if_true]
      rw [Disk.run_bind, Disk.run_read]
      cases d.content path <;> rfl

/-- The projects that a path stands for depend on what is listed there, and on no content. -/
theorem run_expand (path : FilePath) (d : Disk) :
    (expand path : StateM Disk _).run d =
      (match d.listing? path with
        | none => .ok [path]
        | some (.error fault) => .error (.ofIo "scan directory" path fault)
        | some (.ok found) =>
          .ok ((found.filter (FileSystem.hasExtension itemListExtensions)).mergeSort
            fun p q => (p.compare q).isLE), d) := by
  rw [expand, Disk.run_bind, Disk.run_isDirectory]
  cases hlisting : d.listing? path with
  | none => rfl
  | some listing =>
      simp only [Option.isSome_some, if_true]
      rw [Disk.run_bind, Disk.run_findFiles d path _ hlisting]
      cases listing <;> rfl

/-! ## Steady actions -/

variable [Indexes] {ε ε' α β : Type} {settings : Settings} {d d' : Disk} {p : FilePath}

/-- An action is steady if it changes nothing and, once it has succeeded, succeeds alike however the
files settle. -/
structure Steady (x : StateM Disk (Except ε α)) : Prop where
  disk : ∀ d, (x.run d).2 = d
  result : ∀ {settings d d' a}, d.Settling settings d' → (x.run d).1 = .ok a → (x.run d').1 = .ok a

namespace Steady

variable {x : StateM Disk (Except ε α)} {f : Except ε α → StateM Disk (Except ε' β)}

/-- An action that only returns a result is steady. -/
theorem pure (r : Except ε α) : Steady (Pure.pure r : StateM Disk (Except ε α)) where
  disk _ := rfl
  result _ h := h

/-- Steady actions one after the other, of which the second is left out if the first one fails. -/
theorem bind (hx : Steady x) (hok : ∀ a, Steady (f (.ok a)))
    (herror : ∀ e, ∃ e', f (.error e) = Pure.pure (.error e')) : Steady (x >>= f) where
  disk d := by
    rw [Disk.run_bind, hx.disk]
    cases (x.run d).1 with
    | ok a => exact (hok a).disk d
    | error e =>
        obtain ⟨e', he⟩ := herror e
        rw [he]
        rfl
  result {settings d d' b} hsettling h := by
    rw [Disk.run_bind, hx.disk] at h ⊢
    cases hfirst : (x.run d).1 with
    | ok a =>
        rw [hfirst] at h
        rw [hx.result hsettling hfirst]
        exact (hok a).result hsettling h
    | error e =>
        obtain ⟨e', he⟩ := herror e
        rw [hfirst, he] at h
        cases h

/-- An action that succeeds after a steady action: this has succeeded and changed nothing. -/
theorem exists_of_bind (hx : Steady x) {b : β} (h : (x >>= f).run d = (.ok b, d'))
    (herror : ∀ e, ∃ e', f (.error e) = Pure.pure (.error e')) :
    ∃ a, x.run d = (.ok a, d) ∧ (f (.ok a)).run d = (.ok b, d') := by
  rw [Disk.run_bind, hx.disk] at h
  cases hfirst : (x.run d).1 with
  | ok a =>
      rw [hfirst] at h
      exact ⟨a, Prod.ext hfirst (hx.disk d), h⟩
  | error e =>
      obtain ⟨e', he⟩ := herror e
      rw [hfirst, he] at h
      cases h

/-- What a steady action has found, it finds again. -/
theorem run_eq (hx : Steady x) (hsettling : d.Settling settings d') {a : α}
    (h : (x.run d).1 = .ok a) : x.run d' = (.ok a, d') :=
  Prod.ext (hx.result hsettling h) (hx.disk d')

end Steady

/-! ## Settings -/

/-- A settings file is at rest. -/
theorem Disk.atRest_of_layer {content : ByteArray} {layer : Layer} {path : FilePath}
    (hcontent : d.content p = .ok content) (h : Layer.ofContent path content = .ok layer) :
    d.AtRest settings p := by
  rcases d.atRest_or_replace settings p with hrest | ⟨tally, output, hplan⟩
  · exact hrest
  · obtain ⟨-, _, hcontent', hreplace⟩ := planAt_eq_ok_iff.1 hplan
    obtain ⟨document, hread, -⟩ := Plan.ofContent_eq_replace_iff.1 hreplace
    rw [hcontent, Except.ok.injEq] at hcontent'
    rw [← hcontent'] at hread
    obtain ⟨fault, hfault⟩ := Layer.ofContent_of_read path hread
    rw [hfault] at h
    cases h

/-- Loading a layer is steady: a settings file is no document, so no run writes it. -/
theorem Layer.steady_load (path : Option FilePath) :
    Steady (Layer.load path : StateM Disk (Except SettingsFault Layer)) := by
  cases path with
  | none => exact .pure _
  | some p =>
      refine ⟨fun d => by rw [run_load], fun {settings d d' layer} hsettling h => ?_⟩
      simp only [run_load, hsettling.present] at h ⊢
      split at h
      · cases hcontent : d.content p with
        | error fault => simp only [hcontent, reduceCtorEq] at h
        | ok content =>
            simp only [hcontent] at h
            have hrest : d.AtRest settings p := Disk.atRest_of_layer hcontent h
            rw [if_pos ‹_›, hsettling.content_eq_of_atRest hrest, hcontent]
            exact h
      · rwa [if_neg ‹_›]

/-- Loading settings is steady. -/
theorem Settings.steady_load (globalPath directory : Option FilePath) (env : Environment) :
    Steady (Settings.load globalPath directory env : StateM Disk _) :=
  (Layer.steady_load _).bind (fun _ => (Layer.steady_load _).bind (fun _ => .pure _)
    fun _ => ⟨_, rfl⟩) fun _ => ⟨_, rfl⟩

/-- Finding the settings of a command is steady. -/
theorem steady_settingsFor (ctx : Context) (i : Invocation) :
    Steady (settingsFor ctx i : StateM Disk _) :=
  (Settings.steady_load _ _ _).bind (fun _ => .pure _) fun _ => ⟨_, rfl⟩

/-! ## Projects -/

/-- Expanding a path is steady: it looks at no content. -/
theorem steady_expand (path : FilePath) : Steady (expand path : StateM Disk _) where
  disk d := by rw [run_expand]
  result {settings d d' a} hsettling h := by
    rw [run_expand] at h ⊢
    rwa [hsettling.listing?]

/-- Expanding paths is steady. -/
theorem steady_expandAll (paths : List FilePath) : Steady (expandAll paths : StateM Disk _) := by
  induction paths with
  | nil => exact .pure _
  | cons p paths ih =>
      exact (steady_expand p).bind (fun _ => ih.bind (fun _ => .pure _) fun _ => ⟨_, rfl⟩)
        fun _ => ⟨_, rfl⟩

/-- A search is steady. -/
theorem steady_search (paths : List FilePath) : Steady (search paths : StateM Disk _) :=
  (steady_expandAll paths).bind (fun _ => .pure _) fun _ => ⟨_, rfl⟩

/-- Finding the projects of a command is steady. -/
theorem steady_findProjects (paths : List FilePath) :
    Steady (findProjects paths : StateM Disk _) := by
  refine (steady_search paths).bind (fun found => ?_) fun _ => ⟨_, rfl⟩
  cases found <;> exact .pure _

end ProjectOrder

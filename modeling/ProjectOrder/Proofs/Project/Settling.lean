import ProjectOrder.Proofs.Project.FileRun

/-!
# Disks that settle

Runs take a disk forward only: `Disk.Settling` says that some files have been replaced by what they
come to and nothing else has changed. The relation is reflexive and transitive, every run is a step
of it (`Disk.settles_runFile`), and a file that is at rest stays so (`Settling.atRest`).
-/

namespace ProjectOrder

namespace Disk

variable [Indexes]

/-- What reading a path gives once the file there has been settled. -/
def settle (d : Disk) (settings : Settings) (p : FilePath) : Except IoFault ByteArray :=
  if d.present p then (d.content p).map settings.settle else d.content p

/-- A file is at rest if it has settled. -/
def AtRest (d : Disk) (settings : Settings) (p : FilePath) : Prop :=
  d.settle settings p = d.content p

/-- A file can come to rest if it is at rest or can be written. -/
def CanRest (d : Disk) (settings : Settings) (p : FilePath) : Prop :=
  d.AtRest settings p ∨ d.writeFault? p = none

/-- All files are in UTF-8 or in encodings of one byte per character, as far as they are
documents. -/
def HasExactEncodings (d : Disk) : Prop :=
  ∀ p content, d.content p = .ok content → HasExactEncoding content

/-- `d.Settling settings d'` says that `d'` is the disk `d` with some of its files settled, each of
them at a place that can be written. -/
structure Settling (settings : Settings) (d d' : Disk) : Prop where
  consistent : d'.Consistent
  present : d'.present = d.present
  writeFault? : d'.writeFault? = d.writeFault?
  listing? : d'.listing? = d.listing?
  content : ∀ p, d'.content p = d.content p ∨
    (d.writeFault? p = none ∧ d'.content p = d.settle settings p)

variable {settings : Settings} {d d' d'' : Disk} {p q : FilePath} {tally : Tally}
  {output : ByteArray} {plan : Plan}

/-! ## What is planned and what a file comes to -/

/-- Paths that are the same come to the same content. -/
theorem settle_eq_of_same (hd : d.Consistent) (h : p.same q) :
    d.settle settings p = d.settle settings q := by
  rw [settle, settle, hd.present h, hd.content h]

/-- Files at rest are so under every path that is the same. -/
theorem AtRest.of_same (hd : d.Consistent) (h : p.same q) (hp : d.AtRest settings p) :
    d.AtRest settings q := by
  rw [AtRest, ← settle_eq_of_same hd h, hp, hd.content h]

/-- A file that is planned to be replaced comes to the output of the plan. -/
theorem settle_of_replace (h : d.planAt settings p = .ok (.replace tally output)) :
    d.settle settings p = .ok output := by
  obtain ⟨hpresent, content, hcontent, hplan⟩ := planAt_eq_ok_iff.1 h
  rw [settle, if_pos hpresent, hcontent, Except.map, Settings.settle_eq_output hplan]

/-- A file is at rest or planned to be replaced. -/
theorem atRest_or_replace (d : Disk) (settings : Settings) (p : FilePath) :
    d.AtRest settings p ∨ ∃ tally output, d.planAt settings p = .ok (.replace tally output) := by
  unfold AtRest settle
  by_cases hpresent : d.present p
  · rw [if_pos hpresent]
    cases hcontent : d.content p with
    | error fault => exact .inl rfl
    | ok content =>
        rcases Settings.settle_cases settings content with hsame | ⟨tally, hplan⟩
        · exact .inl (congrArg Except.ok hsame)
        · exact .inr ⟨tally, _, planAt_eq_ok_iff.2 ⟨hpresent, content, hcontent, hplan⟩⟩
  · exact .inl (if_neg hpresent)

/-- A file that is planned to be kept is at rest. -/
theorem atRest_of_keep (h : d.planAt settings p = .ok .keep) : d.AtRest settings p := by
  obtain ⟨hpresent, content, hcontent, hplan⟩ := planAt_eq_ok_iff.1 h
  rw [AtRest, settle, if_pos hpresent, hcontent, Except.map, Settings.settle, hplan]

/-- The plan for a file depends on whether it is there and on its content. -/
theorem planAt_congr (hpresent : d'.present = d.present) (hcontent : d'.content p = d.content p) :
    d'.planAt settings p = d.planAt settings p := by
  rw [planAt, planAt, hpresent, hcontent]

/-- A file that has settled to the output of a plan is kept. -/
theorem planAt_of_settled (hexact : d.HasExactEncodings) (hpresent : d'.present = d.present)
    (hplan : d.planAt settings p = .ok (.replace tally output))
    (hcontent : d'.content p = .ok output) : d'.planAt settings p = .ok .keep := by
  obtain ⟨hthere, content, hbefore, hreplace⟩ := planAt_eq_ok_iff.1 hplan
  exact planAt_eq_ok_iff.2 ⟨hpresent ▸ hthere, output, hcontent,
    Plan.ofContent_output (hexact p content hbefore) hreplace⟩

/-- A file that is planned to be replaced is not at rest. -/
theorem not_atRest_of_replace (hexact : d.HasExactEncodings)
    (h : d.planAt settings p = .ok (.replace tally output)) : ¬ d.AtRest settings p := by
  intro hrest
  have hkeep := planAt_of_settled hexact rfl h (hrest ▸ settle_of_replace h)
  rw [h] at hkeep
  cases hkeep

/-- A disk made of files in exact encodings has exact encodings. -/
theorem hasExactEncodings_ofFiles {files : List (FilePath × ByteArray)}
    (h : ∀ file ∈ files, HasExactEncoding file.2) : (ofFiles files).HasExactEncodings := by
  intro p content hcontent
  obtain ⟨file, hfile, rfl⟩ := exists_of_content_ofFiles hcontent
  exact h file hfile

/-! ## Settling step by step -/

namespace Settling

/-- A disk settles to itself. -/
theorem refl (hd : d.Consistent) : Settling settings d d :=
  ⟨hd, rfl, rfl, rfl, fun _ => .inl rfl⟩

/-- Settling keeps exact encodings. -/
theorem hasExactEncodings (h : Settling settings d d') (hexact : d.HasExactEncodings) :
    d'.HasExactEncodings := by
  intro p content hcontent
  rcases h.content p with hsame | ⟨-, hsettled⟩
  · exact hexact p content (hsame ▸ hcontent)
  · rw [hsettled, settle] at hcontent
    split at hcontent
    · cases hbefore : d.content p with
      | error fault => rw [hbefore] at hcontent; cases hcontent
      | ok before =>
          rw [hbefore] at hcontent
          cases hcontent
          exact Settings.hasExactEncoding_settle (hexact p before hbefore)
    · exact hexact p content hcontent

/-- What a file comes to does not depend on whether it has settled already. -/
theorem settle_eq (h : Settling settings d d') (hexact : d.HasExactEncodings) :
    d'.settle settings p = d.settle settings p := by
  rcases h.content p with hsame | ⟨-, hsettled⟩
  · rw [settle, settle, h.present, hsame]
  · rw [settle, h.present, hsettled, settle]
    split
    · cases hbefore : d.content p with
      | error fault => rfl
      | ok before => exact congrArg Except.ok (Settings.settle_settle (hexact p before hbefore))
    · rfl

/-- A disk that settles twice has settled. -/
theorem trans (h : Settling settings d d') (h' : Settling settings d' d'')
    (hexact : d.HasExactEncodings) : Settling settings d d'' where
  consistent := h'.consistent
  present := h'.present.trans h.present
  writeFault? := h'.writeFault?.trans h.writeFault?
  listing? := h'.listing?.trans h.listing?
  content p := by
    rcases h'.content p with hsame | ⟨hfault, hsettled⟩
    · rw [hsame]
      exact h.content p
    · rw [hsettled, ← h.settle_eq hexact]
      exact .inr ⟨h.writeFault? ▸ hfault, rfl⟩

/-- A file at rest has the content that it came to. -/
theorem content_eq_settle (h : Settling settings d d') (hexact : d.HasExactEncodings)
    (hrest : d'.AtRest settings p) : d'.content p = d.settle settings p := by
  rw [← hrest, h.settle_eq hexact]

/-- A file at rest is not changed. -/
theorem content_eq_of_atRest (h : Settling settings d d') (hrest : d.AtRest settings p) :
    d'.content p = d.content p := by
  rcases h.content p with hsame | ⟨-, hsettled⟩
  · exact hsame
  · exact hsettled.trans hrest

/-- A file at rest stays at rest. -/
theorem atRest (h : Settling settings d d') (hrest : d.AtRest settings p) :
    d'.AtRest settings p := by
  have hcontent := h.content_eq_of_atRest hrest
  rw [AtRest, settle, h.present, hcontent]
  exact hrest

/-- A file that can come to rest stays such a file. -/
theorem canRest (h : Settling settings d d') (hp : d.CanRest settings p) :
    d'.CanRest settings p := by
  rw [CanRest, h.writeFault?]
  exact hp.imp_left h.atRest

/-- A file that has come to rest was one that can. -/
theorem canRest_of_atRest (h : Settling settings d d') (hexact : d.HasExactEncodings)
    (hrest : d'.AtRest settings p) : d.CanRest settings p := by
  rcases h.content p with hsame | ⟨hfault, -⟩
  · exact .inl ((h.content_eq_settle hexact hrest).symm.trans hsame)
  · exact .inr hfault

/-- Disks that have settled from one disk differ in contents only. -/
theorem ext_content (h : Settling settings d d') (h' : Settling settings d d'')
    (hcontent : ∀ p, d'.content p = d''.content p) : d' = d'' := by
  have hpresent := h.present.trans h'.present.symm
  have hfault := h.writeFault?.trans h'.writeFault?.symm
  have hlisting := h.listing?.trans h'.listing?.symm
  cases d'
  cases d''
  obtain rfl := hpresent
  obtain rfl := hfault
  obtain rfl := hlisting
  exact congrArg (Disk.mk · _ _ _) (funext hcontent)

/-- A file that is kept stays so. -/
theorem planAt_keep (h : Settling settings d d') (hkeep : d.planAt settings p = .ok .keep) :
    d'.planAt settings p = .ok .keep := by
  rw [planAt_congr h.present (h.content_eq_of_atRest (atRest_of_keep hkeep)), hkeep]

/-- What is planned to be replaced has been planned so from the beginning. -/
theorem planAt_replace (h : Settling settings d d') (hexact : d.HasExactEncodings)
    (hplan : d'.planAt settings p = .ok (.replace tally output)) :
    d.planAt settings p = .ok (.replace tally output) := by
  rcases h.content p with hsame | ⟨-, hsettled⟩
  · rw [← hplan, planAt_congr h.present hsame]
  · have hnot := not_atRest_of_replace (h.hasExactEncodings hexact) hplan
    exact absurd ((h.settle_eq hexact).trans hsettled.symm) hnot

/-- Writing what a file was planned to be replaced by from the beginning settles the file. -/
theorem put (h : Settling settings d d') (hexact : d.HasExactEncodings) (hd : d.Consistent)
    (hplan : d.planAt settings p = .ok (.replace tally output))
    (hfault : d'.writeFault? p = none) : Settling settings d' (d'.put p output) where
  consistent := h.consistent.put
  present := by
    obtain ⟨hpresent, -⟩ := planAt_eq_ok_iff.1 hplan
    exact h.consistent.present_put (h.present ▸ hpresent)
  writeFault? := rfl
  listing? := rfl
  content q := by
    by_cases hsame : q.same p
    · right
      rw [content_put_of_same hsame, h.settle_eq hexact, settle_eq_of_same hd hsame,
        settle_of_replace hplan, h.consistent.writeFault? hsame]
      exact ⟨hfault, rfl⟩
    · exact .inl (content_put_of_not_same hsame)

end Settling

/-! ## Runs -/

/-- An action settles disks if it takes a disk to one that has settled from it, whatever its
result. -/
def Settles (settings : Settings) {α : Type} (x : StateM Disk α) : Prop :=
  ∀ d : Disk, d.Consistent → d.HasExactEncodings → d.Settling settings (x.run d).2

namespace Settles

variable {α β : Type} {x : StateM Disk α} {f : α → StateM Disk β}

/-- An action that leaves disks as they are settles them. -/
theorem of_run_eq (h : ∀ d, (x.run d).2 = d) : Settles settings x :=
  fun d hd _ => (h d).symm ▸ .refl hd

/-- Actions that settle disks do so one after the other. -/
theorem bind (hx : Settles settings x) (hf : ∀ a, Settles settings (f a)) :
    Settles settings (x >>= f) := by
  intro d hd hexact
  have hfirst := hx d hd hexact
  exact hfirst.trans (hf _ _ hfirst.consistent (hfirst.hasExactEncodings hexact)) hexact

end Settles

/-- A run on a file settles disks. -/
theorem settles_runFile (settings : Settings) (p : FilePath) :
    Settles settings (runFile settings .write p) := by
  intro d hd hexact
  rcases runFile_write_cases settings p d with
    ⟨failure, h⟩ | ⟨-, h⟩ | ⟨tally, output, hplan, hfault, h⟩
  · rw [h]
    exact .refl hd
  · rw [h]
    exact .refl hd
  · rw [h]
    exact (Settling.refl hd).put hexact hd hplan hfault

/-- A run changes no other file. -/
theorem content_runFile_of_not_same (h : ¬ q.same p) :
    ((runFile settings .write p : StateM Disk _).run d).2.content q = d.content q := by
  rcases runFile_write_cases settings p d with
    ⟨failure, hrun⟩ | ⟨-, hrun⟩ | ⟨tally, output, -, -, hrun⟩
  · rw [hrun]
  · rw [hrun]
  · rw [hrun]
    exact content_put_of_not_same h

/-- A run that does not fail leaves a file that is kept. -/
theorem planAt_keep_of_runFile {outcome : Outcome} (hexact : d.HasExactEncodings)
    (hd : d.Consistent)
    (h : (runFile settings .write p : StateM Disk _).run d = (.ok outcome, d')) :
    d'.planAt settings p = .ok .keep := by
  rcases runFile_write_cases settings p d with
    ⟨failure, hrun⟩ | ⟨hkeep, hrun⟩ | ⟨tally, output, hplan, hfault, hrun⟩
  · rw [hrun] at h
    cases h
  · rw [hrun] at h
    cases h
    exact hkeep
  · rw [hrun] at h
    cases h
    have hpresent := ((Settling.refl hd).put hexact hd hplan hfault).present
    exact planAt_of_settled hexact hpresent hplan (content_put_of_same (FilePath.same_refl p))

/-- A run leaves the file at rest if it can come to rest. -/
theorem atRest_runFile (hexact : d.HasExactEncodings) (hd : d.Consistent)
    (h : d.CanRest settings p) :
    ((runFile settings .write p : StateM Disk _).run d).2.AtRest settings p := by
  rcases atRest_or_replace d settings p with hrest | ⟨tally, output, hplan⟩
  · exact (settles_runFile settings p d hd hexact).atRest hrest
  · have hfault := h.resolve_left (not_atRest_of_replace hexact hplan)
    have hrun : (runFile settings .write p : StateM Disk _).run d =
        (.ok (.sorted tally), d.put p output) := by
      rw [runFile_of_ok hplan, carryOut_run_of_ok hfault]
    rw [hrun]
    exact atRest_of_keep (planAt_keep_of_runFile hexact hd hrun)

end Disk

/-- On a disk that holds a project of two files out of order, these are to change places. -/
theorem Disk.planAt_twoFiles (settings : Settings) (p : FilePath) :
    let d := ofFiles [(p, Document.twoFilesContent "b" "a")]
    d.Consistent ∧ d.HasExactEncodings ∧
      ∃ tally, d.planAt settings p = .ok (.replace tally (Document.twoFilesContent "a" "b")) := by
  intro d
  obtain ⟨hexact, tally, hplan⟩ := Plan.ofContent_twoFiles settings
  refine ⟨consistent_ofFiles _, hasExactEncodings_ofFiles (List.forall_mem_singleton.2 hexact),
    tally, planAt_eq_ok_iff.2 ⟨?_, Document.twoFilesContent "b" "a", ?_, hplan⟩⟩ <;>
      simp [d, ofFiles]

end ProjectOrder

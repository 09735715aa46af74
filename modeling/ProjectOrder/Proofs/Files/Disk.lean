import ProjectOrder.Files.Disk

/-!
# Reading and writing disks

Paths that are the same lead to one place. `Disk.Consistent` says this of a disk; a write keeps it,
and changes what is read at that place and nowhere else. `Disk.AgreeAt` compares two disks at one
path only. The operations on files are equations about disks.
-/

namespace ProjectOrder

namespace FilePath

variable {p q r : FilePath}

/-- Two paths are the same if their components are. -/
theorem same_iff : p.same q ↔ p.components = q.components := by
  simp [same]

/-- A path is the same as itself. -/
@[simp]
theorem same_refl (p : FilePath) : p.same p := by
  simp [same]

/-- The same paths are so in either order. -/
theorem same_comm : p.same q = q.same p := by
  simp [same, eq_comm]

/-- Paths that are the same are the same as the same paths. -/
theorem same_congr (h : p.same q) : p.same = q.same := by
  funext r
  simp [same, same_iff.1 h]

end FilePath

namespace Disk

variable {d : Disk} {p q : FilePath} {bytes : ByteArray}

/-- Paths that are the same are read, found and written alike. -/
structure Consistent (d : Disk) : Prop where
  content {p q : FilePath} : p.same q → d.content p = d.content q
  present {p q : FilePath} : p.same q → d.present p = d.present q
  writeFault? {p q : FilePath} : p.same q → d.writeFault? p = d.writeFault? q

/-- After a write, the content written is read at the same path. -/
theorem content_put_of_same (h : q.same p) : (d.put p bytes).content q = .ok bytes :=
  if_pos h

/-- After a write, what was there before is read at any other path. -/
theorem content_put_of_not_same (h : ¬ q.same p) : (d.put p bytes).content q = d.content q :=
  if_neg h

/-- After a write, any other path is present or absent as before. -/
theorem present_put_of_not_same (h : ¬ q.same p) : (d.put p bytes).present q = d.present q := by
  simp [put, h]

/-- Writing to a file that is there makes no other. -/
theorem Consistent.present_put (hd : d.Consistent) (hp : d.present p) :
    (d.put p bytes).present = d.present := by
  funext q
  by_cases h : q.same p
  · simp [put, h, hd.present h, hp]
  · exact present_put_of_not_same h

/-- A write keeps a disk consistent. -/
theorem Consistent.put (hd : d.Consistent) : (d.put p bytes).Consistent where
  content {q r} h := by
    simp only [Disk.put, FilePath.same_congr h, hd.content h]
  present {q r} h := by
    simp only [Disk.put, FilePath.same_congr h, hd.present h]
  writeFault? h := hd.writeFault? h

/-! ## Disks that agree at a path -/

/-- Two disks agree at a path if it is read, found and written alike on both, whatever else there is
on them. -/
structure AgreeAt (d e : Disk) (p : FilePath) : Prop where
  content : d.content p = e.content p
  present : d.present p = e.present p
  writeFault? : d.writeFault? p = e.writeFault? p

variable {e f : Disk}

/-- A disk agrees with itself. -/
theorem AgreeAt.refl (d : Disk) (p : FilePath) : d.AgreeAt d p :=
  ⟨rfl, rfl, rfl⟩

/-- Disks agree at a path in either order. -/
theorem AgreeAt.symm (h : d.AgreeAt e p) : e.AgreeAt d p :=
  ⟨h.content.symm, h.present.symm, h.writeFault?.symm⟩

/-- Disks that agree with a third at a path agree there. -/
theorem AgreeAt.trans (h : d.AgreeAt e p) (h' : e.AgreeAt f p) : d.AgreeAt f p :=
  ⟨h.content.trans h'.content, h.present.trans h'.present, h.writeFault?.trans h'.writeFault?⟩

/-- Disks that agree at a path agree there after one write to both. -/
theorem AgreeAt.put (h : d.AgreeAt e q) : (d.put p bytes).AgreeAt (e.put p bytes) q where
  content := by simp only [Disk.put, h.content]
  present := by simp only [Disk.put, h.present]
  writeFault? := h.writeFault?

/-- A write is not seen at any other path. -/
theorem agreeAt_put_of_not_same (h : ¬ q.same p) : (d.put p bytes).AgreeAt d q :=
  ⟨content_put_of_not_same h, present_put_of_not_same h, rfl⟩

/-- Writing to a file at which two disks agree answers the same on both, and leaves them agreeing
wherever they have agreed. -/
theorem AgreeAt.writeStep (h : d.AgreeAt e p) (bytes : ByteArray) :
    (Disk.writeStep p bytes d).1 = (Disk.writeStep p bytes e).1 ∧
      ∀ q, d.AgreeAt e q → (Disk.writeStep p bytes d).2.AgreeAt (Disk.writeStep p bytes e).2 q := by
  simp only [Disk.writeStep, Disk.write, ← h.writeFault?]
  cases d.writeFault? p with
  | some fault => exact ⟨rfl, fun _ hq => hq⟩
  | none => exact ⟨rfl, fun _ hq => hq.put⟩

/-- Writing to a file, with success or without, is not seen at any other path. -/
theorem agreeAt_writeStep (h : ¬ q.same p) (bytes : ByteArray) :
    (Disk.writeStep p bytes d).2.AgreeAt d q := by
  simp only [Disk.writeStep, Disk.write]
  cases d.writeFault? p with
  | some fault => exact .refl d q
  | none => exact agreeAt_put_of_not_same h

/-! ## Operations -/

section Operations

variable {α β : Type} (d : Disk) (p : FilePath)

/-- The second of two actions goes on from the disk that the first leaves. -/
theorem run_bind (x : StateM Disk α) (f : α → StateM Disk β) :
    (x >>= f).run d = (f (x.run d).1).run (x.run d).2 :=
  rfl

/-- Looking for a path finds what the disk says and changes nothing. -/
theorem run_present : (FileSystem.present p : StateM Disk Bool).run d = (d.present p, d) :=
  rfl

/-- Reading a path gives its content and changes nothing. -/
theorem run_read : (FileSystem.read p : StateM Disk _).run d = (d.content p, d) :=
  rfl

/-- A path is a directory if the disk lists it. -/
theorem run_isDirectory :
    (FileSystem.isDirectory p : StateM Disk Bool).run d = ((d.listing? p).isSome, d) :=
  rfl

/-- Looking for files in a directory lists those with one of the extensions and changes nothing. -/
theorem run_findFiles (extensions : List String) {listing : Except IoFault (List FilePath)}
    (h : d.listing? p = some listing) :
    (FileSystem.findFiles p extensions : StateM Disk _).run d =
      (listing.map (·.filter (FileSystem.hasExtension extensions)), d) := by
  simp only [FileSystem.findFiles, StateT.run, h]

/-- Replacing a file that cannot be written gives the fault and changes nothing. -/
theorem run_replace_of_fault {fault : IoFault} (h : d.writeFault? p = some fault) :
    (FileSystem.replace p bytes : StateM Disk _).run d = (.error fault, d) := by
  change writeStep p bytes d = _
  simp only [writeStep, write, h]

/-- Replacing any other file puts the content there. -/
theorem run_replace_of_ok (h : d.writeFault? p = none) :
    (FileSystem.replace p bytes : StateM Disk _).run d = (.ok (), d.put p bytes) := by
  change writeStep p bytes d = _
  simp only [writeStep, write, h]

end Operations

/-! ## Disks made of files -/

/-- The disk that holds some files, of which the first at a place counts. Every file can be written,
and no directory is listed. -/
def ofFiles (files : List (FilePath × ByteArray)) : Disk where
  content p := ((files.find? (·.1.same p)).map (·.2)).elim (.error .notFound) .ok
  present p := files.any (·.1.same p)
  writeFault? _ := none
  listing? _ := none

/-- A disk made of files is consistent. -/
theorem consistent_ofFiles (files : List (FilePath × ByteArray)) : (ofFiles files).Consistent := by
  have hcongr {p q : FilePath} (h : p.same q) :
      (fun file : FilePath × ByteArray => file.1.same p) = fun file => file.1.same q := by
    funext file
    simp [FilePath.same, FilePath.same_iff.1 h]
  exact ⟨fun h => by simp only [ofFiles, hcongr h], fun h => by simp only [ofFiles, hcongr h],
    fun _ => rfl⟩

/-- Whatever can be read from such a disk is one of the files. -/
theorem exists_of_content_ofFiles {files : List (FilePath × ByteArray)} {p : FilePath}
    {content : ByteArray} (h : (ofFiles files).content p = .ok content) :
    ∃ file ∈ files, file.2 = content := by
  cases hfind : files.find? (·.1.same p) with
  | none => simp [ofFiles, hfind] at h
  | some file =>
      simp only [ofFiles, hfind, Option.map_some, Option.elim_some, Except.ok.injEq] at h
      exact ⟨file, List.mem_of_find?_eq_some hfind, h⟩

end Disk

end ProjectOrder

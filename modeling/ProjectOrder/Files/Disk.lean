import ProjectOrder.Files.FileSystem

/-!
# Disks

A file system as a state: what is at each path, and which operations fail there. A disk may fail in
any way; all it promises is that reading changes nothing, and that a write either changes the
content of the one path or fails and changes nothing.
-/

namespace ProjectOrder

/-- The state of a file system. Paths with the same components are one place. -/
structure Disk where
  /-- What reading a path gives. -/
  content : FilePath → Except IoFault ByteArray
  /-- Whether there is anything at a path. -/
  present : FilePath → Bool
  /-- The fault, if any, of writing to a path. -/
  writeFault? : FilePath → Option IoFault
  /-- The files listed under a directory; `none` for a path that is no directory. -/
  listing? : FilePath → Option (Except IoFault (List FilePath))

namespace Disk

/-- The disk with a content put at a path. -/
def put (d : Disk) (p : FilePath) (bytes : ByteArray) : Disk :=
  { d with
    content := fun q => if q.same p then .ok bytes else d.content q
    present := fun q => q.same p || d.present q }

/-- The disk with a content put at a path, unless writing there fails. -/
def write (d : Disk) (p : FilePath) (bytes : ByteArray) : Except IoFault Disk :=
  match d.writeFault? p with
  | some fault => .error fault
  | none => .ok (d.put p bytes)

/-- A write as a step of the state. A fault leaves the disk as it is. -/
def writeStep (p : FilePath) (bytes : ByteArray) : StateM Disk (Except IoFault Unit) :=
  fun d =>
    match d.write p bytes with
    | .ok d' => (.ok (), d')
    | .error fault => (.error fault, d)

/-- The operations on a disk. It makes no directories. -/
instance : FileSystem (StateM Disk) where
  read p := fun d => (d.content p, d)
  write := writeStep
  replace := writeStep
  present p := fun d => (d.present p, d)
  isDirectory p := fun d => ((d.listing? p).isSome, d)
  createDirectories _ := fun d => (.error .other, d)
  findFiles p extensions := fun d =>
    match d.listing? p with
    | some listing => (listing.map (·.filter (FileSystem.hasExtension extensions)), d)
    | none => (.error .notFound, d)

end Disk

end ProjectOrder

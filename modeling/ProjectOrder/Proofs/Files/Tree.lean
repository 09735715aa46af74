import ProjectOrder.Files.Tree
import ProjectOrder.Proofs.Files.Disk

/-!
# Trees as disks

On a disk any file may fail in any way; in a tree the way that a path is walked decides. A tree acts
at a path as a disk does if both give one content, one answer whether there is anything, and one
fault of writing: `Tree.ActsAt`. Putting a content at a file that is there already leads no path to
another place (`Tree.walk_put`), so a tree and a disk keep acting alike at all paths that are apart,
whatever is put at one of them (`Tree.Mirrors.put`). `Tree.toDisk` is the disk as which a tree acts
at some paths.
-/

namespace ProjectOrder

namespace Tree

variable {t : Tree} {d : Disk} {p q : FilePath} {paths : List FilePath} {l m : Location}
  {old content : ByteArray}

/-! ## What stands at a place -/

/-- Taking the entries of one key out of a list makes no difference to another key. -/
theorem lookup_filter_ne (h : m ≠ l) (files : List (Location × ByteArray)) :
    (files.filter (·.1 ≠ l)).lookup m = files.lookup m := by
  induction files with
  | nil => rfl
  | cons file files ih =>
      obtain ⟨k, old⟩ := file
      by_cases hk : k = l
      · subst hk
        rw [List.filter_cons_of_neg (by simp), ih, List.lookup_cons, beq_false_of_ne h]
      · rw [List.filter_cons_of_pos (by simpa using hk), List.lookup_cons, List.lookup_cons, ih]

/-- A content put at one place makes no difference to another. -/
theorem at?_put_of_ne (h : m ≠ l) : (t.put l content).at? m = t.at? m := by
  have hlookup : (t.put l content).files.lookup m = t.files.lookup m := by
    rw [put, List.lookup_cons, beq_false_of_ne h]
    exact lookup_filter_ne h t.files
  rw [at?, at?, hlookup]
  rfl

section Put

variable (hfile : t.at? l = some (.file old))

include hfile

/-- A content put at a file is its content afterwards. -/
theorem at?_put : (t.put l content).at? l = some (.file content) := by
  have hplace : ¬ (l = [] ∨ l ∈ t.directories) := by
    intro hdirectory
    rw [at?, if_pos hdirectory] at hfile
    cases hfile
  show (if l = [] ∨ l ∈ t.directories then some Occupant.directory else _) = _
  rw [if_neg hplace, put, List.lookup_cons_self]
  rfl

/-- A content put at a file leaves directories directories, files files, and free places free. -/
theorem at?_put_cases (content : ByteArray) (m : Location) :
    (t.put l content).at? m = t.at? m ∨
      (t.put l content).at? m = some (.file content) ∧ t.at? m = some (.file old) := by
  by_cases hm : m = l
  · subst hm
    exact .inr ⟨at?_put hfile, hfile⟩
  · exact .inl (at?_put_of_ne hm)

/-- A content put at a file leads no walk to another place. -/
theorem walk_put (m : Location) (pieces : List (List Char)) :
    (t.put l content).walk m pieces = t.walk m pieces := by
  induction pieces generalizing m with
  | nil => rcases at?_put_cases hfile content m with h | ⟨h, h'⟩ <;> simp only [walk, *]
  | cons piece rest ih =>
      rcases at?_put_cases hfile content m with h | ⟨h, h'⟩ <;> simp only [walk, *]

/-- A content put at a file leads no path to another place. -/
theorem resolve_put (p : FilePath) : (t.put l content).resolve p = t.resolve p := by
  have horigin : (t.put l content).origin p = t.origin p := rfl
  rw [resolve, resolve, horigin, walk_put hfile]

/-- A content put at a file does not change which directory holds the end of a path. -/
theorem resolveParent_put (p : FilePath) :
    (t.put l content).resolveParent p = t.resolveParent p := by
  have horigin : (t.put l content).origin p = t.origin p := rfl
  simp only [resolveParent, horigin, walk_put hfile]
  cases pathFault? p with
  | some fault => rfl
  | none =>
      simp only
      split
      · rfl
      · rename_i k _
        rcases at?_put_cases hfile content k with h | ⟨h, h'⟩ <;> simp only [*]

/-- A content put at a file does not change where, or with which fault, a replacement ends. -/
theorem target_put (p : FilePath) : (t.put l content).target p = t.target p := by
  simp only [target, resolve_put hfile, resolveParent_put hfile]
  cases t.resolve (beside p) with
  | error fault => rfl
  | ok k =>
      cases t.resolveParent p with
      | error fault => rcases at?_put_cases hfile content k with h | ⟨h, h'⟩ <;> simp only [*]
      | ok parent =>
          rcases at?_put_cases hfile content k with h | ⟨h, h'⟩ <;>
            rcases at?_put_cases hfile content (enter parent.1 parent.2) with g | ⟨g, g'⟩ <;>
              simp only [*]

/-- A content put at a file is what is read there. -/
theorem read_put (hresolve : t.resolve p = .ok l) : (t.put l content).read p = .ok content := by
  rw [read, resolve_put hfile, hresolve]
  simp only [at?_put hfile]

/-- A content put at a file is not read on any path to another place. -/
theorem read_put_of_ne (hresolve : t.resolve p ≠ .ok l) :
    (t.put l content).read p = t.read p := by
  rw [read, read, resolve_put hfile]
  cases h : t.resolve p with
  | error fault => rfl
  | ok m =>
      have hm : m ≠ l := by
        rintro rfl
        exact hresolve h
      simp only [at?_put_of_ne hm]

end Put

/-! ## What a replacement comes to -/

/-- The fault, if any, of moving a content to a path. -/
def writeFault? (t : Tree) (p : FilePath) : Option IoFault :=
  match t.target p with
  | .error fault => some fault
  | .ok _ => none

/-- A walk over some pieces and then over others. -/
theorem walk_append (m : Location) (pieces rest : List (List Char)) :
    t.walk m (pieces ++ rest) = (t.walk m pieces).bind (t.walk · rest) := by
  induction pieces generalizing m with
  | nil =>
      -- where there is nothing at `m`, both sides fail, the left one at the first piece of `rest`
      cases hm : t.at? m with
      | some occupant => simp only [walk, hm]; rfl
      | none => cases rest <;> simp only [List.nil_append, walk, hm] <;> rfl
  | cons piece pieces ih =>
      simp only [List.cons_append, walk, ih]
      cases t.at? m with
      | none => rfl
      | some occupant =>
          cases occupant with
          | file => rfl
          | directory => cases isOverlong piece <;> rfl

/-- The directory that holds the end of a path is reached by all pieces but the last. -/
theorem exists_of_resolveParent {last : List Char} (h : t.resolveParent p = .ok (m, last)) :
    pathFault? p = none ∧ ∃ front,
      FilePath.split (p.text.toList.reverse.dropWhile (· = '/')).reverse = front ++ [last] ∧
        t.walk (t.origin p) front = .ok m ∧ t.at? m = some .directory ∧
          isOverlong last = false := by
  grind [resolveParent, List.getLast?_eq_some_iff, List.dropLast_concat]

/-- A path that does not end in a separator leads on by its last piece from the directory that holds
its end. -/
theorem resolve_of_resolveParent {last : List Char} (hopen : isOpenEnded p = false)
    (h : t.resolveParent p = .ok (m, last)) : t.resolve p = t.walk (enter m last) [] := by
  -- there are no separators at the end that the parent would be looked up without
  have hpieces : (p.text.toList.reverse.dropWhile (· = '/')).reverse = p.text.toList := by
    rw [isOpenEnded, decide_eq_false_iff_not, List.getLast?_eq_head?_reverse] at hopen
    cases hreverse : p.text.toList.reverse with
    | nil => rw [← List.reverse_reverse p.text.toList, hreverse]; rfl
    | cons c cs =>
        rw [hreverse, List.head?_cons, Option.some.injEq] at hopen
        rw [List.dropWhile_cons_of_neg (by simpa using hopen), ← hreverse, List.reverse_reverse]
  obtain ⟨hfault, front, hsplit, hwalk, hdirectory, hlong⟩ := exists_of_resolveParent h
  rw [hpieces] at hsplit
  simp only [resolve, hfault]
  rw [hsplit, walk_append, hwalk]
  show t.walk m [last] = _
  simp [walk, hdirectory, hlong]

/-- A replacement ends at the last piece of the path, in the directory that holds it. -/
theorem exists_of_target (h : t.target p = .ok l) :
    ∃ m last, t.resolveParent p = .ok (m, last) ∧ isOpenEnded p = false ∧ l = enter m last := by
  grind [target]

/-- A replacement ends where the path leads, if there is anything. -/
theorem resolve_of_target (h : t.target p = .ok l) : t.resolve p = t.walk l [] := by
  obtain ⟨m, last, hparent, hopen, rfl⟩ := exists_of_target h
  exact resolve_of_resolveParent hopen hparent

/-- What can be read is a file at the place that the path leads to. -/
theorem exists_of_read (h : t.read p = .ok content) :
    ∃ l, t.resolve p = .ok l ∧ t.at? l = some (.file content) := by
  grind [read]

/-- Where there is a fault of writing, a replacement fails with it. -/
theorem replace_of_writeFault? {fault : IoFault} (h : t.writeFault? p = some fault) :
    t.replace p content = .error fault := by
  cases htarget : t.target p with
  | error fault' =>
      obtain rfl : fault' = fault := by simpa [writeFault?, htarget] using h
      rw [replace, htarget]
      rfl
  | ok l => simp [writeFault?, htarget] at h

/-- Unless there is a fault, a content moved to a file that can be read is put at its place. -/
theorem replace_of_read (hread : t.read p = .ok old) (hfault : t.writeFault? p = none) :
    ∃ l, t.resolve p = .ok l ∧ t.at? l = some (.file old) ∧
      t.replace p content = .ok (t.put l content) := by
  obtain ⟨l, hresolve, hfile⟩ := exists_of_read hread
  cases htarget : t.target p with
  | error fault => simp [writeFault?, htarget] at hfault
  | ok m =>
      have hm : t.walk m [] = .ok l := (resolve_of_target htarget).symm.trans hresolve
      obtain rfl : m = l := by
        rw [walk] at hm
        split at hm
        · exact Except.ok.inj hm
        · cases hm
      exact ⟨m, hresolve, hfile, by rw [replace, htarget]; rfl⟩

/-! ## Acting as a disk -/

/-- A tree acts at a path as a disk if there they give one content, one answer whether there is
anything, and one fault of writing. -/
structure ActsAt (t : Tree) (d : Disk) (p : FilePath) : Prop where
  read : t.read p = d.content p
  present : t.present p = d.present p
  writeFault? : t.writeFault? p = d.writeFault? p

/-- Two paths are apart in a tree if they are not the same and do not lead to one place. -/
structure Apart (t : Tree) (p q : FilePath) : Prop where
  not_same : ¬ p.same q
  resolve_ne : ∀ l, t.resolve p = .ok l → t.resolve q ≠ .ok l

/-- Paths are apart in either order. -/
theorem Apart.symm (h : t.Apart p q) : t.Apart q p where
  not_same := by
    rw [FilePath.same_comm]
    exact h.not_same
  resolve_ne l hq hp := h.resolve_ne l hp hq

/-- Any two of some paths are one path or apart. -/
def AreApart (t : Tree) (paths : List FilePath) : Prop :=
  ∀ p ∈ paths, ∀ q ∈ paths, p = q ∨ t.Apart p q

/-- A tree mirrors a disk at some paths if it acts there as the disk does, and they are apart. -/
structure Mirrors (t : Tree) (d : Disk) (paths : List FilePath) : Prop where
  actsAt : ∀ p ∈ paths, t.ActsAt d p
  areApart : t.AreApart paths

/-- A content put at a file, in the tree and on the disk, leaves them acting alike there and at all
paths that are apart from it. -/
theorem ActsAt.put (h : t.ActsAt d q) (hresolve : t.resolve p = .ok l)
    (hfile : t.at? l = some (.file old)) (happart : p = q ∨ t.Apart p q) :
    (t.put l content).ActsAt (d.put p content) q where
  read := by
    obtain rfl | happart := happart
    · rw [read_put hfile hresolve, Disk.content_put_of_same (FilePath.same_refl p)]
    · have hsame : ¬ q.same p := happart.symm.not_same
      rw [read_put_of_ne hfile (happart.resolve_ne l hresolve),
        Disk.content_put_of_not_same hsame, h.read]
  present := by
    have hpresent : (t.put l content).present q = t.present q := by
      rw [Tree.present, Tree.present, resolve_put hfile]
    obtain rfl | happart := happart
    · rw [hpresent, Tree.present, hresolve]
      simp [Disk.put, Except.toBool]
    · have hsame : ¬ q.same p := happart.symm.not_same
      rw [hpresent, h.present, Disk.present_put_of_not_same hsame]
  writeFault? := by
    rw [Tree.writeFault?, target_put hfile]
    exact h.writeFault?

/-- A content put at a file that is one of the paths, in the tree and on the disk, keeps the tree a
mirror of the disk. -/
theorem Mirrors.put (h : t.Mirrors d paths) (hp : p ∈ paths) (hresolve : t.resolve p = .ok l)
    (hfile : t.at? l = some (.file old)) :
    (t.put l content).Mirrors (d.put p content) paths where
  actsAt q hq := (h.actsAt q hq).put hresolve hfile (h.areApart p hp q hq)
  areApart q hq r hr := by
    refine (h.areApart q hq r hr).imp_right fun happart => ⟨happart.not_same, ?_⟩
    rw [resolve_put hfile, resolve_put hfile]
    exact happart.resolve_ne

/-- The disk as which a tree acts at some paths. There is nothing else on it. -/
def toDisk (t : Tree) (paths : List FilePath) : Disk where
  content p := (paths.find? (·.same p)).elim (.error .notFound) t.read
  present p := (paths.find? (·.same p)).any t.present
  writeFault? p := (paths.find? (·.same p)).bind t.writeFault?
  listing? _ := none

/-- Whatever can be read on that disk can be read in the tree. -/
theorem exists_of_content_toDisk (h : (t.toDisk paths).content p = .ok content) :
    ∃ q ∈ paths, t.read q = .ok content := by
  cases hfind : paths.find? (·.same p) with
  | none => simp [toDisk, hfind] at h
  | some q =>
      simp only [toDisk, hfind, Option.elim_some] at h
      exact ⟨q, List.mem_of_find?_eq_some hfind, h⟩

/-- Where paths are apart, a tree acts as a disk. -/
theorem mirrors_toDisk (h : t.AreApart paths) : t.Mirrors (t.toDisk paths) paths := by
  refine ⟨fun p hp => ?_, h⟩
  have hfind : paths.find? (·.same p) = some p := by
    have hsome : (paths.find? (·.same p)).isSome :=
      List.find?_isSome.2 ⟨p, hp, FilePath.same_refl p⟩
    obtain ⟨q, hq⟩ := Option.isSome_iff_exists.1 hsome
    obtain heq | happart := h q (List.mem_of_find?_eq_some hq) p hp
    · exact heq ▸ hq
    · exact absurd (List.find?_some hq) happart.not_same
  constructor <;> simp only [toDisk, hfind] <;> rfl

/-- The disk as which a tree acts knows paths that are the same as one. -/
theorem consistent_toDisk : (t.toDisk paths).Consistent := by
  have hcongr {p q : FilePath} (h : p.same q) :
      (fun r : FilePath => r.same p) = fun r => r.same q := by
    funext r
    simp [FilePath.same, FilePath.same_iff.1 h]
  constructor <;> intro p q h <;> simp only [toDisk, hcongr h]

end Tree

end ProjectOrder

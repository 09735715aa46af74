import ProjectOrder.Project.Search
import ProjectOrder.Proofs.Arrangement.Slots
import ProjectOrder.Proofs.Document.Forest
import ProjectOrder.Proofs.Files.Disk
import ProjectOrder.Proofs.Files.PathOrder

/-!
# What a search finds

A search expands its paths one after the other and keeps of paths that are the same the first one.
On files that do not change during the search, `search_spec` says what is found, which failure ends
a search, and how searches for more paths, or for paths once again, go on from it. Such files are
the operations of the identity monad; `Disk.run_search` takes those of a disk.
-/

namespace ProjectOrder

variable {p q : FilePath} {seen listed more found xs ys zs : List FilePath}

/-! ## First occurrences -/

/-- The paths of a list without the repeated ones: each where it first occurs. -/
structure FirstOccurrences (listed found : List FilePath) : Prop where
  mem_iff : ∀ p, p ∈ found ↔ listed.find? p.same = some p
  ordered : found.Pairwise fun p q => listed.findIdx p.same < listed.findIdx q.same

/-- The fresh paths of two lists are those of the first, and those of the second that are still
fresh. -/
theorem freshPaths_append (seen listed more : List FilePath) :
    freshPaths seen (listed ++ more) =
      freshPaths seen listed ++ freshPaths (seen ++ freshPaths seen listed) more := by
  induction listed generalizing seen with
  | nil => simp [freshPaths]
  | cons p listed ih =>
      by_cases hseen : seen.any (·.same p)
      · simp only [List.cons_append, freshPaths, hseen, if_true]
        exact ih seen
      · simp only [List.cons_append, freshPaths, hseen, Bool.false_eq_true, if_false]
        rw [ih, List.append_assoc, List.singleton_append]

/-- Paths seen before only take away from what is kept. -/
theorem freshPaths_eq_filter (seen listed : List FilePath) :
    freshPaths seen listed = (freshPaths [] listed).filter fun q => !seen.any (·.same q) := by
  induction listed generalizing seen with
  | nil => rfl
  | cons p listed ih =>
      have hcons : freshPaths [] (p :: listed) =
          p :: (freshPaths [] listed).filter fun q => !p.same q := by
        rw [freshPaths, List.any_nil, if_neg Bool.false_ne_true, List.nil_append, ih]
        simp
      rw [hcons, freshPaths]
      split
      · rename_i hseen
        rw [List.filter_cons_of_neg (by simpa using hseen), List.filter_filter, ih]
        refine List.filter_congr fun q _ => ?_
        -- a path that is the same as `p` is the same as one seen before
        by_cases hpq : p.same q
        · obtain ⟨r, hr, hrp⟩ := List.any_eq_true.1 hseen
          have hrq : r.same q := by rwa [FilePath.same_congr hrp]
          have hany : seen.any (·.same q) := List.any_eq_true.2 ⟨r, hr, hrq⟩
          simp [hany]
        · simp [hpq]
      · rename_i hseen
        rw [List.filter_cons_of_pos (by simpa using hseen), List.filter_filter, ih]
        refine congrArg _ (List.filter_congr fun q _ => ?_)
        simp [Bool.and_comm]

/-- The first path is fresh, and so are those of the others that are not the same. -/
theorem freshPaths_cons (p : FilePath) (listed : List FilePath) :
    freshPaths [] (p :: listed) = p :: (freshPaths [] listed).filter fun q => !p.same q := by
  rw [freshPaths, List.any_nil, if_neg Bool.false_ne_true, List.nil_append, freshPaths_eq_filter]
  simp

/-- Dropping repeated paths leaves the first occurrences. -/
theorem firstOccurrences_freshPaths (listed : List FilePath) :
    FirstOccurrences listed (freshPaths [] listed) := by
  induction listed with
  | nil => exact ⟨by simp [freshPaths], .nil⟩
  | cons p listed ih =>
      rw [freshPaths_cons]
      refine ⟨fun q => ?_, List.pairwise_cons.2 ⟨fun q hq => ?_, ?_⟩⟩
      · rw [List.find?_cons, List.mem_cons, List.mem_filter, ih.mem_iff, FilePath.same_comm]
        split
        · rename_i hsame
          simp [hsame, eq_comm]
        · rename_i hsame
          have hne : q ≠ p := by
            rintro rfl
            simp at hsame
          simp [hsame, hne]
      · have hnot : q.same p = false := by
          simpa [FilePath.same_comm] using (List.mem_filter.1 hq).2
        simp [List.findIdx_cons, hnot]
      · refine (ih.ordered.filter _).imp_of_mem fun {q r} hq hr hlt => ?_
        have hq : q.same p = false := by
          simpa [FilePath.same_comm] using (List.mem_filter.1 hq).2
        have hr : r.same p = false := by
          simpa [FilePath.same_comm] using (List.mem_filter.1 hr).2
        simpa [List.findIdx_cons, hq, hr] using hlt

namespace FirstOccurrences

/-- What is kept of a list is in it. -/
theorem mem (h : FirstOccurrences listed found) (hp : p ∈ found) : p ∈ listed :=
  List.mem_of_find?_eq_some ((h.mem_iff p).1 hp)

/-- No two paths are the same, as they would first occur at one place. -/
theorem apart (h : FirstOccurrences listed found) : found.Pairwise fun p q => ¬ p.same q :=
  h.ordered.imp fun {p q} hlt hsame => by
    rw [FilePath.same_congr hsame] at hlt
    exact Nat.lt_irrefl _ hlt

/-- Every path of the list is the same as one that is kept. -/
theorem exists_same (h : FirstOccurrences listed found) (hp : p ∈ listed) :
    ∃ q ∈ found, q.same p := by
  have hsome : (listed.find? p.same).isSome :=
    List.find?_isSome.2 ⟨p, hp, FilePath.same_refl p⟩
  obtain ⟨q, hq⟩ := Option.isSome_iff_exists.1 hsome
  have hpq : p.same q := List.find?_some hq
  rw [FilePath.same_congr hpq] at hq
  exact ⟨q, (h.mem_iff q).2 hq, by rwa [FilePath.same_comm]⟩

end FirstOccurrences

/-! ## Expansions -/

/-- The members of a list in the order of paths; those that are the same stay in their order. -/
structure InPathOrder (listed ordered : List FilePath) : Prop where
  perm : ordered.Perm listed
  sorted : ordered.Pairwise fun p q => p.compare q ≠ .gt
  stable : ∀ p : FilePath, ordered.filter p.same = listed.filter p.same

/-- Sorting by the comparison of paths puts a list in their order. -/
theorem inPathOrder_mergeSort (listed : List FilePath) :
    InPathOrder listed (listed.mergeSort fun p q => (p.compare q).isLE) where
  perm := List.mergeSort_perm _ _
  sorted := (List.pairwise_mergeSort (fun _ _ _ => Std.TransCmp.isLE_trans)
    isLE_total listed).imp Ordering.ne_gt_iff_isLE.2
  stable p := Node.filter_mergeSort (fun _ _ _ => Std.TransCmp.isLE_trans)
    isLE_total fun q r hq hr => by
      rw [FilePath.same_congr hq] at hr
      exact FilePath.isLE_compare_of_same hr

section Expansions

variable [FileSystem Id]

/-- What a path stands for: itself, or the project files that are found under it in order. -/
inductive StandsFor (p : FilePath) : List FilePath → Prop where
  | itself : Id.run (FileSystem.isDirectory p) = false → StandsFor p [p]
  | directory {listed ordered : List FilePath} :
      Id.run (FileSystem.isDirectory p) = true →
      Id.run (FileSystem.findFiles p itemListExtensions) = .ok listed →
      InPathOrder listed ordered → StandsFor p ordered

/-- A directory that cannot be scanned. -/
def Unscannable (p : FilePath) (fault : IoFault) : Prop :=
  Id.run (FileSystem.isDirectory p) = true ∧
    Id.run (FileSystem.findFiles p itemListExtensions) = .error fault

/-- A directory that cannot be scanned fails by the fault of the scan. -/
theorem expand_of_unscannable {fault : IoFault} (h : Unscannable p fault) :
    Id.run (expand p) = .error (.ofIo "scan directory" p fault) := by
  rw [expand, Id.run_bind, h.1, if_pos rfl, Id.run_bind, h.2]
  rfl

/-- What a path is expanded to; nothing if it cannot be scanned. -/
def expansion (p : FilePath) : List FilePath :=
  (Id.run (expand p)).toOption.getD []

/-- Any other path is expanded to what it stands for. -/
theorem expand_of_scannable (h : ∀ fault, ¬ Unscannable p fault) :
    Id.run (expand p) = .ok (expansion p) ∧ StandsFor p (expansion p) := by
  rw [expansion, expand, Id.run_bind]
  cases hdirectory : Id.run (FileSystem.isDirectory p) with
  | false => exact ⟨rfl, .itself hdirectory⟩
  | true =>
      rw [if_pos rfl, Id.run_bind]
      cases hfiles : Id.run (FileSystem.findFiles p itemListExtensions) with
      | error fault => exact absurd ⟨hdirectory, hfiles⟩ (h fault)
      | ok listed => exact ⟨rfl, .directory hdirectory hfiles (inPathOrder_mergeSort listed)⟩

/-- Paths are expanded one after the other. -/
theorem expandAll_cons (p : FilePath) (xs : List FilePath) :
    Id.run (expandAll (p :: xs)) = do
      let found ← Id.run (expand p)
      let rest ← Id.run (expandAll xs)
      return found ++ rest := by
  rw [expandAll, Id.run_bind]
  cases Id.run (expand p) with
  | error failure => rfl
  | ok found =>
      simp only [Id.run_bind]
      cases Id.run (expandAll xs) <;> rfl

/-- Expanding two lists expands the first and then the second. -/
theorem expandAll_append (xs ys : List FilePath) :
    Id.run (expandAll (xs ++ ys)) = do
      let found ← Id.run (expandAll xs)
      let more ← Id.run (expandAll ys)
      return found ++ more := by
  induction xs with
  | nil => exact (bind_pure _).symm
  | cons p xs ih =>
      rw [List.cons_append, expandAll_cons, expandAll_cons, ih]
      simp only [bind_assoc, pure_bind, List.append_assoc]

/-- Paths that can all be scanned are expanded one by one. -/
theorem expandAll_of_scannable (h : ∀ p ∈ xs, ∀ fault, ¬ Unscannable p fault) :
    Id.run (expandAll xs) = .ok (xs.flatMap expansion) := by
  induction xs with
  | nil => rfl
  | cons p xs ih =>
      obtain ⟨hp, hxs⟩ := List.forall_mem_cons.1 h
      rw [expandAll_cons, (expand_of_scannable hp).1, ih hxs]
      rfl

/-- The first directory that cannot be scanned ends the expansion. -/
theorem expandAll_of_unscannable {fault : IoFault}
    (hbefore : ∀ q ∈ xs, ∀ fault, ¬ Unscannable q fault) (h : Unscannable p fault) :
    Id.run (expandAll (xs ++ p :: ys)) = .error (.ofIo "scan directory" p fault) := by
  rw [expandAll_append, expandAll_cons, expandAll_of_scannable hbefore, expand_of_unscannable h]
  rfl

/-- A path of an expansion has been expanded. -/
theorem exists_expand_of_mem (h : Id.run (expandAll xs) = .ok listed) (hp : p ∈ xs) :
    ∃ l, Id.run (expand p) = .ok l ∧ l ⊆ listed := by
  obtain ⟨before, after, rfl⟩ := List.append_of_mem hp
  rw [expandAll_append, expandAll_cons, bind_eq_ok_iff] at h
  obtain ⟨first, -, h⟩ := h
  obtain ⟨rest, hrest, h⟩ := bind_eq_ok_iff.1 h
  obtain ⟨l, hl, hrest⟩ := bind_eq_ok_iff.1 hrest
  obtain ⟨last, -, hrest⟩ := bind_eq_ok_iff.1 hrest
  cases h
  cases hrest
  exact ⟨l, hl, fun q hq => by simp [hq]⟩

/-- Paths of an expansion, expanded again, stand for nothing new. -/
theorem exists_expandAll_of_subset (h : Id.run (expandAll xs) = .ok listed) (hzs : zs ⊆ xs) :
    ∃ more, Id.run (expandAll zs) = .ok more ∧ more ⊆ listed := by
  induction zs with
  | nil => exact ⟨[], rfl, List.nil_subset _⟩
  | cons p zs ih =>
      obtain ⟨hp, hzs⟩ := List.cons_subset.1 hzs
      obtain ⟨l, hl, hsub⟩ := exists_expand_of_mem h hp
      obtain ⟨more, hmore, hsub'⟩ := ih hzs
      refine ⟨l ++ more, ?_, List.append_subset.2 ⟨hsub, hsub'⟩⟩
      rw [expandAll_cons, hl, hmore]
      rfl

/-! ## Searches -/

/-- A search keeps the fresh ones of all paths that it has expanded. -/
theorem search_eq (xs : List FilePath) :
    Id.run (search xs) = (Id.run (expandAll xs)).map (freshPaths []) := by
  rw [search, Id.run_bind]
  cases Id.run (expandAll xs) <;> rfl

/-- A search for more paths finds what is new of what these paths stand for. -/
theorem search_append (xs ys : List FilePath) :
    Id.run (search (xs ++ ys)) = do
      let found ← Id.run (search xs)
      let more ← Id.run (search ys)
      return found ++ more.filter fun q => !found.any (·.same q) := by
  simp only [search_eq, expandAll_append]
  cases Id.run (expandAll xs) with
  | error failure => rfl
  | ok listed =>
      cases Id.run (expandAll ys) with
      | error failure => rfl
      | ok more =>
          show Except.ok (freshPaths [] (listed ++ more)) = _
          rw [freshPaths_append, List.nil_append, freshPaths_eq_filter (freshPaths [] listed)]
          rfl

/-- A search for the same paths once more finds nothing new. -/
theorem search_append_of_subset (hzs : zs ⊆ xs) :
    Id.run (search (xs ++ zs)) = Id.run (search xs) := by
  rw [search_append, search_eq, search_eq]
  cases hxs : Id.run (expandAll xs) with
  | error failure => rfl
  | ok listed =>
      obtain ⟨more, hmore, hsub⟩ := exists_expandAll_of_subset hxs hzs
      have hseen : ∀ q ∈ freshPaths [] more, (freshPaths [] listed).any (·.same q) := by
        intro q hq
        have hlisted := hsub ((firstOccurrences_freshPaths more).mem hq)
        obtain ⟨r, hr, hsame⟩ := (firstOccurrences_freshPaths listed).exists_same hlisted
        exact List.any_eq_true.2 ⟨r, hr, hsame⟩
      have hnone : (freshPaths [] more).filter
          (fun q => !(freshPaths [] listed).any (·.same q)) = [] :=
        List.filter_eq_nil_iff.2 fun q hq => by simp [hseen q hq]
      rw [hmore]
      show Except.ok (freshPaths [] listed ++ (freshPaths [] more).filter _) = _
      rw [hnone, List.append_nil]
      rfl

/-- What the paths of a search stand for is found, every path once and in the order of the first
occurrences. -/
structure Found (paths found : List FilePath) : Prop where
  apart : found.Pairwise fun p q => ¬ p.same q
  /-- A path that is no directory is found. -/
  itself : ∀ p ∈ paths, Id.run (FileSystem.isDirectory p) = false → ∃ q ∈ found, q.same p
  /-- The project files under a directory are found. -/
  listed : ∀ p ∈ paths, Id.run (FileSystem.isDirectory p) = true → ∀ files,
    Id.run (FileSystem.findFiles p itemListExtensions) = .ok files →
      ∀ f ∈ files, ∃ q ∈ found, q.same f
  /-- Nothing else is found. -/
  only : ∀ q ∈ found, ∃ p ∈ paths, (q = p ∧ Id.run (FileSystem.isDirectory p) = false) ∨
    (Id.run (FileSystem.isDirectory p) = true ∧
      ∃ files, Id.run (FileSystem.findFiles p itemListExtensions) = .ok files ∧ q ∈ files)
  ordered : ∃ listing : FilePath → List FilePath,
    (∀ p ∈ paths, StandsFor p (listing p)) ∧ FirstOccurrences (paths.flatMap listing) found

/-- A path that is no directory is among what it stands for. -/
theorem StandsFor.mem_itself {l : List FilePath} (h : StandsFor p l)
    (hp : Id.run (FileSystem.isDirectory p) = false) : p ∈ l := by
  cases h with
  | itself => exact List.mem_singleton_self p
  | directory hdirectory => simp [hp] at hdirectory

/-- The files listed under a directory are among what it stands for. -/
theorem StandsFor.mem_listed {l files : List FilePath} (h : StandsFor p l)
    (hp : Id.run (FileSystem.isDirectory p) = true)
    (hfiles : Id.run (FileSystem.findFiles p itemListExtensions) = .ok files) (hq : q ∈ files) :
    q ∈ l := by
  cases h with
  | itself hfile => simp [hp] at hfile
  | directory _ hlisted hordered =>
      rw [hfiles, Except.ok.injEq] at hlisted
      exact hordered.perm.mem_iff.2 (hlisted ▸ hq)

/-- What a path stands for is the path itself or a file that is listed under it. -/
theorem StandsFor.of_mem {l : List FilePath} (h : StandsFor p l) (hq : q ∈ l) :
    (q = p ∧ Id.run (FileSystem.isDirectory p) = false) ∨
      (Id.run (FileSystem.isDirectory p) = true ∧
        ∃ files, Id.run (FileSystem.findFiles p itemListExtensions) = .ok files ∧ q ∈ files) := by
  cases h with
  | itself hfile => exact .inl ⟨List.mem_singleton.1 hq, hfile⟩
  | directory hdirectory hlisted hordered =>
      exact .inr ⟨hdirectory, _, hlisted, hordered.perm.mem_iff.1 hq⟩

/-- Where all paths can be scanned, the fresh ones of their expansions are what is to be found. -/
theorem found_freshPaths (h : ∀ p ∈ xs, ∀ fault, ¬ Unscannable p fault) :
    Found xs (freshPaths [] (xs.flatMap expansion)) := by
  have hfirst := firstOccurrences_freshPaths (xs.flatMap expansion)
  have hstands : ∀ p ∈ xs, StandsFor p (expansion p) :=
    fun p hp => (expand_of_scannable (h p hp)).2
  refine ⟨hfirst.apart, fun p hp hfile => ?_, fun p hp hdirectory files hfiles f hf => ?_,
    fun q hq => ?_, expansion, hstands, hfirst⟩
  · have hmem := (hstands p hp).mem_itself hfile
    exact hfirst.exists_same (List.mem_flatMap.2 ⟨p, hp, hmem⟩)
  · have hmem := (hstands p hp).mem_listed hdirectory hfiles hf
    exact hfirst.exists_same (List.mem_flatMap.2 ⟨p, hp, hmem⟩)
  · obtain ⟨p, hp, hmem⟩ := List.mem_flatMap.1 (hfirst.mem hq)
    exact ⟨p, hp, (hstands p hp).of_mem hmem⟩

/-- Unless a directory cannot be scanned, a search finds what its paths stand for. The first
directory that cannot be scanned makes it fail, by the kind of the fault and naming the directory. A
search for more paths adds what is new of what these stand for, and one for some of the same paths
adds nothing. -/
theorem search_spec (xs ys : List FilePath) (hzs : zs ⊆ xs) :
    ((∀ p ∈ xs, ∀ fault, ¬ Unscannable p fault) →
        ∃ found, Id.run (search xs) = .ok found ∧ Found xs found) ∧
      (∀ before p after fault, xs = before ++ p :: after →
        (∀ q ∈ before, ∀ fault, ¬ Unscannable q fault) → Unscannable p fault →
          ∃ failure, Id.run (search xs) = .error failure ∧
            (fault = .notFound → failure = .notFound p) ∧
            (fault ≠ .notFound → failure.kind = .io ∧
              failure.message = "operation failed: scan directory: " ++ p.text)) ∧
      Id.run (search (xs ++ ys)) = (do
        let found ← Id.run (search xs)
        let more ← Id.run (search ys)
        return found ++ more.filter fun q => !found.any (·.same q)) ∧
      Id.run (search (xs ++ zs)) = Id.run (search xs) := by
  refine ⟨fun hscannable => ?_, fun before p after fault hxs hbefore hp => ?_, search_append xs ys,
    search_append_of_subset hzs⟩
  · refine ⟨_, ?_, found_freshPaths hscannable⟩
    rw [search_eq, expandAll_of_scannable hscannable]
    rfl
  · refine ⟨.ofIo "scan directory" p fault, ?_, ?_, fun hfault => ?_⟩
    · rw [search_eq, hxs, expandAll_of_unscannable hbefore hp]
      rfl
    · rintro rfl
      rfl
    · have hio : Failure.ofIo "scan directory" p fault = .operation "scan directory" p := by
        cases fault with
        | notFound => exact absurd rfl hfault
        | _ => rfl
      rw [hio]
      refine ⟨rfl, ?_⟩
      show "operation failed: " ++
        (toString "scan directory" ++ toString ": " ++ toString p.text) = _
      rw [← String.append_assoc]
      rfl

end Expansions

/-- Files of which one directory can be listed, with two projects out of order. -/
abbrev oneDirectory : FileSystem Id where
  read _ := pure (.error .notFound)
  write _ _ := pure (.error .permissionDenied)
  replace _ _ := pure (.error .permissionDenied)
  present _ := pure true
  isDirectory p := pure (p = ⟨"src"⟩)
  createDirectories _ := pure (.error .permissionDenied)
  findFiles _ _ := pure (.ok [⟨"src/b.vcxproj"⟩, ⟨"src/a.vcxproj"⟩])

/-- A project named in front of the directory that holds it is found once, as it is named there. -/
theorem search_spec_oneDirectory :
    letI := oneDirectory
    let paths : List FilePath := [⟨"src//./b.vcxproj"⟩, ⟨"src"⟩]
    let found : List FilePath := [⟨"src//./b.vcxproj"⟩, ⟨"src/a.vcxproj"⟩]
    (∀ p ∈ paths, ∀ fault, ¬ Unscannable p fault) ∧ [⟨"src"⟩] ⊆ paths ∧
      Id.run (search paths) = .ok found ∧ Found paths found ∧
      Id.run (search (paths ++ [⟨"src"⟩])) = .ok found := by
  let _ := oneDirectory
  intro paths found
  have hscannable : ∀ p ∈ paths, ∀ fault, ¬ Unscannable p fault :=
    fun p _ fault h => nomatch h.2
  have hsub : [⟨"src"⟩] ⊆ paths := by simp [paths]
  have hsorted : expansion ⟨"src"⟩ = [⟨"src/a.vcxproj"⟩, ⟨"src/b.vcxproj"⟩] := by
    have hle : ((⟨"src/b.vcxproj"⟩ : FilePath).compare ⟨"src/a.vcxproj"⟩).isLE = false := by decide
    show List.mergeSort _ _ = _
    simp [List.mergeSort, List.MergeSort.Internal.splitInTwo, hle]
  have hlisted : paths.flatMap expansion =
      [⟨"src//./b.vcxproj"⟩, ⟨"src/a.vcxproj"⟩, ⟨"src/b.vcxproj"⟩] := by
    rw [List.flatMap_cons, List.flatMap_cons, hsorted]
    rfl
  have hsearch : Id.run (search paths) = .ok found := by
    rw [search_eq, expandAll_of_scannable hscannable, hlisted]
    exact congrArg Except.ok (by decide)
  have hspec := search_spec paths [] hsub
  obtain ⟨found', hfound', hresult⟩ := hspec.1 hscannable
  obtain rfl : found = found' := Except.ok.inj (hsearch.symm.trans hfound')
  exact ⟨hscannable, hsub, hsearch, hresult, hspec.2.2.2.trans hsearch⟩

/-! ## Disks -/

/-- The files of a disk, taken as they are. -/
abbrev Disk.still (d : Disk) : FileSystem Id where
  read p := pure ((FileSystem.read p : StateM Disk _).run d).1
  write p content := pure ((FileSystem.write p content : StateM Disk _).run d).1
  replace p content := pure ((FileSystem.replace p content : StateM Disk _).run d).1
  present p := pure ((FileSystem.present p : StateM Disk _).run d).1
  isDirectory p := pure ((FileSystem.isDirectory p : StateM Disk _).run d).1
  createDirectories p := pure ((FileSystem.createDirectories p : StateM Disk _).run d).1
  findFiles p extensions := pure ((FileSystem.findFiles p extensions : StateM Disk _).run d).1

/-- Where neither of two actions changes the disk, one after the other finds what it finds in the
files as they are. -/
theorem Disk.run_bind_still {α β : Type} {d : Disk} {x : StateM Disk α} {y : Id α}
    {f : α → StateM Disk β} {g : α → Id β} (hx : x.run d = (Id.run y, d))
    (hf : ∀ a, (f a).run d = (Id.run (g a), d)) : (x >>= f).run d = (Id.run (y >>= g), d) := by
  rw [Disk.run_bind, hx]
  exact hf (Id.run y)

/-- Looking for files on a disk finds those of the disk standing still. -/
theorem Disk.run_findFiles_still (d : Disk) (p : FilePath) (extensions : List String) :
    (FileSystem.findFiles p extensions : StateM Disk _).run d =
      (Id.run (letI : FileSystem Id := d.still; FileSystem.findFiles p extensions), d) := by
  cases hlisting : d.listing? p <;> simp [FileSystem.findFiles, StateT.run, hlisting]

/-- Expanding a path on a disk expands it on the disk standing still. -/
theorem Disk.run_expand_still (d : Disk) (p : FilePath) :
    (expand p : StateM Disk _).run d = (Id.run (letI : FileSystem Id := d.still; expand p), d) := by
  refine Disk.run_bind_still rfl fun isDirectory => ?_
  split
  · exact Disk.run_bind_still (d.run_findFiles_still p _) fun found => by cases found <;> rfl
  · rfl

/-- Expanding paths on a disk expands them on the disk standing still. -/
theorem Disk.run_expandAll_still (d : Disk) (xs : List FilePath) :
    (expandAll xs : StateM Disk _).run d =
      (Id.run (letI : FileSystem Id := d.still; expandAll xs), d) := by
  induction xs with
  | nil => rfl
  | cons p xs ih =>
      refine Disk.run_bind_still (d.run_expand_still p) fun found => ?_
      cases found with
      | error failure => rfl
      | ok found => exact Disk.run_bind_still ih fun rest => by cases rest <;> rfl

/-- A search on a disk changes nothing, and finds what it finds in the files as they are. -/
theorem Disk.run_search (d : Disk) (xs : List FilePath) :
    (search xs : StateM Disk _).run d = (Id.run (letI : FileSystem Id := d.still; search xs), d) :=
  Disk.run_bind_still (d.run_expandAll_still xs) fun found => by cases found <;> rfl

end ProjectOrder

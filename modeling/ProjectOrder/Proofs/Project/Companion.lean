import ProjectOrder.Project.Run
import ProjectOrder.Settings.Load
import ProjectOrder.Proofs.Files.Components

/-!
# Item lists and their filters files

The filters file of an item list is meant to lie beside it under a longer name.
`pairs_companion_iff` says for which suffixes it does: those without a separator. With a separator
the suffix leaves the name and goes on with the path, and may even lead back to the item list.
-/

namespace ProjectOrder

open FilePath

variable {s : Settings} {p : FilePath} {name : String}

/-- An item list and its filters file lie side by side: under two paths in one directory, the second
of which has the name of the first with the suffix, and is a filters file by this name. -/
structure Settings.Pairs (s : Settings) (p : FilePath) : Prop where
  apart : ¬ (s.companion p).same p
  parent : (s.companion p).parent? = p.parent?
  fileName : (s.companion p).fileName? = p.fileName?.map (· ++ s.filtersSuffix)
  part : s.partOf (s.companion p) = .filters

namespace Settings

/-- Settings pass their check if the suffix is not empty. -/
theorem check_eq_ok_iff : s.check = .ok s ↔ s.filtersSuffix ≠ "" := by
  unfold check
  split <;> simp_all

/-- A name with the suffix after it is that of a filters file. -/
theorem partOf_eq_filters (hname : name ≠ "") (h : p.fileName? = some (name ++ s.filtersSuffix)) :
    s.partOf p = .filters := by
  have hlength : 0 < name.length := Nat.pos_of_ne_zero (by simpa using hname)
  have hsuffix : s.filtersSuffix.toList.isSuffixOf (name ++ s.filtersSuffix).toList := by
    rw [String.toList_append, List.isSuffixOf_iff_suffix]
    exact List.suffix_append ..
  simp only [partOf, h]
  exact if_pos ⟨by rw [String.length_append]; omega, hsuffix⟩

/-- A suffix without a separator makes a filters file beside the item list. -/
theorem pairs_of_not_mem (hs : s.filtersSuffix ≠ "") (hname : p.fileName? = some name)
    (hend : name.toList <:+ p.text.toList) (hsuffix : '/' ∉ s.filtersSuffix.toList) :
    s.Pairs p := by
  obtain ⟨dir, hdir, rfl⟩ := exists_front_of_fileName? hname hend
  have hisName := isName_of_fileName? hname
  have hlonger : IsName (name.toList ++ s.filtersSuffix.toList) := hisName.append hsuffix
  have hcompanion : s.companion ⟨String.ofList (dir ++ name.toList)⟩ =
      ⟨String.ofList (dir ++ (name.toList ++ s.filtersSuffix.toList))⟩ := by
    simp [companion, String.append_assoc]
  have hfile : (s.companion ⟨String.ofList (dir ++ name.toList)⟩).fileName? =
      some (name ++ s.filtersSuffix) := by
    rw [hcompanion, fileName?_append_name hdir hlonger]
    simp
  refine ⟨fun hsame => hs ?_, ?_, by rw [hfile, hname]; rfl, ?_⟩
  · rw [same, decide_eq_true_iff, hcompanion, components_append_name hdir hlonger,
      components_append_name hdir hisName] at hsame
    simpa using hsame
  · rw [hcompanion]
    exact parent?_append_name hdir hlonger hisName
  · refine partOf_eq_filters (fun hempty => hisName.ne_nil ?_) hfile
    rw [hempty, String.toList_empty]

/-- A suffix with a separator ends the name with what it has in front of it, and goes on with the
pieces after it. -/
theorem components_companion {dir front rest : List Char} (hdir : IsFront dir)
    (hname : IsName name.toList) (hp : p = ⟨String.ofList (dir ++ name.toList)⟩)
    (hsuffix : s.filtersSuffix.toList = front ++ '/' :: rest) (hfront : '/' ∉ front) :
    (s.companion p).components = components ⟨String.ofList dir⟩ ++
      .name (name.toList ++ front) :: (split rest).filterMap Component.ofPiece? := by
  have hcompanion : s.companion p =
      ⟨String.ofList (dir ++ (name.toList ++ front) ++ '/' :: rest)⟩ := by
    rw [companion, hp, ← String.ofList_toList (s := s.filtersSuffix), hsuffix,
      ← String.ofList_append]
    simp
  rw [hcompanion, components_append_separator, components_concat_separator (by simp [hname.ne_nil]),
    components_append_name hdir (hname.append hfront), List.append_assoc, List.singleton_append]

/-- The filters file is the item list itself if the suffix is a separator and pieces that add
nothing. -/
theorem companion_same_iff (hs : s.filtersSuffix ≠ "") (hname : p.fileName? = some name)
    (hend : name.toList <:+ p.text.toList) :
    (s.companion p).same p ↔ ∃ rest, s.filtersSuffix.toList = '/' :: rest ∧
      ∀ piece ∈ split rest, piece = [] ∨ piece = ['.'] := by
  by_cases hmem : '/' ∈ s.filtersSuffix.toList
  · obtain ⟨dir, hdir, hp⟩ := exists_front_of_fileName? hname hend
    have hisName := isName_of_fileName? hname
    obtain ⟨front, rest, hsuffix, hfront⟩ := List.eq_append_cons_of_mem hmem
    have hsame : (s.companion p).same p ↔
        front = [] ∧ ∀ piece ∈ split rest, piece = [] ∨ piece = ['.'] := by
      rw [same, decide_eq_true_iff, components_companion hdir hisName hp hsuffix hfront, hp,
        components_append_name hdir hisName, List.append_cancel_left_eq, List.cons.injEq,
        Component.name.injEq, List.append_right_eq_self, List.filterMap_eq_nil_iff]
      simp only [Component.ofPiece?_eq_none_iff]
    rw [hsame, hsuffix]
    constructor
    · rintro ⟨rfl, hidle⟩
      exact ⟨rest, rfl, hidle⟩
    · intro ⟨rest', heq, hidle⟩
      cases front with
      | nil =>
          cases heq
          exact ⟨rfl, hidle⟩
      | cons c front =>
          -- the first separator of the suffix stands in front
          cases heq
          exact absurd (List.mem_cons_self ..) hfront
  · refine iff_of_false (pairs_of_not_mem hs hname hend hmem).apart fun ⟨rest, heq, _⟩ => hmem ?_
    rw [heq]
    exact List.mem_cons_self ..

/-- Where a suffix that is not empty is put after a path that ends in the name of its file, the two
paths lie side by side exactly if the suffix has no separator. They are the same path exactly if the
suffix is a separator and then only pieces that add nothing. -/
theorem pairs_companion_iff (hs : s.check = .ok s) (hname : p.fileName? = some name)
    (hend : name.toList <:+ p.text.toList) :
    (s.Pairs p ↔ '/' ∉ s.filtersSuffix.toList) ∧
      ((s.companion p).same p ↔ ∃ rest, s.filtersSuffix.toList = '/' :: rest ∧
        ∀ piece ∈ split rest, piece = [] ∨ piece = ['.']) := by
  have hs := check_eq_ok_iff.1 hs
  refine ⟨⟨fun h hmem => ?_, pairs_of_not_mem hs hname hend⟩, companion_same_iff hs hname hend⟩
  have hfile := h.fileName
  rw [hname, Option.map_some] at hfile
  exact (isName_of_fileName? hfile).not_mem (by simp [hmem])

/-- The default suffix makes a filters file beside a project. -/
theorem pairs_companion_iff_default :
    default.check = .ok default ∧ (⟨"src/app.vcxproj"⟩ : FilePath).fileName? = some "app.vcxproj" ∧
      "app.vcxproj".toList <:+ "src/app.vcxproj".toList ∧ default.Pairs ⟨"src/app.vcxproj"⟩ := by
  have hcheck : default.check = .ok default := check_eq_ok_iff.2 (by decide)
  have hname : (⟨"src/app.vcxproj"⟩ : FilePath).fileName? = some "app.vcxproj" := by decide
  have hend : "app.vcxproj".toList <:+ "src/app.vcxproj".toList := by decide
  exact ⟨hcheck, hname, hend, (pairs_companion_iff hcheck hname hend).1.2 (by decide)⟩

/-- A separator is a suffix that may be used, but the filters file is then the item list itself, and
no filters file by its name. -/
theorem not_pairs_of_separator :
    let s : Settings := { default with filtersSuffix := "/" }
    let p : FilePath := ⟨"app.vcxproj"⟩
    s.check = .ok s ∧ p.fileName? = some "app.vcxproj" ∧ "app.vcxproj".toList <:+ p.text.toList ∧
      ¬ s.Pairs p ∧ (s.companion p).same p ∧ s.partOf (s.companion p) = .itemList := by
  intro s p
  have hsame : (s.companion p).same p := by decide
  have hcheck : s.check = .ok s := check_eq_ok_iff.2 (by decide)
  exact ⟨hcheck, by decide, by decide, fun h => h.apart hsame, hsame, by decide⟩

end Settings

end ProjectOrder

import ProjectOrder.Proofs.Arrangement.Rearranged
import ProjectOrder.Proofs.Document.Lineage
import ProjectOrder.Proofs.Markup.References

/-!
# Entries of the nested dialect

Which nodes of a nested document are entries, said by the elements around them: the folders and
files that stand under `Files` with nothing but folders between. `entries_of_sortAll_nested` says
that these nodes, and no others, are marked with what they describe, that the folder of an entry is
the one directly around it, and that all this stays when the document is sorted any number of times.
-/

namespace ProjectOrder

open Markup

namespace Node

variable {ls ns ms above folders : List Node} {n m : Node} {e : Entry} {kind : EntryKind}
  {outer : Option String} {value : String} {order : CaseOrder}

/-! ## Siblings in another order -/

/-- `Reordered ns ms` says that `ms` is the forest `ns` with siblings in another order, at whatever
depths. -/
inductive Reordered : List Node → List Node → Prop where
  | siblings {ns ms : List Node} : ms.Perm ns → Reordered ns ms
  | inside (before after : List Node) (entry : Option Entry) (tag : Tag) {ns ms : List Node} :
      Reordered ns ms →
      Reordered (before ++ .element entry tag ns :: after)
        (before ++ .element entry tag ms :: after)
  | trans {ls ns ms : List Node} : Reordered ls ns → Reordered ns ms → Reordered ls ms

/-- A shuffle, at whatever depth, reorders siblings, also where entries are no longer told apart. -/
theorem ShuffledWithin.reordered_plainList (h : ShuffledWithin ns ms) :
    Reordered (plainList ns) (plainList ms) := by
  induction h with
  | here h =>
      rw [plainList_eq_map, plainList_eq_map]
      exact .siblings (h.perm_nodes.map plain)
  | inside before after entry tag _ ih =>
      simp only [plainList_append, plainList, plain]
      exact .inside _ _ none tag ih

/-- Rearranged nodes are reordered siblings, once the marks of entries are off. -/
theorem Rearranged.reordered_plainList (h : Rearranged ns ms) :
    Reordered (plainList ns) (plainList ms) := by
  induction h with
  | refl => exact .siblings (.refl _)
  | tail _ hstep ih => exact ih.trans hstep.reordered_plainList

/-! ## What an element under `Files` describes -/

/-- `Writes n kind value` says that a node is an element that the nested dialect writes for an entry
of a kind, with its identifier as the given value. -/
inductive Writes (n : Node) : EntryKind → String → Prop where
  | folder {value : String} : n.HasName "Filter" → n.value? "Name" = some value →
      Writes n .folder value
  | file {value : String} : n.HasName "File" → n.value? "RelativePath" = some value →
      Writes n .file value

/-- Whether a node stands for a folder. -/
def IsFolder (n : Node) : Prop :=
  ∃ e ∈ n.asEntry, e.kind = .folder

/-- The folder that the innermost of some elements stands for, and `outer` where there are none. -/
def innermost (outer : Option String) (above : List Node) : Option String :=
  above.getLast?.elim outer fun m => m.asEntry.map Entry.identifier

/-- Inside an element, what it stands for takes the place of the folder around it. -/
theorem innermost_cons :
    innermost outer (m :: above) = innermost (m.asEntry.map Entry.identifier) above := by
  cases above <;> rfl

/-- An element is marked with an entry if it writes the identifier of one, which lies in the folder
around it. -/
theorem asNestedEntry_eq_some_iff {entry : Option Entry} {tag : Tag} :
    asNestedEntry outer tag = some e ↔
      ∃ value, (element entry tag ns).Writes e.kind value ∧
        e = ⟨e.kind, Reference.resolve value, outer⟩ := by
  unfold asNestedEntry
  constructor
  · intro h
    split at h
    · obtain ⟨value, hvalue, rfl⟩ := Option.map_eq_some_iff.1 h
      exact ⟨value, .folder ‹_› hvalue, rfl⟩
    · split at h
      · obtain ⟨value, hvalue, rfl⟩ := Option.map_eq_some_iff.1 h
        exact ⟨value, .file ‹_› hvalue, rfl⟩
      · cases h
  · obtain ⟨kind, identifier, folder⟩ := e
    rintro ⟨value, hwrites, he⟩
    rw [he]
    cases hwrites with
    | folder hname hvalue =>
        rw [hasName_element] at hname
        rw [value?_element] at hvalue
        simp [hname, hvalue]
    | file hname hvalue =>
        rw [hasName_element] at hname
        rw [value?_element] at hvalue
        simp [hname, hvalue]

/-- `DescribesNested n folders e` says what an element that stands inside the given folders under
`Files` describes: an entry of the kind it is written for, in the innermost of the folders. -/
structure DescribesNested (n : Node) (folders : List Node) (e : Entry) : Prop where
  identifier : ∃ value, n.Writes e.kind value ∧ Reference.Reads value e.identifier
  folder : e.folder = folders.getLast?.bind fun m => m.asEntry.map Entry.identifier

/-! ## Where entries stand -/

/-- A node under `Files` is marked if all elements around it are folders, with the innermost of them
as its folder; others are not marked. -/
theorem Stands.inFolders_or (h : Stands ns above n)
    (hns : ∀ m ∈ ns, m.Restored (markNested outer)) :
    (∀ m ∈ above, m.IsFolder) ∧ n.Restored (markNested (innermost outer above)) ∨
      (¬ ∀ m ∈ above, m.IsFolder) ∧ n.isEntry = false := by
  induction h generalizing outer with
  | top hn => exact .inl ⟨by simp, hns _ hn⟩
  | @inside ns ms above n entry tag hm hn ih =>
      obtain ⟨rfl, hms⟩ := (restored_element_iff fun _ => markNested_element).1 (hns _ hm)
      rw [innermost_cons, List.forall_mem_cons]
      unfold nestedInside at hms
      split at hms
      · rename_i identifier parent hmarked
        have hfolder : (element (asNestedEntry outer tag) tag ms).IsFolder :=
          ⟨_, hmarked, rfl⟩
        rw [and_iff_right hfolder, asEntry, hmarked]
        exact ih hms
      · rename_i hmarked
        have hfolder : ¬ (element (asNestedEntry outer tag) tag ms).IsFolder := by
          rintro ⟨⟨kind, identifier, parent⟩, he, rfl⟩
          exact hmarked _ _ he
        exact .inr ⟨by simp [hfolder], hn.isEntry_eq_false (plainList_eq_self_iff.2 hms)⟩

/-- A node is marked under `Files` if it is written for an entry. -/
theorem isEntry_iff_writes (h : n.Restored (markNested outer)) :
    n.isEntry ↔ ∃ kind value, n.Writes kind value := by
  cases n with
  | leaf kind text =>
      refine ⟨nofun, ?_⟩
      rintro ⟨_, _, hwrites⟩
      cases hwrites <;> contradiction
  | element entry tag ns =>
      obtain ⟨rfl, -⟩ := (restored_element_iff fun _ => markNested_element).1 h
      rw [isEntry, asEntry, Option.isSome_iff_exists]
      constructor
      · rintro ⟨e, he⟩
        obtain ⟨value, hwrites, -⟩ := asNestedEntry_eq_some_iff.1 he
        exact ⟨_, value, hwrites⟩
      · rintro ⟨kind, value, hwrites⟩
        let e : Entry := ⟨kind, Reference.resolve value, outer⟩
        exact ⟨e, asNestedEntry_eq_some_iff.2 ⟨value, hwrites, rfl⟩⟩

/-- What is marked under `Files` is what the element describes. -/
theorem describesNested_of_restored (h : n.Restored (markNested (innermost none folders)))
    (he : e ∈ n.asEntry) : n.DescribesNested folders e := by
  cases n with
  | leaf => cases he
  | element entry tag ns =>
      obtain ⟨rfl, -⟩ := (restored_element_iff fun _ => markNested_element).1 h
      obtain ⟨value, hwrites, he⟩ := asNestedEntry_eq_some_iff.1 he
      refine ⟨⟨value, hwrites, Reference.reads_iff.2 (congrArg Entry.identifier he)⟩, ?_⟩
      rw [congrArg Entry.folder he, innermost]
      cases folders.getLast? <;> rfl

end Node

namespace Document

variable {text : String} {d : Document} {above folders : List Node} {n : Node}

/-- `d.UnderFiles above folders` says that some elements of a document are its root, an element
`Files` and then the given folders. -/
def UnderFiles (d : Document) (above folders : List Node) : Prop :=
  (∃ files, above = d.rootNode :: files :: folders ∧ files.HasName "Files") ∧
    ∀ m ∈ folders, m.IsFolder

/-- Below the root a node is under `Files` if the next element is `Files` and all further ones are
folders. -/
theorem underFiles_iff {m : Node} {inner : List Node} :
    d.UnderFiles (d.rootNode :: m :: inner) folders ↔
      folders = inner ∧ m.HasName "Files" ∧ ∀ m ∈ inner, m.IsFolder := by
  constructor
  · rintro ⟨⟨files, heq, hfiles⟩, hfolders⟩
    cases heq
    exact ⟨rfl, hfiles, hfolders⟩
  · rintro ⟨rfl, hfiles, hfolders⟩
    exact ⟨⟨m, rfl, hfiles⟩, hfolders⟩

/-- In a coherent document of the nested dialect only nodes under `Files` are marked. -/
theorem Coherent.underFiles_or (h : d.Coherent) (hnested : d.dialect = .nested)
    (hn : Node.Stands d.nodes above n) :
    (∃ folders, d.UnderFiles above folders ∧
        n.Restored (Node.markNested (Node.innermost none folders))) ∨
      (¬ ∃ folders, d.UnderFiles above folders) ∧ n.isEntry = false := by
  have hchildren : ∀ m ∈ d.root.children, m.Restored Node.recognizeNested := by
    have hcurrent := Element.current_iff.1 h.current
    rwa [hnested] at hcurrent
  rcases h.stands_cases hn with ⟨rfl, hnone⟩ | ⟨inner, rfl, hinner⟩
  · exact .inr ⟨by simp [UnderFiles], hnone⟩
  cases hinner with
  | top hn =>
      have hnone := (hchildren _ hn).isEntry_eq_false fun _ _ => Node.recognizeNested_element
      exact .inr ⟨by simp [UnderFiles], hnone⟩
  | @inside _ ms inner _ entry tag hm hn =>
      obtain ⟨-, hms⟩ := (Node.restored_element_iff fun _ => Node.recognizeNested_element).1
        (hchildren _ hm)
      simp only [underFiles_iff]
      unfold Node.filesInside at hms
      split at hms
      · rename_i hname
        simpa [hname] using hn.inFolders_or hms
      · rename_i hname
        refine .inr ⟨by simp [hname], ?_⟩
        exact hn.isEntry_eq_false (Node.plainList_eq_self_iff.2 hms)

/-- Sorting reorders siblings, entries apart, and changes nothing else. -/
theorem reordered_sort {order : CaseOrder} :
    Node.Reordered (Node.plainList d.nodes) (Node.plainList (d.sort order).nodes) := by
  have hchildren : Node.Rearranged d.root.children (d.sort order).root.children :=
    Node.rearranged_sortList
  have hnodes : Node.Rearranged d.nodes (d.sort order).nodes := hchildren.inside
  exact hnodes.reordered_plainList

/-- A nested document that has been read and sorted any number of times is what was read, with
siblings in another order and with entries marked in it: exactly the folders and files under `Files`
with nothing but folders between, each with the entry that it describes. -/
theorem entries_of_sortAll_nested (orders : List CaseOrder) (hparse : parse text = .ok d)
    (hnested : d.dialect = .nested) :
    Forest.ofText (Reading.withoutMark text.toList) = .ok (Node.plainList d.nodes) ∧
    Node.Reordered (Node.plainList d.nodes) (Node.plainList (d.sortAll orders).nodes) ∧
    ∀ above n, Node.Stands (d.sortAll orders).nodes above n →
      (n.isEntry ↔ (∃ kind value, n.Writes kind value) ∧
        ∃ folders, (d.sortAll orders).UnderFiles above folders) ∧
      ∀ e ∈ n.asEntry, ∃ folders, (d.sortAll orders).UnderFiles above folders ∧
        n.DescribesNested folders e := by
  have hsorted : (d.sortAll orders).Coherent ∧ (d.sortAll orders).dialect = .nested ∧
      Node.Reordered (Node.plainList d.nodes) (Node.plainList (d.sortAll orders).nodes) :=
    sortAll_induction
      (P := fun s => s.Coherent ∧ s.dialect = .nested ∧
        Node.Reordered (Node.plainList d.nodes) (Node.plainList s.nodes))
      (fun _ _ ⟨hcoherent, hdialect, hreordered⟩ =>
        ⟨hcoherent.sort, hdialect, hreordered.trans reordered_sort⟩)
      orders ⟨(coherent_of_parse hparse).1, hnested, .siblings (.refl _)⟩
  obtain ⟨hcoherent, hdialect, hreordered⟩ := hsorted
  refine ⟨ofText_of_parse hparse, hreordered, fun above n hn => ?_⟩
  rcases hcoherent.underFiles_or hdialect hn with ⟨folders, hunder, hmarked⟩ | ⟨hunder, hnone⟩
  · refine ⟨?_, fun e he => ⟨folders, hunder, Node.describesNested_of_restored hmarked he⟩⟩
    rw [Node.isEntry_iff_writes hmarked, and_iff_left ⟨folders, hunder⟩]
  · have hentry : n.asEntry = none := by simpa [Node.isEntry] using hnone
    simp [hnone, hunder, hentry]

/-- A folder moves before a file, and the file inside it is still in this folder. -/
theorem entries_of_sortAll_nested_moved :
    let text := "<VisualStudioProject><Files><File RelativePath='a'/><Filter Name='&lt;b'>" ++
      "<File RelativePath='c'/></Filter></Files></VisualStudioProject>"
    let file (name : String) (folder : Option String) : Node :=
      .element (some ⟨.file, name, folder⟩)
        ⟨"File", "File RelativePath='" ++ name ++ "'", [⟨"RelativePath", name⟩], true⟩ []
    let inside := file "c" (some "<b")
    let folder : Node := .element (some ⟨.folder, "<b", none⟩)
      ⟨"Filter", "Filter Name='&lt;b'", [⟨"Name", "&lt;b"⟩], false⟩ [inside]
    let files (entries : List Node) : Node := .element none ⟨"Files", "Files", [], false⟩ entries
    let document (entries : List Node) : Document :=
      ⟨.nested, .utf8, false, [], ⟨⟨"VisualStudioProject", "VisualStudioProject", [], false⟩,
        [files entries]⟩, []⟩
    let before := document [file "a" none, folder]
    let after := document [folder, file "a" none]
    parse text = .ok before ∧ before.dialect = .nested ∧ before.sortAll [.upperFirst] = after ∧
      inside.DescribesNested [folder] ⟨.file, "c", some "<b"⟩ := by
  intro text file inside folder files document before after
  have hparse : parse text = .ok before := by decide +kernel
  have hsort : before.sortAll [.upperFirst] = after := by
    have hfolder : folder.sort .upperFirst = folder :=
      congrArg (Node.element folder.asEntry _) (Node.arrange_singleton inside)
    have hfiles : (files [file "a" none, folder]).sort .upperFirst =
        files (Node.arrange .upperFirst [file "a" none, folder.sort .upperFirst]) := rfl
    rw [hfolder, Node.arrange_swap rfl rfl (by decide)] at hfiles
    have hroot : Node.sortList .upperFirst before.root.children = after.root.children :=
      (Node.arrange_singleton _).trans (congrArg (fun n => [n]) hfiles)
    rw [sortAll, List.foldl_cons, List.foldl_nil, sort, hroot]
  have hentries := (entries_of_sortAll_nested [.upperFirst] hparse rfl).2.2
  rw [hsort] at hentries
  have hinside : Node.Stands after.nodes [after.rootNode, files [folder, file "a" none], folder]
      inside :=
    .inside (.head _) (.inside (.head _) (.inside (.head _) (.top (.head _))))
  obtain ⟨folders, hunder, hdescribes⟩ := (hentries _ _ hinside).2 _ rfl
  obtain ⟨rfl, -⟩ := underFiles_iff.1 hunder
  exact ⟨hparse, rfl, hsort, hdescribes⟩

end Document

end ProjectOrder

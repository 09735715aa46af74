import ProjectOrder.Proofs.Document.Lineage
import ProjectOrder.Proofs.Markup.References

/-!
# Entries of the flat dialect

Which nodes of a flat document are entries, said by the elements around them: those with an
`Include` directly inside an item group, which itself stands directly inside the root or inside
branches of choices. `entries_of_parse_flat` says that recognition marks these nodes, and no others,
with what they describe, and loses nothing of what was read.
-/

namespace ProjectOrder

open Markup

namespace Node

variable {ns ms above : List Node} {n m : Node} {e : Entry} {tag : Tag} {name : String}

/-! ## Item groups -/

/-- An element of a choice, inside which item groups may stand. -/
def IsBranch (n : Node) : Prop :=
  n.HasName "Choose" ∨ n.HasName "When" ∨ n.HasName "Otherwise"

/-- `InItemGroup above` says that the innermost of some elements is an item group and that those
around it are branches of choices. -/
def InItemGroup (above : List Node) : Prop :=
  ∃ branches group, above = branches ++ [group] ∧ (∀ m ∈ branches, m.IsBranch) ∧
    group.HasName "ItemGroup"

/-- Where nothing is around, there is no item group. -/
theorem not_inItemGroup_nil : ¬ InItemGroup [] := by
  rintro ⟨branches, group, heq, -⟩
  simp at heq

/-- Seen from outside, an item group comes first or inside a branch. -/
theorem inItemGroup_cons_iff :
    InItemGroup (m :: above) ↔
      above = [] ∧ m.HasName "ItemGroup" ∨ m.IsBranch ∧ InItemGroup above := by
  constructor
  · rintro ⟨branches, group, heq, hbranches, hgroup⟩
    cases branches with
    | nil =>
        obtain ⟨rfl, rfl⟩ := List.cons.inj heq
        exact .inl ⟨rfl, hgroup⟩
    | cons branch branches =>
        obtain ⟨rfl, rfl⟩ := List.cons.inj heq
        rw [List.forall_mem_cons] at hbranches
        exact .inr ⟨hbranches.1, branches, group, rfl, hbranches.2, hgroup⟩
  · rintro (⟨rfl, hgroup⟩ | ⟨hbranch, branches, group, rfl, hbranches, hgroup⟩)
    · exact ⟨[], m, rfl, by simp, hgroup⟩
    · exact ⟨m :: branches, group, rfl, List.forall_mem_cons.2 ⟨hbranch, hbranches⟩, hgroup⟩

/-- A branch of a choice is no item group. -/
theorem IsBranch.not_itemGroup (h : m.IsBranch) : ¬ m.HasName "ItemGroup" := by
  cases m with
  | leaf => exact id
  | element entry tag ns =>
      rcases h with h | h | h <;> simp only [HasName] at h ⊢ <;> rw [h] <;> decide

/-! ## What an element of an item group describes -/

/-- `DescribesFlat n e` says that an element with an `Include` describes an entry: a folder if it is
named `Filter` and a file otherwise, which names its folder if it has a `Filter` inside. -/
structure DescribesFlat (n : Node) (e : Entry) : Prop where
  identifier : ∃ value, n.value? "Include" = some value ∧ Reference.Reads value e.identifier
  kind : e.kind = .folder ↔ n.HasName "Filter"
  folder : e.folder.isSome ↔ e.kind = .file ∧ ∃ m ∈ n.children, m.HasName "Filter"

/-- Among nodes without entries a text is found if there is an element of the name. -/
theorem isSome_textOfChild?_iff (hplain : plainList ns = ns) :
    (textOfChild? name ns).isSome ↔ ∃ m ∈ ns, m.HasName name := by
  rw [textOfChild?, List.findSome?_isSome_iff]
  refine exists_congr fun m => and_congr_right fun hm => ?_
  cases m with
  | leaf => simp [HasName]
  | element entry tag children =>
      obtain rfl : none = entry := (element.inj (plainList_eq_self_iff.1 hplain _ hm)).1
      by_cases hname : tag.name = name <;> simp [HasName, hname]

/-- What is marked in an item group is what the element describes. -/
theorem describesFlat_of_restored (h : Restored markFlat n) (he : e ∈ n.asEntry) :
    n.DescribesFlat e := by
  cases n with
  | leaf => cases he
  | element entry tag ns =>
      obtain ⟨hentry, -, hns⟩ := element.inj h
      rw [hns] at hentry
      obtain ⟨value, hvalue, hmarked⟩ := Option.map_eq_some_iff.1 (hentry.trans he)
      by_cases hname : tag.name = "Filter"
      · rw [if_pos hname] at hmarked
        subst hmarked
        exact ⟨⟨value, hvalue, Reference.reads_iff.2 rfl⟩, by simp [HasName, hname], by simp⟩
      · rw [if_neg hname] at hmarked
        subst hmarked
        refine ⟨⟨value, hvalue, Reference.reads_iff.2 rfl⟩, by simp [HasName, hname], ?_⟩
        simp [isSome_textOfChild?_iff hns, children]

/-! ## Where entries stand -/

/-- A node directly inside an item group is marked by what it describes, and no other is. -/
theorem Stands.inItemGroup_or (h : Stands ns above n) (hns : ∀ m ∈ ns, Restored recognizeFlat m) :
    InItemGroup above ∧ Restored markFlat n ∨ ¬ InItemGroup above ∧ n.isEntry = false := by
  induction h with
  | top hn =>
      have hnone := (hns _ hn).isEntry_eq_false fun _ _ => recognizeFlat_element
      exact .inr ⟨not_inItemGroup_nil, hnone⟩
  | @inside ns ms above n entry tag hm hn ih =>
      obtain ⟨-, hms⟩ := (restored_element_iff fun _ => recognizeFlat_element).1 (hns _ hm)
      rw [inItemGroup_cons_iff]
      unfold flatInside at hms
      split at hms
      · rename_i hgroup
        have hbranch : ¬ (element entry tag ms).IsBranch := fun h => h.not_itemGroup hgroup
        cases hn with
        | top hn => exact .inl ⟨.inl ⟨rfl, hgroup⟩, hms _ hn⟩
        | inside hinner hn =>
            -- what stands deeper in the group is not marked
            have hplain := (element.inj (hms _ hinner)).2.2
            exact .inr ⟨by simp [hbranch], hn.isEntry_eq_false hplain⟩
      · rename_i hgroup
        split at hms
        · rename_i hname
          have hbranch : (element entry tag ms).IsBranch := by simpa [IsBranch, HasName] using hname
          simpa [hbranch, HasName, hgroup] using ih hms
        · rename_i hname
          have hbranch : ¬ (element entry tag ms).IsBranch := by
            simpa [IsBranch, HasName] using hname
          refine .inr ⟨by simp [hbranch, HasName, hgroup], ?_⟩
          exact hn.isEntry_eq_false (plainList_eq_self_iff.2 hms)

/-- An element with an `Include` is marked in an item group. -/
theorem isEntry_iff_of_restored (h : Restored markFlat n) :
    n.isEntry ↔ (n.value? "Include").isSome := by
  cases n with
  | leaf => simp [isEntry, asEntry, value?]
  | element entry tag ns =>
      obtain ⟨hentry, -, -⟩ := element.inj h
      rw [isEntry, asEntry, ← hentry, asFlatEntry, Option.isSome_map, value?]

/-- What is marked in an item group has no entries inside. -/
theorem plainList_children_of_restored (h : Restored markFlat n) :
    plainList n.children = n.children := by
  cases n with
  | leaf => rfl
  | element entry tag ns => exact (element.inj h).2.2

end Node

namespace Document

variable {text : String} {d : Document} {above : List Node} {n : Node}

/-- In a coherent document of the flat dialect, too, only nodes directly inside an item group are
marked. -/
theorem Coherent.inItemGroup_or (h : d.Coherent) (hflat : d.dialect = .flat)
    (hn : Node.Stands d.nodes above n) :
    (∃ inner, above = d.rootNode :: inner ∧ Node.InItemGroup inner) ∧ n.Restored Node.markFlat ∨
      (¬ ∃ inner, above = d.rootNode :: inner ∧ Node.InItemGroup inner) ∧ n.isEntry = false := by
  have hchildren : ∀ m ∈ d.root.children, m.Restored Node.recognizeFlat := by
    have hcurrent := Element.current_iff.1 h.current
    rwa [hflat] at hcurrent
  rcases h.stands_cases hn with ⟨rfl, hnone⟩ | ⟨inner, rfl, hinner⟩
  · exact .inr ⟨by simp, hnone⟩
  · simpa using hinner.inItemGroup_or hchildren

/-- A flat document that has been read is what was read with entries marked in it: exactly the
elements with an `Include` directly inside an item group, each with the entry that it describes and
with no other entry inside. -/
theorem entries_of_parse_flat (hparse : parse text = .ok d) (hflat : d.dialect = .flat) :
    Forest.ofText (Reading.withoutMark text.toList) = .ok (Node.plainList d.nodes) ∧
    ∀ above n, Node.Stands d.nodes above n →
      (n.isEntry ↔ (n.value? "Include").isSome ∧
        ∃ inner, above = d.rootNode :: inner ∧ Node.InItemGroup inner) ∧
      (∀ e ∈ n.asEntry, n.DescribesFlat e) ∧
      (n.isEntry → ∀ between m, Node.Stands n.children between m → m.isEntry = false) := by
  refine ⟨ofText_of_parse hparse, fun above n hn => ?_⟩
  rcases (coherent_of_parse hparse).1.inItemGroup_or hflat hn with
    ⟨hgroup, hmarked⟩ | ⟨hgroup, hnone⟩
  · refine ⟨?_, fun e he => Node.describesFlat_of_restored hmarked he, fun _ between m hm => ?_⟩
    · rw [Node.isEntry_iff_of_restored hmarked, and_iff_left hgroup]
    · exact hm.isEntry_eq_false (Node.plainList_children_of_restored hmarked)
  · have hentry : n.asEntry = none := by simpa [Node.isEntry] using hnone
    simp [hnone, hgroup, hentry]

/-- A file inside a choice is an entry and names its folder; what a build target lists is none. -/
theorem entries_of_parse_flat_choice :
    let text := "<Project><Choose><When><ItemGroup><C Include='a&amp;b'><Filter>F</Filter></C>" ++
      "</ItemGroup></When></Choose><Target><ItemGroup><C Include='c'/></ItemGroup></Target>" ++
      "</Project>"
    let tag (name : String) : Tag := ⟨name, name, [], false⟩
    let folder : Node := .element none (tag "Filter") [.leaf .text "F"]
    let file : Node := .element (some ⟨.file, "a&b", some "F"⟩)
      ⟨"C", "C Include='a&amp;b'", [⟨"Include", "a&amp;b"⟩], false⟩ [folder]
    let group : Node := .element none (tag "ItemGroup") [file]
    let branch : Node := .element none (tag "When") [group]
    let choice : Node := .element none (tag "Choose") [branch]
    let listed : Node := .element none ⟨"C", "C Include='c'", [⟨"Include", "c"⟩], true⟩ []
    let list : Node := .element none (tag "ItemGroup") [listed]
    let target : Node := .element none (tag "Target") [list]
    let d : Document := ⟨.flat, .utf8, false, [], ⟨tag "Project", [choice, target]⟩, []⟩
    parse text = .ok d ∧ d.dialect = .flat ∧ file.DescribesFlat ⟨.file, "a&b", some "F"⟩ ∧
      Node.InItemGroup [choice, branch, group] ∧ ¬ Node.InItemGroup [target, list] := by
  intro text tag folder file group branch choice listed list target d
  have hparse : parse text = .ok d := by decide +kernel
  have hentries := (entries_of_parse_flat hparse rfl).2
  have hfile : Node.Stands d.nodes [d.rootNode, choice, branch, group] file :=
    .inside (.head _) (.inside (.head _) (.inside (.head _) (.inside (.head _) (.top (.head _)))))
  have hlisted : Node.Stands d.nodes [d.rootNode, target, list] listed :=
    .inside (.head _) (.inside (.tail _ (.head _)) (.inside (.head _) (.top (.head _))))
  obtain ⟨-, inner, hinner, hgroup⟩ := (hentries _ _ hfile).1.1 rfl
  obtain rfl := (List.cons.inj hinner).2
  have hnone : ¬ listed.isEntry := by decide
  refine ⟨hparse, rfl, (hentries _ _ hfile).2.1 _ rfl, hgroup, fun hlist => hnone ?_⟩
  exact (hentries _ _ hlisted).1.2 ⟨rfl, _, rfl, hlist⟩

end Document

end ProjectOrder

import ProjectOrder.Document.Printer
import ProjectOrder.Document.Recognition
import ProjectOrder.Proofs.Document.Plain

/-!
# Recognition after sorting

The entries of a root element are current if recognition finds them again on the element without
entries. They are current after recognition (`current_recognize`) and stay so when the document is
sorted (`Current.sort`), although entries then stand in other places.
-/

namespace ProjectOrder

namespace Node

variable {dialect : Dialect} {order : CaseOrder} {folder : Option String} {n : Node}
  {ns : List Node} {f : Node → Node}

/-! ## Recognition changes entries only -/

/-- Marking a node of an item group only adds marks. -/
theorem plain_markFlat (n : Node) : n.markFlat.plain = n.plain := by
  cases n <;> rfl

/-- A function that only adds marks to nodes only adds marks to a list of them. -/
theorem plainList_map (hf : ∀ n, (f n).plain = n.plain) : plainList (ns.map f) = plainList ns := by
  simp [plainList_eq_map, hf]

mutual

/-- Recognition in the flat dialect only adds marks. -/
theorem plain_recognizeFlat (n : Node) : n.recognizeFlat.plain = n.plain := by
  cases n with
  | leaf kind text => rfl
  | element entry tag ns =>
      rw [recognizeFlat]
      split
      · rw [plain, plain, plainList_map plain_markFlat]
      · split
        · rw [plain, plain, plainList_recognizeFlatList]
        · rfl

/-- Recognition in the flat dialect only adds marks to a list. -/
theorem plainList_recognizeFlatList (ns : List Node) :
    plainList (recognizeFlatList ns) = plainList ns := by
  cases ns with
  | nil => rfl
  | cons n ns =>
      rw [recognizeFlatList, plainList, plainList, plain_recognizeFlat, plainList_recognizeFlatList]

end

mutual

/-- Marking a node under `Files` only adds marks. -/
theorem plain_markNested (folder : Option String) (n : Node) :
    (n.markNested folder).plain = n.plain := by
  cases n with
  | leaf kind text => rfl
  | element entry tag ns =>
      rw [markNested]
      split
      · split
        · rw [plain, plain, plainList_markNestedList]
        · rfl
      · rfl

/-- Marking nodes under `Files` only adds marks. -/
theorem plainList_markNestedList (folder : Option String) (ns : List Node) :
    plainList (markNestedList folder ns) = plainList ns := by
  cases ns with
  | nil => rfl
  | cons n ns =>
      rw [markNestedList, plainList, plainList, plain_markNested, plainList_markNestedList]

end

/-- Recognition in the nested dialect only adds marks. -/
theorem plain_recognizeNested (n : Node) : n.recognizeNested.plain = n.plain := by
  cases n with
  | leaf kind text => rfl
  | element entry tag ns =>
      rw [recognizeNested]
      split
      · rw [plain, plain, plainList_markNestedList]
      · rfl

/-- Some nodes of the flat dialect are recognised each on its own. -/
theorem recognizeFlatList_eq_map (ns : List Node) :
    recognizeFlatList ns = ns.map recognizeFlat := by
  induction ns with
  | nil => rfl
  | cons n ns ih => rw [recognizeFlatList, ih, List.map_cons]

/-- Some nodes under `Files` are marked each on its own. -/
theorem markNestedList_eq_map (folder : Option String) (ns : List Node) :
    markNestedList folder ns = ns.map (markNested folder) := by
  induction ns with
  | nil => rfl
  | cons n ns ih => rw [markNestedList, ih, List.map_cons]

/-! ## Nodes restored -/

/-- A node is restored by a recognition if this finds its entries again. -/
def Restored (f : Node → Node) (n : Node) : Prop :=
  f n.plain = n

/-- Recognition brings a list back from its plain form if it brings every node back. -/
theorem map_plainList_eq_iff : (plainList ns).map f = ns ↔ ∀ n ∈ ns, Restored f n := by
  rw [plainList_eq_map, List.map_map]
  induction ns with
  | nil => simp
  | cons n ns ih => simp [ih, Restored]

/-- Where recognition marks an element by its tag alone and goes on inside, an element is restored
if its entry is the mark and the nodes inside are restored. -/
theorem restored_element_iff {entry marked : Option Entry} {tag : Tag} {inside : Node → Node}
    (hf : ∀ ms, f (element none tag ms) = element marked tag (ms.map inside)) :
    Restored f (element entry tag ns) ↔ marked = entry ∧ ∀ n ∈ ns, Restored inside n := by
  simp only [Restored, plain, hf, element.injEq, true_and, map_plainList_eq_iff]

/-- Where recognition goes on inside elements without marking them, a restored node is no entry. -/
theorem Restored.isEntry_eq_false {inside : Tag → Node → Node}
    (hf : ∀ tag ms, f (element none tag ms) = element none tag (ms.map (inside tag)))
    (hn : Restored f n) : n.isEntry = false := by
  cases n with
  | leaf kind text => rfl
  | element entry tag ns =>
      obtain ⟨rfl, -⟩ := (restored_element_iff (hf tag)).1 hn
      rfl

/-- Such an element stays restored when it is sorted, if the nodes inside do. -/
theorem Restored.sort_element {entry marked : Option Entry} {tag : Tag} {inside : Node → Node}
    (hf : ∀ ms, f (element none tag ms) = element marked tag (ms.map inside))
    (hn : Restored f (element entry tag ns))
    (hsort : ∀ n ∈ ns, Restored inside n → Restored inside (n.sort order)) :
    Restored f ((element entry tag ns).sort order) := by
  rw [restored_element_iff hf] at hn
  rw [sort, restored_element_iff hf]
  refine ⟨hn.1, fun n hmem => ?_⟩
  rw [arrange_perm.mem_iff, sortInner_eq_map] at hmem
  obtain ⟨m, hm, rfl⟩ := List.mem_map.1 hmem
  exact hsort m hm (hn.2 m hm)

mutual

/-- Whether every entry in a node is of the kind that the dialect reads its element as. -/
def Fits (dialect : Dialect) : Node → Prop
  | element entry tag ns => (∀ e ∈ entry, dialect.fits e.kind tag) ∧ FitsList dialect ns
  | leaf .. => True

/-- A child list of fitting nodes. -/
def FitsList (dialect : Dialect) : List Node → Prop
  | [] => True
  | n :: ns => n.Fits dialect ∧ FitsList dialect ns

end

/-- Some nodes fit a dialect if each of them does. -/
theorem fitsList_iff : FitsList dialect ns ↔ ∀ n ∈ ns, n.Fits dialect := by
  induction ns with
  | nil => simp [FitsList]
  | cons n ns ih => simp [FitsList, ih]

/-- Such an element fits if the mark and the nodes inside do. -/
theorem Restored.fits_element {entry marked : Option Entry} {tag : Tag} {inside : Node → Node}
    (hf : ∀ ms, f (element none tag ms) = element marked tag (ms.map inside))
    (hn : Restored f (element entry tag ns)) (hmarked : ∀ e ∈ marked, dialect.fits e.kind tag)
    (hinside : ∀ n ∈ ns, Restored inside n → n.Fits dialect) :
    (element entry tag ns).Fits dialect := by
  obtain ⟨rfl, hns⟩ := (restored_element_iff hf).1 hn
  exact ⟨hmarked, fitsList_iff.2 fun n hmem => hinside n hmem (hns n hmem)⟩

mutual

/-- A node without marks fits every dialect. -/
theorem fits_plain (n : Node) : n.plain.Fits dialect := by
  cases n with
  | leaf kind text => trivial
  | element entry tag ns => exact ⟨by simp, fitsList_plainList ns⟩

/-- Nodes without marks fit every dialect. -/
theorem fitsList_plainList (ns : List Node) : FitsList dialect (plainList ns) := by
  cases ns with
  | nil => trivial
  | cons n ns => exact ⟨fits_plain n, fitsList_plainList ns⟩

end

/-- A node that is its own plain form fits every dialect. -/
theorem fits_of_restored_id (h : Restored id n) : n.Fits dialect :=
  (h : n.plain = n) ▸ fits_plain n

/-- A node without entries has none after sorting. -/
theorem restored_id_sort (h : Restored id n) : Restored id (n.sort order) := by
  have hplain : n.plain = n := h
  rw [← hplain, sort_plain]
  exact plain_plain n

/-! ## The flat dialect -/

/-- The recognition inside an element of the flat dialect. -/
def flatInside (tag : Tag) : Node → Node :=
  if tag.name = "ItemGroup" then markFlat
  else if tag.name ∈ ["Choose", "When", "Otherwise"] then recognizeFlat
  else id

/-- Recognition goes on inside an element of the flat dialect in a way that its tag decides. -/
theorem recognizeFlat_element {entry : Option Entry} {tag : Tag} :
    (element entry tag ns).recognizeFlat = element entry tag (ns.map (flatInside tag)) := by
  rw [recognizeFlat, flatInside]
  split
  · rfl
  · split
    · rw [recognizeFlatList_eq_map]
    · rw [List.map_id]

/-- The nodes of an item group have no entries inside and are in order there. -/
theorem restored_markFlat_sort (h : Restored markFlat n) : Restored markFlat (n.sort order) := by
  cases n with
  | leaf kind text => rfl
  | element entry tag ns =>
      have hns : plainList ns = ns := (element.inj h).2.2
      rw [sort, ← hns, ← sortList, sortList_plainList, hns]
      exact h

/-- Sorting a node of the flat dialect keeps its entries those that are recognised. -/
theorem restored_recognizeFlat_sort (h : Restored recognizeFlat n) :
    Restored recognizeFlat (n.sort order) := by
  induction n with
  | leaf kind text => rfl
  | element entry tag ns ih =>
      refine h.sort_element (fun _ => recognizeFlat_element) fun n hn => ?_
      unfold flatInside
      split
      · exact restored_markFlat_sort
      · split
        · exact ih n hn
        · exact restored_id_sort

/-- What is marked as an entry of an item group has an `Include`. -/
theorem fits_of_asFlatEntry {tag : Tag} {e : Entry} (h : asFlatEntry tag ns = some e) :
    Dialect.flat.fits e.kind tag := by
  obtain ⟨identifier, hinclude, rfl⟩ := Option.map_eq_some_iff.1 h
  split <;> simp_all [Dialect.fits]

/-- A node marked as one of an item group fits the flat dialect. -/
theorem fits_of_restored_markFlat (h : Restored markFlat n) : n.Fits .flat := by
  cases n with
  | leaf kind text => trivial
  | element entry tag ns =>
      obtain ⟨rfl, -, hns⟩ := element.inj h
      exact ⟨fun e he => fits_of_asFlatEntry he, hns ▸ fitsList_plainList ns⟩

/-- A node recognised in the flat dialect fits it. -/
theorem fits_of_restored_recognizeFlat (h : Restored recognizeFlat n) : n.Fits .flat := by
  induction n with
  | leaf kind text => trivial
  | element entry tag ns ih =>
      refine h.fits_element (fun _ => recognizeFlat_element) (by simp) fun n hn => ?_
      unfold flatInside
      split
      · exact fits_of_restored_markFlat
      · split
        · exact ih n hn
        · exact fits_of_restored_id

/-! ## The nested dialect -/

/-- The recognition inside an element under `Files`. -/
def nestedInside (folder : Option String) (tag : Tag) : Node → Node :=
  match asNestedEntry folder tag with
  | some ⟨.folder, identifier, _⟩ => markNested (some identifier)
  | _ => id

/-- Marking an element under `Files` goes by its tag and the folder around it. -/
theorem markNested_element {entry : Option Entry} {tag : Tag} :
    (element entry tag ns).markNested folder =
      element (asNestedEntry folder tag) tag (ns.map (nestedInside folder tag)) := by
  rw [markNested, nestedInside]
  split
  · rename_i marked hmarked
    obtain ⟨kind, identifier, parent⟩ := marked
    cases kind with
    | folder => simp [hmarked, markNestedList_eq_map]
    | file => simp [hmarked]
  · rename_i hmarked
    simp [hmarked]

/-- Sorting a node under `Files` keeps its entries those that are recognised. -/
theorem restored_markNested_sort (h : Restored (markNested folder) n) :
    Restored (markNested folder) (n.sort order) := by
  -- the folder whose entries are marked changes from level to level
  induction n generalizing folder with
  | leaf kind text => rfl
  | element entry tag ns ih =>
      refine h.sort_element (fun _ => markNested_element) fun n hn => ?_
      unfold nestedInside
      split
      · exact ih n hn
      · exact restored_id_sort

/-- What is marked as an entry under `Files` has the name and the attribute of its kind. -/
theorem fits_of_asNestedEntry {tag : Tag} {e : Entry} (h : asNestedEntry folder tag = some e) :
    Dialect.nested.fits e.kind tag := by
  unfold asNestedEntry at h
  split at h
  · obtain ⟨name, hname, rfl⟩ := Option.map_eq_some_iff.1 h
    simp_all [Dialect.fits]
  · split at h
    · obtain ⟨path, hpath, rfl⟩ := Option.map_eq_some_iff.1 h
      simp_all [Dialect.fits]
    · cases h

/-- A node marked as one under `Files` fits the nested dialect. -/
theorem fits_of_restored_markNested (h : Restored (markNested folder) n) : n.Fits .nested := by
  induction n generalizing folder with
  | leaf kind text => trivial
  | element entry tag ns ih =>
      refine h.fits_element (fun _ => markNested_element) (fun e he => fits_of_asNestedEntry he)
        fun n hn => ?_
      unfold nestedInside
      split
      · exact ih n hn
      · exact fits_of_restored_id

/-- The recognition inside a child of the root of the nested dialect. -/
def filesInside (tag : Tag) : Node → Node :=
  if tag.name = "Files" then markNested none else id

/-- Recognition goes on inside an element of the nested dialect in a way that its tag decides. -/
theorem recognizeNested_element {entry : Option Entry} {tag : Tag} :
    (element entry tag ns).recognizeNested = element entry tag (ns.map (filesInside tag)) := by
  rw [recognizeNested, filesInside]
  split
  · rw [markNestedList_eq_map]
  · rw [List.map_id]

/-- Sorting a child of the root of the nested dialect keeps its entries those that are
recognised. -/
theorem restored_recognizeNested_sort (h : Restored recognizeNested n) :
    Restored recognizeNested (n.sort order) := by
  cases n with
  | leaf kind text => rfl
  | element entry tag ns =>
      refine h.sort_element (fun _ => recognizeNested_element) fun n _ => ?_
      unfold filesInside
      split
      · exact restored_markNested_sort
      · exact restored_id_sort

/-- A node recognised in the nested dialect fits it. -/
theorem fits_of_restored_recognizeNested (h : Restored recognizeNested n) : n.Fits .nested := by
  cases n with
  | leaf kind text => trivial
  | element entry tag ns =>
      refine h.fits_element (fun _ => recognizeNested_element) (by simp) fun n _ => ?_
      unfold filesInside
      split
      · exact fits_of_restored_markNested
      · exact fits_of_restored_id

/-! ## Root elements -/

/-- The recognition of a child of the root. -/
def recognizeChild : Dialect → Node → Node
  | .flat => recognizeFlat
  | .nested => recognizeNested

/-- Recognition of a child of the root only adds marks. -/
theorem plain_recognizeChild (dialect : Dialect) (n : Node) :
    (recognizeChild dialect n).plain = n.plain := by
  cases dialect with
  | flat => exact plain_recognizeFlat n
  | nested => exact plain_recognizeNested n

/-- Sorting a child of the root keeps its entries those that are recognised. -/
theorem restored_recognizeChild_sort {dialect : Dialect} (h : Restored (recognizeChild dialect) n) :
    Restored (recognizeChild dialect) (n.sort order) := by
  cases dialect with
  | flat => exact restored_recognizeFlat_sort h
  | nested => exact restored_recognizeNested_sort h

end Node

namespace Element

variable {dialect : Dialect} {order : CaseOrder} {root : Element}

/-- Recognition of the root recognises each of its children. -/
theorem recognize_eq_map (dialect : Dialect) (root : Element) :
    root.recognize dialect = ⟨root.tag, root.children.map (Node.recognizeChild dialect)⟩ := by
  cases dialect with
  | flat => rw [recognize, Node.recognizeFlatList_eq_map, Node.recognizeChild]
  | nested => rfl

/-- Recognition keeps the tag of the root. -/
theorem tag_recognize : (root.recognize dialect).tag = root.tag := by
  rw [recognize_eq_map]

/-- A root element is current if recognition finds its entries again on the element without them. -/
def Current (dialect : Dialect) (root : Element) : Prop :=
  recognize dialect ⟨root.tag, Node.plainList root.children⟩ = root

/-- The entries of a root are current if recognition brings every child of it back. -/
theorem current_iff :
    root.Current dialect ↔ ∀ n ∈ root.children, Node.Restored (Node.recognizeChild dialect) n := by
  obtain ⟨tag, children⟩ := root
  simp [Current, recognize_eq_map, Node.map_plainList_eq_iff]

/-- Recognition changes entries only. -/
theorem plainList_recognize :
    Node.plainList (root.recognize dialect).children = Node.plainList root.children := by
  rw [recognize_eq_map, Node.plainList_map (Node.plain_recognizeChild dialect)]

/-- A root element without entries is current after recognition. -/
theorem current_recognize (h : Node.plainList root.children = root.children) :
    (root.recognize dialect).Current dialect := by
  obtain ⟨tag, children⟩ := root
  rw [Current, plainList_recognize, h]
  simp only [recognize_eq_map]

/-- The entries of a current root element fit their elements. -/
theorem Current.fitsList (h : root.Current dialect) : Node.FitsList dialect root.children := by
  rw [current_iff] at h
  rw [Node.fitsList_iff]
  intro n hn
  cases dialect with
  | flat => exact Node.fits_of_restored_recognizeFlat (h n hn)
  | nested => exact Node.fits_of_restored_recognizeNested (h n hn)

/-- A root element stays current when its child lists are sorted. -/
theorem Current.sort (h : root.Current dialect) :
    Current dialect ⟨root.tag, Node.sortList order root.children⟩ := by
  rw [current_iff] at h ⊢
  intro n hn
  rw [Node.sortList, Node.arrange_perm.mem_iff, Node.sortInner_eq_map] at hn
  obtain ⟨m, hm, rfl⟩ := List.mem_map.1 hn
  exact Node.restored_recognizeChild_sort (h m hm)

end Element

end ProjectOrder

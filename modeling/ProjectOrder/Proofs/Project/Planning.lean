import ProjectOrder.Project.Run
import ProjectOrder.Proofs.Arrangement.Repeated
import ProjectOrder.Proofs.Document.Inventory
import ProjectOrder.Proofs.Document.RoundTrip

/-!
# Plans

What a plan says about a content. A content is kept exactly if its document is in order, and what
replaces it is the document sorted: `ofContent_eq_keep_iff` and `ofContent_eq_replace_iff`. In UTF-8
and in the encodings of one byte per character the output is read as the sorted document, so
verification finds nothing wrong with it (`verifyOutput_of_write`) and planning again keeps it
(`ofContent_output`).
-/

namespace ProjectOrder

section Plans

variable [Indexes]

/-- A content whose document, if it is one, is in UTF-8 or in an encoding of one byte per
character. -/
def HasExactEncoding (content : ByteArray) : Prop :=
  ∀ d, Document.read content = .ok d → d.encoding.IsExact

variable {settings other : Settings} {content output : ByteArray} {tally : Tally}
  {before : List Entry} {d : Document}

/-- An output is accepted exactly if it is read as a document with the entries there were before. -/
theorem verifyOutput_eq_ok_iff :
    verifyOutput before output = .ok () ↔
      ∃ again, Document.read output = .ok again ∧ before.Perm again.entries := by
  unfold verifyOutput
  cases Document.read output with
  | error fault => simp
  | ok again =>
      simp only [Except.ok.injEq, exists_eq_left', Entry.inventory_eq_iff]
      split <;> simp [*]

namespace Plan

/-! ## What is planned -/

/-- A content that is no document is refused. -/
theorem ofContent_of_malformed {fault : ParseFault} (hread : Document.read content = .error fault) :
    ofContent settings content = .error (.malformed fault) := by
  simp only [ofContent, hread]

/-- A document in order is kept. -/
theorem ofContent_of_in_order (hread : Document.read content = .ok d)
    (hsorted : d.sort settings.caseOrder = d) : ofContent settings content = .ok .keep := by
  have hchanged : ¬ (d.tally settings.caseOrder).changed :=
    fun h => Document.tally_changed_iff.1 h hsorted
  simp only [ofContent, hread, if_neg hchanged]

section OutOfOrder

variable (hread : Document.read content = .ok d) (hsorted : d.sort settings.caseOrder ≠ d)

include hread hsorted

/-- A document that cannot be written in order is refused. -/
theorem ofContent_of_unwritable {fault : WriteFault}
    (hwrite : (d.sort settings.caseOrder).write = .error fault) :
    ofContent settings content = .error (.unwritable fault) := by
  simp only [ofContent, hread, if_pos (Document.tally_changed_iff.2 hsorted), hwrite]

/-- A document whose output fails verification is refused. -/
theorem ofContent_of_rejected {failure : Failure}
    (hwrite : (d.sort settings.caseOrder).write = .ok output) (hverify : settings.verify)
    (hreject : verifyOutput d.entries output = .error failure) :
    ofContent settings content = .error failure := by
  simp only [ofContent, hread, if_pos (Document.tally_changed_iff.2 hsorted), hwrite,
    if_pos hverify,
    hreject]

/-- Any other document out of order is replaced by the document sorted. -/
theorem ofContent_of_accepted (hwrite : (d.sort settings.caseOrder).write = .ok output)
    (haccept : settings.verify → verifyOutput d.entries output = .ok ()) :
    ofContent settings content = .ok (.replace (d.tally settings.caseOrder) output) := by
  simp only [ofContent, hread, if_pos (Document.tally_changed_iff.2 hsorted), hwrite]
  split
  · simp only [haccept ‹_›]
  · rfl

end OutOfOrder

/-- A content is kept exactly if it is a document in order. -/
theorem ofContent_eq_keep_iff :
    ofContent settings content = .ok .keep ↔
      ∃ d, Document.read content = .ok d ∧ d.sort settings.caseOrder = d := by
  refine ⟨fun h => ?_, fun ⟨d, hread, hsorted⟩ => ofContent_of_in_order hread hsorted⟩
  cases hread : Document.read content with
  | error fault => simp [ofContent_of_malformed hread] at h
  | ok d =>
      refine ⟨d, rfl, ?_⟩
      by_contra hsorted
      cases hwrite : (d.sort settings.caseOrder).write with
      | error fault => simp [ofContent_of_unwritable hread hsorted hwrite] at h
      | ok output =>
          by_cases haccept : settings.verify → verifyOutput d.entries output = .ok ()
          · simp [ofContent_of_accepted hread hsorted hwrite haccept] at h
          · obtain ⟨hverify, hreject⟩ := not_forall.1 haccept
            cases hfail : verifyOutput d.entries output with
            | ok => exact hreject hfail
            | error failure =>
                simp [ofContent_of_rejected hread hsorted hwrite hverify hfail] at h

/-- A content is replaced exactly if it is a document out of order that is written in order as the
output and, where verification is asked for, passes it. -/
theorem ofContent_eq_replace_iff :
    ofContent settings content = .ok (.replace tally output) ↔
      ∃ d, Document.read content = .ok d ∧ d.sort settings.caseOrder ≠ d ∧
        d.tally settings.caseOrder = tally ∧ (d.sort settings.caseOrder).write = .ok output ∧
        (settings.verify → verifyOutput d.entries output = .ok ()) := by
  constructor
  · intro h
    cases hread : Document.read content with
    | error fault => simp [ofContent_of_malformed hread] at h
    | ok d =>
        have hsorted : d.sort settings.caseOrder ≠ d := fun hsorted => by
          simp [ofContent_of_in_order hread hsorted] at h
        cases hwrite : (d.sort settings.caseOrder).write with
        | error fault => simp [ofContent_of_unwritable hread hsorted hwrite] at h
        | ok written =>
            have haccept : settings.verify → verifyOutput d.entries written = .ok () := by
              intro hverify
              cases hfail : verifyOutput d.entries written with
              | ok => rfl
              | error failure =>
                  simp [ofContent_of_rejected hread hsorted hwrite hverify hfail] at h
            rw [ofContent_of_accepted hread hsorted hwrite haccept] at h
            cases h
            exact ⟨d, rfl, hsorted, rfl, hwrite, haccept⟩
  · rintro ⟨d, hread, hsorted, rfl, hwrite, haccept⟩
    exact ofContent_of_accepted hread hsorted hwrite haccept

/-! ## Exact encodings -/

/-- The document sorted is read from the bytes written for it, in the encoding of the document. -/
theorem read_of_write_sort (hexact : HasExactEncoding content)
    (hread : Document.read content = .ok d) {order : CaseOrder}
    (hwrite : (d.sort order).write = .ok output) :
    Document.read output = .ok (d.sort order) :=
  (Document.faithful_of_read hread (hexact d hread)).1.sort.read_of_write (hexact d hread) hwrite

/-- Verification accepts what is written for the document sorted. -/
theorem verifyOutput_of_write (hexact : HasExactEncoding content)
    (hread : Document.read content = .ok d) {order : CaseOrder}
    (hwrite : (d.sort order).write = .ok output) : verifyOutput d.entries output = .ok () :=
  verifyOutput_eq_ok_iff.2
    ⟨d.sort order, read_of_write_sort hexact hread hwrite, Document.entries_sort_perm.symm⟩

/-- Of the settings, only the case order plays a part in a plan. -/
theorem ofContent_eq_of_caseOrder_eq (hexact : HasExactEncoding content)
    (horder : settings.caseOrder = other.caseOrder) :
    ofContent settings content = ofContent other content := by
  cases hread : Document.read content with
  | error fault => rw [ofContent_of_malformed hread, ofContent_of_malformed hread]
  | ok d =>
      by_cases hsorted : d.sort settings.caseOrder = d
      · rw [ofContent_of_in_order hread hsorted, ofContent_of_in_order hread (horder ▸ hsorted)]
      · have hother : d.sort other.caseOrder ≠ d := horder ▸ hsorted
        cases hwrite : (d.sort settings.caseOrder).write with
        | error fault =>
            rw [ofContent_of_unwritable hread hsorted hwrite,
              ofContent_of_unwritable hread hother (horder ▸ hwrite)]
        | ok output =>
            have haccept := verifyOutput_of_write hexact hread hwrite
            rw [ofContent_of_accepted hread hsorted hwrite fun _ => haccept,
              ofContent_of_accepted hread hother (horder ▸ hwrite) fun _ => haccept, horder]

/-- The output of a plan is kept when it is planned again. -/
theorem ofContent_output (hexact : HasExactEncoding content)
    (h : ofContent settings content = .ok (.replace tally output)) :
    ofContent settings output = .ok .keep := by
  obtain ⟨d, hread, -, -, hwrite, -⟩ := ofContent_eq_replace_iff.1 h
  exact ofContent_of_in_order (read_of_write_sort hexact hread hwrite) Document.sort_sort

/-- The output of a plan is in the encoding of the content. -/
theorem hasExactEncoding_output (hexact : HasExactEncoding content)
    (h : ofContent settings content = .ok (.replace tally output)) : HasExactEncoding output := by
  obtain ⟨d, hread, -, -, hwrite, -⟩ := ofContent_eq_replace_iff.1 h
  intro again hagain
  rw [read_of_write_sort hexact hread hwrite, Except.ok.injEq] at hagain
  exact hagain ▸ hexact d hread

end Plan

/-! ## What a content comes to -/

namespace Settings

/-- What a content comes to: the output of its plan, or the content itself where there is nothing to
replace it with. -/
def settle (s : Settings) (content : ByteArray) : ByteArray :=
  match Plan.ofContent s content with
  | .ok (.replace _ output) => output
  | _ => content

/-- Where an output is planned, the content comes to this output. -/
theorem settle_eq_output (h : Plan.ofContent settings content = .ok (.replace tally output)) :
    settings.settle content = output := by
  simp [settle, h]

/-- A content either stays as it is or is replaced by what it comes to. -/
theorem settle_cases (s : Settings) (content : ByteArray) :
    s.settle content = content ∨
      ∃ tally, Plan.ofContent s content = .ok (.replace tally (s.settle content)) := by
  unfold settle
  split
  · exact .inr ⟨_, ‹_›⟩
  · exact .inl rfl

/-- What a content comes to stays as it is. -/
theorem settle_settle (hexact : HasExactEncoding content) :
    settings.settle (settings.settle content) = settings.settle content := by
  rcases settle_cases settings content with h | ⟨tally, h⟩
  · rw [h, h]
  · rw [settle, Plan.ofContent_output hexact h]

/-- What a content in an exact encoding comes to is in an exact encoding. -/
theorem hasExactEncoding_settle (hexact : HasExactEncoding content) :
    HasExactEncoding (settings.settle content) := by
  rcases settle_cases settings content with h | ⟨tally, h⟩
  · rwa [h]
  · exact Plan.hasExactEncoding_output hexact h

end Settings

end Plans

/-! ## A project of two files -/

/-- A project that lists two files. -/
def Document.twoFiles (first second : String) : Document :=
  let file (name : String) : Node :=
    .element (some ⟨.file, name, none⟩)
      ⟨"C", "C Include='" ++ name ++ "'", [⟨"Include", name⟩], true⟩ []
  ⟨.flat, .utf8, false, [], ⟨⟨"Project", "Project", [], false⟩,
    [.element none ⟨"ItemGroup", "ItemGroup", [], false⟩ [file first, file second]]⟩, []⟩

/-- The content of the project that lists two files. -/
def Document.twoFilesContent (first second : String) : ByteArray :=
  ("<Project><ItemGroup><C Include='" ++ first ++ "'/><C Include='" ++ second ++
    "'/></ItemGroup></Project>").toUTF8

/-- Sorting the two files out of order puts them in order. -/
theorem Document.sort_twoFiles (order : CaseOrder) :
    (twoFiles "b" "a").sort order = twoFiles "a" "b" := by
  have hinner : Node.sortInner order (twoFiles "b" "a").root.children =
      [.element none ⟨"ItemGroup", "ItemGroup", [], false⟩ (Node.arrange order [_, _])] := rfl
  rw [sort, Node.sortList, hinner, Node.arrange_swap rfl rfl (by cases order <;> decide),
    Node.arrange_of_not_isEntry (by simp [Node.isEntry, Node.asEntry])]
  rfl

/-- Two files out of order change places. -/
theorem Plan.ofContent_twoFiles (settings : Settings) :
    HasExactEncoding (Document.twoFilesContent "b" "a") ∧
      ∃ tally, ofContent settings (Document.twoFilesContent "b" "a") =
        .ok (.replace tally (Document.twoFilesContent "a" "b")) := by
  have hread : Document.read (Document.twoFilesContent "b" "a") = .ok (.twoFiles "b" "a") := by
    decide +kernel
  have hexact : HasExactEncoding (Document.twoFilesContent "b" "a") := by
    rintro d hd
    cases hread.symm.trans hd
    trivial
  have hwrite : ((Document.twoFiles "b" "a").sort settings.caseOrder).write =
      .ok (Document.twoFilesContent "a" "b") := by
    rw [Document.sort_twoFiles]
    decide +kernel
  have hsorted : (Document.twoFiles "b" "a").sort settings.caseOrder ≠ .twoFiles "b" "a" := by
    rw [Document.sort_twoFiles]
    decide
  exact ⟨hexact, _, ofContent_of_accepted hread hsorted hwrite fun _ =>
    verifyOutput_of_write hexact hread hwrite⟩

end ProjectOrder

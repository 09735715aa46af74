import ProjectOrder.Proofs.Project.Planning

/-!
# Verification

What verification tells of an output. It lists entries and compares the lists;
`verifyOutput_by_count` says it by counting instead: an output is accepted exactly if every entry
stands in as many places of it as of the document before, wherever these places are.
-/

namespace ProjectOrder

variable {before : List Entry} {output : ByteArray} {failure : Failure}

/-- No entry stands beside the root of a coherent document. -/
theorem Document.Coherent.entriesList_nodes {d : Document} (h : d.Coherent) :
    Node.entriesList d.nodes = d.entries := by
  have hbeside {ns : List Node} (hns : ∀ n ∈ ns, n.Beside) : ns.flatMap Node.entries = [] := by
    rw [List.flatMap_eq_nil_iff]
    intro n hn
    obtain ⟨kind, text, rfl⟩ := (hns n hn).exists_leaf
    rfl
  rw [nodes, Node.entriesList_eq_flatMap, List.flatMap_append, List.flatMap_cons,
    hbeside h.prolog, hbeside h.epilog, List.nil_append, List.append_nil]
  rfl

/-- Verification fails with a failure of serialization only. -/
theorem kind_of_verifyOutput_eq_error [Indexes] (h : verifyOutput before output = .error failure) :
    failure.kind = .serialization := by
  unfold verifyOutput at h
  split at h
  · cases h
    rfl
  · split at h
    · cases h
    · cases h
      rfl

/-- Verification accepts an output exactly if it is read as a document in which, prolog and epilog
included, every entry stands in as many places as in the tree of the document before. Every other
output is refused with a failure of serialization. -/
theorem verifyOutput_by_count [Indexes] (d : Document) (output : ByteArray) :
    (verifyOutput d.entries output = .ok () ↔
      ∃ again, Document.read output = .ok again ∧
        ∀ e, (Node.placesIn again.nodes e).encard = (d.placesOf e).encard) ∧
    (verifyOutput d.entries output = .ok () ∨
      ∃ failure, verifyOutput d.entries output = .error failure ∧
        failure.kind = .serialization) := by
  refine ⟨?_, ?_⟩
  · rw [verifyOutput_eq_ok_iff]
    refine exists_congr fun again => and_congr_right fun hread => ?_
    have hnodes := (Document.coherent_of_read hread).entriesList_nodes
    rw [← hnodes, List.perm_comm]
    exact Node.entriesList_perm_iff
  · cases hverify : verifyOutput d.entries output with
    | ok => exact .inl rfl
    | error failure => exact .inr ⟨failure, rfl, kind_of_verifyOutput_eq_error hverify⟩

end ProjectOrder

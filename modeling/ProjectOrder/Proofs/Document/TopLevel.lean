import ProjectOrder.Proofs.Document.Coherence

/-!
# The top level of a document

XML lets a document begin with its declaration and have one type declaration before the root; all
else around the root is comments, instructions and space (`Document.FollowsProduction`). Reading
asks for less. `topLevel_of_parse` says which texts are read, and what must hold besides for the top
level to follow the production.
-/

namespace ProjectOrder

open Markup

namespace Node

/-- The kind of a leaf. -/
def kind? : Node → Option LeafKind
  | element .. => none
  | leaf kind _ => some kind

/-- Whether a node is a comment, an instruction or space, which may stand anywhere around the
root. -/
def IsMisc : Node → Prop
  | leaf .comment _ | leaf .instruction _ => True
  | leaf .text text => text.toList.all isSpace
  | _ => False

end Node

/-! ## The production -/

/-- What follows the declaration up to the root: at most one type declaration. -/
inductive AfterDeclaration : List Node → Prop where
  | misc {ns : List Node} : (∀ n ∈ ns, n.IsMisc) → AfterDeclaration ns
  | doctype {before after : List Node} (text : String) :
      (∀ n ∈ before, n.IsMisc) → (∀ n ∈ after, n.IsMisc) →
      AfterDeclaration (before ++ .leaf .doctype text :: after)

/-- What XML allows before the root. -/
inductive IsProlog : List Node → Prop where
  | undeclared {ns : List Node} : AfterDeclaration ns → IsProlog ns
  | declared {ns : List Node} (text : String) :
      AfterDeclaration ns → IsProlog (.leaf .declaration text :: ns)

/-- A document whose top level follows the XML document production, with the root of a project. -/
structure Document.FollowsProduction (d : Document) : Prop where
  prolog : IsProlog d.prolog
  root : d.root.tag.name = "Project" ∨ d.root.tag.name = "VisualStudioProject"
  epilog : ∀ n ∈ d.epilog, n.IsMisc

variable {n : Node} {ns : List Node} {name text : String} {d : Document}

/-- A leaf is of its own kind. -/
@[simp] theorem Node.kind?_leaf {kind : LeafKind} : (leaf kind text).kind? = some kind := rfl

/-- What may stand anywhere around the root is neither a declaration nor a type declaration. -/
theorem Node.IsMisc.kind?_ne (h : n.IsMisc) :
    n.kind? ≠ some .declaration ∧ n.kind? ≠ some .doctype := by
  cases n with
  | element => exact h.elim
  | leaf kind text => cases kind <;> simp_all [Node.IsMisc]

/-- Only leaves have a kind. -/
theorem Node.eq_leaf_of_kind? {kind : LeafKind} (h : n.kind? = some kind) :
    ∃ text, n = .leaf kind text := by
  cases n with
  | element => cases h
  | leaf _ text => exact ⟨text, by rw [Option.some.inj h]⟩

/-- Among what may stand anywhere there is no type declaration. -/
theorem countP_doctype_of_misc (h : ∀ n ∈ ns, n.IsMisc) :
    ns.countP (·.kind? = some .doctype) = 0 :=
  List.countP_eq_zero.2 fun n hn => by simpa using (h n hn).kind?_ne.2

/-- Only one type declaration may follow the declaration. -/
theorem afterDeclaration_iff :
    AfterDeclaration ns ↔
      (∀ n ∈ ns, n.IsMisc ∨ n.kind? = some .doctype) ∧
        ns.countP (·.kind? = some .doctype) ≤ 1 := by
  constructor
  · rintro (hmisc | ⟨text, hbefore, hafter⟩)
    · exact ⟨fun n hn => .inl (hmisc n hn), by simp [countP_doctype_of_misc hmisc]⟩
    · refine ⟨?_, ?_⟩
      · rw [List.forall_mem_append, List.forall_mem_cons]
        exact ⟨fun n hn => .inl (hbefore n hn), .inr rfl, fun n hn => .inl (hafter n hn)⟩
      · simp [countP_doctype_of_misc hbefore, countP_doctype_of_misc hafter]
  · rintro ⟨hnodes, hcount⟩
    induction ns with
    | nil => exact .misc (by simp)
    | cons n ns ih =>
        rw [List.forall_mem_cons] at hnodes
        obtain ⟨hmisc | hdoctype, hnodes⟩ := hnodes
        -- the type declaration may still follow
        · rw [List.countP_cons_of_neg (by simpa using hmisc.kind?_ne.2)] at hcount
          rcases ih hnodes hcount with hns | ⟨text, hbefore, hafter⟩
          · exact .misc (List.forall_mem_cons.2 ⟨hmisc, hns⟩)
          · have hcons := List.forall_mem_cons.2 ⟨hmisc, hbefore⟩
            exact AfterDeclaration.doctype text hcons hafter
        · rw [List.countP_cons_of_pos (by simpa using hdoctype)] at hcount
          have hnone : ∀ m ∈ ns, ¬ decide (m.kind? = some .doctype) :=
            List.countP_eq_zero.1 (by omega)
          obtain ⟨text, rfl⟩ := Node.eq_leaf_of_kind? hdoctype
          have hafter : ∀ m ∈ ns, m.IsMisc := fun m hm =>
            (hnodes m hm).resolve_right (by simpa using hnone m hm)
          have hcons := AfterDeclaration.doctype text (List.forall_mem_nil _) hafter
          exact hcons

/-- Only the first node of a prolog may be a declaration, and only one a type declaration. -/
theorem isProlog_iff :
    IsProlog ns ↔
      (∀ n ∈ ns, n.IsMisc ∨ n.kind? = some .declaration ∨ n.kind? = some .doctype) ∧
        (∀ n ∈ ns.tail, n.kind? ≠ some .declaration) ∧
          ns.countP (·.kind? = some .doctype) ≤ 1 := by
  have hundeclared {n : Node} (h : n.IsMisc ∨ n.kind? = some .doctype) :
      n.kind? ≠ some .declaration := by
    rcases h with h | h
    · exact h.kind?_ne.1
    · simp [h]
  constructor
  · rintro (h | ⟨text, h⟩) <;> obtain ⟨hnodes, hcount⟩ := afterDeclaration_iff.1 h
    · refine ⟨fun n hn => (hnodes n hn).imp_right .inr, fun n hn => ?_, hcount⟩
      exact hundeclared (hnodes n (List.mem_of_mem_tail hn))
    · refine ⟨List.forall_mem_cons.2 ⟨.inr (.inl rfl), fun n hn => ?_⟩, fun n hn => ?_, ?_⟩
      · exact (hnodes n hn).imp_right .inr
      · exact hundeclared (hnodes n hn)
      · simpa using hcount
  · rintro ⟨hnodes, hfirst, hcount⟩
    have hafter {ms : List Node} (hms : ∀ n ∈ ms, n ∈ ns ∧ n.kind? ≠ some .declaration)
        (hle : ms.countP (·.kind? = some .doctype) ≤ 1) : AfterDeclaration ms := by
      refine afterDeclaration_iff.2 ⟨fun n hn => ?_, hle⟩
      exact (hnodes n (hms n hn).1).imp_right fun h => h.resolve_left (hms n hn).2
    cases ns with
    | nil => exact .undeclared (hafter (by simp) (by simp))
    | cons n ns =>
        by_cases hn : n.kind? = some .declaration
        · obtain ⟨text, rfl⟩ := Node.eq_leaf_of_kind? hn
          refine .declared text (hafter (fun m hm => ⟨.tail _ hm, hfirst m hm⟩) ?_)
          simpa using hcount
        · refine .undeclared (hafter (fun m hm => ⟨hm, ?_⟩) hcount)
          rcases List.mem_cons.1 hm with rfl | hm
          · exact hn
          · exact hfirst m hm

/-! ## What is read -/

/-- A leaf beside the root is one of those of the production, a section of literal data, or blanks
that are not all space. -/
theorem Node.Beside.isMisc_iff (h : n.Beside) :
    n.IsMisc ↔ n.kind? ≠ some .cdata ∧ n.kind? ≠ some .declaration ∧ n.kind? ≠ some .doctype ∧
      ∀ text, n = .leaf .text text → text.toList.all isSpace := by
  obtain ⟨kind, text, rfl⟩ := h.exists_leaf
  cases kind <;> simp [Node.IsMisc]

/-- A forest with one element, of the name of a project's root, and with no character data around it
but blanks. -/
inductive IsProjectForest : List Node → Prop where
  | intro {prolog epilog children : List Node} {entry : Option Entry} {tag : Tag} :
      tag.name = "Project" ∨ tag.name = "VisualStudioProject" →
      (∀ n ∈ prolog, n.Beside) → (∀ n ∈ epilog, n.Beside) →
      IsProjectForest (prolog ++ .element entry tag children :: epilog)

namespace Document

/-- The roots of the two dialects are the only ones. -/
theorem isSome_ofRootElement?_iff :
    (Dialect.ofRootElement? name).isSome ↔ name = "Project" ∨ name = "VisualStudioProject" := by
  unfold Dialect.ofRootElement?
  split
  · simp_all [Dialect.rootElement]
  · split <;> simp_all [Dialect.rootElement]

/-- The forests that a document is made of. -/
theorem exists_ofForest_eq_ok_iff {mark : Bool} :
    (∃ d, ofForest mark ns = .ok d) ↔ IsProjectForest ns := by
  constructor
  · rintro ⟨d, h⟩
    obtain ⟨prolog, root, epilog, dialect, haround, hdialect, rfl⟩ := ofForest_eq_ok_iff.1 h
    obtain ⟨⟨entry, rfl⟩, hprolog, hepilog⟩ := aroundRoot_eq_ok_iff.1 haround
    exact .intro (isSome_ofRootElement?_iff.1 (by rw [hdialect]; rfl)) hprolog hepilog
  · rintro ⟨hname, hprolog, hepilog⟩
    rename_i prolog epilog children entry tag
    obtain ⟨dialect, hdialect⟩ := Option.isSome_iff_exists.1 (isSome_ofRootElement?_iff.2 hname)
    have haround := aroundRoot_eq_ok_iff.2
      (⟨⟨entry, rfl⟩, hprolog, hepilog⟩ :
        (∃ e, _ = prolog ++ .element e (⟨tag, children⟩ : Element).tag children :: epilog) ∧ _)
    exact ⟨_, ofForest_eq_ok_iff.2 ⟨_, _, _, dialect, haround, hdialect, rfl⟩⟩

/-- A text is a document exactly if its forest, without a byte order mark in front, is one of a
project. -/
theorem exists_parse_eq_ok_iff :
    (∃ d, parse text = .ok d) ↔
      ∃ ns, Forest.ofText (Reading.withoutMark text.toList) = .ok ns ∧ IsProjectForest ns := by
  unfold parse
  cases Forest.ofText (Reading.withoutMark text.toList) with
  | error fault => simp
  | ok ns => simp [exists_ofForest_eq_ok_iff]

/-- What reading does not judge around the root: that there is no literal data and no blank but
space, that a declaration is the first node, and that there is no more than one type declaration,
before the root. -/
structure WellPlaced (d : Document) : Prop where
  noCdata : ∀ n ∈ d.prolog ++ d.epilog, n.kind? ≠ some .cdata
  onlySpace : ∀ text, .leaf .text text ∈ d.prolog ++ d.epilog → text.toList.all isSpace
  declaredFirst : ∀ n ∈ d.prolog.tail ++ d.epilog, n.kind? ≠ some .declaration
  doctypeBefore : ∀ n ∈ d.epilog, n.kind? ≠ some .doctype
  doctypeOnce : d.prolog.countP (·.kind? = some .doctype) ≤ 1

/-- A document has the root of a project. -/
theorem Coherent.root_name (h : d.Coherent) :
    d.root.tag.name = "Project" ∨ d.root.tag.name = "VisualStudioProject" :=
  isSome_ofRootElement?_iff.1 (by rw [h.dialect]; rfl)

/-- The top level of a coherent document follows the production exactly if it is well placed. -/
theorem Coherent.followsProduction_iff (h : d.Coherent) :
    d.FollowsProduction ↔ d.WellPlaced := by
  have hprolog (hcdata : ∀ n ∈ d.prolog, n.kind? ≠ some .cdata)
      (htext : ∀ text, .leaf .text text ∈ d.prolog → text.toList.all isSpace) :
      ∀ n ∈ d.prolog, n.IsMisc ∨ n.kind? = some .declaration ∨ n.kind? = some .doctype := by
    intro n hn
    by_cases hdeclared : n.kind? = some .declaration ∨ n.kind? = some .doctype
    · exact .inr hdeclared
    · rw [not_or] at hdeclared
      refine .inl ((h.prolog n hn).isMisc_iff.2 ⟨hcdata n hn, hdeclared.1, hdeclared.2, ?_⟩)
      rintro text rfl
      exact htext text hn
  constructor
  · rintro ⟨hbefore, -, hafter⟩
    obtain ⟨hnodes, hfirst, hcount⟩ := isProlog_iff.1 hbefore
    have hleaf {n : Node} (hn : n ∈ d.prolog ++ d.epilog) :
        n.IsMisc ∨ n.kind? = some .declaration ∨ n.kind? = some .doctype := by
      rcases List.mem_append.1 hn with hn | hn
      · exact hnodes n hn
      · exact .inl (hafter n hn)
    refine ⟨fun n hn hcdata => ?_, fun text hn => ?_, ?_, fun n hn => (hafter n hn).kind?_ne.2,
      hcount⟩
    · obtain ⟨text, rfl⟩ := Node.eq_leaf_of_kind? hcdata
      simpa [Node.IsMisc] using hleaf hn
    · simpa [Node.IsMisc] using hleaf hn
    · exact List.forall_mem_append.2 ⟨hfirst, fun n hn => (hafter n hn).kind?_ne.1⟩
  · rintro ⟨hcdata, htext, hfirst, hdoctype, hcount⟩
    rw [List.forall_mem_append] at hcdata hfirst
    refine ⟨isProlog_iff.2 ⟨hprolog hcdata.1 fun text hn => ?_, hfirst.1, hcount⟩,
      h.root_name, fun n hn => ?_⟩
    · exact htext text (List.mem_append_left _ hn)
    · refine (h.epilog n hn).isMisc_iff.2 ⟨hcdata.2 n hn, hfirst.2 n hn, hdoctype n hn, ?_⟩
      rintro text rfl
      exact htext text (List.mem_append_right _ hn)

/-- The texts that are read are those of a forest with one root, of the name of a project's, and
with no character data around it but blanks. The top level of the document follows the XML
production exactly if it is well placed besides. -/
theorem topLevel_of_parse (text : String) :
    ((∃ d, parse text = .ok d) ↔
      ∃ ns, Forest.ofText (Reading.withoutMark text.toList) = .ok ns ∧ IsProjectForest ns) ∧
    ∀ d, parse text = .ok d →
      Forest.ofText (Reading.withoutMark text.toList) = .ok (Node.plainList d.nodes) ∧
      (∀ n ∈ d.prolog ++ d.epilog, n.Beside) ∧
      (d.root.tag.name = "Project" ∨ d.root.tag.name = "VisualStudioProject") ∧
      (d.FollowsProduction ↔ d.WellPlaced) := by
  refine ⟨exists_parse_eq_ok_iff, fun d h => ?_⟩
  have hcoherent := (coherent_of_parse h).1
  exact ⟨ofText_of_parse h, List.forall_mem_append.2 ⟨hcoherent.prolog, hcoherent.epilog⟩,
    hcoherent.root_name, hcoherent.followsProduction_iff⟩

/-- A document with all that may stand around a root. -/
theorem topLevel_of_parse_declared :
    let text := "<?xml version='1.0'?>\n<!--a--><!DOCTYPE Project><?b?><Project/>\n<!--c-->"
    let prolog : List Node := [.leaf .declaration "xml version='1.0'", .leaf .text "\n",
      .leaf .comment "a", .leaf .doctype "Project", .leaf .instruction "b"]
    let root : Element := ⟨⟨"Project", "Project", [], true⟩, []⟩
    let d : Document := ⟨.flat, .utf8, false, prolog, root, [.leaf .text "\n", .leaf .comment "c"]⟩
    parse text = .ok d ∧ d.FollowsProduction := by
  intro text prolog root d
  have hparse : parse text = .ok d := by decide +kernel
  refine ⟨hparse, ((topLevel_of_parse text).2 d hparse).2.2.2.2
    ⟨by decide, fun s hs => ?_, by decide, by decide, by decide⟩⟩
  have htext : s = "\n" := by simpa [d, prolog] using hs
  rw [htext]
  decide

/-- A section of literal data after the root is read. -/
theorem not_followsProduction_of_cdata :
    let root : Element := ⟨⟨"Project", "Project", [], true⟩, []⟩
    let d : Document := ⟨.flat, .utf8, false, [], root, [.leaf .cdata "x"]⟩
    parse "<Project/><![CDATA[x]]>" = .ok d ∧ ¬ d.FollowsProduction := by
  intro root d
  exact ⟨by decide +kernel, fun h => h.epilog _ (List.mem_singleton_self _)⟩

end Document

end ProjectOrder

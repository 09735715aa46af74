import ProjectOrder.Proofs.Document.FlatEntries
import ProjectOrder.Proofs.Markup.JoinedReferences

/-!
# The text that names a folder

A file of the flat dialect names its folder in a child, as a text with comments, literal data and
other elements in between. The pieces of this text are joined and only then are its references
resolved. `folder_eq_content_iff` says when that makes a difference to resolving the references of
each text and taking literal data as it is.
-/

namespace ProjectOrder

open Markup
open Markup.Reference (Resolved Reads)
open Text (ink)

namespace Node

variable {ns before after : List Node} {n m : Node} {e : Entry}
  {out : List Char} {name : String}

/-! ## Pieces of a text -/

/-- What a node says: a text what it stands for, literal data what is written. -/
def content : Node → String
  | leaf .text s => Reference.resolve s
  | n => n.characterData

/-- What some nodes say, one after the other. -/
def contentOf (ns : List Node) : String :=
  String.join (ns.map content)

/-- Whether a node says by itself what it says when its text is joined with others: references in a
text can be resolved, and literal data has nothing that looks like one. -/
def SelfContained : Node → Prop
  | leaf .text s => ∃ out, Resolved s.toList out
  | leaf .cdata s => '&' ∉ s.toList
  | _ => True

instance : DecidablePred SelfContained
  | leaf .text s => inferInstanceAs (Decidable (∃ out, Resolved s.toList out))
  | leaf .cdata s => inferInstanceAs (Decidable ('&' ∉ s.toList))
  | leaf .comment _ | leaf .declaration _ | leaf .instruction _ | leaf .doctype _ | element .. =>
    inferInstanceAs (Decidable True)

/-- Whether references may be resolved after joining: each piece is self-contained or, where the
joined text cannot be resolved, none of its texts has references that can. -/
def JoinsWell (ns : List Node) : Prop :=
  (∀ n ∈ ns, n.SelfContained) ∨
    (∀ out, ¬ Resolved (String.join (ns.map characterData)).toList out) ∧
      ∀ n ∈ ns, n.content = n.characterData

/-- What a self-contained node says is its written form resolved. -/
theorem SelfContained.resolved (h : n.SelfContained) :
    Resolved n.characterData.toList n.content.toList := by
  rcases n with _ | ⟨_ | _, _⟩
  case leaf.text s =>
    obtain ⟨out, hout⟩ := h
    have hcontent : String.ofList out = Reference.resolve s :=
      Reference.reads_iff.1 (.resolved out hout)
    rw [content, ← hcontent, String.toList_ofList]
    exact hout
  case leaf.cdata s => exact Reference.resolved_self h
  all_goals exact .nil

/-- A piece says what it is resolved to or what is written. -/
theorem content_cases (n : Node) :
    Resolved n.characterData.toList n.content.toList ∨ n.content = n.characterData := by
  rcases n with _ | ⟨_ | _, _⟩
  case leaf.text s =>
    by_cases hself : (leaf .text s).SelfContained
    · exact .inl hself.resolved
    · exact .inr (Reference.reads_iff.1 (.asWritten (not_exists.1 hself))).symm
  all_goals exact .inr rfl

/-- Resolving the references of a piece takes ink off it, unless there are none. -/
theorem ink_content_le (n : Node) :
    ink n.content.toList ≤ ink n.characterData.toList ∧
      (ink n.characterData.toList ≤ ink n.content.toList → n.content = n.characterData) := by
  rcases n.content_cases with hresolved | hsame
  · refine ⟨hresolved.ink_le, fun hink => ?_⟩
    have hself := Reference.resolved_self (hresolved.not_mem_of_ink_le hink)
    exact String.toList_inj.1 (hresolved.unique hself)
  · rw [hsame]
    exact ⟨Nat.le_refl _, fun _ => rfl⟩

/-- A piece whose written form is resolved has no more ink than what the piece says, and as much
only if it is self-contained. -/
theorem ink_le_content (h : Resolved n.characterData.toList out) :
    ink out ≤ ink n.content.toList ∧ (ink n.content.toList ≤ ink out → n.SelfContained) := by
  rcases n with _ | ⟨_ | _, _⟩
  case leaf.text s =>
    have hself : (leaf .text s).SelfContained := ⟨out, h⟩
    rw [h.unique hself.resolved]
    exact ⟨Nat.le_refl _, fun _ => hself⟩
  case leaf.cdata s => exact ⟨h.ink_le, h.not_mem_of_ink_le⟩
  all_goals exact ⟨h.ink_le, fun _ => trivial⟩

/-! ## Joined pieces -/

/-- The content of some nodes is that of each, one after the other. -/
theorem toList_contentOf (ns : List Node) :
    (contentOf ns).toList = ns.flatMap fun n => n.content.toList := by
  rw [contentOf, String.toList_join, List.flatMap_map]

/-- The written form of some nodes is that of each, one after the other. -/
theorem toList_join_characterData (ns : List Node) :
    (String.join (ns.map characterData)).toList = ns.flatMap fun n => n.characterData.toList := by
  rw [String.toList_join, List.flatMap_map]

/-- Self-contained pieces may be joined first. -/
theorem resolved_of_selfContained (h : ∀ n ∈ ns, n.SelfContained) :
    Resolved (ns.flatMap fun n => n.characterData.toList)
      (ns.flatMap fun n => n.content.toList) := by
  induction ns with
  | nil => exact .nil
  | cons n ns ih =>
      rw [List.forall_mem_cons] at h
      exact h.1.resolved.append (ih h.2)

/-- Joined pieces that are resolved have no more ink than what the pieces say, and as much only if
each of them is self-contained. -/
theorem ink_le_contents (h : Resolved (ns.flatMap fun n => n.characterData.toList) out) :
    ink out ≤ ink (ns.flatMap fun n => n.content.toList) ∧
      (ink (ns.flatMap fun n => n.content.toList) ≤ ink out → ∀ n ∈ ns, n.SelfContained) := by
  induction ns generalizing out with
  | nil => exact ⟨h.ink_le, by simp⟩
  | cons n ns ih =>
      simp only [List.flatMap_cons, Text.ink_append, List.forall_mem_cons] at h ⊢
      rcases h.append_cases with ⟨first, second, hfirst, hsecond, rfl⟩ | hacross
      · have hhead := ink_le_content hfirst
        have htail := ih hsecond
        rw [Text.ink_append]
        refine ⟨by omega, fun hink => ⟨hhead.2 (by omega), htail.2 (by omega)⟩⟩
      · -- a reference that runs into the next piece costs ink
        obtain ⟨second, hsecond, hless⟩ := hacross.exists_resolved
        have htail := ih hsecond
        rw [n.content_cases.resolve_left hacross.not_resolved]
        refine ⟨by omega, fun hink => ?_⟩
        omega

/-- What pieces say has no more ink than the pieces as they are written, and as much only if each of
them says what is written. -/
theorem ink_contents_le (ns : List Node) :
    ink (ns.flatMap fun n => n.content.toList) ≤ ink (ns.flatMap fun n => n.characterData.toList) ∧
      (ink (ns.flatMap fun n => n.characterData.toList) ≤
          ink (ns.flatMap fun n => n.content.toList) →
        ∀ n ∈ ns, n.content = n.characterData) := by
  induction ns with
  | nil => exact ⟨Nat.le_refl _, by simp⟩
  | cons n ns ih =>
      have hhead := n.ink_content_le
      simp only [List.flatMap_cons, Text.ink_append, List.forall_mem_cons]
      refine ⟨by omega, fun hink => ⟨hhead.2 (by omega), ih.2 (by omega)⟩⟩

/-- Resolving the joined pieces gives what the pieces say, up to blanks at the ends, exactly if the
pieces join well. -/
theorem trim_resolve_join_iff (ns : List Node) :
    Text.trim (Reference.resolve (String.join (ns.map characterData))) = Text.trim (contentOf ns) ↔
      JoinsWell ns := by
  have hlength (s : String) (hs : Text.trim s = Text.trim (contentOf ns)) :
      ink s.toList = ink (ns.flatMap fun n => n.content.toList) := by
    rw [← toList_contentOf]
    exact Text.ink_eq_of_strip_eq (String.ofList_injective hs)
  by_cases hresolved : ∃ out, Resolved (String.join (ns.map characterData)).toList out
  · obtain ⟨out, hout⟩ := hresolved
    rw [← Reference.reads_iff.1 (.resolved out hout), JoinsWell,
      or_iff_left fun hnone => hnone.1 out hout]
    rw [toList_join_characterData] at hout
    constructor
    · intro htrim
      have hink := hlength _ htrim
      rw [String.toList_ofList] at hink
      exact (ink_le_contents hout).2 hink.ge
    · intro hself
      rw [hout.unique (resolved_of_selfContained hself), ← toList_contentOf, String.ofList_toList]
  · have hnone : ∀ out, ¬ Resolved (String.join (ns.map characterData)).toList out :=
      not_exists.1 hresolved
    rw [← Reference.reads_iff.1 (.asWritten hnone), JoinsWell, and_iff_right hnone]
    constructor
    · intro htrim
      have hink := hlength _ htrim
      rw [toList_join_characterData] at hink
      exact .inr ((ink_contents_le ns).2 hink.le)
    · intro hwell
      rcases hwell with hself | hsame
      · have hjoined := resolved_of_selfContained hself
        rw [← toList_join_characterData] at hjoined
        exact absurd hjoined (hnone _)
      · rw [contentOf, List.map_congr_left hsame]

/-! ## The child that names the folder -/

/-- The text of the first element of a name is found. -/
theorem textOfChild?_eq_some (hplain : n.isEntry = false) (hname : n.HasName name)
    (hfirst : ∀ m ∈ before, ¬ m.HasName name) :
    textOfChild? name (before ++ n :: after) = some (textOf n.children) := by
  have hbefore : textOfChild? name before = none := by
    rw [textOfChild?, List.findSome?_eq_none_iff]
    intro m hm
    cases m with
    | leaf => rfl
    | element entry tag ms =>
        have hother : tag.name ≠ name := hfirst _ hm
        cases entry with
        | none => exact if_neg hother
        | some => rfl
  rw [textOfChild?] at hbefore ⊢
  rw [List.findSome?_append, hbefore, Option.none_or, List.findSome?_cons]
  cases n with
  | leaf => exact hname.elim
  | element entry tag ms =>
      obtain rfl : entry = none := by simpa [isEntry, asEntry] using hplain
      have hname : tag.name = name := hname
      simp [hname, children]

/-- A file that is marked in an item group names its folder in its first `Filter`. -/
theorem folder_eq_of_restored (h : Restored markFlat n) (he : n.asEntry = some e)
    (hkind : e.kind = .file) (hchildren : n.children = before ++ m :: after)
    (hname : m.HasName "Filter") (hfirst : ∀ k ∈ before, ¬ k.HasName "Filter") :
    e.folder = some (Reference.resolve (textOf m.children)) := by
  cases n with
  | leaf => cases he
  | element entry tag ns =>
      obtain ⟨hentry, -, hns⟩ := element.inj h
      have hplain : m.isEntry = false := by
        refine isEntry_of_plain (plainList_eq_self_iff.1 hns m ?_)
        rw [show ns = before ++ m :: after from hchildren]
        simp
      have htext : textOfChild? "Filter" ns = some (textOf m.children) := by
        rw [show ns = before ++ m :: after from hchildren]
        exact textOfChild?_eq_some hplain hname hfirst
      rw [hns] at hentry
      obtain ⟨value, -, hmarked⟩ := Option.map_eq_some_iff.1 (hentry.trans he)
      by_cases hfilter : tag.name = "Filter"
      · rw [if_pos hfilter] at hmarked
        rw [← hmarked] at hkind
        cases hkind
      · rw [if_neg hfilter, htext] at hmarked
        rw [← hmarked, Option.map_some]

end Node

namespace Document

variable {text : String} {d : Document} {above before after : List Node} {n m : Node} {e : Entry}

/-- A file of a flat document with a `Filter` inside is in the folder that the joined character data
in the first one is read as. This is what the pieces of the text say one after the other, up to
blanks at the ends, exactly if they join well. -/
theorem folder_eq_content_iff (hparse : parse text = .ok d) (hflat : d.dialect = .flat)
    (hn : Node.Stands d.nodes above n) (he : n.asEntry = some e) (hkind : e.kind = .file)
    (hchildren : n.children = before ++ m :: after) (hname : m.HasName "Filter")
    (hfirst : ∀ k ∈ before, ¬ k.HasName "Filter") :
    ∃ folder, e.folder = some folder ∧ Reads (textOf m.children) folder ∧
      (Text.trim folder = Text.trim (Node.contentOf m.children) ↔ Node.JoinsWell m.children) := by
  have hmarked : n.Restored Node.markFlat := by
    rcases (coherent_of_parse hparse).1.inItemGroup_or hflat hn with ⟨-, hmarked⟩ | ⟨-, hnone⟩
    · exact hmarked
    · simp [Node.isEntry, he] at hnone
  refine ⟨_, Node.folder_eq_of_restored hmarked he hkind hchildren hname hfirst,
    Reference.reads_iff.2 rfl, ?_⟩
  rw [textOf, Reference.trim_resolve_trim, Node.trim_resolve_join_iff]

/-- A folder named in a text, a comment and literal data. -/
theorem folder_eq_content_iff_mixed :
    let text := "<Project><ItemGroup><C Include='a'><D/><Filter> x&amp;y<!--&-->" ++
      "<![CDATA[\\z ]]></Filter></C></ItemGroup></Project>"
    let tag (name : String) : Tag := ⟨name, name, [], false⟩
    let folder : Node := .element none (tag "Filter")
      [.leaf .text " x&amp;y", .leaf .comment "&", .leaf .cdata "\\z "]
    let other : Node := .element none ⟨"D", "D", [], true⟩ []
    let file : Node := .element (some ⟨.file, "a", some "x&y\\z"⟩)
      ⟨"C", "C Include='a'", [⟨"Include", "a"⟩], false⟩ [other, folder]
    let group : Node := .element none (tag "ItemGroup") [file]
    let d : Document := ⟨.flat, .utf8, false, [], ⟨tag "Project", [group]⟩, []⟩
    parse text = .ok d ∧ d.dialect = .flat ∧ Node.Stands d.nodes [d.rootNode, group] file ∧
      (∀ k ∈ [other], ¬ k.HasName "Filter") ∧ Node.JoinsWell folder.children ∧
      Text.trim "x&y\\z" = Text.trim (Node.contentOf folder.children) := by
  intro text tag folder other file group d
  have hparse : parse text = .ok d := by decide +kernel
  have hfile : Node.Stands d.nodes [d.rootNode, group] file :=
    .inside (.head _) (.inside (.head _) (.top (.head _)))
  have hother : ∀ k ∈ [other], ¬ k.HasName "Filter" := by
    intro k hk
    rw [List.mem_singleton.1 hk]
    simp [other]
  have hjoins : Node.JoinsWell folder.children := .inl (by decide +kernel)
  have hchildren : file.children = [other] ++ folder :: [] := rfl
  obtain ⟨value, hvalue, -, hiff⟩ :=
    folder_eq_content_iff hparse rfl hfile rfl rfl hchildren rfl hother
  obtain rfl := Option.some.inj hvalue
  exact ⟨hparse, rfl, hfile, hother, hjoins, hiff.2 hjoins⟩

/-- What looks like a reference in literal data is resolved. -/
theorem folder_ne_content_of_cdata :
    let tag (name : String) : Tag := ⟨name, name, [], false⟩
    let folder : Node := .element none (tag "Filter") [.leaf .cdata "x&amp;y"]
    let file : Node := .element (some ⟨.file, "a", some "x&y"⟩)
      ⟨"C", "C Include='a'", [⟨"Include", "a"⟩], false⟩ [folder]
    let group : Node := .element none (tag "ItemGroup") [file]
    let d : Document := ⟨.flat, .utf8, false, [], ⟨tag "Project", [group]⟩, []⟩
    parse ("<Project><ItemGroup><C Include='a'><Filter><![CDATA[x&amp;y]]></Filter></C>" ++
        "</ItemGroup></Project>") = .ok d ∧
      Node.Stands d.nodes [d.rootNode, group] file ∧
      Text.trim "x&y" ≠ Text.trim (Node.contentOf folder.children) := by
  intro tag folder file group d
  exact ⟨by decide +kernel, .inside (.head _) (.inside (.head _) (.top (.head _))),
    by decide +kernel⟩

end Document

end ProjectOrder

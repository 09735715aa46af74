import ProjectOrder.Proofs.Document.Forest

/-!
# Nothing is lost in a forest

A forest is what the tokens of its text make, and the tokens of the forest in document order are
those of the text again: `Forest.ofText_keeps_tokens`. The same theorem says which texts have no
forest. One is missing exactly if the reading of the text stops at a fault, or the attributes of a
tag cannot be read, or an element is left open.
-/

namespace ProjectOrder

open Markup

namespace Markup

/-- A tag whose attributes cannot be read to their end. -/
def Token.HasFaultyAttributes : Token → Prop
  | openTag content | emptyTag content => (Attribute.ofTag byteWidth true content).fault ≠ none
  | closeTag _ | leaf _ _ => False

/-- Whether a token opens an element that an end tag has to close. -/
def Token.isStart : Token → Bool
  | openTag _ => true
  | _ => false

/-- Whether a token is an end tag. -/
def Token.isEnd : Token → Bool
  | closeTag _ => true
  | _ => false

/-- A reading leaves an element open if it has more start tags than end tags. -/
def Reading.LeavesOpen (r : Reading) : Prop :=
  r.tokens.countP Token.isEnd < r.tokens.countP Token.isStart

end Markup

variable {content : List Char} {empty : Bool} {outer inner : List (List Char)} {ts : List Token}
  {t : Token} {g g' : Growth} {cs : List Char} {ns : List Node}

/-! ## Open elements -/

/-- Every start tag opens one element and every end tag closes one. -/
theorem length_of_nest (h : t.nest outer = .ok inner) :
    inner.length + [t].countP Token.isEnd = outer.length + [t].countP Token.isStart := by
  cases t with
  | openTag content =>
      cases h
      simp [Token.isEnd, Token.isStart]
  | emptyTag | leaf =>
      cases h
      simp [Token.isEnd, Token.isStart]
  | closeTag found =>
      cases outer with
      | nil => cases h
      | cons expected outer =>
          simp only [Token.nest] at h
          split at h
          · cases h
            simp [Token.isEnd, Token.isStart]
          · cases h

/-- The elements open after some tokens are those open before and those that the tokens open, less
those that they close. -/
theorem length_of_foldlM_nest (h : ts.foldlM Token.nest outer = .ok inner) :
    inner.length + ts.countP Token.isEnd = outer.length + ts.countP Token.isStart := by
  induction ts generalizing outer with
  | nil =>
      cases h
      simp
  | cons t ts ih =>
      rw [List.foldlM_cons, bind_eq_ok_iff] at h
      obtain ⟨names, hfirst, hrest⟩ := h
      have hone := length_of_nest hfirst
      have hmany := ih hrest
      rw [← List.singleton_append, List.countP_append, List.countP_append]
      omega

/-- A reading of nested tokens leaves no element open if none is open after its tokens. -/
theorem not_leavesOpen_iff {r : Reading} (hnest : r.tokens.foldlM Token.nest [] = .ok inner) :
    ¬ r.LeavesOpen ↔ inner = [] := by
  have hlength := length_of_foldlM_nest hnest
  rw [List.length_nil] at hlength
  rw [Reading.LeavesOpen, ← List.length_eq_zero_iff]
  omega

/-! ## Growing -/

/-- A tag can be read if its attributes can. -/
theorem Tag.exists_ofContent_eq_ok_iff :
    (∃ tag, Tag.ofContent empty content = .ok tag) ↔
      (Attribute.ofTag byteWidth true content).fault = none := by
  unfold Tag.ofContent
  cases hfault : (Attribute.ofTag byteWidth true content).fault with
  | none => simp [hfault]
  | some fault => simp [hfault]

namespace Growth

/-- A token that is nested in the open elements is taken in unless it has faulty attributes. -/
theorem exists_step_eq_ok_iff (hnest : t.nest g.names = .ok inner) :
    (∃ g', g.step t = .ok g') ↔ ¬ t.HasFaultyAttributes := by
  cases t with
  | openTag content | emptyTag content =>
      rw [Token.HasFaultyAttributes, not_not]
      exact exists_bind_pure_eq_ok_iff.trans Tag.exists_ofContent_eq_ok_iff
  | closeTag found =>
      obtain ⟨nodes, stack⟩ := g
      cases stack with
      | nil => cases hnest
      | cons frame stack => exact iff_of_true ⟨_, rfl⟩ id
  | leaf kind text => exact iff_of_true ⟨_, rfl⟩ id

/-- Nested tokens are taken in unless one of them has faulty attributes. -/
theorem Sound.exists_foldlM_eq_ok_iff (hg : g.Sound)
    (hnest : ts.foldlM Token.nest g.names = .ok inner) :
    (∃ g', ts.foldlM Growth.step g = .ok g') ↔ ∀ t ∈ ts, ¬ t.HasFaultyAttributes := by
  induction ts generalizing g with
  | nil => exact iff_of_true ⟨g, rfl⟩ (by simp)
  | cons t ts ih =>
      rw [List.foldlM_cons, bind_eq_ok_iff] at hnest
      obtain ⟨names, hfirst, hrest⟩ := hnest
      rw [List.forall_mem_cons, ← exists_step_eq_ok_iff hfirst]
      simp only [List.foldlM_cons, bind_eq_ok_iff]
      constructor
      · intro h
        obtain ⟨last, g', hstep, hsteps⟩ := h
        obtain ⟨hsound, rfl, -⟩ := hg.step hstep hfirst
        exact ⟨⟨g', hstep⟩, (ih hsound hrest).1 ⟨last, hsteps⟩⟩
      · intro h
        obtain ⟨⟨g', hstep⟩, hfaulty⟩ := h
        obtain ⟨hsound, rfl, -⟩ := hg.step hstep hfirst
        obtain ⟨last, hsteps⟩ := (ih hsound hrest).2 hfaulty
        exact ⟨last, g', hstep, hsteps⟩

/-- A forest is finished if no element is open. -/
theorem exists_finish_eq_ok_iff : (∃ ns, g.finish = .ok ns) ↔ g.names = [] := by
  obtain ⟨nodes, stack⟩ := g
  cases stack with
  | nil => simp [finish, names]
  | cons frame stack => simp [finish, names]

end Growth

namespace Forest

/-- A text has a forest if its reading has no fault, no tag in it has faulty attributes, and no
element is left open. -/
theorem exists_ofReading_within_eq_ok_iff :
    (∃ ns, ofReading (Reading.within [] cs) = .ok ns) ↔
      (Reading.within [] cs).fault = none ∧
        (∀ t ∈ (Reading.within [] cs).tokens, ¬ t.HasFaultyAttributes) ∧
        ¬ (Reading.within [] cs).LeavesOpen := by
  cases hfault : (Reading.within [] cs).fault with
  | some fault =>
      refine iff_of_false ?_ (by simp)
      intro h
      obtain ⟨ns, h⟩ := h
      rw [(ofReading_within_eq_ok_iff_tokens.1 h).1] at hfault
      cases hfault
  | none =>
      obtain ⟨inner, hnest⟩ := Reading.exists_foldlM_nest hfault
      have hgrown (ns : List Node) : ofReading (Reading.within [] cs) = .ok ns ↔
          ∃ g, (Reading.within [] cs).tokens.foldlM Growth.step Growth.start = .ok g ∧
            g.finish = .ok ns := by
        rw [ofReading, bind_eq_ok_iff, hfault]
      simp only [hgrown, true_and, not_leavesOpen_iff hnest]
      rw [← Growth.sound_start.exists_foldlM_eq_ok_iff hnest]
      constructor
      · intro h
        obtain ⟨ns, g, hsteps, hfinish⟩ := h
        obtain ⟨-, hnames, -⟩ := Growth.sound_start.foldlM hsteps hnest
        exact ⟨⟨g, hsteps⟩, hnames ▸ Growth.exists_finish_eq_ok_iff.1 ⟨ns, hfinish⟩⟩
      · intro h
        obtain ⟨⟨g, hsteps⟩, hinner⟩ := h
        obtain ⟨-, hnames, -⟩ := Growth.sound_start.foldlM hsteps hnest
        obtain ⟨ns, hfinish⟩ := Growth.exists_finish_eq_ok_iff.2 (hnames.trans hinner)
        exact ⟨ns, g, hsteps, hfinish⟩

/-- The forest of a text is the one whose tokens in document order are those that the text is read
as, up to its end, with every start tag as its content is read and no entry marked. A text has no
forest exactly if its reading has a fault, a tag in it has faulty attributes, or an element is left
open. -/
theorem ofText_keeps_tokens (cs : List Char) :
    (∀ ns, ofText cs = .ok ns ↔
      Reading.ofText cs = ⟨Node.tokensList ns, none⟩ ∧ Node.SoundList ns ∧
        Node.plainList ns = ns) ∧
    ((∃ fault, ofText cs = .error fault) ↔
      (Reading.ofText cs).fault ≠ none ∨
        (∃ t ∈ (Reading.ofText cs).tokens, t.HasFaultyAttributes) ∨
        (Reading.ofText cs).LeavesOpen) := by
  refine ⟨fun ns => ofReading_within_eq_ok_iff_tokens, ?_⟩
  have hok : (∃ fault, ofText cs = .error fault) ↔ ¬ ∃ ns, ofText cs = .ok ns := by
    cases ofText cs <;> simp
  rw [hok, ofText, Reading.ofText, exists_ofReading_within_eq_ok_iff]
  simp only [not_and_or, not_not, not_forall, exists_prop]

end Forest

end ProjectOrder

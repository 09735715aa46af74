import ProjectOrder.Proofs.Markup.References
import ProjectOrder.Proofs.Text.Trim

/-!
# References in joined texts

What a joined text stands for is what its parts stand for, one after the other, unless a reference
runs across the joint: `Resolved.append_cases`. Such a reference keeps the first part from being
resolved on its own, and the joined text has less ink than its parts apart. Blanks at the ends of a
text do not matter for its references: `trim_resolve_trim`.
-/

namespace ProjectOrder.Markup.Reference

open Text (isBlank strip ink)

variable {cs ds es out out' front rest : List Char} {c : Char} {s : String}

/-! ## Texts that are resolved -/

/-- A text is resolved in one way only. -/
theorem Resolved.unique (h : Resolved cs out) (h' : Resolved cs out') : out = out' :=
  Option.some.inj ((resolve?_eq_some_iff.2 h).symm.trans (resolve?_eq_some_iff.2 h'))

instance : Decidable (∃ out, Resolved cs out) :=
  decidable_of_iff (resolve? cs).isSome <| by
    simp only [Option.isSome_iff_exists, resolve?_eq_some_iff]

/-- Texts that can each be resolved can be resolved in a row. -/
theorem Resolved.append (h : Resolved cs out) (h' : Resolved ds out') :
    Resolved (cs ++ ds) (out ++ out') := by
  induction h with
  | nil => exact h'
  | char hc _ ih => exact .char hc ih
  | reference hamp hend hc _ ih =>
      rw [List.cons_append, List.append_assoc, List.cons_append]
      exact .reference hamp hend hc ih

/-- A text without references stands for itself. -/
theorem resolved_self (h : '&' ∉ cs) : Resolved cs cs := by
  induction cs with
  | nil => exact .nil
  | cons c cs ih =>
      rw [List.mem_cons, not_or] at h
      exact .char (Ne.symm h.1) (ih h.2)

/-- Resolving a text takes ink off it, some with each reference. -/
theorem Resolved.ink_add_count_le (h : Resolved cs out) : ink out + cs.count '&' ≤ ink cs := by
  induction h with
  | nil => exact Nat.le_refl 0
  | @char c cs out hc _ ih =>
      have hcount : (c :: cs).count '&' = cs.count '&' := List.count_cons_of_ne hc
      have hhead (ds : List Char) : ink (c :: ds) = ink [c] + ink ds := by
        rw [← Text.ink_append, List.singleton_append]
      rw [hcount, hhead out, hhead cs]
      omega
  | @reference body cs out c hamp _ _ _ ih =>
      have hink : ink ('&' :: (body ++ ';' :: cs)) = ink body + ink cs + 2 := by
        rw [Text.ink_cons_of_not_blank (by decide), Text.ink_append,
          Text.ink_cons_of_not_blank (by decide)]
        omega
      have hcount : ('&' :: (body ++ ';' :: cs)).count '&' = cs.count '&' + 1 := by
        simp [List.count_append, List.count_eq_zero.2 hamp]
      have hchar : ink (c :: out) ≤ ink out + 1 := Text.ink_cons_le
      omega

/-- Resolving a text adds no ink. -/
theorem Resolved.ink_le (h : Resolved cs out) : ink out ≤ ink cs := by
  have := h.ink_add_count_le
  omega

/-- A text that is resolved without loss of ink has no references. -/
theorem Resolved.not_mem_of_ink_le (h : Resolved cs out) (hink : ink cs ≤ ink out) : '&' ∉ cs := by
  have := h.ink_add_count_le
  exact List.count_eq_zero.1 (by omega)

/-! ## Joints -/

/-- `Straddled cs ds out` says that in what two joined texts stand for, `out`, one character comes
from a reference that begins in the first and ends in the second. -/
inductive Straddled : List Char → List Char → List Char → Prop where
  | intro (front left right rest out out' : List Char) (c : Char) :
      '&' ∉ left ++ right → ';' ∉ left ++ right → Resolved front out → Resolved rest out' →
      Straddled (front ++ '&' :: left) (right ++ ';' :: rest) (out ++ c :: out')

/-- What stands for something on its own may be put in front of texts with a reference across the
joint. -/
theorem Straddled.append (h : Straddled cs ds out) (hes : Resolved es out') :
    Straddled (es ++ cs) ds (out' ++ out) := by
  obtain ⟨front, left, right, rest, out, tail, c, hamp, hend, hfront, hrest⟩ := h
  rw [← List.append_assoc, ← List.append_assoc]
  exact .intro (es ++ front) left right rest (out' ++ out) tail c hamp hend
    (hes.append hfront) hrest

/-- Joined texts are resolved part by part, or a reference runs across the joint. -/
theorem Resolved.append_cases (h : Resolved (cs ++ ds) out) :
    (∃ first second, Resolved cs first ∧ Resolved ds second ∧ out = first ++ second) ∨
      Straddled cs ds out := by
  generalize hjoined : cs ++ ds = es at h
  induction h generalizing cs with
  | nil =>
      obtain ⟨rfl, rfl⟩ := List.append_eq_nil_iff.1 hjoined
      exact .inl ⟨[], [], .nil, .nil, rfl⟩
  | @char c es out hc hes ih =>
      cases cs with
      | nil =>
          obtain rfl : ds = c :: es := hjoined
          exact .inl ⟨[], c :: out, .nil, .char hc hes, rfl⟩
      | cons d cs =>
          rw [List.cons_append, List.cons.injEq] at hjoined
          obtain ⟨rfl, htail⟩ := hjoined
          rcases ih htail with ⟨first, second, hfirst, hsecond, rfl⟩ | hacross
          · exact .inl ⟨d :: first, second, .char hc hfirst, hsecond, rfl⟩
          · exact .inr (hacross.append (.char hc .nil))
  | @reference body es out c hamp hend hc hes ih =>
      cases cs with
      | nil =>
          obtain rfl : ds = '&' :: (body ++ ';' :: es) := hjoined
          exact .inl ⟨[], c :: out, .nil, .reference hamp hend hc hes, rfl⟩
      | cons d cs =>
          rw [List.cons_append, List.cons.injEq, List.append_eq_append_iff] at hjoined
          rcases hjoined with ⟨rfl, ⟨right, rfl, rfl⟩ | ⟨tail, rfl, htail⟩⟩
          · -- the first text ends inside the reference
            exact .inr (.intro [] cs right es [] out c hamp hend .nil hes)
          · cases tail with
            | nil =>
                obtain rfl : ds = ';' :: es := htail.symm
                rw [List.append_nil]
                exact .inr (.intro [] body [] es [] out c (by simpa using hamp)
                  (by simpa using hend) .nil hes)
            | cons e tail =>
                obtain ⟨rfl, hrest⟩ := List.cons.inj htail
                have hreference : Resolved ('&' :: (body ++ [';'])) [c] :=
                  .reference hamp hend hc .nil
                have hcs : '&' :: (body ++ ';' :: tail) = '&' :: (body ++ [';']) ++ tail := by simp
                rw [hcs]
                rcases ih hrest.symm with ⟨first, second, hfirst, hsecond, rfl⟩ | hacross
                · exact .inl ⟨c :: first, second, hreference.append hfirst, hsecond, rfl⟩
                · exact .inr (hacross.append hreference)

/-- In a text that is resolved every `&` is followed by the end of its reference. -/
theorem Resolved.mem_of_append_cons (h : Resolved (front ++ '&' :: rest) out) : ';' ∈ rest := by
  generalize hcs : front ++ '&' :: rest = cs at h
  induction h generalizing front with
  | nil => simp at hcs
  | @char c cs out hc _ ih =>
      cases front with
      | nil => exact absurd (List.cons.inj hcs).1.symm hc
      | cons d front => exact ih (List.cons.inj hcs).2
  | @reference body cs out c hamp _ _ _ ih =>
      cases front with
      | nil =>
          obtain rfl : rest = body ++ ';' :: cs := (List.cons.inj hcs).2
          simp
      | cons d front =>
          have htail : front ++ '&' :: rest = body ++ ';' :: cs := (List.cons.inj hcs).2
          rw [List.append_eq_append_iff] at htail
          rcases htail with ⟨tail, rfl, htail⟩ | ⟨tail, rfl, htail⟩
          · cases tail with
            | nil => simp at htail
            | cons e tail =>
                obtain ⟨rfl, -⟩ := List.cons.inj htail
                simp at hamp
          · cases tail with
            | nil => simp at htail
            | cons e tail => exact ih (List.cons.inj htail).2.symm

namespace Straddled

/-- The first of two texts with a reference across the joint cannot be resolved on its own. -/
theorem not_resolved (h : Straddled cs ds out) : ¬ Resolved cs out' := by
  obtain ⟨front, left, right, rest, out, tail, c, -, hend, -, -⟩ := h
  intro hcs
  exact hend (List.mem_append_left right hcs.mem_of_append_cons)

/-- Where a reference straddles two texts, it begins in the first and ends in the second. -/
theorem mem (h : Straddled cs ds out) : '&' ∈ cs ∧ ';' ∈ ds := by
  obtain ⟨front, left, right, rest, out, tail, c, -⟩ := h
  exact ⟨by simp, by simp⟩

/-- The second can be resolved, and together they have less ink than the first as it is written and
the second resolved. -/
theorem exists_resolved (h : Straddled cs ds out) :
    ∃ second, Resolved ds second ∧ ink out < ink cs + ink second := by
  obtain ⟨front, left, right, rest, out, tail, c, hamp, -, hfront, hrest⟩ := h
  rw [List.mem_append, not_or] at hamp
  refine ⟨right ++ ';' :: tail, (resolved_self hamp.2).append (.char (by decide) hrest), ?_⟩
  have hink := hfront.ink_le
  have hchar : ink (c :: tail) ≤ ink tail + 1 := Text.ink_cons_le
  have hleft : ink ('&' :: left) = ink left + 1 := Text.ink_cons_of_not_blank (by decide)
  have hright : ink (';' :: tail) = ink tail + 1 := Text.ink_cons_of_not_blank (by decide)
  simp only [Text.ink_append, hleft, hright]
  omega

end Straddled

/-! ## Blanks at the ends -/

/-- Blanks in front of a text and behind it stand for themselves. -/
theorem Resolved.of_blanks (hfront : ∀ c ∈ front, isBlank c) (hback : ∀ c ∈ rest, isBlank c)
    (h : Resolved (front ++ cs ++ rest) out) :
    ∃ mid, Resolved cs mid ∧ out = front ++ mid ++ rest := by
  have hamp : '&' ∉ front := fun hmem => absurd (hfront _ hmem) (by decide)
  have hend : ';' ∉ rest := fun hmem => absurd (hback _ hmem) (by decide)
  have hampBack : '&' ∉ rest := fun hmem => absurd (hback _ hmem) (by decide)
  rw [List.append_assoc] at h
  rcases h.append_cases with ⟨first, second, hfirst, hsecond, rfl⟩ | hacross
  · rcases hsecond.append_cases with ⟨mid, last, hmid, hlast, rfl⟩ | hacross
    · refine ⟨mid, hmid, ?_⟩
      rw [hfirst.unique (resolved_self hamp), hlast.unique (resolved_self hampBack),
        List.append_assoc]
    · exact absurd hacross.mem.2 hend
  · exact absurd hacross.mem.1 hamp

/-- Blanks at the ends of a text do not matter for what it stands for, up to such blanks. -/
theorem trim_resolve_trim (s : String) :
    Text.trim (resolve (Text.trim s)) = Text.trim (resolve s) := by
  obtain ⟨front, back, hs, hfront, hback⟩ := Text.exists_eq_append_strip isBlank s.toList
  have hstrip (cs : List Char) : strip isBlank (front ++ cs ++ back) = strip isBlank cs :=
    Text.strip_append_append hfront hback
  have htrim : (Text.trim s).toList = strip isBlank s.toList := String.toList_ofList
  by_cases hresolved : ∃ out, Resolved s.toList out
  · obtain ⟨out, hout⟩ := hresolved
    have hvalue : String.ofList out = resolve s := reads_iff.1 (.resolved out hout)
    rw [hs] at hout
    obtain ⟨mid, hmid, rfl⟩ := hout.of_blanks hfront hback
    rw [← htrim] at hmid
    have hvalueTrimmed : String.ofList mid = resolve (Text.trim s) :=
      reads_iff.1 (.resolved mid hmid)
    rw [← hvalue, ← hvalueTrimmed, Text.trim, Text.trim, String.toList_ofList,
      String.toList_ofList, hstrip]
  · have hblanks {blanks : List Char} (h : ∀ c ∈ blanks, isBlank c) : Resolved blanks blanks :=
      resolved_self fun hmem => absurd (h _ hmem) (by decide)
    have hvalue : s = resolve s := reads_iff.1 (.asWritten fun out hout => hresolved ⟨out, hout⟩)
    have htrimmed : ∀ mid, ¬ Resolved (Text.trim s).toList mid := by
      intro mid hmid
      rw [htrim] at hmid
      refine hresolved ⟨front ++ mid ++ back, ?_⟩
      rw [hs]
      exact ((hblanks hfront).append hmid).append (hblanks hback)
    have hvalueTrimmed : Text.trim s = resolve (Text.trim s) := reads_iff.1 (.asWritten htrimmed)
    have hagain : strip isBlank (strip isBlank s.toList) = strip isBlank s.toList :=
      (hstrip _).symm.trans (congrArg _ hs.symm)
    rw [← hvalue, ← hvalueTrimmed, Text.trim, htrim, hagain, Text.trim]

end ProjectOrder.Markup.Reference

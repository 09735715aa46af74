import ProjectOrder.Proofs.Document.Plain
import ProjectOrder.Proofs.Markup.Pieces

/-!
# Forests and their tokens

`Forest.ofReading_within_eq_ok_iff` describes the forest of a text without the stack it is grown on:
the text is made up of the tokens of the forest, and every start tag says what its content says.
-/

namespace ProjectOrder

open Markup

/-- A result in two parts is there if both parts are. -/
theorem bind_eq_ok_iff {ε α β : Type} {x : Except ε α} {f : α → Except ε β} {b : β} :
    (x >>= f) = .ok b ↔ ∃ a, x = .ok a ∧ f a = .ok b := by
  cases x <;> simp [bind, Except.bind]

/-- A result that is only carried on is there if it was. -/
theorem exists_bind_pure_eq_ok_iff {ε α β : Type} {x : Except ε α} {f : α → β} :
    (∃ b, (x >>= fun a => pure (f a)) = .ok b) ↔ ∃ a, x = .ok a := by
  cases x <;> simp [bind, Except.bind, pure, Except.pure]

/-- Two steps fail if the first does, or the second after it. -/
theorem bind_eq_error_iff {ε α β : Type} {x : Except ε α} {f : α → Except ε β} {e : ε} :
    (x >>= f) = .error e ↔ x = .error e ∨ ∃ a, x = .ok a ∧ f a = .error e := by
  cases x <;> simp [bind, Except.bind]

/-- A start tag is sound if it is the one that its content is read as. -/
def Tag.Sound (tag : Tag) : Prop :=
  Tag.ofContent tag.empty tag.content.toList = .ok tag

variable {tag : Tag} {content : List Char} {empty : Bool} {outer inner : List (List Char)}
  {ts : List Token} {t : Token} {n : Node} {ns : List Node} {g g' : Growth}

/-- What is read off some content has this content and its name. -/
theorem Tag.eq_of_ofContent (h : Tag.ofContent empty content = .ok tag) :
    tag.content = String.ofList content ∧ tag.empty = empty ∧
      tag.name = String.ofList (Token.tagName content) := by
  unfold Tag.ofContent at h
  simp only at h
  split at h <;> cases h
  exact ⟨rfl, rfl, rfl⟩

/-- A tag that has been read is sound. -/
theorem Tag.sound_of_ofContent (h : Tag.ofContent empty content = .ok tag) : tag.Sound := by
  obtain ⟨hcontent, hempty, -⟩ := eq_of_ofContent h
  rw [Sound, hcontent, hempty, String.toList_ofList]
  exact h

/-- The name of a sound tag is the name in its content. -/
theorem Tag.Sound.name_eq (h : tag.Sound) :
    tag.name.toList = Token.tagName tag.content.toList := by
  rw [(eq_of_ofContent h).2.2, String.toList_ofList]

namespace Node

mutual

/-- A node is sound if every start tag in it is, and no tag closed in itself has nodes inside. -/
def Sound : Node → Prop
  | element _ tag ns => tag.Sound ∧ (tag.empty → ns = []) ∧ SoundList ns
  | leaf .. => True

/-- A child list of sound nodes. -/
def SoundList : List Node → Prop
  | [] => True
  | n :: ns => n.Sound ∧ SoundList ns

end

/-- Some nodes are sound if each of them is. -/
theorem soundList_iff : SoundList ns ↔ ∀ n ∈ ns, n.Sound := by
  induction ns with
  | nil => simp [SoundList]
  | cons n ns ih => simp [SoundList, ih]

mutual

/-- Soundness does not depend on entries. -/
theorem sound_plain_iff (n : Node) : n.plain.Sound ↔ n.Sound := by
  cases n with
  | leaf kind text => exact Iff.rfl
  | element entry tag ns =>
      rw [plain, Sound, Sound, soundList_plainList_iff ns]
      cases ns <;> simp [plainList]

/-- Marks of entries make no difference to soundness. -/
theorem soundList_plainList_iff (ns : List Node) : SoundList (plainList ns) ↔ SoundList ns := by
  cases ns with
  | nil => exact Iff.rfl
  | cons n ns => rw [plainList, SoundList, SoundList, sound_plain_iff, soundList_plainList_iff]

end

/-- The tokens of some nodes and others are those of the first and then those of the others. -/
theorem tokensList_append (ms ns : List Node) :
    tokensList (ms ++ ns) = tokensList ms ++ tokensList ns := by
  induction ms with
  | nil => rfl
  | cons m ms ih => rw [List.cons_append, tokensList, tokensList, ih, List.append_assoc]

end Node

namespace Growth

/-! ## Growing a forest -/

/-- The names of the open elements, innermost first. -/
def names (g : Growth) : List (List Char) :=
  g.stack.map fun frame => frame.1.name.toList

/-- The tokens taken in before the innermost open element. -/
def stackTokens : List (Tag × List Node) → List Token
  | [] => []
  | (tag, before) :: stack =>
    stackTokens stack ++ Node.tokensList before.reverse ++ [.openTag tag.content.toList]

/-- The tokens taken in. -/
def tokens (g : Growth) : List Token :=
  stackTokens g.stack ++ Node.tokensList g.nodes.reverse

/-- What every growth keeps: its nodes are sound and have no entries, and its open elements have
sound start tags. -/
structure Sound (g : Growth) : Prop where
  nodes : ∀ n ∈ g.nodes, n.Sound ∧ n.plain = n
  tags : ∀ frame ∈ g.stack, frame.1.Sound ∧ frame.1.empty = false
  before : ∀ frame ∈ g.stack, ∀ n ∈ frame.2, n.Sound ∧ n.plain = n

/-- There is nothing unsound at the start. -/
theorem sound_start : start.Sound :=
  ⟨by simp [start], by simp [start], by simp [start]⟩

/-- A node is added to those of the innermost open element. -/
theorem Sound.add (hg : g.Sound) (hn : n.Sound ∧ n.plain = n) :
    (g.add n).Sound ∧ (g.add n).tokens = g.tokens ++ n.tokens := by
  refine ⟨⟨?_, hg.tags, hg.before⟩, ?_⟩
  · rintro m (_ | ⟨_, hm⟩)
    · exact hn
    · exact hg.nodes m hm
  · simp [tokens, Growth.add, Node.tokensList_append, Node.tokensList]

/-- One token is added to those taken in, and the open elements are those that nesting gives. -/
theorem Sound.step (hg : g.Sound) (hstep : g.step t = .ok g') (hnest : t.nest g.names = .ok inner) :
    g'.Sound ∧ g'.names = inner ∧ g'.tokens = g.tokens ++ [t] := by
  cases t with
  | openTag content =>
      obtain ⟨tag, htag, hstep⟩ := bind_eq_ok_iff.1 hstep
      cases hstep
      obtain ⟨hcontent, hempty, hname⟩ := Tag.eq_of_ofContent htag
      rw [Token.nest, Except.ok.injEq] at hnest
      refine ⟨⟨by simp, ?_, ?_⟩, ?_, ?_⟩
      · rintro frame (_ | ⟨_, hframe⟩)
        · exact ⟨Tag.sound_of_ofContent htag, hempty⟩
        · exact hg.tags frame hframe
      · rintro frame (_ | ⟨_, hframe⟩)
        · exact hg.nodes
        · exact hg.before frame hframe
      · simp [← hnest, names, hname]
      · simp [tokens, stackTokens, Node.tokensList, hcontent]
  | emptyTag content =>
      obtain ⟨tag, htag, hstep⟩ := bind_eq_ok_iff.1 hstep
      cases hstep
      obtain ⟨hcontent, hempty, -⟩ := Tag.eq_of_ofContent htag
      rw [Token.nest, Except.ok.injEq] at hnest
      have hnode : (Node.element none tag []).Sound :=
        ⟨Tag.sound_of_ofContent htag, fun _ => rfl, trivial⟩
      obtain ⟨hsound, htokens⟩ := hg.add ⟨hnode, rfl⟩
      refine ⟨hsound, hnest, ?_⟩
      rw [htokens, Node.tokens, if_pos hempty, hcontent, String.toList_ofList]
  | closeTag name =>
      obtain ⟨nodes, stack⟩ := g
      cases stack with
      | nil => cases hstep
      | cons frame stack =>
          obtain ⟨tag, before⟩ := frame
          cases hstep
          have htag : tag.Sound := (hg.tags _ (List.mem_cons_self ..)).1
          have hempty : tag.empty = false := (hg.tags _ (List.mem_cons_self ..)).2
          simp only [names, List.map_cons, Token.nest] at hnest
          split at hnest <;> cases hnest
          rename_i hname
          -- the growth around the element is the one before its start tag
          have houter : (⟨before, stack⟩ : Growth).Sound :=
            ⟨hg.before _ (List.mem_cons_self ..), fun _ h => hg.tags _ (List.mem_cons_of_mem _ h),
              fun _ h => hg.before _ (List.mem_cons_of_mem _ h)⟩
          have hnode : (Node.element none tag nodes.reverse).Sound :=
            ⟨htag, by simp [hempty],
              Node.soundList_iff.2 fun n hn => (hg.nodes n (List.mem_reverse.1 hn)).1⟩
          have hplain :
              (Node.element none tag nodes.reverse).plain = .element none tag nodes.reverse := by
            rw [Node.plain, Node.plainList_eq_self_iff.2 fun n hn =>
              (hg.nodes n (List.mem_reverse.1 hn)).2]
          obtain ⟨hsound, htokens⟩ := houter.add ⟨hnode, hplain⟩
          refine ⟨hsound, rfl, htokens.trans ?_⟩
          simp [tokens, stackTokens, Node.tokens, hempty, hname]
  | leaf kind text =>
      cases hstep
      rw [Token.nest, Except.ok.injEq] at hnest
      obtain ⟨hsound, htokens⟩ := hg.add (n := .leaf kind (String.ofList text)) ⟨trivial, rfl⟩
      refine ⟨hsound, hnest, ?_⟩
      rw [htokens, Node.tokens, String.toList_ofList]

/-- Taking in tokens that are nested adds them to those taken in. -/
theorem Sound.foldlM (hg : g.Sound) (hsteps : ts.foldlM Growth.step g = .ok g')
    (hnest : ts.foldlM Token.nest g.names = .ok inner) :
    g'.Sound ∧ g'.names = inner ∧ g'.tokens = g.tokens ++ ts := by
  induction ts generalizing g with
  | nil =>
      cases hsteps
      cases hnest
      exact ⟨hg, rfl, by simp⟩
  | cons t ts ih =>
      rw [List.foldlM_cons, bind_eq_ok_iff] at hsteps hnest
      obtain ⟨h, hstep, hsteps⟩ := hsteps
      obtain ⟨names, hfirst, hnest⟩ := hnest
      obtain ⟨hsound, rfl, htokens⟩ := hg.step hstep hfirst
      obtain ⟨hsound', hnames, htokens'⟩ := ih hsound hsteps hnest
      exact ⟨hsound', hnames, by rw [htokens', htokens, List.append_assoc, List.singleton_append]⟩

end Growth

namespace Node

mutual

/-- The tokens of a node leave no other elements open than those around it. -/
theorem foldlM_nest_tokens (n : Node) (hn : n.Sound) (outer : List (List Char)) :
    n.tokens.foldlM Token.nest outer = .ok outer := by
  cases n with
  | leaf kind text => rfl
  | element entry tag ns =>
      obtain ⟨htag, -, hns⟩ := hn
      by_cases hempty : tag.empty
      · rw [tokens, if_pos hempty]
        rfl
      -- the end tag fits, since a sound tag has the name in its content
      · have hclose : (Token.closeTag tag.name.toList).nest
            (Token.tagName tag.content.toList :: outer) = .ok outer := by
          simp [Token.nest, htag.name_eq]
        rw [tokens, if_neg hempty, List.foldlM_cons]
        refine bind_eq_ok_iff.2 ⟨_, rfl, ?_⟩
        rw [List.foldlM_append]
        refine bind_eq_ok_iff.2 ⟨_, foldlM_nest_tokensList ns hns _, ?_⟩
        exact bind_eq_ok_iff.2 ⟨_, hclose, rfl⟩

/-- The tokens of sound nodes open and close elements in pairs. -/
theorem foldlM_nest_tokensList (ns : List Node) (hns : SoundList ns) (outer : List (List Char)) :
    (tokensList ns).foldlM Token.nest outer = .ok outer := by
  cases ns with
  | nil => rfl
  | cons n ns =>
      rw [tokensList, List.foldlM_append]
      exact bind_eq_ok_iff.2
        ⟨_, foldlM_nest_tokens n hns.1 outer, foldlM_nest_tokensList ns hns.2 outer⟩

end

mutual

/-- From the tokens of a node the node is grown, less its entries. -/
theorem foldlM_step_tokens (n : Node) (hn : n.Sound) (g : Growth) :
    n.tokens.foldlM Growth.step g = .ok (g.add n.plain) := by
  cases n with
  | leaf kind text => simp [tokens, Growth.step, plain]
  | element entry tag ns =>
      obtain ⟨htag, hchildren, hns⟩ := hn
      rw [Tag.Sound] at htag
      by_cases hempty : tag.empty
      · rw [hempty] at htag
        rw [tokens, if_pos hempty, hchildren hempty]
        exact bind_eq_ok_iff.2 ⟨_, bind_eq_ok_iff.2 ⟨_, htag, rfl⟩, rfl⟩
      · rw [(Bool.not_eq_true _).mp hempty] at htag
        rw [tokens, if_neg hempty, List.foldlM_cons]
        refine bind_eq_ok_iff.2 ⟨_, bind_eq_ok_iff.2 ⟨_, htag, rfl⟩, ?_⟩
        rw [List.foldlM_append]
        refine bind_eq_ok_iff.2 ⟨_, foldlM_step_tokensList ns hns _, ?_⟩
        simp [Growth.step, Growth.add, plain]

/-- From the tokens of sound nodes these nodes grow, without the marks of entries. -/
theorem foldlM_step_tokensList (ns : List Node) (hns : SoundList ns) (g : Growth) :
    (tokensList ns).foldlM Growth.step g =
      .ok ⟨(plainList ns).reverse ++ g.nodes, g.stack⟩ := by
  cases ns with
  | nil => rfl
  | cons n ns =>
      rw [tokensList, List.foldlM_append]
      refine bind_eq_ok_iff.2 ⟨_, foldlM_step_tokens n hns.1 g, ?_⟩
      rw [foldlM_step_tokensList ns hns.2]
      simp [Growth.add, plainList]

end

end Node

namespace Forest

/-- A reading stands for a forest if it ends without fault and its tokens are those of the
forest. -/
theorem ofReading_within_eq_ok_iff_tokens {cs : List Char} :
    ofReading (Reading.within [] cs) = .ok ns ↔
      Reading.within [] cs = ⟨Node.tokensList ns, none⟩ ∧ Node.SoundList ns ∧
        Node.plainList ns = ns := by
  constructor
  · intro h
    obtain ⟨g, hsteps, hfinish⟩ := bind_eq_ok_iff.1 h
    split at hfinish
    · cases hfinish
    · rename_i hfault
      obtain ⟨inner, hnest⟩ := Reading.exists_foldlM_nest hfault
      obtain ⟨hsound, -, htokens⟩ := Growth.sound_start.foldlM hsteps hnest
      obtain ⟨nodes, stack⟩ := g
      cases stack with
      -- an element left open is a fault
      | cons frame stack => cases hfinish
      | nil =>
          cases hfinish
          have hnodes : ∀ n ∈ nodes.reverse, n.Sound ∧ n.plain = n :=
            fun n hn => hsound.nodes n (List.mem_reverse.1 hn)
          have hread : Reading.within [] cs = ⟨(Reading.within [] cs).tokens, none⟩ := by
            rw [← hfault]
          refine ⟨hread.trans (congrArg (Reading.mk · none) htokens.symm), ?_, ?_⟩
          · exact Node.soundList_iff.2 fun n hn => (hnodes n hn).1
          · exact Node.plainList_eq_self_iff.2 fun n hn => (hnodes n hn).2
  · intro h
    obtain ⟨hread, hsound, hplain⟩ := h
    rw [hread]
    refine bind_eq_ok_iff.2 ⟨_, Node.foldlM_step_tokensList ns hsound _, ?_⟩
    simp [Growth.finish, Growth.start, hplain]

/-- A text stands for a forest if it is made up of the forest's tokens. -/
theorem ofReading_within_eq_ok_iff {cs : List Char} :
    ofReading (Reading.within [] cs) = .ok ns ↔
      (∃ ps, ps.map Prod.fst = Node.tokensList ns ∧ Pieces ps cs) ∧ Node.SoundList ns ∧
        Node.plainList ns = ns := by
  rw [ofReading_within_eq_ok_iff_tokens, Reading.within_eq_iff]
  refine and_congr_left fun h => and_iff_left ?_
  -- the tokens of sound nodes are nested
  exact ⟨[], Node.foldlM_nest_tokensList ns h.1 []⟩

end Forest

end ProjectOrder

import ProjectOrder.Proofs.Document.RoundTrip
import ProjectOrder.Settings.Load

/-!
# Settings files and documents

No content is both a settings file and a document: a document begins with a tag, after blanks and
byte order marks at most, and no statement of a settings file begins so. `Layer.ofContent_of_read`
says that a document is refused where settings are asked for.
-/

namespace ProjectOrder

open Markup

/-- A text that begins with a tag, after blanks and byte order marks at most. -/
inductive BeginsWithTag : List Char → Prop where
  | tag (cs : List Char) : BeginsWithTag ('<' :: cs)
  | skip (c : Char) (cs : List Char) : Text.isBlank c ∨ c = Reading.byteOrderMark →
      BeginsWithTag cs → BeginsWithTag (c :: cs)

variable {c : Char} {cs rest : List Char} {ps : List (Token × List Char)} {d : Document}
  {content : ByteArray} {text : String}

/-! ## Documents -/

/-- Blanks in front of a tag make no difference. -/
theorem BeginsWithTag.append {blanks : List Char} (hblanks : ∀ c ∈ blanks, Text.isBlank c)
    (h : BeginsWithTag cs) : BeginsWithTag (blanks ++ cs) := by
  induction blanks with
  | nil => exact h
  | cons c blanks ih =>
      obtain ⟨hc, hblanks⟩ := List.forall_mem_cons.1 hblanks
      exact .skip c _ (.inl hc) (ih hblanks)

/-- A byte order mark in front of a tag makes no difference. -/
theorem BeginsWithTag.of_withoutMark (h : BeginsWithTag (Reading.withoutMark cs)) :
    BeginsWithTag cs := by
  unfold Reading.withoutMark at h
  split at h
  · obtain ⟨tail, rfl⟩ := List.head?_eq_some_iff.1 ‹_›
    exact .skip _ _ (.inr rfl) h
  · exact h

/-- Pieces of which the first is no character data. -/
theorem BeginsWithTag.of_pieces {p : Token × List Char} (h : Pieces (p :: ps) cs)
    (hp : p.1.isText = false) : BeginsWithTag cs := by
  have hhead : ∀ c ∈ cs.head?, c = '<' := h.head?_eq_iff.2 (by simpa using hp)
  cases cs with
  | nil => cases h.eq_nil_of_nil
  | cons c cs =>
      obtain rfl := hhead c rfl
      exact .tag cs

/-- An element begins with a tag. -/
theorem Node.exists_tokensList_element (entry : Option Entry) (tag : Tag)
    (children ns : List Node) :
    ∃ t ts, tokensList (.element entry tag children :: ns) = t :: ts ∧ t.isText = false := by
  rw [tokensList, tokens]
  split <;> exact ⟨_, _, rfl, rfl⟩

/-- A text in front of whose first element there are only leaves that are not stray text. -/
theorem BeginsWithTag.of_tokensList {prolog epilog children : List Node} {entry : Option Entry}
    {tag : Tag} (hprolog : ∀ n ∈ prolog, n.Beside) (hpieces : Pieces ps cs)
    (hps : ps.map Prod.fst = Node.tokensList (prolog ++ .element entry tag children :: epilog)) :
    BeginsWithTag cs := by
  induction prolog generalizing ps cs with
  | nil =>
      obtain ⟨t, ts, htokens, ht⟩ := Node.exists_tokensList_element entry tag children epilog
      rw [List.nil_append, htokens] at hps
      obtain ⟨p, ps, rfl, rfl, -⟩ := List.map_eq_cons_iff.1 hps
      exact .of_pieces hpieces ht
  | cons n prolog ih =>
      rw [List.forall_mem_cons] at hprolog
      obtain ⟨kind, text, rfl⟩ := hprolog.1.exists_leaf
      rw [List.cons_append, Node.tokensList, Node.tokens, List.singleton_append] at hps
      obtain ⟨⟨t, source⟩, ps, rfl, rfl, hrest⟩ := List.map_eq_cons_iff.1 hps
      cases kind with
      | text =>
          -- text in front is blank, and the pieces after it are those of the other nodes
          have hblank : text.toList.all Text.isBlank := by
            simpa [Node.Beside, Document.isStrayText, Text.isBlankText] using hprolog.1
          have hsource : source = text.toList :=
            (hpieces.written _ (List.mem_cons_self ..)).eq_of_text
          obtain ⟨_, _, rest, -, rfl, -, hpieces⟩ := Pieces.cons_iff.1 hpieces
          rw [hsource]
          exact (ih hprolog.2 hpieces hrest).append (List.all_eq_true.1 hblank)
      | comment | cdata | declaration | instruction | doctype => exact .of_pieces hpieces rfl

/-- The text of a document begins with a tag. -/
theorem Document.beginsWithTag_of_parse (h : Document.parse text = .ok d) :
    BeginsWithTag text.toList := by
  obtain ⟨hcoherent, -, -, ps, hps, hpieces⟩ := Document.coherent_of_parse h
  exact .of_withoutMark (.of_withoutMark (.of_tokensList hcoherent.prolog hpieces hps))

/-- Bytes that are both a document and the bytes of a text: this text begins with a tag. In another
encoding than UTF-8 the tag is that of the declaration. -/
theorem Document.beginsWithTag_of_read [Indexes] (hread : Document.read content = .ok d)
    (htext : String.fromUTF8? content = some text) : BeginsWithTag text.toList := by
  obtain ⟨e, cs, d₀, hencoding, hdecode, hparse, -⟩ := Document.read_eq_ok_iff.1 hread
  have hexact : Encoding.utf8.IsExact := trivial
  have hutf8 : Encoding.utf8.decode? content.data.toList = some text.toList := by
    rw [Encoding.decode?, Array.toArray_toList, htext]
    rfl
  by_cases he : e = .utf8
  · rw [he, hutf8, Option.some.injEq] at hdecode
    rw [← hdecode, String.ofList_toList] at hparse
    exact Document.beginsWithTag_of_parse hparse
  · have hdeclaration := (Document.of_encodingOf hencoding he).2
    have hencode := (Encoding.decode?_eq_some_iff hexact).1 hutf8
    rw [Document.declaration?_bytesAsText hexact hencode, Ne,
      Option.map_eq_none_iff] at hdeclaration
    obtain ⟨tail, htail⟩ := List.head?_eq_some_iff.1 (Document.head?_of_declaration? hdeclaration)
    rw [htail]
    exact .tag tail

/-! ## Settings -/

/-- A text that begins with a tag begins with a character that no key, header or comment begins
with. -/
theorem BeginsWithTag.exists_cons (h : BeginsWithTag cs) :
    ∃ c tail, cs = c :: tail ∧ Toml.isBareKeyChar c = false ∧ c ∉ ['[', '"', '\'', '#'] := by
  cases h with
  | tag tail => exact ⟨'<', tail, rfl, by decide, by decide⟩
  | skip c tail hc h =>
      refine ⟨c, tail, rfl, ?_, ?_⟩
      · rcases hc with hblank | rfl
        · rw [← Bool.not_eq_true]
          intro hkey
          have hletters : (0x41 ≤ c.toNat ∧ c.toNat ≤ 0x5A) ∨ (0x61 ≤ c.toNat ∧ c.toNat ≤ 0x7A) ∨
              (0x30 ≤ c.toNat ∧ c.toNat ≤ 0x39) ∨ c.toNat = 0x5F ∨ c.toNat = 0x2D := by
            have halpha : c.isAlpha = (c.isUpper || c.isLower) := rfl
            have hupper : c.isUpper = decide ('A'.val ≤ c.val ∧ c.val ≤ 'Z'.val) := rfl
            have hlower : c.isLower = (decide ('a'.val ≤ c.val) && decide (c.val ≤ 'z'.val)) := rfl
            simpa [Toml.isBareKeyChar, Char.isAlphanum, halpha, hupper, hlower, Char.isDigit,
              or_assoc, UInt32.le_iff_toNat_le, Char.ext_iff,
              ← UInt32.toNat_inj] using hkey
          simp only [Text.isBlank, Bool.or_eq_true, Bool.and_eq_true, decide_eq_true_eq,
            beq_iff_eq] at hblank
          omega
        · decide
      · simp only [List.mem_cons, List.not_mem_nil, or_false]
        rintro (rfl | rfl | rfl | rfl) <;> revert hc <;> decide

namespace Toml

/-- Where a text begins with a tag, so does what is left of it after white space. -/
theorem beginsWithTag_dropWhile (h : BeginsWithTag cs) :
    BeginsWithTag (cs.dropWhile Quoted.isBlank) := by
  induction h with
  | tag cs => exact .tag cs
  | skip c cs hc h ih =>
      rw [List.dropWhile_cons]
      split
      · exact ih
      · exact .skip c cs hc h

/-- No comment of a settings file begins with a tag. -/
theorem skipComment_eq_self (h : BeginsWithTag cs) : skipComment cs = cs := by
  obtain ⟨c, tail, rfl, -, hc⟩ := h.exists_cons
  unfold skipComment
  split
  · simp_all
  · rfl

/-- Behind a line end, a text that begins with a tag still does. -/
theorem beginsWithTag_afterNewline? (h : BeginsWithTag cs)
    (hnewline : Quoted.afterNewline? cs = some rest) : BeginsWithTag rest := by
  unfold Quoted.afterNewline? at hnewline
  split at hnewline
  · cases hnewline
    cases h with
    | skip _ _ _ h => exact h
  · cases hnewline
    cases h with
    | skip _ _ _ h =>
        cases h with
        | skip _ _ _ h => exact h
  · cases hnewline

/-- Behind empty lines and comments, a text that begins with a tag still does. -/
theorem beginsWithTag_skipLines (h : BeginsWithTag cs) (fuel : Nat) :
    BeginsWithTag (skipLines fuel cs) := by
  induction fuel generalizing cs with
  | zero => exact h
  | succ fuel ih =>
      have hblank := beginsWithTag_dropWhile h
      simp only [skipLines, skipComment_eq_self hblank]
      split
      · exact ih (beginsWithTag_afterNewline? hblank ‹_›)
      · exact hblank

/-- No key begins where a text begins with a tag. -/
theorem key?_eq_none (h : BeginsWithTag cs) : key? cs = none := by
  have hsimple : simpleKey? (cs.dropWhile Quoted.isBlank) = none := by
    obtain ⟨c, tail, heq, hkey, hc⟩ := (beginsWithTag_dropWhile h).exists_cons
    have hquote : ¬ (c = '"' ∨ c = '\'') := by
      simp_all
    rw [heq, simpleKey?, if_neg hquote]
    simp [hkey]
  rw [key?, dottedKey?, hsimple]
  rfl

/-- No statement of a settings file begins with a tag. -/
theorem statement?_eq_none (h : BeginsWithTag cs) : statement? cs = none := by
  have hkey := key?_eq_none h
  obtain ⟨c, tail, rfl, -, hc⟩ := h.exists_cons
  unfold statement?
  split
  · simp_all
  · simp_all
  · rw [hkey]
    rfl

/-- A text that begins with a tag holds no statements. -/
theorem statements?_eq_none (h : BeginsWithTag cs) (fuel : Nat) : statements? fuel cs = none := by
  cases fuel with
  | zero => rfl
  | succ fuel =>
      have hrest : BeginsWithTag (skipGap cs) := beginsWithTag_skipLines h (cs.length + 1)
      have hstatement := statement?_eq_none hrest
      obtain ⟨c, tail, heq, -, -⟩ := hrest.exists_cons
      rw [heq] at hstatement
      rw [statements?, heq]
      simp only [hstatement]
      rfl

/-- No settings file begins with a tag. -/
theorem parse?_eq_none (h : BeginsWithTag text.toList) : parse? text = none := by
  have htail : BeginsWithTag
      (if text.toList.head? = some '\uFEFF' then text.toList.tail else text.toList) := by
    split
    · obtain ⟨tail, htail⟩ := List.head?_eq_some_iff.1 ‹_›
      rw [htail] at h ⊢
      cases h with
      | skip _ _ _ h => exact h
    · exact h
  rw [parse?, statements?_eq_none htail]
  rfl

end Toml

/-- A document is refused where settings are asked for. -/
theorem Layer.ofContent_of_read [Indexes] (path : FilePath)
    (hread : Document.read content = .ok d) :
    ∃ fault, Layer.ofContent path content = .error fault := by
  unfold ofContent
  cases htext : String.fromUTF8? content with
  | none => exact ⟨_, rfl⟩
  | some text =>
      have hparse := Toml.parse?_eq_none (Document.beginsWithTag_of_read hread htext)
      simp only [Layer.parse?, hparse]
      exact ⟨_, rfl⟩

end ProjectOrder

import ProjectOrder.Document.Forest
import ProjectOrder.Document.Recognition
import ProjectOrder.Encoding.Codec
import ProjectOrder.Encoding.Excerpt
import ProjectOrder.Encoding.Label
import ProjectOrder.Text.Utf8

/-!
# Reading documents

`Document.parse` reads a text and `Document.read` reads bytes in the encoding that they declare. A
byte order mark of UTF-8 overrides the declaration; bytes with neither are UTF-8.
-/

namespace ProjectOrder

open Markup

/-- Why an input is no document. -/
inductive ParseFault where
  | utf16
  | declaration (fault : AttributeFault)
  | unknownEncoding (label : String)
  | unsupportedEncoding (encoding : Encoding)
  | notUtf8 (fault : Text.Utf8.Fault)
  | notEncoded (encoding : Encoding)
  | forest (fault : ForestFault)
  | secondRoot (name : String)
  | textOutsideRoot
  | noRoot
  | unexpectedRoot (name : String)
deriving DecidableEq, Repr

/-- The wording of the fault. -/
def ParseFault.message : ParseFault → String
  | utf16 => "UTF-16 input is not supported"
  | declaration fault => s!"error while parsing attribute: {fault.message}"
  | unknownEncoding label => s!"unknown encoding '{label}'"
  | unsupportedEncoding e => s!"encoding {e.name} is not supported"
  | notUtf8 fault => s!"input is not valid UTF-8: {fault.message}"
  | notEncoded e => s!"input is not valid {e.name}"
  | forest fault => fault.message
  | secondRoot name => s!"more than one top-level element: <{name}>"
  | textOutsideRoot => "text outside the root element"
  | noRoot => "no root element"
  | unexpectedRoot name => s!"unexpected top-level element <{name}>"

namespace Document

/-- Character data other than blanks, which must not stand beside the root. -/
def isStrayText : Node → Bool
  | .leaf .text s => !Text.isBlankText s
  | _ => false

/-- The nodes after the root element, if they may stand there. -/
def epilogOf : List Node → Except ParseFault (List Node)
  | [] => .ok []
  | .element _ tag _ :: _ => .error (.secondRoot tag.name)
  | n :: ns =>
    if isStrayText n then .error .textOutsideRoot
    else do return n :: (← epilogOf ns)

/-- A forest split at its only element into prolog, root and epilog. -/
def aroundRoot : List Node → Except ParseFault (List Node × Element × List Node)
  | [] => .error .noRoot
  | .element _ tag children :: ns => do return ([], ⟨tag, children⟩, ← epilogOf ns)
  | n :: ns =>
    if isStrayText n then .error .textOutsideRoot
    else do
      let (prolog, root, epilog) ← aroundRoot ns
      return (n :: prolog, root, epilog)

/-- The document of a forest. -/
def ofForest (mark : Bool) (ns : List Node) : Except ParseFault Document := do
  let (prolog, root, epilog) ← aroundRoot ns
  match Dialect.ofRootElement? root.tag.name with
  | some dialect => return ⟨dialect, .utf8, mark, prolog, root.recognize dialect, epilog⟩
  | none => throw (.unexpectedRoot root.tag.name)

/-- Read a document from its text. -/
def parse (text : String) : Except ParseFault Document :=
  let mark := text.toList.head? = some Reading.byteOrderMark
  match Forest.ofText (Reading.withoutMark text.toList) with
  | .ok ns => ofForest mark ns
  | .error fault => .error (.forest fault)

/-- The bytes of the byte order mark in UTF-8. -/
def utf8Mark : List UInt8 := [0xEF, 0xBB, 0xBF]

/-- Bytes seen as characters, each byte as the code point of its number. -/
def bytesAsText (bytes : List UInt8) : List Char :=
  bytes.map fun b => Char.ofNat b.toNat

/-- The label in the encoding declaration, if the input begins with one. -/
def declaredLabel? (bytes : List UInt8) : Except ParseFault (Option String) :=
  match bytesAsText bytes with
  | [] => .ok none
  | c :: cs =>
    match Token.next? c cs with
    | .ok (.leaf .declaration content, _) =>
      let listing := Attribute.ofTag (fun _ => 1) false content
      match listing.attributes.find? (·.key = "encoding"), listing.fault with
      | some a, _ => .ok (some a.value)
      | none, some fault => .error (.declaration fault)
      | none, none => .ok none
    | _ => .ok none

/-- The encoding that an input declares. -/
def namedEncoding (bytes : List UInt8) : Except ParseFault Encoding := do
  if bytes.take 2 = [0xFF, 0xFE] ∨ bytes.take 2 = [0xFE, 0xFF] then throw .utf16
  match ← declaredLabel? bytes with
  | none => return .utf8
  | some label =>
    match Encoding.ofLabel? label.toList with
    | none =>
      throw (.unknownEncoding (Text.Utf8.lossy (label.toList.map fun c => c.toNat.toUInt8)))
    | some e => if e.output = e then return e else throw (.unsupportedEncoding e)

/-- The encoding of an input. -/
def encodingOf (bytes : List UInt8) : Except ParseFault Encoding :=
  if bytes.take 3 = utf8Mark then .ok .utf8 else namedEncoding bytes

/-- Read a document from bytes. -/
def read [Indexes] (bytes : ByteArray) : Except ParseFault Document := do
  let bs := bytes.data.toList
  let e ← encodingOf bs
  match e.decode? bs with
  | some cs =>
    let d ← parse (String.ofList cs)
    return { d with encoding := e }
  | none =>
    match e with
    | .utf8 => throw (.notUtf8 ((Text.Utf8.firstFault 0 0 bs).getD ⟨bs.length, none⟩))
    | e => throw (.notEncoded e)

end Document

end ProjectOrder

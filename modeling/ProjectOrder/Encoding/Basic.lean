import ProjectOrder.Encoding.Charset
import ProjectOrder.Text.Blank

/-!
# Character encodings

The encodings that a document may name. Text can be read in all of them but the three whose text is
written in UTF-8 instead: documents in those are refused.
-/

namespace ProjectOrder

/-- A character encoding. -/
inductive Encoding where
  | utf8
  | charset (c : Charset)
  | gbk
  | gb18030
  | big5
  | eucJp
  | iso2022Jp
  | shiftJis
  | eucKr
  | replacement
  | utf16be
  | utf16le
deriving DecidableEq, Repr

namespace Encoding

/-- The standard name. -/
def name : Encoding → String
  | utf8 => "UTF-8"
  | charset c => c.name
  | gbk => "GBK"
  | gb18030 => "gb18030"
  | big5 => "Big5"
  | eucJp => "EUC-JP"
  | iso2022Jp => "ISO-2022-JP"
  | shiftJis => "Shift_JIS"
  | eucKr => "EUC-KR"
  | replacement => "replacement"
  | utf16be => "UTF-16BE"
  | utf16le => "UTF-16LE"

/-- The encoding in which text is written where this one is asked for. -/
def output : Encoding → Encoding
  | replacement | utf16be | utf16le => utf8
  | e => e

end Encoding

end ProjectOrder

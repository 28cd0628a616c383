import AppFleet.Text.Lines

/-! Paths of a file system. A path is bytes, which need not be text. -/

namespace AppFleet

structure Path where
  bytes : List UInt8
deriving DecidableEq, Repr

namespace Path

def ofText (text : String) : Path := ⟨text.toUTF8.toList⟩

/-- The text that a path is the UTF-8 encoding of, if there is one. -/
def text? (p : Path) : Option String := Text.ofUtf8? p.bytes

end Path

end AppFleet

/-!
Lines of a byte stream. A line ends at a line feed, alone or after a carriage return; bytes after the
last line feed are a line too, if there are any.
-/

namespace AppFleet.Text

def lines : List UInt8 → List (List UInt8)
  | [] => []
  | 0x0d :: 0x0a :: rest => [] :: lines rest
  | b :: rest =>
    if b = 0x0a then [] :: lines rest
    else
      match lines rest with
      | [] => [[b]]
      | line :: more => (b :: line) :: more

/-- The lines that have ended, as bytes, and what comes after them. -/
def ended (stream : List UInt8) : List UInt8 × List UInt8 :=
  let begun := (stream.reverse.takeWhile (· ≠ 0x0a)).length
  stream.splitAt (stream.length - begun)

theorem ended_fst_append_snd (stream : List UInt8) : (ended stream).1 ++ (ended stream).2 = stream := by
  simp [ended]

/-- The text of some bytes, if they are the UTF-8 encoding of one. -/
def ofUtf8? (bytes : List UInt8) : Option String := String.fromUTF8? ⟨bytes.toArray⟩

end AppFleet.Text

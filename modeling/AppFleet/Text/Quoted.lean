import AppFleet.Text.Unprintable

/-! A string between double quotes, as error texts show it: unprintable characters by code point. -/

namespace AppFleet.Quoted

def escape (c : Char) : List Char :=
  if c = '\x00' then ['\\', '0']
  else if c = '\t' then ['\\', 't']
  else if c = '\r' then ['\\', 'r']
  else if c = '\n' then ['\\', 'n']
  else if c = '"' ∨ c = '\\' then ['\\', c]
  else if isUnprintable c then ['\\', 'u', '{'] ++ Nat.toDigits 16 c.toNat ++ ['}']
  else [c]

def render (s : String) : String := String.ofList ('"' :: s.toList.flatMap escape ++ ['"'])

end AppFleet.Quoted

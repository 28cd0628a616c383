import AppFleet.Json.Reader
import AppFleet.Decimal.Layout

/-! Doubles that are kept as text. The text of a double of many digits may read back as a neighbour. -/

namespace AppFleet.Json

/-- The double that reads back from the text of a double. -/
def reread (x : FiniteFloat) : FiniteFloat :=
  match readNumber (Decimal.ofFloat x.value) with
  | some (.double y, []) => if h : y.isFinite then ⟨y, h⟩ else x
  | _ => x

end AppFleet.Json

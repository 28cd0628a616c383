import AppFleet.Json.Codec
import Mathlib.Tactic.Common

/-! Codecs that read back what they write. -/

namespace AppFleet.Codec

def Faithful (c : Codec α) : Prop := ∀ a, c.read (c.write a) = .ok a

theorem string_faithful : string.Faithful := fun _ => rfl

theorem list_faithful {item : Codec α} (h : item.Faithful) : item.list.Faithful := by
  intro values
  have hitem : item.read ∘ item.write = pure := funext h
  change (values.map item.write).mapM item.read = .ok values
  rw [List.mapM_map, hitem, List.mapM_pure, List.map_id']
  rfl

end AppFleet.Codec

namespace SharedCanvas.Palette

def colors : List String := [
  "#ff0000", "#ffa600", "#ffe600", "#8aff00", "#24ff00", "#00ff00",
  "#00ff83", "#00ffe6", "#00e7ff", "#008fff", "#0024ff", "#2400ff",
  "#8a00ff", "#ff00ff", "#ff0083", "#ff0024", "#d70000", "#8c4000",
  "#e67c00", "#b1d700", "#4cc100", "#00c16a", "#00c1c1", "#0055c1",
  "#002fc1", "#7200c1", "#c10072", "#8c2600", "#000000", "#ffffff"]

def white : UInt8 := 29

/-- The palette has a colour of this index. -/
def Has (c : UInt8) : Prop := c.toNat < colors.length

instance (c : UInt8) : Decidable (Has c) := inferInstanceAs (Decidable (c.toNat < _))

def hex? (c : UInt8) : Option String := colors[c.toNat]?

theorem has_iff {c : UInt8} : Has c ↔ c.toNat < 30 := Iff.rfl

theorem has_white : Has white := by decide

theorem isSome_hex? {c : UInt8} : (hex? c).isSome ↔ Has c := by simp [hex?, Has]

end SharedCanvas.Palette

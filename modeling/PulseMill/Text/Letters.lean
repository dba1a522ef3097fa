set_option autoImplicit false

namespace PulseMill.Text

def folded (s : String) : List Char := s.toList.map Char.toLower

/-- The two texts differ at most in the case of ASCII letters. -/
def sameName (s t : String) : Bool := folded s == folded t

theorem sameName_iff {s t : String} : sameName s t ↔ folded s = folded t := by
  simp [sameName]

@[simp] theorem sameName_refl (s : String) : sameName s s := sameName_iff.2 rfl

end PulseMill.Text

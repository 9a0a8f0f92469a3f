/-! Byte strings, ordered lexicographically, and the texts that they encode in UTF-8. -/
namespace RespStore

abbrev Bytes := List UInt8

namespace Bytes

def crlf : Bytes := [13, 10]

/-- The UTF-8 encoding of a text. -/
def ofString (s : String) : Bytes := s.toByteArray.data.toList

/-- The text that a byte string encodes, if it is well-formed UTF-8. -/
def toString? (b : Bytes) : Option String := String.fromUTF8? ⟨b.toArray⟩

theorem toString?_eq_some_iff {b : Bytes} {s : String} :
    toString? b = some s ↔ ofString s = b := by
  unfold toString? ofString String.fromUTF8?
  constructor
  · intro h
    split at h
    · cases h
      simp [String.fromUTF8]
    · simp at h
  · rintro rfl
    have hs : ByteArray.mk s.toByteArray.data.toList.toArray = s.toByteArray := by simp
    rw [dif_pos (by rw [hs]; exact s.isValidUTF8)]
    congr 1

@[simp] theorem toString?_ofString (s : String) : toString? (ofString s) = some s :=
  toString?_eq_some_iff.2 rfl

theorem ofString_injective {s t : String} (h : ofString s = ofString t) : s = t := by
  have := toString?_ofString s
  rw [h, toString?_ofString] at this
  exact (Option.some.inj this).symm

@[simp] theorem ofString_append (s t : String) : ofString (s ++ t) = ofString s ++ ofString t := by
  simp [ofString]

end Bytes
end RespStore

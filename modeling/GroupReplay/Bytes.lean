/-!
Byte strings and the UTF-8 form of text.  `toText?_ofText` and `ofText_of_toText?` say that
reading UTF-8 undoes writing it and accepts nothing else; `Bytes.before` is the bytewise order
in which keys are sorted.
-/

namespace GroupReplay

/-- A byte string. -/
abbrev Bytes := List UInt8

namespace Bytes

/-- The UTF-8 form of a text. -/
def ofText (text : String) : Bytes := text.toByteArray.data.toList

/-- The text that a byte string is the UTF-8 form of, when there is one. -/
def toText? (bytes : Bytes) : Option String := String.fromUTF8? ⟨bytes.toArray⟩

theorem toText?_ofText (text : String) : toText? (ofText text) = some text := by
  have whole : (⟨(ofText text).toArray⟩ : ByteArray) = text.toByteArray := by simp [ofText]
  simp [toText?, String.fromUTF8?, whole, text.isValidUTF8, String.fromUTF8]

theorem ofText_of_toText? {bytes : Bytes} {text : String} (read : toText? bytes = some text) :
    ofText text = bytes := by
  unfold toText? String.fromUTF8? at read
  split at read
  · cases read
    simp [ofText, String.fromUTF8]
  · simp at read

theorem ofText_injective {a b : String} (same : ofText a = ofText b) : a = b := by
  have := toText?_ofText a
  rw [same, toText?_ofText] at this
  exact (Option.some.inj this).symm

/-- The bytewise order: a proper prefix stands before what it begins, and otherwise the first
byte that differs decides. -/
def before : Bytes → Bytes → Bool
  | [], [] => false
  | [], _ :: _ => true
  | _ :: _, [] => false
  | a :: as, b :: bs => if a < b then true else if b < a then false else before as bs

end Bytes

end GroupReplay

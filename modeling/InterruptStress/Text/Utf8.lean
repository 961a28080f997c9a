/-!
# Bytes and text

Text is stored and sent as UTF-8.  Decoding refuses any other sequence of bytes.
-/

namespace InterruptStress.Text

/-- The bytes of a text. -/
def toBytes (cs : List Char) : List UInt8 := (String.ofList cs).toByteArray.data.toList

/-- The text that bytes stand for. -/
def ofBytes? (bytes : List UInt8) : Option (List Char) :=
  (String.fromUTF8? ⟨bytes.toArray⟩).map String.toList

theorem ofBytes?_toBytes (cs : List Char) : ofBytes? (toBytes cs) = some cs := by
  have hdecode : String.fromUTF8? (String.ofList cs).toByteArray = some (String.ofList cs) := by
    rw [String.fromUTF8?, dif_pos (String.ofList cs).isValidUTF8]
    rfl
  rw [ofBytes?, toBytes, Array.toArray_toList, hdecode, Option.map_some, String.toList_ofList]

end InterruptStress.Text

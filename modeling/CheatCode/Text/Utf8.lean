import CheatCode.Text

/-!
# Text as bytes

Files and streams hold bytes. A text is written as its UTF-8 encoding, and bytes
are read as text only when they are the encoding of one.
-/

namespace CheatCode.Text

/-- The UTF-8 encoding of a text. -/
def utf8 (t : Text) : List UInt8 := t.flatMap String.utf8EncodeChar

/-- The text whose UTF-8 encoding the bytes are. -/
def ofUtf8? (bytes : List UInt8) : Option Text :=
  bytes.toByteArray.utf8Decode?.map Array.toList

@[simp] theorem utf8_nil : utf8 [] = [] := rfl

@[simp] theorem utf8_cons (c : Char) (t : Text) :
    utf8 (c :: t) = String.utf8EncodeChar c ++ utf8 t := rfl

@[simp] theorem utf8_append (t u : Text) : utf8 (t ++ u) = utf8 t ++ utf8 u :=
  List.flatMap_append

/-- Reading back what was written gives the text. -/
@[simp] theorem ofUtf8?_utf8 (t : Text) : ofUtf8? (utf8 t) = some t := by
  have h := List.utf8Decode?_utf8Encode (l := t)
  rw [List.utf8Encode] at h
  simp [ofUtf8?, utf8, h]

end CheatCode.Text

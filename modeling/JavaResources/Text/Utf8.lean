/-!
# The UTF-8 bytes of a text

Text reaches a sink or a file as UTF-8. `encode` gives the bytes of a text and `decode?` the text of
bytes, which fails where the bytes are not well-formed UTF-8.
-/

namespace JavaResources.Text

/-- The UTF-8 bytes of a text. -/
def encode (text : List Char) : List UInt8 :=
  text.flatMap String.utf8EncodeChar

/-- The text that the bytes encode, if they are well-formed UTF-8. -/
def decode? (bytes : Array UInt8) : Option String :=
  String.fromUTF8? ⟨bytes⟩

@[simp]
theorem encode_append (first second : List Char) :
    encode (first ++ second) = encode first ++ encode second := by
  simp [encode]

/-- Texts are told apart by their bytes. -/
theorem encode_inj {first second : List Char} (h : encode first = encode second) :
    first = second := by
  have hbytes : first.utf8Encode = second.utf8Encode := congrArg List.toByteArray h
  have hdecoded := congrArg ByteArray.utf8Decode? hbytes
  rw [List.utf8Decode?_utf8Encode, List.utf8Decode?_utf8Encode, Option.some.injEq] at hdecoded
  exact congrArg Array.toList hdecoded

/-- The bytes of a text are decoded to the text. -/
theorem decode?_encode (text : List Char) :
    decode? (encode text).toArray = some (String.ofList text) := by
  have hbytes : (⟨(encode text).toArray⟩ : ByteArray) = text.utf8Encode :=
    ByteArray.ext List.data_toByteArray.symm
  have hvalid : ByteArray.IsValidUTF8 ⟨(encode text).toArray⟩ := .intro text hbytes
  rw [decode?, String.fromUTF8?, dif_pos hvalid]
  exact congrArg some (String.toByteArray_inj.1 hbytes)

end JavaResources.Text

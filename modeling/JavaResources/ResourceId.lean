import JavaResources.Text.Hex

/-!
# Resource identifiers

A resource identifier is a 32-bit word that packs the number of a package (8 bits), of a type in it
(8 bits) and of an entry of that type (16 bits). It is written in hexadecimal with all its digits.
-/

namespace JavaResources

/-- A resource identifier `0xPPTTEEEE`: package, type and entry. -/
structure ResourceId where
  word : UInt32
  deriving DecidableEq, Repr

namespace ResourceId

/-- The identifier with the given parts. -/
def pack (package type : UInt8) (entry : UInt16) : ResourceId :=
  ⟨package.toUInt32 <<< 24 ||| type.toUInt32 <<< 16 ||| entry.toUInt32⟩

/-- The number of the package. -/
def package (id : ResourceId) : UInt8 :=
  (id.word >>> 24).toUInt8

/-- The number of the type in its package. -/
def type (id : ResourceId) : UInt8 :=
  (id.word >>> 16).toUInt8

/-- The number of the entry among those of its type. -/
def entry (id : ResourceId) : UInt16 :=
  id.word.toUInt16

/-- Identifiers are ordered as numbers. -/
instance : Ord ResourceId where
  compare first second := compare first.word second.word

/-- The text of an identifier: `0x` and its eight hexadecimal digits. -/
def text (id : ResourceId) : String :=
  String.ofList ('0' :: 'x' :: Text.hex 8 id.word.toNat)

end ResourceId

end JavaResources

import JavaMachine.Archive.Crc
import JavaMachine.Archive.Fields
import JavaMachine.Text.CodePage437
import JavaMachine.Text.Utf8

/-!
# Entries of the central directory

Each entry names a piece of data and tells how it is packed and where it is. Extra fields may amend
an entry: by numbers too large for its fixed part, by a name or a comment in UTF-8, or by a cipher.
-/

namespace JavaMachine

/-- An entry of an archive, as the central directory lists it. -/
structure ArchiveEntry where
  name : String
  /-- The bytes from which the name was read. -/
  rawName : List UInt8
  comment : String
  isEncrypted : Bool
  /-- Whether an extra field names a cipher. -/
  usesCipher : Bool := false
  method : Nat
  checksum : UInt32
  packedSize : Nat
  unpackedSize : Nat
  /-- The place of the header in front of the data. -/
  headerAt : Nat
  deriving DecidableEq, Repr, Inhabited

namespace ArchiveEntry

/-- The method of data that is stored as it is. -/
def storedMethod : Nat := 0

/-- The method of deflated data. -/
def deflatedMethod : Nat := 8

/-- The method that stands for a cipher, whose extra field names the actual one. -/
def cipherMethod : Nat := 99

/-- A number that the fixed part has no room for. -/
def tooLarge : Nat := 0xffffffff

/-! ## Extra fields -/

/-- What ends the reading of extra fields early. -/
inductive ExtraStop where
  /-- The data ends within a field. What was read until then is in force. -/
  | ended
  /-- A field contradicts itself or the entry. -/
  | rejected
  deriving DecidableEq, Repr

/-- Consumes extra fields and amends the entry to which they belong. -/
abbrev ExtraReader := ExceptT ExtraStop (StateM (ArchiveEntry × List UInt8))

/-- The entry as amended so far. -/
def amended : ExtraReader ArchiveEntry := return (← get).1

/-- Amends the entry. -/
def amend (change : ArchiveEntry → ArchiveEntry) : ExtraReader Unit :=
  modify fun (entry, rest) => (change entry, rest)

/-- Reads within the extra fields. -/
def extra {α : Type} (reader : FieldReader α) : ExtraReader α := do
  let (entry, rest) ← get
  match reader rest with
  | some (value, rest) => set (entry, rest); return value
  | none => throw .ended

/-- Passes over the next `size` bytes, as far as they are there. -/
def pass (size : Nat) : ExtraReader Unit :=
  modify fun (entry, rest) => (entry, rest.drop size)

/-- Goes on only if a condition holds. -/
def insist (condition : Bool) : ExtraReader Unit := do
  if !condition then throw .rejected

/-- A number in 64 bits, if a field of `size` bytes has it: a field with room for all three has them
all, and a smaller one those that do not fit into the fixed part. Returns how much was read. -/
def wideNumber (size current : Nat) (change : Nat → ArchiveEntry → ArchiveEntry) :
    ExtraReader Nat := do
  if 24 ≤ size ∨ current = tooLarge then
    amend (change (← extra (FieldReader.number 8)))
    return 8
  else return 0

/-- The field of the sizes and the place in 64 bits. -/
def wideNumbers (size : Nat) : ExtraReader Unit := do
  let first ← wideNumber size (← amended).unpackedSize fun number entry =>
    { entry with unpackedSize := number }
  let second ← wideNumber size (← amended).packedSize fun number entry =>
    { entry with packedSize := number }
  let third ← wideNumber size (← amended).headerAt fun number entry =>
    { entry with headerAt := number }
  insist (first + second + third ≤ size)
  pass (size - (first + second + third))

/-- The field of fine-grained times, which has a single form. -/
def fineTimes (size : Nat) : ExtraReader Unit := do
  insist (size = 32)
  extra (FieldReader.skip 4)
  insist ((← extra (FieldReader.number 2)) = 1)
  insist ((← extra (FieldReader.number 2)) = 24)
  extra (FieldReader.skip 24)

/-- The field of the times that a byte of flags announces. It has room for all of them, or for a
single one whatever the flags announce. -/
def announcedTimes (size : Nat) : ExtraReader Unit := do
  let flags ← extra (FieldReader.number 1)
  let announced := (List.range 8).countP fun position => flags.testBit position
  insist (size = 5 ∨ size = 1 + 4 * announced)
  pass (size - 1)

/-- The field of the cipher. -/
def cipher (size : Nat) : ExtraReader Unit := do
  insist (size = 7)
  let version ← extra (FieldReader.number 2)
  let vendor ← extra (FieldReader.number 2)
  let strength ← extra (FieldReader.number 1)
  let method ← extra (FieldReader.number 2)
  insist (vendor = 0x4541 ∧ (version = 1 ∨ version = 2) ∧ 1 ≤ strength ∧ strength ≤ 3)
  amend fun entry => { entry with usesCipher := true, method }

/-- A field of text in UTF-8 that takes the place of `replaced`, whose checksum it repeats. Returns
the bytes of the text and the text. -/
def replacement (size : Nat) (replaced : List UInt8) : ExtraReader (List UInt8 × String) := do
  extra (FieldReader.skip 1)
  let checksum ← extra (FieldReader.number 4)
  insist (5 ≤ size)
  let bytes ← extra (FieldReader.block (size - 5))
  insist ((Crc.checksum replaced).toNat = checksum)
  match Text.Utf8.decode bytes with
  | some text => return (bytes, text)
  | none => throw .rejected

/-- The contents of an extra field, given its kind and its size. -/
def extraField (kind size : Nat) : ExtraReader Unit := do
  match kind with
  | 0x0001 => wideNumbers size
  | 0x000a => fineTimes size
  | 0x5455 => announcedTimes size
  | 0x6375 =>
      let (_, comment) ← replacement size (← amended).comment.toUTF8.toList
      amend fun entry => { entry with comment }
  | 0x7075 =>
      let (rawName, name) ← replacement size (← amended).rawName
      amend fun entry => { entry with rawName, name }
  | 0x9901 => cipher size
  | _ => pass size

/-- The extra fields, of which there are at most `limit`. -/
def extraFields : (limit : Nat) → ExtraReader Unit
  | 0 => return ()
  | limit + 1 => do
      if (← get).2.isEmpty then return ()
      else
        let kind ← extra (FieldReader.number 2)
        let size ← extra (FieldReader.number 2)
        extraField kind size
        extraFields limit

/-- The entry after the amendments of its extra fields, if these are not rejected. -/
def amendBy? (entry : ArchiveEntry) (fields : List UInt8) : Option ArchiveEntry :=
  match (extraFields fields.length).run.run (entry, fields) with
  | (.error .rejected, _) => none
  | (_, amended, _) => some amended

/-! ## Listed entries -/

/-- The size of the fixed part. -/
def fixedSize : Nat := 46

/-- The sizes of the name, the extra fields and the comment behind the fixed part. -/
structure PartSizes where
  name : Nat
  extra : Nat
  comment : Nat
  deriving DecidableEq, Repr

/-- The text of a name or a comment. -/
def text (isUtf8 : Bool) (bytes : List UInt8) : String :=
  if isUtf8 then Text.Utf8.decodeLenient bytes else Text.CodePage437.decode bytes

/-- The fixed part: all that the entry tells but for its name and its comment, which are empty, and
whether these are in UTF-8, and the sizes of the parts that follow. -/
def fixedReader : FieldReader (ArchiveEntry × Bool × PartSizes) := do
  FieldReader.mark Archive.entryMark
  FieldReader.skip 4
  let flags ← FieldReader.number 2
  let method ← FieldReader.number 2
  FieldReader.skip 4
  let checksum ← FieldReader.number 4
  let packedSize ← FieldReader.number 4
  let unpackedSize ← FieldReader.number 4
  let name ← FieldReader.number 2
  let extra ← FieldReader.number 2
  let comment ← FieldReader.number 2
  FieldReader.skip 8
  let headerAt ← FieldReader.number 4
  let entry : ArchiveEntry := {
    name := "", rawName := [], comment := "", isEncrypted := flags.testBit 0, method
    checksum := UInt32.ofNat checksum, packedSize, unpackedSize, headerAt }
  return (entry, flags.testBit 11, { name, extra, comment })

/-- An entry of an archive that is shifted by `shift`, and its extra fields applied. -/
def reader (shift : Nat) (blank : ArchiveEntry) (isUtf8 : Bool) (sizes : PartSizes) :
    FieldReader ArchiveEntry := do
  let rawName ← FieldReader.block sizes.name
  let fields ← FieldReader.block sizes.extra
  let comment ← FieldReader.block sizes.comment
  let listed := { blank with
    name := text isUtf8 rawName, rawName, comment := text isUtf8 comment }
  let entry ← (listed.amendBy? fields : Option ArchiveEntry)
  let headerAt := entry.headerAt + shift
  if entry.method = cipherMethod ∧ !entry.usesCipher ∨ 1 <<< 64 ≤ headerAt then failure
  else return { entry with headerAt }

/-- The entry at a place, where one can be read, and the place behind it. -/
def ofPlace? (bytes : Array UInt8) (shift place : Nat) : Option (ArchiveEntry × Nat) := do
  let (blank, isUtf8, sizes) ← Archive.readAt? bytes place fixedSize fixedReader
  let size := sizes.name + sizes.extra + sizes.comment
  let entry ← Archive.readAt? bytes (place + fixedSize) size (reader shift blank isUtf8 sizes)
  return (entry, place + fixedSize + size)

/-- The entries of a directory of `count` entries from a place on, if all can be read. -/
def listed? (bytes : Array UInt8) (shift : Nat) : (count place : Nat) → Option (List ArchiveEntry)
  | 0, _ => some []
  | count + 1, place => do
      let (entry, next) ← ofPlace? bytes shift place
      return entry :: (← listed? bytes shift count next)

end ArchiveEntry
end JavaMachine

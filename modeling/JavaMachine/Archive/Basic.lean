import JavaMachine.Archive.EndRecord

/-!
# Archives

Zip archives: a central directory at the end lists the entries, each stored or deflated. Of entries
with one name the last one counts.
-/

namespace JavaMachine

/-- An archive: its bytes and its entries, in the order of the central directory. -/
structure Archive where
  bytes : Array UInt8
  entries : List ArchiveEntry
  deriving Inhabited

namespace Archive

/-- The entries that a directory lists, if it is sound and all can be read. -/
def entriesOf? (bytes : Array UInt8) (directory : Directory) : Option (List ArchiveEntry) :=
  if directory.isSound then
    ArchiveEntry.listed? bytes directory.shift directory.count directory.start
  else none

/-- The archive that ends at the first of the places from which a directory can be read. Where there
is none, the last fault of the end records decides, though one that is cut off does not displace
another; those ahead of a directory that cannot be read are judged afresh. -/
def endingAt (bytes : Array UInt8) :
    (places : List Nat) → (fault? : Option ArchiveFault) → Except ArchiveFault Archive
  | [], fault? => .error (fault?.getD .noEndRecord)
  | place :: places, fault? =>
      match EndRecord.ofPlace bytes place with
      | .error fault => endingAt bytes places (fault?.or (some fault))
      | .ok record =>
          match Directory.ofEndRecord bytes place record with
          | .error fault => endingAt bytes places (some fault)
          | .ok directory =>
              match entriesOf? bytes directory with
              | some entries => .ok ⟨bytes, entries⟩
              | none => endingAt bytes places none

/-- The archive written by `content`, looked for from its end on. -/
def parse (content : List UInt8) : Except ArchiveFault Archive :=
  let bytes := content.toArray
  endingAt bytes (marksBetween bytes endMark 0 bytes.size).reverse none

/-- The size of the fixed part of the header in front of an entry's data. -/
def localSize : Nat := 30

/-- The sizes of the name and the extra fields that follow the fixed part of such a header. -/
def localSizes : FieldReader (Nat × Nat) := do
  FieldReader.mark localMark
  FieldReader.skip 22
  let name ← FieldReader.number 2
  let extra ← FieldReader.number 2
  return (name, extra)

/-- The bytes of an entry as they are packed, as far as the file has them. -/
def packed (archive : Archive) (entry : ArchiveEntry) : Except ArchiveFault (List UInt8) :=
  if archive.bytes.size < entry.headerAt + localSize then .error .cutOff
  else
    match readAt? archive.bytes entry.headerAt localSize localSizes with
    | none => .error .badEntryHeader
    | some (name, extra) =>
        .ok (sliceAt archive.bytes (entry.headerAt + localSize + name + extra) entry.packedSize)

/-- The bytes that an entry stands for, given those that are packed. -/
def unpack (entry : ArchiveEntry) (packed : List UInt8) : Except ArchiveFault (List UInt8) :=
  if entry.method = ArchiveEntry.storedMethod then .ok packed
  else
    match Inflate.inflate packed with
    | .ok content => .ok content
    | .error fault => .error (.undecodable fault)

/-- The methods that an entry may have. -/
def knownMethods : List Nat :=
  [ArchiveEntry.storedMethod, ArchiveEntry.deflatedMethod, ArchiveEntry.cipherMethod]

/-- The data of an entry. -/
def dataOf (archive : Archive) (entry : ArchiveEntry) : Except ArchiveFault (List UInt8) := do
  if entry.isEncrypted then throw .encrypted
  let packed ← archive.packed entry
  if !knownMethods.contains entry.method then throw .unknownMethod
  if entry.usesCipher then throw .wrongPassword
  let content ← unpack entry packed
  if Crc.checksum content ≠ entry.checksum then throw .wrongChecksum
  return content

/-- The data of the entry named `name`, if there is one. -/
def read? (archive : Archive) (name : String) : Except ArchiveFault (Option (List UInt8)) :=
  match archive.entries.reverse.find? fun entry => entry.name = name with
  | none => .ok none
  | some entry => (archive.dataOf entry).map some

end Archive
end JavaMachine

import JavaMachine.Archive.Entry
import JavaMachine.Archive.Fault

/-!
# The end of an archive

An archive ends in a record that tells where the central directory is. Numbers too large for it
stand in a 64-bit record ahead of it, to which a locator between the two leads. Bytes may stand in
front of an archive; they shift every place that its records name.
-/

namespace JavaMachine.Archive

/-- The record at the end of an archive. -/
structure EndRecord where
  disk : Nat
  /-- The disk on which the central directory begins. -/
  directoryDisk : Nat
  countOnDisk : Nat
  count : Nat
  directoryAt : Nat
  commentSize : Nat
  deriving DecidableEq, Repr

/-- The record that leads to the 64-bit end record. -/
structure Locator where
  directoryDisk : Nat
  recordAt : Nat
  disks : Nat
  deriving DecidableEq, Repr

/-- The 64-bit end record. -/
structure WideEndRecord where
  /-- The size without the mark and this field. -/
  size : Nat
  disk : Nat
  directoryDisk : Nat
  countOnDisk : Nat
  count : Nat
  directoryAt : Nat
  deriving DecidableEq, Repr

/-- What the end of an archive tells about its central directory. -/
structure Directory where
  /-- How far the archive is from the beginning of the file. -/
  shift : Nat
  /-- The place of the first entry in the file. -/
  start : Nat
  /-- The number of entries. -/
  count : Nat
  /-- Whether the record that tells this agrees with itself and names a single disk. -/
  isSound : Bool
  deriving DecidableEq, Repr

namespace EndRecord

/-- The size of the fixed part. -/
def fixedSize : Nat := 22

/-- The fixed part. -/
def reader : FieldReader EndRecord := do
  FieldReader.mark endMark
  let disk ← FieldReader.number 2
  let directoryDisk ← FieldReader.number 2
  let countOnDisk ← FieldReader.number 2
  let count ← FieldReader.number 2
  FieldReader.skip 4
  let directoryAt ← FieldReader.number 4
  let commentSize ← FieldReader.number 2
  return { disk, directoryDisk, countOnDisk, count, directoryAt, commentSize }

/-- The end record at a place where its mark stands. -/
def ofPlace (bytes : Array UInt8) (place : Nat) : Except ArchiveFault EndRecord :=
  match readAt? bytes place fixedSize reader with
  | none => .error .cutOff
  | some record =>
      if bytes.size < place + fixedSize + record.commentSize then .error .longComment
      else .ok record

/-- Whether a number has the value that stands for one too large for the record. -/
def mayBeWide (record : EndRecord) : Bool :=
  record.count = 0xffff ∨ record.directoryAt = 0xffffffff

/-- The directory that the end record at `place` tells of by itself. Where it counts no entry the
directory ends at the record; otherwise the first mark of an entry from the named place on shows
how far the archive is shifted. -/
def directory (bytes : Array UInt8) (place : Nat) (record : EndRecord) :
    Except ArchiveFault Directory :=
  let shiftedBy (shift : Nat) : Directory := {
    shift
    start := record.directoryAt + shift
    count := record.countOnDisk
    isSound := record.disk = record.directoryDisk }
  if record.count = 0 then .ok (shiftedBy (place - record.directoryAt))
  else if place ≤ record.directoryAt then .error .directoryBehindEnd
  else
    match (marksBetween bytes entryMark record.directoryAt place).head? with
    | some first => .ok (shiftedBy (first - record.directoryAt))
    | none => .error .noDirectory

end EndRecord

namespace Locator

/-- The size of a locator. -/
def fixedSize : Nat := 20

/-- A locator. -/
def reader : FieldReader Locator := do
  FieldReader.mark locatorMark
  let directoryDisk ← FieldReader.number 4
  let recordAt ← FieldReader.number 8
  let disks ← FieldReader.number 4
  return { directoryDisk, recordAt, disks }

/-- The place of the locator of the end record at `place`, and the locator, if there is one. -/
def ahead? (bytes : Array UInt8) (place : Nat) : Option (Nat × Locator) :=
  if place < fixedSize then none
  else (readAt? bytes (place - fixedSize) fixedSize reader).map (place - fixedSize, ·)

end Locator

namespace WideEndRecord

/-- The size of the fixed part. -/
def fixedSize : Nat := 56

/-- The fixed part. -/
def reader : FieldReader WideEndRecord := do
  FieldReader.mark wideEndMark
  let size ← FieldReader.number 8
  FieldReader.skip 4
  let disk ← FieldReader.number 4
  let directoryDisk ← FieldReader.number 4
  let countOnDisk ← FieldReader.number 8
  let count ← FieldReader.number 8
  FieldReader.skip 8
  let directoryAt ← FieldReader.number 8
  return { size, disk, directoryDisk, countOnDisk, count, directoryAt }

/-- The size that counts the mark and the field of the size too. -/
def wholeSize (record : WideEndRecord) : Nat := record.size + 12

/-- Where the directory would end if its entries had nothing but their fixed parts. -/
def leastEnd (record : WideEndRecord) : Nat :=
  record.directoryAt + record.count * ArchiveEntry.fixedSize

/-- The directory of which the 64-bit end record at `place` tells, given the locator that stands at
`locatorAt` and led there. -/
def directory (bytes : Array UInt8) (locatorAt : Nat) (locator : Locator) (place : Nat) :
    Except ArchiveFault Directory :=
  match readAt? bytes place fixedSize reader with
  | none => .error .cutOff
  | some record =>
      if record.wholeSize < fixedSize then .error .shortWideRecord
      else if locatorAt - place < record.wholeSize then .error .longWideRecord
      else if record.directoryDisk ≠ locator.directoryDisk then .error .locatorMismatch
      else if record.wholeSize ≠ locatorAt - place then .error .wrongWideSize
      else if place < record.leastEnd then .error .tooManyEntries
      else
        let shift := place - locator.recordAt
        .ok {
          shift
          start := record.directoryAt + shift
          count := record.count
          isSound := record.countOnDisk ≤ record.count ∧ record.disk = record.directoryDisk }

/-- The directory of which the first acceptable 64-bit end record tells at one of the places, or
else the fault of the last one. -/
def firstDirectory (bytes : Array UInt8) (locatorAt : Nat) (locator : Locator) :
    (places : List Nat) → (fault : ArchiveFault) → Except ArchiveFault Directory
  | [], fault => .error fault
  | place :: places, _ =>
      match directory bytes locatorAt locator place with
      | .ok found => .ok found
      | .error fault => firstDirectory bytes locatorAt locator places fault

/-- The directory to which a locator leads. As the archive may be shifted, the record is looked for
from the named place on. -/
def locatedDirectory (bytes : Array UInt8) (locatorAt : Nat) (locator : Locator) :
    Except ArchiveFault Directory :=
  if locatorAt ≤ locator.recordAt then .error .locatorBehindRecord
  else if 1 < locator.disks then .error .severalDisks
  else
    firstDirectory bytes locatorAt locator
      (marksBetween bytes wideEndMark locator.recordAt locatorAt) .noWideRecord

end WideEndRecord

/-- The directory of which the end record at a place tells, in company of a 64-bit one if there is
a locator. -/
def Directory.ofEndRecord (bytes : Array UInt8) (place : Nat) (record : EndRecord) :
    Except ArchiveFault Directory :=
  match if record.mayBeWide then Locator.ahead? bytes place else none with
  | some (locatorAt, locator) => WideEndRecord.locatedDirectory bytes locatorAt locator
  | none => record.directory bytes place

end JavaMachine.Archive

import JavaMachine.Bytes

/-!
# Fields of archive records

The records of an archive consist of little-endian numbers and blocks of bytes, and each kind of
record opens with a mark of its own. Places are counted from the beginning of the file.
-/

namespace JavaMachine

/-- Consumes fields from the front of a byte sequence; none where it ends too early. -/
abbrev FieldReader := StateT (List UInt8) Option

namespace FieldReader

/-- A number of `width` bytes, lowest first. -/
def number : (width : Nat) → FieldReader Nat
  | 0 => return 0
  | width + 1 => fun
    | [] => none
    | low :: rest => do
        let (high, rest) ← number width rest
        return (low.toNat + 0x100 * high, rest)

/-- A block of `size` bytes. -/
def block (size : Nat) : FieldReader (List UInt8) := Reader.splitExactly size

/-- Passes over a block of `size` bytes. -/
def skip (size : Nat) : FieldReader Unit := do
  let _ ← block size

/-- Passes over a mark, which has to be the given one. -/
def mark (expected : Nat) : FieldReader Unit := do
  if (← number 4) ≠ expected then fun _ => none

end FieldReader

namespace Archive

/-- The mark of the header in front of an entry's data. -/
def localMark : Nat := 0x04034b50

/-- The mark of an entry of the central directory. -/
def entryMark : Nat := 0x02014b50

/-- The mark of the end record. -/
def endMark : Nat := 0x06054b50

/-- The mark of the 64-bit end record. -/
def wideEndMark : Nat := 0x06064b50

/-- The mark of the record that leads to the 64-bit end record. -/
def locatorMark : Nat := 0x07064b50

/-- At most `size` bytes from a place on. -/
def sliceAt (bytes : Array UInt8) (place size : Nat) : List UInt8 :=
  (bytes.extract place (place + size)).toList

/-- What `reader` reads in the `size` bytes from a place on. -/
def readAt? {α : Type} (bytes : Array UInt8) (place size : Nat) (reader : FieldReader α) :
    Option α :=
  reader.run' (sliceAt bytes place size)

/-- Whether a mark stands at a place. -/
def hasMark (bytes : Array UInt8) (mark place : Nat) : Bool :=
  readAt? bytes place 4 (FieldReader.number 4) = some mark

/-- The places from `first` on at which a whole mark stands ahead of `stop`, in order. -/
def marksBetween (bytes : Array UInt8) (mark first stop : Nat) : List Nat :=
  ((List.range (stop - 3 - first)).map (first + ·)).filter (hasMark bytes mark)

end Archive
end JavaMachine

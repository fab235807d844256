/-!
# Reading and writing bytes

Big-endian numbers, counted lists and sized blocks, in both directions. A reader consumes a front
part of its input or reports the damage it met, together with the number of bytes left there.
-/

namespace JavaMachine

/-- What makes a byte sequence unreadable. -/
inductive Damage where
  /-- The input ends too early or too late, with `left` bytes at that place. -/
  | misplacedEnd (left : Nat)
  /-- A mark is none of the expected ones, with `left` bytes at that place. -/
  | unknownMark (left : Nat)
  /-- A block is shorter than its announced size. -/
  | truncated
  deriving DecidableEq, Repr

namespace Damage

/-- The report of a damage. -/
def message : Damage → String
  | misplacedEnd left => s!"Eof with {left} bytes left"
  | unknownMark left => s!"Tag with {left} bytes left"
  | truncated => "truncated class file"

end Damage

/-- Consumes a front part of a byte sequence. -/
abbrev Reader := StateT (List UInt8) (Except Damage)

namespace Reader

/-- One byte. -/
def u1 : Reader UInt8
  | byte :: rest => .ok (byte, rest)
  | [] => .error (.misplacedEnd 0)

/-- A number of two bytes. -/
def u2 : Reader UInt16
  | high :: low :: rest => .ok (UInt16.ofNat (high.toNat * 0x100 + low.toNat), rest)
  | short => .error (.misplacedEnd short.length)

/-- A number of four bytes. -/
def u4 : Reader UInt32
  | first :: second :: third :: fourth :: rest =>
      .ok (UInt32.ofNat
        (((first.toNat * 0x100 + second.toNat) * 0x100 + third.toNat) * 0x100 + fourth.toNat), rest)
  | short => .error (.misplacedEnd short.length)

/-- Splits `size` elements off the front, where there are that many. -/
def splitExactly {α : Type} : Nat → List α → Option (List α × List α)
  | 0, rest => some ([], rest)
  | _ + 1, [] => none
  | size + 1, head :: rest =>
      (splitExactly size rest).map fun (front, back) => (head :: front, back)

/-- A block of `size` bytes, whose absence is a truncation. -/
def block (size : Nat) : Reader (List UInt8) := fun input =>
  match splitExactly size input with
  | some parts => .ok parts
  | none => .error .truncated

/-- A block of `size` bytes inside an attribute, whose absence is a misplaced end. -/
def innerBlock (size : Nat) : Reader (List UInt8) := fun input =>
  match splitExactly size input with
  | some parts => .ok parts
  | none => .error (.misplacedEnd input.length)

/-- What `reader` reads, `count` times. -/
def times {α : Type} (reader : Reader α) : Nat → Reader (List α)
  | 0 => pure []
  | count + 1 => do
      let head ← reader
      let rest ← times reader count
      return head :: rest

/-- A list that is preceded by its length, a number of two bytes. -/
def counted {α : Type} (reader : Reader α) : Reader (List α) := do
  let count ← u2
  times reader count.toNat

/-- Insists on the end of the input. -/
def finished : Reader Unit
  | [] => .ok ((), [])
  | left => .error (.misplacedEnd left.length)

end Reader

namespace Bytes

/-- The two bytes of a number. -/
def u2 (number : UInt16) : List UInt8 :=
  [UInt8.ofNat (number.toNat / 0x100), UInt8.ofNat number.toNat]

/-- The four bytes of a number. -/
def u4 (number : UInt32) : List UInt8 :=
  [UInt8.ofNat (number.toNat / 0x1000000), UInt8.ofNat (number.toNat / 0x10000),
    UInt8.ofNat (number.toNat / 0x100), UInt8.ofNat number.toNat]

/-- A list preceded by its length. -/
def counted {α : Type} (write : α → List UInt8) (items : List α) : List UInt8 :=
  u2 (UInt16.ofNat items.length) ++ items.flatMap write

end Bytes
end JavaMachine

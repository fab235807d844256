/-!
# Deflated data

Reads the deflate format: a sequence of blocks, each stored, or coded with a fixed or an announced
pair of canonical prefix codes. Each step consumes a bit at least, so the number of bits limits the
number of steps. Of several faults the one that shows up first in reading order counts.
-/

namespace JavaMachine.Inflate

/-- Why data cannot be inflated. -/
inductive Fault where
  /-- The data ends before its last block does. -/
  | incomplete
  | corrupt
  deriving DecidableEq, Repr

/-- The bits of a byte, lowest first. -/
def bitsOfByte (byte : UInt8) : List Bool :=
  (List.range 8).map fun position => byte.toNat.testBit position

/-- The bits of a byte sequence, in reading order. -/
def bitsOf (bytes : List UInt8) : List Bool := bytes.flatMap bitsOfByte

/-- Consumes bits from the front. -/
abbrev BitReader := StateT (List Bool) (Except Fault)

/-- One bit. -/
def bit : BitReader Bool
  | head :: rest => .ok (head, rest)
  | [] => .error .incomplete

/-- A number of `width` bits, lowest first. -/
def number : Nat → BitReader Nat
  | 0 => return 0
  | width + 1 => do
      let low ← bit
      let high ← number width
      return low.toNat + 2 * high

/-- Passes over the rest of the current byte. -/
def alignToByte : BitReader Unit := fun bits => .ok ((), bits.drop (bits.length % 8))

/-- Reads as many items as asked for. -/
def times {α : Type} (reader : BitReader α) : Nat → BitReader (List α)
  | 0 => return []
  | count + 1 => do
      let head ← reader
      return head :: (← times reader count)

/-- A canonical prefix code: how many codewords have each length from 1 on, up to the longest, and
the symbols in the order of their codewords. -/
structure PrefixCode where
  counts : List Nat
  symbols : Array Nat

/-- The greatest length that a codeword may have. -/
def lengthLimit : Nat := 15

/-- The length of the longest codeword. -/
def longest (lengths : List Nat) : Nat := lengths.foldl max 0

/-- The code in which symbol `i` has a codeword of length `lengths[i]`, none for length 0. -/
def PrefixCode.ofLengths (lengths : List Nat) : PrefixCode :=
  let widths := (List.range (max 1 (longest lengths))).map (· + 1)
  { counts := widths.map fun width => lengths.count width
    symbols := (widths.flatMap fun width =>
      (lengths.zipIdx.filter fun item => item.1 = width).map Prod.snd).toArray }

/-- The code with two codewords, which both stand for symbol 0. -/
def PrefixCode.alwaysZero : PrefixCode := { counts := [2], symbols := #[0, 0] }

/-- The space of codewords, in units of the smallest share. -/
def space : Nat := 1 <<< lengthLimit

/-- How much of the space of codewords is taken. -/
def taken (lengths : List Nat) : Nat :=
  (lengths.filter (· ≠ 0)).foldl (fun total length => total + 1 <<< (lengthLimit - length)) 0

/-- Whether the codewords take the whole space, so that every sequence of bits begins with one. -/
def isComplete (lengths : List Nat) : Bool := taken lengths = space

/-- Reads a codeword bit by bit. Of the codewords of the current length the first is `first` and
stands at `index` among the symbols. -/
def symbolFrom (symbols : Array Nat) :
    (counts : List Nat) → (code first index : Nat) → BitReader Nat
  | [], _, _, _ => throw .corrupt
  | count :: counts, code, first, index => do
      let next ← bit
      let code := 2 * code + next.toNat
      if code < first + count then
        match symbols[index + (code - first)]? with
        | some symbol => return symbol
        | none => throw .corrupt
      else symbolFrom symbols counts code (2 * (first + count)) (index + count)

/-- One symbol of a code. -/
def symbol (code : PrefixCode) : BitReader Nat := symbolFrom code.symbols code.counts 0 0 0

/-- The symbol of the end mark. -/
def endSymbol : Nat := 256

/-- Base length and extra bits of the length symbols. -/
def lengthTable : List (Nat × Nat) :=
  [(3, 0), (4, 0), (5, 0), (6, 0), (7, 0), (8, 0), (9, 0), (10, 0), (11, 1), (13, 1), (15, 1),
    (17, 1), (19, 2), (23, 2), (27, 2), (31, 2), (35, 3), (43, 3), (51, 3), (59, 3), (67, 4),
    (83, 4), (99, 4), (115, 4), (131, 5), (163, 5), (195, 5), (227, 5), (258, 0)]

/-- Base distance and extra bits of the distance symbols. -/
def distanceTable : List (Nat × Nat) :=
  [(1, 0), (2, 0), (3, 0), (4, 0), (5, 1), (7, 1), (9, 2), (13, 2), (17, 3), (25, 3), (33, 4),
    (49, 4), (65, 5), (97, 5), (129, 6), (193, 6), (257, 7), (385, 7), (513, 8), (769, 8),
    (1025, 9), (1537, 9), (2049, 10), (3073, 10), (4097, 11), (6145, 11), (8193, 12), (12289, 12),
    (16385, 13), (24577, 13)]

/-- A base value plus the extra bits that a symbol asks for. -/
def extended (table : List (Nat × Nat)) (index : Nat) : BitReader Nat :=
  match table[index]? with
  | some (base, width) => return base + (← number width)
  | none => throw .corrupt

/-- Repeats `count` bytes that stand `distance` before the end. -/
def copyBack (output : Array UInt8) (distance : Nat) : Nat → Array UInt8
  | 0 => output
  | count + 1 =>
      copyBack (output.push (output.getD (output.size - distance) 0)) distance count

/-- Reads coded data up to the end mark, in at most `limit` symbols. -/
def coded (literals distances : PrefixCode) : (limit : Nat) → Array UInt8 → BitReader (Array UInt8)
  | 0, _ => throw .incomplete
  | limit + 1, output => do
      let mark ← symbol literals
      if mark < endSymbol then coded literals distances limit (output.push (UInt8.ofNat mark))
      else if mark = endSymbol then return output
      else
        let count ← extended lengthTable (mark - (endSymbol + 1))
        let distance ← extended distanceTable (← symbol distances)
        if output.size < distance then throw .corrupt
        else coded literals distances limit (copyBack output distance count)

/-- A stored block: its size, the complement of it, and the bytes. -/
def storedBlock (output : Array UInt8) : BitReader (Array UInt8) := do
  alignToByte
  let size ← number 16
  let complement ← number 16
  if size + complement ≠ 0xffff then throw .corrupt
  else
    let bytes ← times (number 8) size
    return output ++ (bytes.map UInt8.ofNat).toArray

/-- The literal code that needs no announcement. -/
def fixedLiterals : PrefixCode :=
  .ofLengths <| List.replicate 144 8 ++ List.replicate 112 9 ++ List.replicate 24 7 ++
    List.replicate 8 8

/-- The distance code that needs no announcement. Its last two symbols have no meaning. -/
def fixedDistances : PrefixCode := .ofLengths (List.replicate 32 5)

/-- The order in which the lengths of the length code are announced. -/
def announcedOrder : List Nat := [16, 17, 18, 0, 8, 7, 9, 6, 10, 5, 11, 4, 12, 3, 13, 2, 14, 1, 15]

/-- The code for codeword lengths that a block announces, which has to be complete. Where no symbol
has a codeword, each bit stands for the length 0. -/
def lengthCode (lengths : List Nat) : BitReader PrefixCode :=
  if longest lengths = 0 then return .alwaysZero
  else if isComplete lengths then return .ofLengths lengths
  else throw .corrupt

/-- A code for literals or distances that a block announces. It has to be complete, unless it has a
single codeword of one bit or none at all. -/
def announcedCode (lengths : List Nat) : BitReader PrefixCode :=
  if isComplete lengths ∨ longest lengths ≤ 1 ∧ taken lengths < space then
    return .ofLengths lengths
  else throw .corrupt

/-- The lengths for which a symbol of the length code stands, given the length before them. -/
def runOf (last? : Option Nat) (mark : Nat) : BitReader (List Nat) := do
  if mark < 16 then return [mark]
  else if mark = 16 then
    let count ← number 2
    match last? with
    | some last => return List.replicate (count + 3) last
    | none => throw .corrupt
  else if mark = 17 then return List.replicate ((← number 3) + 3) 0
  else return List.replicate ((← number 7) + 11) 0

/-- Reads codeword lengths until there are `wanted`, in at most `limit` symbols; `found` holds those
read so far, last first. -/
def codeLengths (code : PrefixCode) (wanted : Nat) : (limit : Nat) → List Nat → BitReader (List Nat)
  | 0, found => return found.reverse
  | limit + 1, found => do
      if wanted ≤ found.length then return found.reverse
      else
        let run ← runOf found.head? (← symbol code)
        if wanted < found.length + run.length then throw .corrupt
        else codeLengths code wanted limit (run ++ found)

/-- The two codes that a block announces. -/
def announcedCodes : BitReader (PrefixCode × PrefixCode) := do
  let literalCount := (← number 5) + 257
  let distanceCount := (← number 5) + 1
  let announced := (← number 4) + 4
  if 286 < literalCount ∨ 30 < distanceCount then throw .corrupt
  let widths ← times (number 3) announced
  let assigned := (announcedOrder.take announced).zip widths
  let code ← lengthCode ((List.range 19).map fun mark => (assigned.lookup mark).getD 0)
  let wanted := literalCount + distanceCount
  let lengths ← codeLengths code wanted wanted []
  if lengths.getD endSymbol 0 = 0 then throw .corrupt
  let literals ← announcedCode (lengths.take literalCount)
  let distances ← announcedCode (lengths.drop literalCount)
  return (literals, distances)

/-- Reads blocks up to the last one, at most `limit` of them. -/
def blocks (symbolLimit : Nat) : (limit : Nat) → Array UInt8 → BitReader (Array UInt8)
  | 0, _ => throw .incomplete
  | limit + 1, output => do
      let last ← bit
      let kind ← number 2
      let output ←
        match kind with
        | 0 => storedBlock output
        | 1 => coded fixedLiterals fixedDistances symbolLimit output
        | 2 => do
            let (literals, distances) ← announcedCodes
            coded literals distances symbolLimit output
        | _ => throw .corrupt
      if last then return output else blocks symbolLimit limit output

/-- The data that `bytes` deflate. Bytes behind the last block have no meaning. -/
def inflate (bytes : List UInt8) : Except Fault (List UInt8) := do
  let bits := bitsOf bytes
  let output ← (blocks bits.length bits.length #[]).run' bits
  return output.toList

end JavaMachine.Inflate

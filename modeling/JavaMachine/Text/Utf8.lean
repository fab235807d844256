/-!
# UTF-8

Reads UTF-8. A character takes one to four bytes, and the first of them tells how many follow and in
which ranges these lie. Bytes that begin no character, or begin one that then breaks off, are an
invalid part, which is as long as they fit. Reading refuses invalid parts; lenient reading puts the
replacement character in the place of each.
-/

namespace JavaMachine.Text.Utf8

/-- The range of bytes that may follow within a character. -/
def anyFollower : UInt8 × UInt8 := (0x80, 0xBF)

/-- The ranges of the bytes that follow a first byte, and none for a byte that begins no character.
They leave out overlong forms, surrogates and codes beyond U+10FFFF. -/
def followers? (first : UInt8) : Option (List (UInt8 × UInt8)) :=
  if first < 0x80 then some []
  else if first < 0xC2 then none
  else if first < 0xE0 then some [anyFollower]
  else if first = 0xE0 then some [(0xA0, 0xBF), anyFollower]
  else if first = 0xED then some [(0x80, 0x9F), anyFollower]
  else if first < 0xF0 then some [anyFollower, anyFollower]
  else if first = 0xF0 then some [(0x90, 0xBF), anyFollower, anyFollower]
  else if first < 0xF4 then some [anyFollower, anyFollower, anyFollower]
  else if first = 0xF4 then some [(0x80, 0x8F), anyFollower, anyFollower]
  else none

/-- The bytes that lie in the ranges, as far as they do, and what comes after them. -/
def splitFitting : (ranges : List (UInt8 × UInt8)) → List UInt8 → List UInt8 × List UInt8
  | (low, high) :: ranges, byte :: rest =>
      if low ≤ byte ∧ byte ≤ high then
        let (fitting, after) := splitFitting ranges rest
        (byte :: fitting, after)
      else ([], byte :: rest)
  | _, rest => ([], rest)

theorem length_splitFitting (ranges : List (UInt8 × UInt8)) (bytes : List UInt8) :
    (splitFitting ranges bytes).1.length + (splitFitting ranges bytes).2.length = bytes.length := by
  fun_induction splitFitting ranges bytes with
  | case1 low high ranges byte rest inRange fitting after split ih =>
      simp only [split] at ih
      simp only [List.length_cons]
      omega
  | case2 => simp
  | case3 => simp

/-- The payload bits of a first byte that `count` bytes follow. -/
def leadingBits (first : UInt8) : (count : Nat) → Nat
  | 0 => first.toNat
  | count + 1 => first.toNat % (1 <<< (5 - count))

/-- The character of a first byte and all that follow it. -/
def charOf (first : UInt8) (following : List UInt8) : Char :=
  Char.ofNat (following.foldl (fun code byte => code * 0x40 + byte.toNat % 0x40)
    (leadingBits first following.length))

/-- The characters written by `bytes`, with none for each invalid part. -/
def parts : (bytes : List UInt8) → List (Option Char)
  | [] => []
  | first :: rest =>
      match followers? first with
      | none => none :: parts rest
      | some ranges =>
          let split := splitFitting ranges rest
          let char := if split.1.length = ranges.length then some (charOf first split.1) else none
          char :: parts split.2
  termination_by bytes => bytes.length
  decreasing_by
    · simp
    · have := length_splitFitting ranges rest
      simp only [List.length_cons]
      omega

/-- The text written by `bytes`; none where a part is invalid. -/
def decode (bytes : List UInt8) : Option String := ((parts bytes).mapM id).map String.ofList

/-- The text written by `bytes`, with the replacement character for each invalid part. -/
def decodeLenient (bytes : List UInt8) : String :=
  String.ofList ((parts bytes).map fun part => part.getD '\uFFFD')

end JavaMachine.Text.Utf8

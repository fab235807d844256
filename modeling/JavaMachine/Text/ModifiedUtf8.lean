/-!
# Modified UTF-8

The text form of class files. Texts are read and written by a codec, which checks bytes, turns those
that pass into text, and text into such bytes. In the codec here a character up to U+FFFF takes one
to three bytes as in UTF-8, except that NUL takes the two bytes `C0 80`; a supplementary character is
written as its two surrogates, of three bytes each. It accepts exactly what it writes.
-/

namespace JavaMachine.Text.ModifiedUtf8

/-! ### Codecs -/

/-- What texts are read and written by. -/
structure Codec where
  /-- Bytes that have passed the check. -/
  Checked : Type
  check : List UInt8 → Option Checked
  text : Checked → String
  ofText : String → Checked
  bytes : Checked → List UInt8

namespace Codec

/-- The text that bytes stand for; none where they do not pass the check. -/
def decode (codec : Codec) (bytes : List UInt8) : Option String :=
  (codec.check bytes).map codec.text

/-- The bytes of a text. -/
def encode (codec : Codec) (text : String) : List UInt8 := codec.bytes (codec.ofText text)

end Codec

/-! ### The codec in use -/

/-- The three-byte form of a code unit. -/
def threeBytes (unit : Nat) : List UInt8 :=
  [UInt8.ofNat (0xE0 + unit / 0x1000), UInt8.ofNat (0x80 + unit / 0x40 % 0x40),
    UInt8.ofNat (0x80 + unit % 0x40)]

/-- The bytes of one character. -/
def encodeChar (char : Char) : List UInt8 :=
  let code := char.toNat
  if code = 0 then [0xC0, 0x80]
  else if code < 0x80 then [UInt8.ofNat code]
  else if code < 0x800 then [UInt8.ofNat (0xC0 + code / 0x40), UInt8.ofNat (0x80 + code % 0x40)]
  else if code < 0x10000 then threeBytes code
  else
    threeBytes (0xD800 + (code - 0x10000) / 0x400) ++
      threeBytes (0xDC00 + (code - 0x10000) % 0x400)

/-- The six payload bits of a continuation byte. -/
def continuation? (byte : UInt8) : Option Nat :=
  if 0x80 ≤ byte ∧ byte < 0xC0 then some (byte.toNat - 0x80) else none

/-- Reads a two-byte character: NUL, or a code from U+0080 on. -/
def twoByteChar? (first second : UInt8) : Option Char := do
  let low ← continuation? second
  let code := (first.toNat - 0xC0) * 0x40 + low
  if code = 0 ∨ 0x80 ≤ code then some (Char.ofNat code) else none

/-- Reads a three-byte code unit, surrogates included. -/
def threeByteUnit? (first second third : UInt8) : Option Nat := do
  if first < 0xE0 ∨ 0xF0 ≤ first then none
  let middle ← continuation? second
  let low ← continuation? third
  let unit := (first.toNat - 0xE0) * 0x1000 + middle * 0x40 + low
  if unit < 0x800 then none else some unit

/-- The characters written by `bytes`; none where they are not a written form. -/
def decodeChars : List UInt8 → Option (List Char)
  | [] => some []
  | first :: rest =>
      if first = 0 then none
      else if first < 0x80 then (decodeChars rest).map (Char.ofNat first.toNat :: ·)
      else
        match rest with
        | [] => none
        | second :: rest =>
            if first < 0xC0 then none
            else if first < 0xE0 then do
              let char ← twoByteChar? first second
              (decodeChars rest).map (char :: ·)
            else
              match rest with
              | [] => none
              | third :: rest => do
                  let unit ← threeByteUnit? first second third
                  if unit < 0xD800 ∨ 0xE000 ≤ unit then
                    (decodeChars rest).map (Char.ofNat unit :: ·)
                  else if 0xDC00 ≤ unit then none
                  else
                    match rest with
                    | fourth :: fifth :: sixth :: rest => do
                        let low ← threeByteUnit? fourth fifth sixth
                        if low < 0xDC00 ∨ 0xE000 ≤ low then none
                        let code := 0x10000 + (unit - 0xD800) * 0x400 + (low - 0xDC00)
                        (decodeChars rest).map (Char.ofNat code :: ·)
                    | _ => none

/-- Bytes that have passed the check are kept as the characters that they stand for. -/
def codec : Codec where
  Checked := List Char
  check := decodeChars
  text := String.ofList
  ofText := String.toList
  bytes chars := chars.flatMap encodeChar

/-- The text that bytes stand for. -/
def decode (bytes : List UInt8) : Option String := codec.decode bytes

/-- The bytes of a text. -/
def encode (text : String) : List UInt8 := codec.encode text

end JavaMachine.Text.ModifiedUtf8

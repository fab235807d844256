/-!
# Code page 437

The one-byte character set of names in archives that do not announce UTF-8. Its lower half is ASCII.
-/

namespace JavaMachine.Text.CodePage437

/-- The characters of the bytes from 80 on. -/
def upperHalf : Array Char :=
  ("ÇüéâäàåçêëèïîìÄÅÉæÆôöòûùÿÖÜ¢£¥₧ƒáíóúñÑªº¿⌐¬½¼¡«»" ++
    "░▒▓│┤╡╢╖╕╣║╗╝╜╛┐└┴┬├─┼╞╟╚╔╩╦╠═╬╧╨╤╥╙╘╒╓╫╪┘┌█▄▌▐▀" ++
    "αßΓπΣσµτΦΘΩδ∞φε∩≡±≥≤⌠⌡÷≈°∙·√ⁿ²■\u00A0").toList.toArray

/-- The character of a byte. -/
def charOf (byte : UInt8) : Char :=
  if byte < 0x80 then Char.ofNat byte.toNat
  else upperHalf.getD (byte.toNat - 0x80) (Char.ofNat byte.toNat)

/-- The text written by `bytes`. -/
def decode (bytes : List UInt8) : String := String.ofList (bytes.map charOf)

end JavaMachine.Text.CodePage437

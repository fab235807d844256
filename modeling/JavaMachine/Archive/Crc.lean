/-!
# Cyclic redundancy check

The 32-bit checksum of archive entries: the remainder of the reflected polynomial `EDB88320`, with
start value and result complemented.
-/

namespace JavaMachine.Crc

/-- One step of the division, for the lowest bit. -/
def step (remainder : UInt32) : UInt32 :=
  if remainder &&& 1 = 1 then (remainder >>> 1) ^^^ 0xedb88320 else remainder >>> 1

/-- The division by one more byte. -/
def update (remainder : UInt32) (byte : UInt8) : UInt32 :=
  (List.range 8).foldl (fun current _ => step current) (remainder ^^^ byte.toUInt32)

/-- The checksum of `bytes`. -/
def checksum (bytes : List UInt8) : UInt32 := ~~~(bytes.foldl update 0xffffffff)

end JavaMachine.Crc

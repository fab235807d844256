/-!
# Numeric constants

The numbers behind the bit patterns of class files. Floating-point numbers stay bit patterns; every
pattern of a NaN stands for the one NaN of the machine.
-/

namespace JavaMachine.Number

/-- The single-precision number of a bit pattern. -/
def single (bits : UInt32) : UInt32 :=
  if bits &&& 0x7fffffff > 0x7f800000 then 0x7fc00000 else bits

/-- Two words as one, the high word first. -/
def join (high low : UInt32) : UInt64 := high.toUInt64 <<< 32 ||| low.toUInt64

/-- The double-precision number of two words. -/
def double (high low : UInt32) : UInt64 :=
  let bits := join high low
  if bits &&& 0x7fffffffffffffff > 0x7ff0000000000000 then 0x7ff8000000000000 else bits

/-- The signed number of two words. -/
def long (high low : UInt32) : Int64 := (join high low).toInt64

end JavaMachine.Number

/-!
# Access flags

Sixteen bits that say how a class, a field or a method was declared. Bits without a declared
meaning are kept and shown in hexadecimal.
-/

namespace JavaMachine

namespace AccessFlags

/-- The names of the flags whose bits are all set, in the order of declaration. -/
def namesIn (declared : List (String × UInt16)) (bits : UInt16) : List String :=
  (declared.filter fun (_, bit) => bits &&& bit = bit).map Prod.fst

/-- The bits that no declared flag covers. -/
def undeclaredIn (declared : List (String × UInt16)) (bits : UInt16) : UInt16 :=
  bits &&& ~~~(declared.foldl (fun covered (_, bit) => covered ||| bit) 0)

/-- Lower-case hexadecimal digits after the mark `0x`. -/
def hexadecimal (number : Nat) : String := "0x" ++ String.ofList (Nat.toDigits 16 number)

/-- The names of the set flags and what is left over, between bars after a heading. -/
def describe (heading : String) (declared : List (String × UInt16)) (bits : UInt16) : String :=
  let rest := undeclaredIn declared bits
  let parts := namesIn declared bits ++ if rest = 0 then [] else [hexadecimal rest.toNat]
  let shown := if parts.isEmpty then [hexadecimal 0] else parts
  heading ++ "(" ++ " | ".intercalate shown ++ ")"

end AccessFlags

/-- The access flags of a class. -/
structure ClassFlags where
  bits : UInt16
  deriving DecidableEq, Repr, Inhabited

namespace ClassFlags

/-- The declared class flags. -/
def declared : List (String × UInt16) :=
  [("PUBLIC", 0x0001), ("FINAL", 0x0010), ("SUPER", 0x0020), ("INTERFACE", 0x0200),
    ("ABSTRACT", 0x0400), ("SYNTHETIC", 0x1000), ("ANNOTATION", 0x2000), ("ENUM", 0x4000),
    ("MODULE", 0x8000)]

def isFinal (flags : ClassFlags) : Bool := flags.bits &&& 0x0010 ≠ 0
def isInterface (flags : ClassFlags) : Bool := flags.bits &&& 0x0200 ≠ 0
def isAbstract (flags : ClassFlags) : Bool := flags.bits &&& 0x0400 ≠ 0

/-- The flags of an array class: as public as its component, final and abstract. -/
def ofArray (component : ClassFlags) : ClassFlags := ⟨component.bits &&& 0x0001 ||| 0x0410⟩

def names (flags : ClassFlags) : List String := AccessFlags.namesIn declared flags.bits

def describe (flags : ClassFlags) : String :=
  AccessFlags.describe "ClassAccessFlag" declared flags.bits

end ClassFlags

/-- The access flags of a field. -/
structure FieldFlags where
  bits : UInt16
  deriving DecidableEq, Repr, Inhabited

namespace FieldFlags

/-- The declared field flags. -/
def declared : List (String × UInt16) :=
  [("PUBLIC", 0x0001), ("PRIVATE", 0x0002), ("PROTECTED", 0x0004), ("STATIC", 0x0008),
    ("FINAL", 0x0010), ("VOLATILE", 0x0040), ("TRANSIENT", 0x0080), ("SYNTHETIC", 0x1000),
    ("ENUM", 0x4000)]

def isStatic (flags : FieldFlags) : Bool := flags.bits &&& 0x0008 ≠ 0
def isFinal (flags : FieldFlags) : Bool := flags.bits &&& 0x0010 ≠ 0

def names (flags : FieldFlags) : List String := AccessFlags.namesIn declared flags.bits

def describe (flags : FieldFlags) : String :=
  AccessFlags.describe "FieldAccessFlag" declared flags.bits

end FieldFlags

/-- The access flags of a method. -/
structure MethodFlags where
  bits : UInt16
  deriving DecidableEq, Repr, Inhabited

namespace MethodFlags

/-- The declared method flags. -/
def declared : List (String × UInt16) :=
  [("PUBLIC", 0x0001), ("PRIVATE", 0x0002), ("PROTECTED", 0x0004), ("STATIC", 0x0008),
    ("FINAL", 0x0010), ("SYNCHRONIZED", 0x0020), ("BRIDGE", 0x0040), ("VARARGS", 0x0080),
    ("NATIVE", 0x0100), ("ABSTRACT", 0x0400), ("STRICT", 0x0800), ("SYNTHETIC", 0x1000)]

def isPrivate (flags : MethodFlags) : Bool := flags.bits &&& 0x0002 ≠ 0
def isStatic (flags : MethodFlags) : Bool := flags.bits &&& 0x0008 ≠ 0
def isFinal (flags : MethodFlags) : Bool := flags.bits &&& 0x0010 ≠ 0
def isNative (flags : MethodFlags) : Bool := flags.bits &&& 0x0100 ≠ 0
def isAbstract (flags : MethodFlags) : Bool := flags.bits &&& 0x0400 ≠ 0

def names (flags : MethodFlags) : List String := AccessFlags.namesIn declared flags.bits

def describe (flags : MethodFlags) : String :=
  AccessFlags.describe "MethodAccessFlag" declared flags.bits

end MethodFlags
end JavaMachine

import JavaMachine.Hierarchy
import JavaMachine.Loading

/-!
# Resolution of constants

A constant of a linked class is looked up in its file's pool. The first successful lookup of a kind
at an index is remembered, and so are the lookups that it led to; a failed one can be tried again.
-/

namespace JavaMachine.World

/-- The file and the remembered results of a class with an attached pool. -/
def attachedPool (world : World) (id : ClassId) : Except Error (ClassFile × ResolvedPool) :=
  let type := world.type id
  match type.declared? with
  | none => .error (.internal (.notInstanceClass type.name))
  | some body =>
      match body.pool with
      | none => .error (.internal .poolNotAttached)
      | some pool => .ok (body.file, pool)

/-- The constant at an index of a class's pool. -/
def constantAt (world : World) (id : ClassId) (index : UInt16) : Except Error Constant :=
  match world.attachedPool id with
  | .error error => .error error
  | .ok (file, _) =>
      match file.constant? index with
      | some constant => .ok constant
      | none => .error (.linkage (.poolIndexOutOfRange index))

/-- The kind of the constant at an index. -/
def tagAt (world : World) (id : ClassId) (index : UInt16) : Except Error ConstantTag :=
  (world.constantAt id index).map Constant.tag

/-- Whether a lookup has been made. -/
def isResolved (world : World) (id : ClassId) (kind : ConstantKind) (index : UInt16) : Bool :=
  match (world.type id).declared?.bind DeclaredClass.pool with
  | some pool => (pool.find? kind index).isSome
  | none => false

/-- Remembers the result of a lookup. -/
def rememberConstant (world : World) (id : ClassId) (kind : ConstantKind) (index : UInt16)
    (result : kind.Meaning) : World :=
  world.modifyDeclared id fun body =>
    { body with pool := body.pool.map fun pool => pool.remember index kind result }

/-- Looks a constant up: takes the remembered result, or finds it out from the constant. -/
def lookUp (id : ClassId) (kind : ConstantKind) (index : UInt16)
    (find : Constant → WorldM kind.Meaning) : WorldM kind.Meaning := do
  let world ← get
  let constant ← ofExcept (world.constantAt id index)
  if constant.tag ≠ kind.tag then
    throw (.internal (.tagMismatch index constant.tag kind.tag))
  else
    let (_, pool) ← ofExcept (world.attachedPool id)
    match pool.find? kind index with
    | some known => return known
    | none =>
        let result ← find constant
        modify fun world => world.rememberConstant id kind index result
        return result

/-- The error of a constant that is not of the kind its tag says. -/
def strayConstant {α : Type} (kind : ConstantKind) (index : UInt16) (constant : Constant) :
    WorldM α :=
  throw (.internal (.tagMismatch index constant.tag kind.tag))

/-- A text. -/
def resolveText (id : ClassId) (index : UInt16) : WorldM String :=
  lookUp id .utf8 index fun
    | .utf8 bytes =>
        match Text.ModifiedUtf8.decode bytes with
        | some text => return text
        | none => throw (.linkage (.invalidModifiedUtf8 index))
    | constant => strayConstant .utf8 index constant

/-- The class is loaded through the loader that defined the class of the pool. -/
def resolveClass (id : ClassId) (index : UInt16) : WorldM ClassId :=
  lookUp id .classRef index fun
    | .classRef name => do
        let name ← resolveText id name
        require ((← get).type id).loader name
    | constant => strayConstant .classRef index constant

/-- A canonical string. -/
def resolveString (id : ClassId) (index : UInt16) : WorldM ObjectId :=
  lookUp id .string index fun
    | .string text => do intern (← resolveText id text)
    | constant => strayConstant .string index constant

/-- A name with its descriptor. -/
def resolveNameAndType (id : ClassId) (index : UInt16) : WorldM (String × String) :=
  lookUp id .nameAndType index fun
    | .nameAndType name descriptor => do
        let name ← resolveText id name
        let descriptor ← resolveText id descriptor
        return (name, descriptor)
    | constant => strayConstant .nameAndType index constant

/-- The method to which a class reference and a name with its type lead. -/
def findReferredMethod (id : ClassId) (owner nameAndType : UInt16) : WorldM (Option Method) := do
  let owner ← resolveClass id owner
  let (name, descriptor) ← resolveNameAndType id nameAndType
  let world ← get
  let type := world.type owner
  if type.isArray then throw (.internal (.methodOfArray name descriptor type.name))
  else return world.findMethod owner name descriptor

/-- A method; none where the class has no such method. -/
def resolveMethod (id : ClassId) (index : UInt16) : WorldM (Option Method) :=
  lookUp id .method index fun
    | .methodRef owner nameAndType => findReferredMethod id owner nameAndType
    | constant => strayConstant .method index constant

/-- A method of an interface; none where the interface has no such method. -/
def resolveInterfaceMethod (id : ClassId) (index : UInt16) : WorldM (Option Method) :=
  lookUp id .interfaceMethod index fun
    | .interfaceMethodRef owner nameAndType => findReferredMethod id owner nameAndType
    | constant => strayConstant .interfaceMethod index constant

/-- A field; none where the class has no such field. -/
def resolveField (id : ClassId) (index : UInt16) : WorldM (Option FieldSlot) :=
  lookUp id .field index fun
    | .fieldRef owner nameAndType => do
        let owner ← resolveClass id owner
        let (name, descriptor) ← resolveNameAndType id nameAndType
        let world ← get
        let type := world.type owner
        if type.isArray then throw (.internal (.fieldOfArray name descriptor type.name))
        else return world.findField owner name descriptor
    | constant => strayConstant .field index constant

/-- An int. -/
def resolveInt (id : ClassId) (index : UInt16) : WorldM Int32 :=
  lookUp id .int index fun
    | .integer value => return value
    | constant => strayConstant .int index constant

/-- The bits of a float. -/
def resolveFloat (id : ClassId) (index : UInt16) : WorldM UInt32 :=
  lookUp id .float index fun
    | .float bits => return Number.single bits
    | constant => strayConstant .float index constant

/-- A long, from its two halves. -/
def resolveLong (id : ClassId) (index : UInt16) : WorldM Int64 :=
  lookUp id .long index fun
    | .long high low => return Number.long high low
    | constant => strayConstant .long index constant

/-- The bits of a double, from its two halves. -/
def resolveDouble (id : ClassId) (index : UInt16) : WorldM UInt64 :=
  lookUp id .double index fun
    | .double high low => return Number.double high low
    | constant => strayConstant .double index constant

/-- Looks a constant up by any kind. -/
def resolve (id : ClassId) : (kind : ConstantKind) → UInt16 → WorldM kind.Meaning
  | .classRef, index => resolveClass id index
  | .string, index => resolveString id index
  | .method, index => resolveMethod id index
  | .interfaceMethod, index => resolveInterfaceMethod id index
  | .field, index => resolveField id index
  | .nameAndType, index => resolveNameAndType id index
  | .utf8, index => resolveText id index
  | .int, index => resolveInt id index
  | .float, index => resolveFloat id index
  | .long, index => resolveLong id index
  | .double, index => resolveDouble id index

end JavaMachine.World

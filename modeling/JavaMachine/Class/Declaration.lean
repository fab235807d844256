import JavaMachine.Class.Member

/-!
# Declarations

What a class file declares, read out of its pool and attributes: methods, fields and the attributes
of the class. The first fault in the order of the file is the one reported.
-/

namespace JavaMachine

namespace ClassFile

/-- The text at a pool index, which has to be there. -/
def requireText (file : ClassFile) (index : UInt16) : Except LinkageError String :=
  match file.text? index with
  | some text => .ok text
  | none => .error (.invalidText index)

/-- The name behind a class reference, which has to be there. -/
def requireClassName (file : ClassFile) (index : UInt16) : Except LinkageError String :=
  match file.className? index with
  | some name => .ok name
  | none => .error (.invalidClassEntry index)

end ClassFile

/-- What a reader makes of an attribute's content. -/
def Attribute.readAs {α : Type} (block : Attribute) (reader : Reader α) : Except LinkageError α :=
  match reader.run' block.content with
  | .ok content => .ok content
  | .error damage => .error (.damaged damage)

namespace Method

/-- The code among some attributes: of several the last. -/
def codeIn (file : ClassFile) : List Attribute → Option Code → Except LinkageError (Option Code)
  | [], found => .ok found
  | block :: rest, found => do
      if (← file.requireText block.name) = "Code" then
        codeIn file rest (some (← block.readAs Code.read))
      else codeIn file rest found

/-- The method that a class file declares by `member`. -/
def ofMember (file : ClassFile) (owner : ClassId) (ownerName : String)
    (member : Member MethodFlags) : Except LinkageError Method := do
  let name ← file.requireText member.name
  let descriptor ← file.requireText member.descriptor
  match MethodType.ofDescriptor? descriptor with
  | none => throw (.invalidMethodDescriptor descriptor name)
  | some type =>
      let code ← codeIn file member.attributes none
      return { owner, ownerName, name, descriptor, type, flags := member.flags, code }

end Method

namespace Field

/-- The index of the initial constant among some attributes: of several the last. -/
def constantIn (file : ClassFile) :
    List Attribute → Option UInt16 → Except LinkageError (Option UInt16)
  | [], found => .ok found
  | block :: rest, found => do
      if (← file.requireText block.name) = "ConstantValue" then
        constantIn file rest (some (← block.readAs Reader.u2))
      else constantIn file rest found

/-- The field that a class file declares by `member`. -/
def ofMember (file : ClassFile) (owner : ClassId) (ownerName : String)
    (member : Member FieldFlags) : Except LinkageError Field := do
  let name ← file.requireText member.name
  let descriptor ← file.requireText member.descriptor
  match FieldType.ofDescriptor? descriptor with
  | none => throw (.invalidFieldDescriptor descriptor name)
  | some type =>
      let constant ← constantIn file member.attributes none
      return { owner, ownerName, name, descriptor, type, flags := member.flags, constant }

end Field

namespace ClassAttributes

/-- The attributes after one more of them; unknown ones are dropped. -/
def add (file : ClassFile) (attributes : ClassAttributes) (block : Attribute) :
    Except LinkageError ClassAttributes := do
  match ← file.requireText block.name with
  | "SourceFile" =>
      let index ← block.readAs Reader.u2
      return { attributes with sourceFile := some (← file.requireText index) }
  | "Signature" =>
      let index ← block.readAs Reader.u2
      return { attributes with signature := some (← file.requireText index) }
  | "InnerClasses" =>
      return { attributes with
        innerClasses := ← block.readAs (Reader.counted InnerClass.read) }
  | "EnclosingMethod" =>
      return { attributes with
        enclosingMethod := some (← block.readAs EnclosingMethod.read) }
  | "BootstrapMethods" =>
      return { attributes with
        bootstrapMethods := ← block.readAs (Reader.counted BootstrapMethod.read) }
  | _ => return attributes

/-- The attributes that a class file declares. -/
def ofFile (file : ClassFile) : Except LinkageError ClassAttributes :=
  file.attributes.foldlM (add file) {}

end ClassAttributes
end JavaMachine

import JavaMachine.Archive.Basic
import JavaMachine.Bytes
import JavaMachine.Class.State
import JavaMachine.ClassFile.Constant
import JavaMachine.FileSystem
import JavaMachine.PrimitiveArray
import JavaMachine.WellKnown

/-!
# Errors

Everything that can go wrong, by cause. A linkage error or a runtime exception stands for a
throwable class; an internal error marks a broken assumption and stands for none. The wording of
every cause is fixed here.
-/

namespace JavaMachine

/-- A class name as it is written in messages for people. -/
def dotted (name : String) : String :=
  String.ofList (name.toList.map fun char => if char = '/' then '.' else char)

/-- How messages name a method. -/
structure MethodLabel where
  owner : String
  name : String
  descriptor : String
  deriving DecidableEq, Repr

namespace MethodLabel

/-- The class and the name of a method. -/
def qualifiedName (label : MethodLabel) : String := label.owner ++ "." ++ label.name

/-- The class, the name and the descriptor of a method. -/
def text (label : MethodLabel) : String := label.qualifiedName ++ label.descriptor

end MethodLabel

/-- What was done to a null reference. -/
inductive NullUse where
  | readField (name : String)
  | assignField (name : String)
  | readFieldAt (index : UInt16)
  | assignFieldAt (index : UInt16)
  | accessElement
  | readLength
  deriving DecidableEq, Repr

namespace NullUse

/-- Wording of what was tried with null. -/
def text : NullUse → String
  | readField name => "read field " ++ name
  | assignField name => "assign field " ++ name
  | readFieldAt index => s!"read field #{index.toNat}"
  | assignFieldAt index => s!"assign field #{index.toNat}"
  | accessElement => "access an array element"
  | readLength => "read the array length"

end NullUse

/-- An exception that running code may raise. -/
inductive RuntimeException where
  | nullPointer (action : NullUse)
  | nullReceiver (method : MethodLabel)
  | negativeArraySize (length : Int32)
  | indexOutOfBounds (index : Int32) (length : Nat)
  | arrayStore (stored array : String)
  | notPrimitiveArray (className : String)
  | notReferenceArray (className : String)
  | notArray (className : String)
  | wrongElement (className : String) (element : Primitive) (asked : CellType)
  | badCast (className target : String)
  | outOfMemory (elements : Nat)
  /-- An exception that a method raised by name. -/
  | raised (className message : String)
  deriving DecidableEq, Repr

namespace RuntimeException

/-- The internal name of the throwable. -/
def throwable : RuntimeException → String
  | nullPointer _ | nullReceiver _ => "java/lang/NullPointerException"
  | negativeArraySize _ => "java/lang/NegativeArraySizeException"
  | indexOutOfBounds _ _ => "java/lang/ArrayIndexOutOfBoundsException"
  | arrayStore _ _ => "java/lang/ArrayStoreException"
  | notPrimitiveArray _ | notReferenceArray _ | notArray _ | wrongElement _ _ _ | badCast _ _ =>
      "java/lang/ClassCastException"
  | outOfMemory _ => "java/lang/OutOfMemoryError"
  | raised className _ => className

/-- Wording of a runtime exception. -/
def message : RuntimeException → String
  | nullPointer action => "cannot " ++ action.text ++ " because it is null"
  | nullReceiver method => "cannot invoke " ++ method.text ++ " on null"
  | negativeArraySize length => toString length.toInt
  | indexOutOfBounds index length => s!"Index {index.toInt} out of bounds for length {length}"
  | arrayStore stored array => stored ++ " cannot be stored into " ++ array
  | notPrimitiveArray className => className ++ " is not a primitive array"
  | notReferenceArray className => className ++ " is not a reference array"
  | notArray className => className ++ " is not an array"
  | wrongElement className element asked =>
      className ++ " holds " ++ element.name ++ " elements, not " ++ asked.name
  | badCast className target =>
      "class " ++ dotted className ++ " cannot be cast to class " ++ dotted target
  | outOfMemory elements => s!"cannot allocate {elements} elements"
  | raised _ message => message

end RuntimeException

/-- Which field was not found. -/
inductive MissingField where
  | reference (index : UInt16)
  | unresolved
  | static
  | instanceOf (className : String)
  deriving DecidableEq, Repr

namespace MissingField

/-- Wording of a field that was not found. -/
def text : MissingField → String
  | reference index => s!"field reference #{index.toNat}"
  | unresolved => "unresolved field"
  | static => "static field"
  | instanceOf className => "field of " ++ className

end MissingField

/-- Which method was not found. -/
inductive MissingMethod where
  | reference (index : UInt16)
  | label (method : MethodLabel)
  deriving DecidableEq, Repr

namespace MissingMethod

/-- Wording of a method that was not found. -/
def text : MissingMethod → String
  | reference index => s!"method reference #{index.toNat}"
  | label method => method.text

end MissingMethod

/-- An error of finding, reading, linking or initializing classes. -/
inductive LinkageError where
  -- class files
  | damaged (damage : Damage)
  | damagedClass (className : String) (damage : Damage)
  | invalidThisClass
  | invalidText (index : UInt16)
  | invalidClassEntry (index : UInt16)
  | invalidModifiedUtf8 (index : UInt16)
  | poolIndexOutOfRange (index : UInt16)
  | invalidMethodDescriptor (descriptor name : String)
  | invalidFieldDescriptor (descriptor name : String)
  | duplicateMethod (className key : String)
  | duplicateField (className key : String)
  -- verification
  | noSuperclass (className : String)
  | rootWithSuperclass
  | superclassIsArray (className superName : String)
  | superclassIsFinal (superName : String)
  | interfaceIsArray (className interfaceName : String)
  | finalOverridden (className key owner : String)
  | constantMismatch (index : UInt16) (key : String)
  | dimensionMismatch (given : Nat) (className : String) (dimension : Nat)
  -- incompatible changes
  | superclassIsInterface (className superName : String)
  | interfaceIsClass (className interfaceName : String)
  | staticFieldExpected (key : String)
  | instanceFieldExpected (key : String)
  | staticMethodExpected (method : MethodLabel)
  | instanceMethodExpected (method : MethodLabel)
  -- missing definitions
  | classNotFound (name : String)
  | wrongName (asked found : String)
  | invalidArrayName (name : String)
  | unreadableFile (fault : FileFault)
  | unreadableArchive (fault : ArchiveFault)
  | initializationFailed (className : String)
  | duplicateClass (name : String)
  | circularity (name : String)
  | fieldNotFound (field : MissingField)
  | methodNotFound (method : MissingMethod)
  | instantiation (className : String)
  | abstractMethod (method : MethodLabel)
  | initializerRaised (exception : RuntimeException)
  /-- An error that a method raised by name. -/
  | raised (className message : String)
  deriving DecidableEq, Repr

namespace LinkageError

/-- The internal name of the throwable. -/
def throwable : LinkageError → String
  | damaged _ | damagedClass _ _ | invalidThisClass | invalidText _ | invalidClassEntry _
  | invalidModifiedUtf8 _ | poolIndexOutOfRange _ | invalidMethodDescriptor _ _
  | invalidFieldDescriptor _ _ | duplicateMethod _ _ | duplicateField _ _ =>
      "java/lang/ClassFormatError"
  | noSuperclass _ | rootWithSuperclass | superclassIsArray _ _ | superclassIsFinal _
  | interfaceIsArray _ _ | finalOverridden _ _ _ | constantMismatch _ _ | dimensionMismatch _ _ _ =>
      "java/lang/VerifyError"
  | superclassIsInterface _ _ | interfaceIsClass _ _ | staticFieldExpected _
  | instanceFieldExpected _ | staticMethodExpected _ | instanceMethodExpected _ =>
      "java/lang/IncompatibleClassChangeError"
  | classNotFound _ | wrongName _ _ | invalidArrayName _ | unreadableFile _ | unreadableArchive _
  | initializationFailed _ => "java/lang/NoClassDefFoundError"
  | duplicateClass _ => "java/lang/LinkageError"
  | circularity _ => "java/lang/ClassCircularityError"
  | fieldNotFound _ => "java/lang/NoSuchFieldError"
  | methodNotFound _ => "java/lang/NoSuchMethodError"
  | instantiation _ => "java/lang/InstantiationError"
  | abstractMethod _ => "java/lang/AbstractMethodError"
  | initializerRaised _ => "java/lang/ExceptionInInitializerError"
  | raised className _ => className

/-- Wording of a linkage error. -/
def message : LinkageError → String
  | damaged damage => damage.message
  | damagedClass className damage => className ++ ": " ++ damage.message
  | invalidThisClass => "invalid this_class entry"
  | invalidText index => s!"constant #{index.toNat} is not a valid Utf8 entry"
  | invalidClassEntry index => s!"constant #{index.toNat} is not a valid Class entry"
  | invalidModifiedUtf8 index => s!"constant #{index.toNat} is not valid modified UTF-8"
  | poolIndexOutOfRange index => s!"constant pool index {index.toNat} out of range"
  | invalidMethodDescriptor descriptor name =>
      "invalid method descriptor " ++ descriptor ++ " for " ++ name
  | invalidFieldDescriptor descriptor name =>
      "invalid field descriptor " ++ descriptor ++ " for " ++ name
  | duplicateMethod className key => className ++ " declares " ++ key ++ " twice"
  | duplicateField className key => className ++ " declares field " ++ key ++ " twice"
  | noSuperclass className => className ++ " has no superclass"
  | rootWithSuperclass => WellKnown.objectClass ++ " must not have a superclass"
  | superclassIsArray className superName =>
      className ++ " extends non-instance type " ++ superName
  | superclassIsFinal superName => "cannot inherit from final class " ++ superName
  | interfaceIsArray className interfaceName =>
      className ++ " implements non-instance type " ++ interfaceName
  | finalOverridden className key owner =>
      className ++ " overrides final method " ++ key ++ " of " ++ owner
  | constantMismatch index key =>
      s!"constant value #{index.toNat} does not fit field " ++ key
  | dimensionMismatch given className dimension =>
      s!"{given} lengths given for " ++ className ++ s!" of dimension {dimension}"
  | superclassIsInterface className superName =>
      "class " ++ className ++ " has interface " ++ superName ++ " as super class"
  | interfaceIsClass className interfaceName =>
      className ++ " implements class " ++ interfaceName
  | staticFieldExpected key => "expected a static field, found " ++ key
  | instanceFieldExpected key => "expected an instance field, found " ++ key
  | staticMethodExpected method => "expected a static method, found " ++ method.text
  | instanceMethodExpected method => "expected an instance method, found " ++ method.text
  | classNotFound name => name
  | wrongName asked found => asked ++ " (wrong name: " ++ found ++ ")"
  | invalidArrayName name => "invalid array class name " ++ name
  | unreadableFile fault => fault.message
  | unreadableArchive fault => fault.message
  | initializationFailed className => "could not initialize class " ++ className
  | duplicateClass name => "duplicate class definition for " ++ name
  | circularity name => name
  | fieldNotFound field => field.text
  | methodNotFound method => method.text
  | instantiation className => className
  | abstractMethod method => method.text
  | initializerRaised exception => dotted exception.throwable ++ ": " ++ exception.message
  | raised _ message => message

end LinkageError

/-- A broken assumption. -/
inductive InternalError where
  -- classes
  | notInstanceClass (className : String)
  | illegalTransition (className : String) (state next : ClassState)
  | alreadyLinked (className : String) (state : ClassState)
  | notLinked
  | initializedUnlinked (className : String)
  | notArrayName (name : String)
  | arrayNotDefined (name : String)
  | noPrimitiveArray (type : ValueType)
  -- fields
  | notStaticField (key className : String)
  | noStaticSlot (key : String)
  | wrongContent (key : String) (shape : Shape)
  | wrongStore (shape : Shape) (key : String)
  | noInstanceFields (className : String)
  | outsideLayout (offset : Nat) (key className : String)
  -- constants
  | poolNotAttached
  | tagMismatch (index : UInt16) (found expected : ConstantTag)
  | methodOfArray (name descriptor className : String)
  | fieldOfArray (name descriptor className : String)
  | notLoadable (tag : ConstantTag) (index : UInt16)
  | noMirror (className : String)
  -- objects
  | allocatedUnlinked (className : String)
  | notPrimitiveArrayClass (className : String)
  | notReferenceArrayClass (className : String)
  | invalidArrayType (type : Int32)
  | noLengthLeft
  | dimensionsLeft (className : String) (count : Nat)
  -- the operand stack
  | stackUnderflow
  | wrongOperand (expected found : Shape)
  | voidOperand
  -- calls
  | noReceiver
  | voidReturned (method : MethodLabel) (shape : Shape)
  | nothingReturned (method : MethodLabel)
  | wrongReturned (method : MethodLabel) (shape : Shape)
  | noInterpreter (method : MethodLabel)
  -- exhaustion
  | definitionsNestedTooDeep
  | callsNestedTooDeep
  /-- An error that a method reported. -/
  | reported (message : String)
  deriving DecidableEq, Repr

namespace InternalError

/-- Wording of an internal error. -/
def message : InternalError → String
  | notInstanceClass className => className ++ " is not an instance class"
  | illegalTransition className state next =>
      className ++ ": illegal state transition " ++ state.name ++ " -> " ++ next.name
  | alreadyLinked className state => className ++ " is already " ++ state.name
  | notLinked => "class is not linked"
  | initializedUnlinked className => className ++ " is initialized before it is linked"
  | notArrayName name => name ++ " is not an array class"
  | arrayNotDefined name => "array class " ++ name ++ " was not defined"
  | noPrimitiveArray type => type.name ++ " has no primitive array class"
  | notStaticField key className => key ++ " is not a static field of " ++ className
  | noStaticSlot key => "no static slot for " ++ key
  | wrongContent key shape => key ++ " holds a " ++ shape.name ++ " value"
  | wrongStore shape key => "cannot store a " ++ shape.name ++ " value into " ++ key
  | noInstanceFields className => className ++ " has no instance fields"
  | outsideLayout offset key className =>
      s!"offset {offset} of " ++ key ++ " is outside " ++ className
  | poolNotAttached => "constant pool used before linking"
  | tagMismatch index found expected =>
      s!"accessing an incompatible constant entry: #{index.toNat} is " ++ found.name ++
        ", expected " ++ expected.name
  | methodOfArray name descriptor className =>
      "method " ++ name ++ descriptor ++ " referenced on non-instance class " ++ className
  | fieldOfArray name descriptor className =>
      "field " ++ name ++ ":" ++ descriptor ++ " referenced on non-instance class " ++ className
  | notLoadable tag index => "cannot load a " ++ tag.name ++ s!" constant (#{index.toNat})"
  | noMirror className => className ++ " has no java/lang/Class mirror yet"
  | allocatedUnlinked className => "cannot allocate " ++ className ++ " before it is linked"
  | notPrimitiveArrayClass className => className ++ " is not a primitive array class"
  | notReferenceArrayClass className => className ++ " is not a reference array class"
  | invalidArrayType type => s!"invalid newarray type {type.toInt}"
  | noLengthLeft => "no array length left"
  | dimensionsLeft className count => className ++ s!" cannot hold {count} more dimensions"
  | stackUnderflow => "operand stack underflow"
  | wrongOperand expected found =>
      "expected " ++ expected.name ++ " on the operand stack, found " ++ found.name
  | voidOperand => "cannot pop a void value"
  | noReceiver => "instance call without a receiver"
  | voidReturned method shape =>
      "void method " ++ method.qualifiedName ++ " returned a " ++ shape.name ++ " value"
  | nothingReturned method => method.text ++ " returned nothing"
  | wrongReturned method shape => method.text ++ " returned a " ++ shape.name ++ " value"
  | noInterpreter method => "no bytecode interpreter attached to run " ++ method.text
  | definitionsNestedTooDeep => "class definitions nested too deep"
  | callsNestedTooDeep => "method calls nested too deep"
  | reported message => message

end InternalError

/-- Anything that can go wrong. -/
inductive Error where
  | linkage (cause : LinkageError)
  | runtime (cause : RuntimeException)
  | internal (cause : InternalError)
  deriving DecidableEq, Repr

namespace Error

instance : Coe LinkageError Error := ⟨linkage⟩
instance : Coe RuntimeException Error := ⟨runtime⟩
instance : Coe InternalError Error := ⟨internal⟩

/-- The internal name of the throwable that the error stands for. -/
def throwable? : Error → Option String
  | linkage cause => some cause.throwable
  | runtime cause => some cause.throwable
  | internal _ => none

/-- Wording of an error. -/
def message : Error → String
  | linkage cause => cause.message
  | runtime cause => cause.message
  | internal cause => cause.message

/-- The error in one line, for people. -/
def describe (error : Error) : String :=
  match error.throwable? with
  | some throwable => dotted throwable ++ ": " ++ error.message
  | none => "internal error: " ++ error.message

end Error
end JavaMachine

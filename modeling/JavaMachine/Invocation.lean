import JavaMachine.FieldAccess

/-!
# Invocation

Calls move arguments from the operand stack into a method and its result back. A dynamic call runs
the method that the receiver's class has in its table for dispatch.
-/

namespace JavaMachine

variable {Client : Type}

/-- The method that a call of `resolved` runs on a receiver of a class: the entry of the class's
table, or the method itself if it is private or the class has no entry. -/
def selectMethod (receiver : Class) (resolved : Method) : Method :=
  if resolved.isPrivate then resolved
  else (receiver.virtualMethod? resolved.name resolved.descriptor).getD resolved

namespace FrameM

/-- The method to which a constant of the class at work leads. -/
def methodAt (current : ClassId) (index : UInt16) : FrameM Client Method := do
  let tag ← ofExcept ((← world).tagAt current index)
  let found ← onWorld <| match tag with
    | .interfaceMethodRef => World.resolveInterfaceMethod current index
    | _ => World.resolveMethod current index
  match found with
  | some method => return method
  | none => throw (.linkage (.methodNotFound (.reference index)))

/-- Runs a method with arguments already popped and pushes its result. -/
def callWith (run : Runner Client) (method : Method) (arguments : List Value) :
    FrameM Client Unit := do
  let result ← onMachine (run method arguments)
  onStack (OperandStack.pushResult method result)

/-- Runs a method with arguments from the stack. -/
def call (run : Runner Client) (method : Method) : FrameM Client Unit := do
  let arguments ← onStack (OperandStack.popArguments method)
  callWith run method arguments

/-- Runs the very method that is referred to. -/
def invokeSpecial (run : Runner Client) (current : ClassId) (index : UInt16) :
    FrameM Client Unit := do
  let method ← methodAt current index
  if method.isStatic then throw (.linkage (.instanceMethodExpected method.label))
  else if method.isAbstract then throw (.linkage (.abstractMethod method.label))
  else call run method

/-- Runs a static method, once its class is initialized. -/
def invokeStatic (run : Runner Client) (current : ClassId) (index : UInt16) :
    FrameM Client Unit := do
  let method ← methodAt current index
  if !method.isStatic ∨ method.isAbstract then
    throw (.linkage (.staticMethodExpected method.label))
  else
    onMachine (initializeClass run method.owner)
    call run method

/-- Runs the method that the receiver's class selects. -/
def invokeDynamic (run : Runner Client) (current : ClassId) (index : UInt16) :
    FrameM Client Unit := do
  let resolved ← methodAt current index
  if resolved.isStatic then throw (.linkage (.instanceMethodExpected resolved.label))
  else
    let arguments ← onStack (OperandStack.popArguments resolved)
    match arguments with
    | .reference (some receiver) :: _ =>
        let selected := selectMethod ((← world).typeOf receiver) resolved
        if selected.isAbstract then throw (.linkage (.abstractMethod selected.label))
        else callWith run selected arguments
    | _ => throw (.internal .noReceiver)

end FrameM

/-- Runs the constructor without parameters that the object's class declares. -/
def construct (run : Runner Client) (object : ObjectId) : MachineM Client Unit := do
  let type := (← MachineM.world).typeOf object
  if type.isArray then throw (.internal (.notInstanceClass type.name))
  else
    match type.declaredMethod? WellKnown.constructor WellKnown.noArguments with
    | some method => discard (run method [.reference (some object)])
    | none =>
        throw (.linkage (.methodNotFound
          (.label ⟨type.name, WellKnown.constructor, WellKnown.noArguments⟩)))

end JavaMachine

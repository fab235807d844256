import JavaMachine.Instruction

/-!
# Programs

What a client does with a machine, as data: a program asks for operations one after the other and
decides by their answers how to go on. Methods are run by programs as well, so an operation may
lead to programs that ask for operations in turn; how deep such calls are nested is limited.
-/

namespace JavaMachine

/-- The operations that a program may ask for. -/
inductive Operation where
  | bootstrap
  | shutDown
  | addLoader (name : String) (parent : LoaderId) (sources : List Source)
  | load (loader : LoaderId) (name : String)
  | require (loader : LoaderId) (name : String)
  | register (loader : LoaderId) (type : ClassId)
  | link (type : ClassId)
  | initializeClass (type : ClassId)
  | ensureMirror (type : ClassId)
  | arrayClassOf (component : ClassId)
  | primitiveArrayClass (type : ValueType)
  | resolve (type : ClassId) (kind : ConstantKind) (index : UInt16)
  | intern (text : String)
  | allocateInstance (type : ClassId) (attachment : Attachment)
  | allocatePrimitives (type : ClassId) (length : Nat)
  | allocateReferences (type : ClassId) (length : Nat)
  | construct (object : ObjectId)
  | putElement (array : ObjectId) (type : CellType) (index : Int32) (cell : type.Cell)
  | putReference (array : ObjectId) (index : Int32) (element : Option ObjectId)
  | putField (object : ObjectId) (slot : Option FieldSlot) (value : Value)
  | putStatic (type : ClassId) (slot : Option FieldSlot) (value : Value)
  | readField (slot : Option FieldSlot) (receiver : Option ObjectId)
  | writeField (slot : Option FieldSlot) (receiver : Option ObjectId) (value : Value)
  | execute (current : ClassId) (instruction : Instruction) (stack : OperandStack)
  | call (method : Method) (stack : OperandStack)

namespace Operation

/-- What an operation gives back; those that work on an operand stack give it back, changed. -/
@[reducible] def Answer : Operation → Type
  | bootstrap | register _ _ | link _ | initializeClass _ | ensureMirror _ | construct _
  | putElement _ _ _ _ | putReference _ _ _ | putField _ _ _ | putStatic _ _ _
  | writeField _ _ _ => Except Error Unit
  | shutDown => Unit
  | addLoader _ _ _ => LoaderId
  | load _ _ => Except Error (Option ClassId)
  | require _ _ | arrayClassOf _ | primitiveArrayClass _ => Except Error ClassId
  | resolve _ kind _ => Except Error kind.Meaning
  | intern _ | allocateInstance _ _ | allocatePrimitives _ _ | allocateReferences _ _ =>
      Except Error ObjectId
  | readField _ _ => Except Error Value
  | execute _ _ _ | call _ _ => Except Error Unit × OperandStack

variable {Client : Type}

/-- Makes an operation of a computation on worlds. -/
def onWorld {α : Type} (action : WorldM α) (machine : Machine Client) :
    Except Error α × Machine Client :=
  (MachineM.onWorld action).run machine

/-- Makes an operation of a computation on frames, starting from a stack. -/
def onFrame (action : FrameM Client Unit) (stack : OperandStack) (machine : Machine Client) :
    (Except Error Unit × OperandStack) × Machine Client :=
  let (result, frame) := action.run ⟨machine, stack⟩
  ((result, frame.stack), frame.machine)

/-- Enters a class into a directory. A client can name such classes only as it was handed: array
classes and classes that were linked. -/
def registerUsable (loader : LoaderId) (id : ClassId) : WorldM Unit := do
  if ((← get).type id).isUsable then World.register loader id
  else throw (.internal .notLinked)

/-- Performs an operation on a machine. -/
def perform (run : Runner Client) :
    (operation : Operation) → Machine Client → operation.Answer × Machine Client
  | bootstrap, machine => onWorld World.bootstrap machine
  | shutDown, machine => ((), { machine with world := machine.world.shutDown })
  | addLoader name parent sources, machine =>
      let (id, world) := machine.world.addLoader name parent sources
      (id, { machine with world })
  | load loader name, machine => onWorld (World.load loader name) machine
  | require loader name, machine => onWorld (World.require loader name) machine
  | register loader type, machine => onWorld (registerUsable loader type) machine
  | link type, machine => onWorld (World.link type) machine
  | initializeClass type, machine => (JavaMachine.initializeClass run type).run machine
  | ensureMirror type, machine => onWorld (World.ensureMirror type) machine
  | arrayClassOf component, machine => onWorld (World.arrayClassOf component) machine
  | primitiveArrayClass type, machine => onWorld (World.primitiveArrayClass type) machine
  | resolve type kind index, machine => onWorld (World.resolve type kind index) machine
  | intern text, machine => onWorld (World.intern text) machine
  | allocateInstance type attachment, machine =>
      onWorld (World.allocateInstance type attachment) machine
  | allocatePrimitives type length, machine =>
      onWorld (World.allocatePrimitives type length) machine
  | allocateReferences type length, machine =>
      onWorld (World.allocateReferences type length) machine
  | construct object, machine => (JavaMachine.construct run object).run machine
  | putElement array type index cell, machine =>
      onWorld (World.change fun world => world.putElement array type index cell) machine
  | putReference array index element, machine =>
      onWorld (World.change fun world => world.putReference array index element) machine
  | putField object slot value, machine =>
      onWorld (World.change fun world => world.putField object slot value) machine
  | putStatic type slot value, machine =>
      onWorld (World.change fun world => world.putStatic type slot value) machine
  | readField slot receiver, machine => (JavaMachine.readField run slot receiver).run machine
  | writeField slot receiver value, machine =>
      (JavaMachine.writeField run slot receiver value).run machine
  | execute current instruction stack, machine =>
      onFrame (FrameM.execute run current instruction) stack machine
  | call method stack, machine => onFrame (FrameM.call run method) stack machine

end Operation

/-- A program of a client, which ends with a result. -/
inductive Program (Client : Type) (α : Type) where
  /-- Ends. -/
  | done (result : α)
  /-- Looks at the machine. -/
  | inspect (next : Machine Client → Program Client α)
  /-- Replaces the state of the client. -/
  | store (client : Client) (next : Program Client α)
  /-- Has an operation performed. -/
  | perform (operation : Operation) (next : operation.Answer → Program Client α)

namespace Program

variable {Client α β : Type}

/-- Goes on with another program after the end of the first. -/
def bind : Program Client α → (α → Program Client β) → Program Client β
  | done result, next => next result
  | inspect rest, next => inspect fun machine => (rest machine).bind next
  | store client rest, next => store client (rest.bind next)
  | perform operation rest, next => perform operation fun answer => (rest answer).bind next

instance : Monad (Program Client) where
  pure := done
  bind := bind

/-- The answer to an operation. -/
def ask (operation : Operation) : Program Client operation.Answer := perform operation done

/-- The machine as it is. -/
def machine : Program Client (Machine Client) := inspect done

/-- Changes the state of the client. -/
def modifyClient (change : Client → Client) : Program Client Unit :=
  inspect fun machine => store (change machine.client) (done ())

/-- Runs a program on a machine, given a way of running methods. -/
def run (runner : Runner Client) : Program Client α → Machine Client → α × Machine Client
  | done result, machine => (result, machine)
  | inspect next, machine => (next machine).run runner machine
  | store client next, machine => next.run runner { machine with client }
  | perform operation next, machine =>
      let (answer, machine) := operation.perform runner machine
      (next answer).run runner machine

end Program

/-- How a client runs methods: the program for a method and its arguments. -/
abbrev Callback (Client : Type) :=
  Method → List Value → Program Client (Except Error (Option Value))

variable {Client α : Type}

/-- Runs methods by the programs of a client, with calls nested at most `depth` deep. -/
def Callback.runner (callback : Callback Client) : (depth : Nat) → Runner Client
  | 0, _, _ => throw (.internal .callsNestedTooDeep)
  | depth + 1, method, arguments => fun machine =>
      (callback method arguments).run (callback.runner depth) machine

/-- Runs a program whose methods are run by a client, with calls nested at most `depth` deep. -/
def Program.runWith (callback : Callback Client) (depth : Nat) (program : Program Client α)
    (machine : Machine Client) : α × Machine Client :=
  program.run (callback.runner depth) machine

end JavaMachine

import JavaMachine.Resolution
import JavaMachine.Stack

/-!
# Machines

A machine is a world together with the state of its client, the one who runs methods. Operations on
machines are given a way of running methods; what a method does is the client's affair.
-/

namespace JavaMachine

/-- A world and the state of the client that runs methods in it. -/
structure Machine (Client : Type) where
  world : World
  client : Client

/-- A machine and the operand stack of the method at work. -/
structure Frame (Client : Type) where
  machine : Machine Client
  stack : OperandStack

/-- A computation on machines that may fail; a failure keeps the changes made before it. -/
abbrev MachineM (Client : Type) := ExceptT Error (StateM (Machine Client))

/-- A computation on frames that may fail; a failure keeps the changes made before it. -/
abbrev FrameM (Client : Type) := ExceptT Error (StateM (Frame Client))

/-- A way of running methods: from the arguments, the receiver first, to the result, if any. -/
abbrev Runner (Client : Type) := Method → List Value → MachineM Client (Option Value)

variable {Client α : Type}

/-- A computation on the world of a machine. -/
def MachineM.onWorld (action : WorldM α) : MachineM Client α := fun machine =>
  let (result, world) := action machine.world
  (result, { machine with world })

/-- The world of the machine. -/
def MachineM.world : MachineM Client World := return (← get).world

/-- The outcome of a computation, which is not an error of the whole. -/
def MachineM.outcome (action : MachineM Client α) : MachineM Client (Except Error α) :=
  fun machine =>
    let (result, machine) := action machine
    (.ok result, machine)

namespace FrameM

/-- A computation on the machine of a frame. -/
def onMachine (action : MachineM Client α) : FrameM Client α := fun frame =>
  let (result, machine) := action frame.machine
  (result, { frame with machine })

/-- A computation on the world of a frame. -/
def onWorld (action : WorldM α) : FrameM Client α := onMachine (MachineM.onWorld action)

/-- A computation on the operand stack of a frame. -/
def onStack (action : StackM α) : FrameM Client α := fun frame =>
  let (result, stack) := action frame.stack
  (result, { frame with stack })

/-- The world of the frame. -/
def world : FrameM Client World := return (← get).machine.world

end FrameM
end JavaMachine

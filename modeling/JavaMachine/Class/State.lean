/-!
# Class states

A class is allocated, then linked, then initialized. It goes forward one state at a time, and from
every state but the two final ones to failure.
-/

namespace JavaMachine

/-- How far a class has come. -/
inductive ClassState where
  | allocated
  | linked
  | beingInitialized
  | fullyInitialized
  | initializationError
  deriving DecidableEq, Repr, Inhabited

namespace ClassState

/-- Name of the state. -/
def name : ClassState → String
  | allocated => "Allocated"
  | linked => "Linked"
  | beingInitialized => "BeingInitialized"
  | fullyInitialized => "FullyInitialized"
  | initializationError => "InitializationError"

/-- Whether no further state follows. -/
def isTerminal : ClassState → Bool
  | fullyInitialized | initializationError => true
  | _ => false

/-- Whether `next` may follow a state directly. -/
def canAdvanceTo (state next : ClassState) : Bool :=
  match next with
  | initializationError => !state.isTerminal
  | linked => state = allocated
  | beingInitialized => state = linked
  | fullyInitialized => state = beingInitialized
  | allocated => false

end ClassState
end JavaMachine

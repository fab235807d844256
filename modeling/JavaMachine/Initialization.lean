import JavaMachine.Machine

/-!
# Initialization

A linked class is initialized once, after its superclasses, by its own static initializer. A class
whose initialization is under way counts as initialized for those who ask meanwhile. A class whose
initialization failed stays unusable; an exception that came out of an initializer is wrapped once.
-/

namespace JavaMachine

variable {Client : Type}

/-- What the failure of an initializer looks like from outside. -/
def initializerError : Error → Error
  | .runtime exception => .linkage (.initializerRaised exception)
  | other => other

/-- Enters what happens to a class into the journal. -/
def note (id : ClassId) (occurrence : Occurrence) : MachineM Client Unit :=
  MachineM.onWorld (modify fun world => world.note id occurrence)

/-- Runs a static initializer. -/
def callInitializer (run : Runner Client) (id : ClassId) (initializer : Method) :
    MachineM Client Unit := do
  note id (.called initializer)
  let outcome ← MachineM.outcome (run initializer [])
  note id (.answered outcome)
  discard (ofExcept outcome)

/-- Runs the static initializer that a class declares itself, if any. -/
def runInitializer (run : Runner Client) (id : ClassId) : MachineM Client Unit := do
  let type := (← MachineM.world).type id
  match type.declaredMethod? WellKnown.staticInitializer WellKnown.noArguments with
  | some method => if method.isStatic then callInitializer run id method else return
  | none => return

/-- Initializes a linked class after its superclasses, which `superclasses` sees to. -/
def initializeLinked (run : Runner Client) (id : ClassId) (superclasses : MachineM Client Unit) :
    MachineM Client Unit := do
  MachineM.onWorld (World.advance id .beingInitialized)
  note id .begun
  tryCatch
    (do
      superclasses
      runInitializer run id)
    (fun error => do
      MachineM.onWorld (modify fun world => world.markFailed id)
      throw (initializerError error))
  MachineM.onWorld (World.advance id .fullyInitialized)
  note id .completed

/-- Initializes a class as far as its state asks for it. -/
def initializeFrom (run : Runner Client) (id : ClassId) (superclasses : MachineM Client Unit) :
    MachineM Client Unit := do
  let type := (← MachineM.world).type id
  if type.isArray then return
  else
    match type.state with
    | .fullyInitialized | .beingInitialized => return
    | .initializationError => throw (.linkage (.initializationFailed type.name))
    | .allocated => throw (.internal (.initializedUnlinked type.name))
    | .linked => initializeLinked run id superclasses

/-- Initializes the first class of a list of superclasses, which names the nearest first. -/
def initializeAlong (run : Runner Client) : List ClassId → MachineM Client Unit
  | [] => return
  | id :: superclasses =>
      tryCatch (initializeFrom run id (initializeAlong run superclasses))
        (fun error => do
          note id (.failed error)
          throw error)

/-- Initializes a class. -/
def initializeClass (run : Runner Client) (id : ClassId) : MachineM Client Unit := do
  initializeAlong run ((← MachineM.world).superclasses id)

end JavaMachine

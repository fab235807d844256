import JavaMachine.Class.Basic

/-!
# The journal of initializations

A machine keeps a journal of what happens to classes while they are initialized: that an
initialization begins, that the static initializer is called and how that ends, and that the
initialization is completed or fails. A request that is refused at once counts as failed. With
each entry goes a picture of all classes as they are right after it.
-/

namespace JavaMachine

/-- What happens to a class while it is initialized. -/
inductive Occurrence where
  | begun
  | called (initializer : Method)
  | answered (outcome : Except Error (Option Value))
  | completed
  | failed (error : Error)

/-- An entry of the journal. -/
structure Moment where
  type : ClassId
  occurrence : Occurrence
  /-- The classes right after the occurrence. -/
  classes : Array Class

/-- What happened so far, the latest first. -/
abbrev Journal := List Moment

end JavaMachine

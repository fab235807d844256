import JavaMachine.Class.Declaration
import JavaMachine.Table

/-!
# Method tables

The tables in which a linked class finds methods by key: all it declares, those for dynamic
dispatch, those that are private, final or constructors, and those that are static. The table for
dispatch starts as the superclass's; a declaration takes the place of an inherited entry unless
that is final, and the tables of the declared interfaces fill in what is still missing.
-/

namespace JavaMachine

/-- The methods that a class finds by key. -/
structure MethodTables where
  declared : Table String Method := {}
  virtual : Table String Method := {}
  nonvirtual : Table String Method := {}
  static : Table String Method := {}
  deriving Inhabited

namespace MethodTables

/-- Enters a declared method into the tables of the class named `className`. -/
def enter (className : String) (tables : MethodTables) (method : Method) :
    Except LinkageError MethodTables :=
  let key := method.key
  if tables.declared.contains key then .error (.duplicateMethod className key)
  else
    let declared := tables.declared.insert key method
    if method.isStatic then
      .ok { tables with declared, static := tables.static.insert key method }
    else if method.isPrivate ∨ method.name = WellKnown.constructor then
      .ok { tables with declared, nonvirtual := tables.nonvirtual.insert key method }
    else
      let replaced := tables.virtual.find? key
      match replaced.filter Method.isFinal with
      | some overridden => .error (.finalOverridden className key overridden.ownerName)
      | none =>
          .ok { tables with
            declared
            virtual := tables.virtual.insert key method
            nonvirtual :=
              if method.isFinal then tables.nonvirtual.insert key method else tables.nonvirtual }

/-- Reads the methods of a class file one after the other and enters them. -/
def enterAll (file : ClassFile) (owner : ClassId) (className : String) :
    List (Member MethodFlags) → MethodTables → Except LinkageError MethodTables
  | [], tables => .ok tables
  | member :: rest, tables => do
      let method ← Method.ofMember file owner className member
      enterAll file owner className rest (← tables.enter className method)

/-- The tables of a class, given the dispatch tables of its superclass and of its declared
interfaces. -/
def build (file : ClassFile) (owner : ClassId) (className : String)
    (inherited : Table String Method) (interfaces : List (Table String Method)) :
    Except LinkageError MethodTables := do
  let tables ← enterAll file owner className file.methods { virtual := inherited }
  return { tables with virtual := interfaces.foldl Table.insertMissing tables.virtual }

end MethodTables
end JavaMachine

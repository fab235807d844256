import JavaMachine.AccessFlags
import JavaMachine.World

/-!
# Reports

The layout of a loaded class as text, one fact a line: its state, its flags and its supertypes,
and for a declared class the places of its fields and the owners of the methods that it dispatches
to.
-/

namespace JavaMachine.Report

/-- Puts an end to every line. -/
def ofLines (lines : List String) : String := String.join (lines.map fun line => line ++ "\n")

/-- A field with its place. -/
def fieldLine (slot : FieldSlot) : String := s!"    [{slot.offset}] " ++ slot.field.key

/-- The entries of a dispatch table in the order of their keys, with the names of the owners. -/
def dispatchLines (virtual : Table String Method) : List String :=
  let entries := virtual.entries.mergeSort fun first second => !decide (second.1 < first.1)
  entries.map fun (key, method) => "    " ++ key ++ " -> " ++ method.ownerName

/-- What there is to say of any class. -/
def commonLines (world : World) (type : Class) : List String :=
  ["class " ++ type.name ++ " (" ++ type.kind.name ++ ")", "  state: " ++ type.state.name,
      "  flags: " ++ type.flags.describe] ++
    type.superclass?.toList.map (fun id => "  super: " ++ (world.type id).name) ++
    type.interfaces.map fun id => "  implements: " ++ (world.type id).name

/-- What there is to say of the members of a declared class. -/
def memberLines (type : Class) : List String :=
  "  instance fields:" :: type.fields.slots.map fieldLine ++
    "  static fields:" :: type.fields.static.values.map fieldLine ++
    "  vtable:" :: dispatchLines type.methods.virtual

/-- The layout of a class. -/
def ofClass (world : World) (id : ClassId) : String :=
  let type := world.type id
  ofLines (commonLines world type ++ if type.isArray then [] else memberLines type)

end JavaMachine.Report

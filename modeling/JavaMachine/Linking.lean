import JavaMachine.Hierarchy
import JavaMachine.Mirror
import JavaMachine.Number

/-!
# Linking

Linking a class finds its superclass and its interfaces, builds its method tables and its field
layout, gives its static fields their first values and reads its attributes. Other classes are
loaded on the way through a given way of loading. Nothing of a class whose linking fails is kept
but the class itself, in the state of failure.
-/

namespace JavaMachine

/-- A way of loading: the class to which a loader leads by a name, if any. -/
abbrev Load := LoaderId → String → WorldM (Option ClassId)

namespace Load

/-- The class to which a loader leads by a name, which has to be there. -/
def required (load : Load) (loader : LoaderId) (name : String) : WorldM ClassId := do
  match ← load loader name with
  | some id => return id
  | none => throw (.linkage (.classNotFound name))

/-- The canonical string object with a text. -/
def intern (load : Load) (text : String) : WorldM ObjectId := do
  match (← get).strings.find? text with
  | some known => return known
  | none =>
      let stringClass ← load.required .bootstrap WellKnown.stringClass
      let fresh ← World.allocateInstance stringClass (.text text)
      -- loading the string class may have brought the text in
      modifyGet fun world =>
        match world.strings.find? text with
        | some known => (known, world)
        | none => (fresh, { world with strings := world.strings.insert text fresh })

end Load

namespace World

/-- Moves a class on to its next state. -/
def advance (id : ClassId) (next : ClassState) : WorldM Unit := do
  let type := (← get).type id
  if type.state.canAdvanceTo next then
    modify fun world => world.modifyType id fun type => { type with state := next }
  else throw (.internal (.illegalTransition type.name type.state next))

/-- Moves a class to the state of failure, unless its state is final. -/
def markFailed (world : World) (id : ClassId) : World :=
  world.modifyType id fun type =>
    if type.state.isTerminal then type else { type with state := .initializationError }

/-- Finds the superclass of the class named `name`; the root class alone has none. -/
def linkSuperclass (load : Load) (loader : LoaderId) (name : String) (file : ClassFile) :
    WorldM (Option ClassId) := do
  let isRoot := name = WellKnown.objectClass
  if file.superClass = 0 then
    if isRoot then return none
    else throw (.linkage (.noSuperclass name))
  else if isRoot then throw (.linkage .rootWithSuperclass)
  else
    let superName ← WorldM.ofLinking (file.requireClassName file.superClass)
    let id ← load.required loader superName
    let superclass := (← get).type id
    if superclass.isArray then throw (.linkage (.superclassIsArray name superName))
    else if superclass.isInterface then throw (.linkage (.superclassIsInterface name superName))
    else if superclass.isFinal then throw (.linkage (.superclassIsFinal superName))
    else return some id

/-- Finds the declared interfaces of the class named `name`, at the given pool indices, and adds
them and theirs to the interfaces known by name. -/
def linkInterfaces (load : Load) (loader : LoaderId) (name : String) (file : ClassFile) :
    List UInt16 → Table String ClassId → WorldM (List ClassId × Table String ClassId)
  | [], known => return ([], known)
  | index :: rest, known => do
      let interfaceName ← WorldM.ofLinking (file.requireClassName index)
      let id ← load.required loader interfaceName
      let interface := (← get).type id
      if interface.isArray then throw (.linkage (.interfaceIsArray name interfaceName))
      else if !interface.isInterface then throw (.linkage (.interfaceIsClass name interfaceName))
      else
        let inherited := (interface.linkage?.map Linkage.allInterfaces).getD {}
        let known := (known.insertAll inherited).insert interfaceName id
        let (others, known) ← linkInterfaces load loader name file rest known
        return (id :: others, known)

/-- The value with which a static field starts: a constant for a final field that names one, and
the default otherwise. -/
def initialValue (load : Load) (file : ClassFile) (field : Field) : WorldM Value := do
  match field.isFinal, field.constant with
  | true, some index =>
      match file.constant? index, field.valueType with
      | some (.integer value), type =>
          if type.isIntLike then return .int value
          else throw (.linkage (.constantMismatch index field.key))
      | some (.float bits), .primitive .float => return .float (Number.single bits)
      | some (.long high low), .primitive .long => return .long (Number.long high low)
      | some (.double high low), .primitive .double => return .double (Number.double high low)
      | some (.string textIndex), .object =>
          if field.descriptor = "L" ++ WellKnown.stringClass ++ ";" then
            let text ← WorldM.ofLinking (file.requireText textIndex)
            return .reference (some (← load.intern text))
          else throw (.linkage (.constantMismatch index field.key))
      | _, _ => throw (.linkage (.constantMismatch index field.key))
  | _, _ => return .default field.valueType

/-- Adds the declared fields to a layout one after the other, and the first values of the static
ones to those before them. -/
def linkFields (load : Load) (file : ClassFile) (owner : ClassId) (name : String) :
    List (Member FieldFlags) → FieldLayout → Array Value → WorldM (FieldLayout × Array Value)
  | [], layout, static => return (layout, static)
  | member :: rest, layout, static => do
      let field ← WorldM.ofLinking (Field.ofMember file owner name member)
      let layout ← WorldM.ofLinking (layout.add name field)
      if field.isStatic then
        let value ← initialValue load file field
        linkFields load file owner name rest layout (static.push value)
      else linkFields load file owner name rest layout static

/-- One more than the greatest of some heights, 0 if there are none. -/
def heightAbove (heights : List Nat) : Nat :=
  heights.foldr (fun height above => max (height + 1) above) 0

/-- Computes what linking a declared class gives, and the first values of its static fields. -/
def linkDeclared (load : Load) (id : ClassId) (loader : LoaderId) (name : String)
    (file : ClassFile) : WorldM (Linkage × Array Value) := do
  let superclass ← linkSuperclass load loader name file
  let world ← get
  let inherited := superclass.bind fun superclass => (world.type superclass).linkage?
  let known := (inherited.map Linkage.allInterfaces).getD {}
  let (interfaces, allInterfaces) ← linkInterfaces load loader name file file.interfaces known
  let world ← get
  let interfaceLinkages := interfaces.filterMap fun interface => (world.type interface).linkage?
  let methods ← WorldM.ofLinking (MethodTables.build file id name
    ((inherited.map fun linkage => linkage.methods.virtual).getD {})
    (interfaceLinkages.map fun linkage => linkage.methods.virtual))
  let layout := FieldLayout.inherit
    ((inherited.map fun linkage => linkage.fields.slots).getD [])
    (interfaceLinkages.map fun linkage => linkage.fields.slots)
  let (fields, static) ← linkFields load file id name file.fields layout #[]
  let attributes ← WorldM.ofLinking (ClassAttributes.ofFile file)
  let height := heightAbove ((superclass.toList ++ interfaces).map world.linkedHeight)
  return ({ superclass, interfaces, height, allInterfaces, methods, fields, attributes }, static)

/-- Attaches to a declared class what linking it gave. -/
def attachLinkage (world : World) (id : ClassId) (linkage : Linkage) (static : Array Value) :
    World :=
  world.modifyDeclared id fun body => { body with linkage := some linkage, pool := some {}, static }

/-- Links an allocated class. -/
def linkWith (load : Load) (id : ClassId) : WorldM Unit := do
  let type := (← get).type id
  match type.declared? with
  | none => throw (.internal (.notInstanceClass type.name))
  | some body =>
      if type.state ≠ .allocated then throw (.internal (.alreadyLinked type.name type.state))
      else
        tryCatch
          (do
            let (linkage, static) ← linkDeclared load id type.loader type.name body.file
            modify fun world => world.attachLinkage id linkage static
            advance id .linked)
          (fun error => do
            modify fun world => world.markFailed id
            throw error)

end World
end JavaMachine

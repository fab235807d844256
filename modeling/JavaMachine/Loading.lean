import JavaMachine.Linking

/-!
# Loading

A loader leads from names to classes. Names are looked for in the loader's directory, then with
the loaders of its chain, then in its own sources; a class that is found there is defined and
linked at once. Array classes stand in the directory of their component's loader. A name is
settled once, and a definition that comes to need itself is circular.
-/

namespace JavaMachine.World

/-- What a name stands for in a directory; while it is open, `define` finds it out. A definition
that fails leaves the name open. -/
def getOrDefine (loader : LoaderId) (name : String) (define : WorldM (Option ClassId)) :
    WorldM (Option ClassId) := do
  let directory := ((← get).loader loader).directory
  match directory.entries.find? name with
  | some known => return known
  | none =>
      if name ∈ directory.defining then throw (.linkage (.circularity name))
      else
        modify fun world => world.modifyDirectory loader fun directory => directory.start name
        let found ← tryCatch define fun error => do
          modify fun world => world.modifyDirectory loader fun directory => directory.stop name
          throw error
        modify fun world => world.modifyDirectory loader fun directory =>
          (directory.stop name).settle name found
        return found

/-- Enters a class into a directory under its name, which may stand for no other class. -/
def register (loader : LoaderId) (id : ClassId) : WorldM Unit := do
  let world ← get
  let name := (world.type id).name
  match (world.loader loader).directory.entries.find? name with
  | none =>
      set (world.modifyDirectory loader fun directory => directory.settle name (some id))
  | some known =>
      if known = some id then return
      else throw (.linkage (.duplicateClass name))

/-! ### Declared classes -/

/-- Defines a class by its file, which has to declare the name asked for. -/
def defineClass (load : Load) (loader : LoaderId) (name : String) (file : ClassFile) :
    WorldM ClassId := do
  let type ← WorldM.ofLinking (Class.allocate file loader)
  if type.name ≠ name then throw (.linkage (.wrongName name type.name))
  let id ← modifyGet fun world => world.addType type
  linkWith load id
  ensureMirror id
  return id

/-- Defines a class by the first source that has a file for it. -/
def defineFrom (load : Load) (loader : LoaderId) (name : String) :
    List Source → WorldM (Option ClassId)
  | [] => return none
  | source :: rest => do
      match ← WorldM.ofLinking (source.find? name) with
      | some file => return some (← defineClass load loader name file)
      | none => defineFrom load loader name rest

/-! ### Array classes -/

/-- What array classes inherit: the root class, and two interfaces as far as they can be found. -/
def arraySupertypes (load : Load) : WorldM ArraySupertypes := do
  let superclass ← load.required .bootstrap WellKnown.objectClass
  let cloneable ← load .bootstrap WellKnown.cloneableClass
  let serializable ← load .bootstrap WellKnown.serializableClass
  return ⟨superclass, cloneable.toList ++ serializable.toList⟩

/-- Adds an array class, which needs no initialization. -/
def addArrayClass (name : String) (flags : ClassFlags) (loader : LoaderId) (kind : ClassKind) :
    WorldM (Option ClassId) := do
  let id ← modifyGet fun world =>
    world.addType { name, flags, loader, state := .fullyInitialized, kind }
  ensureMirror id
  return some id

/-- The array class named `name` in a directory, once `define` has seen to it. -/
def arrayClass (loader : LoaderId) (name : String) (define : WorldM (Option ClassId)) :
    WorldM ClassId := do
  match ← getOrDefine loader name define with
  | some id => return id
  | none => throw (.internal (.arrayNotDefined name))

/-- The class of arrays of a primitive type. -/
def primitiveArrayOver (load : Load) (element : Primitive) : WorldM ClassId :=
  let name := (FieldType.array (.primitive element)).descriptor
  arrayClass .bootstrap name do
    let supertypes ← arraySupertypes load
    addArrayClass name ⟨0x0411⟩ .bootstrap (.primitiveArray element supertypes)

/-- The class of arrays of objects of a class. -/
def referenceArrayOver (load : Load) (component : ClassId) : WorldM ClassId := do
  let type := (← get).type component
  arrayClass type.loader type.arrayName do
    let supertypes ← arraySupertypes load
    addArrayClass type.arrayName (.ofArray type.flags) type.loader
      (.referenceArray component (type.dimension + 1) supertypes)

/-- The array class with a name; `component` finds the class of a component by its name. -/
def loadArray (load : Load) (component : String → WorldM (Option ClassId)) (name : String) :
    WorldM (Option ClassId) := do
  match FieldType.ofDescriptor? name with
  | none => throw (.linkage (.invalidArrayName name))
  | some (.array (.primitive element)) => return some (← primitiveArrayOver load element)
  | some (.array type) =>
      match ← component type.loadName with
      | some found => return some (← referenceArrayOver load found)
      | none => return none
  | some _ => throw (.internal (.notArrayName name))

/-! ### Names -/

/-- Enters among the answers of a loader what comes of a request for a name. -/
def answering (loader : LoaderId) (name : String) (request : WorldM (Option ClassId)) :
    WorldM (Option ClassId) := fun world =>
  let (outcome, later) := request world
  (outcome, { later with
    answers := later.answers.push ⟨loader, name, world.answers.size, outcome⟩ })

/-- Finds what a name stands for along a chain of loaders, the last of which is asked first. Each
settles it in its directory by `define`. -/
def loadAlong (define : Load) : List LoaderId → String → WorldM (Option ClassId)
  | [], _ => return none
  | loader :: parents, name => answering loader name do
      match (← get).findLoaded loader name with
      | some id => return some id
      | none =>
          match ← loadAlong define parents name with
          | some id => return some id
          | none => getOrDefine loader name (define loader name)

/-- Loads a name that is not the name of an array class. -/
def loadNamed (define : Load) : Load := fun loader name => do
  loadAlong define (loader :: ((← get).loader loader).chain) name

/-- Loads any name. A component's name is shorter than the name of its array class, so the length
of the name is enough as a limit. -/
def loadAny (define : Load) : (limit : Nat) → Load
  | 0, loader, name => loadNamed define loader name
  | limit + 1, loader, name =>
      if name.toList.head? = some '[' then
        answering loader name do
          match (← get).findLoaded loader name with
          | some id => return some id
          | none => loadArray (loadNamed define) (loadAny define limit loader) name
      else loadNamed define loader name

/-- Loads any name, with definitions nested at most `depth` deep. -/
def loadWithin : (depth : Nat) → Load
  | 0, loader, name =>
      loadAny (fun _ _ => throw (.internal .definitionsNestedTooDeep)) name.length loader name
  | depth + 1, loader, name =>
      loadAny
        (fun definer className => do
          defineFrom (loadWithin depth) definer className ((← get).loader definer).sources)
        name.length loader name

/-- No more definitions than this can be nested: each that is under way has a class file of its own,
except for the innermost. -/
def definitionLimit (world : World) : Nat :=
  (world.loaders.toList.flatMap Loader.sources).foldl
    (fun total source => total + source.capacity) 0 + 1

/-- The class to which a loader leads by a name, if any. -/
def load : Load := fun loader name => do
  loadWithin (← get).definitionLimit loader name

/-- The class to which a loader leads by a name, which has to be there. -/
def require (loader : LoaderId) (name : String) : WorldM ClassId := load.required loader name

/-- The canonical string object with a text. -/
def intern (text : String) : WorldM ObjectId := load.intern text

/-- Links an allocated class. -/
def link (id : ClassId) : WorldM Unit := linkWith load id

/-- The class of arrays of a primitive type. -/
def primitiveArrayClass (type : ValueType) : WorldM ClassId :=
  match type with
  | .primitive element => primitiveArrayOver load element
  | _ => throw (.internal (.noPrimitiveArray type))

/-- The array class one dimension above a class. -/
def arrayClassOf (component : ClassId) : WorldM ClassId := do
  let type := (← get).type component
  require type.loader type.arrayName

/-! ### The machine as a whole -/

/-- Loads the classes that everything else depends on. -/
def bootstrap : WorldM Unit := do
  let _ ← require .bootstrap WellKnown.objectClass
  let _ ← require .bootstrap WellKnown.stringClass
  let _ ← require .bootstrap WellKnown.classClass

/-- Forgets the names of the bootstrap loader and the canonical strings; classes and objects stay.
-/
def shutDown (world : World) : World :=
  { world.modifyDirectory .bootstrap fun _ => {} with strings := {} }

end JavaMachine.World

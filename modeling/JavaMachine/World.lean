import JavaMachine.Journal
import JavaMachine.Object
import JavaMachine.Source

/-!
# Worlds

The state of a machine: classes, objects, loaders, the table of canonical strings and the journal of
initializations. Classes and objects are never taken away. What loaders have answered is kept as
well, though no loader looks at it again.
-/

namespace JavaMachine

/-- The classes that one loader knows by name. A name without a class was looked for in vain. -/
structure Directory where
  entries : Table String (Option ClassId) := {}
  /-- The names whose definition is under way. -/
  defining : List String := []
  deriving Inhabited

namespace Directory

/-- The class with a name. -/
def find? (directory : Directory) (name : String) : Option ClassId :=
  (directory.entries.find? name).getD none

/-- The classes, in the order in which their names were first settled. -/
def classes (directory : Directory) : List ClassId := directory.entries.values.filterMap id

/-- Marks a definition as under way. -/
def start (directory : Directory) (name : String) : Directory :=
  { directory with defining := name :: directory.defining }

/-- Takes the mark away again. -/
def stop (directory : Directory) (name : String) : Directory :=
  { directory with defining := directory.defining.erase name }

/-- Settles what a name stands for. -/
def settle (directory : Directory) (name : String) (found : Option ClassId) : Directory :=
  { directory with entries := directory.entries.insert name found }

end Directory

/-- A loader. It asks the loaders of its chain, the next one first, before it looks into its own
sources; the chain ends with the bootstrap loader. -/
structure Loader where
  name : String
  chain : List LoaderId
  sources : List Source
  directory : Directory := {}
  deriving Inhabited

/-- What a loader has answered when it was asked for the class with a name. -/
structure LoaderAnswer where
  loader : LoaderId
  name : String
  /-- How many answers had been given before the name was asked for. -/
  earlier : Nat
  outcome : Except Error (Option ClassId)

/-- The state of a machine. -/
structure World where
  classes : Array Class := #[]
  objects : Array Object := #[]
  loaders : Array Loader
  strings : Table String ObjectId := {}
  journal : Journal := []
  /-- What loaders have answered, in the order in which the answers were given. -/
  answers : Array LoaderAnswer := #[]
  deriving Inhabited

/-- A computation on worlds that may fail; a failure keeps the changes made before it. -/
abbrev WorldM := ExceptT Error (StateM World)

/-- A result of linking as a step on worlds. -/
def WorldM.ofLinking {α : Type} : Except LinkageError α → WorldM α
  | .ok result => pure result
  | .error cause => throw (.linkage cause)

namespace World

/-- The world in which only the bootstrap loader exists. -/
def initial (sources : List Source) : World where
  loaders := #[{ name := "bootstrap", chain := [], sources }]

/-- The class with an identity. -/
def type (world : World) (id : ClassId) : Class := world.classes.getD id.index default

/-- The object with an identity. -/
def object (world : World) (id : ObjectId) : Object := world.objects.getD id.index default

/-- The loader with an identity. -/
def loader (world : World) (id : LoaderId) : Loader := world.loaders.getD id.index default

/-- The class of an object. -/
def typeOf (world : World) (id : ObjectId) : Class := world.type (world.object id).type

/-- Changes a class. -/
def modifyType (world : World) (id : ClassId) (change : Class → Class) : World :=
  { world with classes := world.classes.modify id.index change }

/-- Changes the declared part of a class. -/
def modifyDeclared (world : World) (id : ClassId) (change : DeclaredClass → DeclaredClass) :
    World :=
  world.modifyType id fun type =>
    match type.kind with
    | .declared body => { type with kind := .declared (change body) }
    | _ => type

/-- Enters an occurrence into the journal. -/
def note (world : World) (type : ClassId) (occurrence : Occurrence) : World :=
  { world with journal := ⟨type, occurrence, world.classes⟩ :: world.journal }

/-- Puts an object into the place of another. -/
def setObject (world : World) (id : ObjectId) (object : Object) : World :=
  { world with objects := world.objects.setIfInBounds id.index object }

/-- Changes the directory of a loader. -/
def modifyDirectory (world : World) (id : LoaderId) (change : Directory → Directory) : World :=
  { world with loaders := world.loaders.modify id.index fun loader =>
      { loader with directory := change loader.directory } }

/-- A change of the world that may be refused. -/
def change (attempt : World → Except Error World) : WorldM Unit := do
  set (← ofExcept (attempt (← get)))

/-- The class with a name in the directory of a loader. -/
def findLoaded (world : World) (loader : LoaderId) (name : String) : Option ClassId :=
  (world.loader loader).directory.find? name

/-- Adds a class. -/
def addType (world : World) (type : Class) : ClassId × World :=
  (⟨world.classes.size⟩, { world with classes := world.classes.push type })

/-- Adds an object. -/
def addObject (world : World) (object : Object) : ObjectId × World :=
  (⟨world.objects.size⟩, { world with objects := world.objects.push object })

/-- Adds a loader that asks `parent` first, or the bootstrap loader if no such loader is there. -/
def addLoader (world : World) (name : String) (parent : LoaderId) (sources : List Source) :
    LoaderId × World :=
  let parent := if parent.index < world.loaders.size then parent else .bootstrap
  let chain := parent :: (world.loader parent).chain
  (⟨world.loaders.size⟩, { world with loaders := world.loaders.push { name, chain, sources } })

end World
end JavaMachine

import JavaMachine.Proofs.Completeness
import JavaMachine.Proofs.Nesting

/-!
# Circular names

The file of a class names its superclass and its interfaces, and an array class is named after its
component. A class that loading finds has come about from such names without a circle, so where they
lead into one loading fails and nothing in the circle is found.
-/

namespace JavaMachine
namespace World

variable {world later : World} {loader other definer : LoaderId} {name : String} {id : ClassId}

/-- No loader that is asked has a file for a name, nor for the component at the bottom of the name
of an array class. -/
inductive Missing (world : World) (loader : LoaderId) : String → Prop where
  | plain {name : String} (plain : name.toList.head? ≠ some '[')
      (none : ∀ parent ∈ world.delegates loader, world.fileFor parent name = .ok none) :
      Missing world loader name
  | array {name : String} {type : FieldType}
      (written : FieldType.ofDescriptor? name = some (.array type))
      (reference : ¬ type.isPrimitive) (below : Missing world loader type.loadName) :
      Missing world loader name

/-- Where the name of an array class stands for none its component is missing. -/
theorem Missing.component {type : FieldType} (missing : world.Missing loader name)
    (written : FieldType.ofDescriptor? name = some (.array type)) :
    ¬ type.isPrimitive ∧ world.Missing loader type.loadName := by
  cases missing with
  | plain plain => exact absurd (FieldType.head?_of_ofDescriptor?_array written) plain
  | array own reference below =>
      rw [written] at own
      cases own
      exact ⟨reference, below⟩

theorem Missing.of_alike (missing : world.Missing loader name) (alike : world.Alike later) :
    later.Missing loader name := by
  induction missing with
  | plain plain none =>
      refine .plain plain fun parent among => ?_
      rw [alike.delegates] at among
      rw [alike.files]
      exact none parent among
  | array written reference _ inductionHypothesis =>
      exact .array written reference inductionHypothesis

theorem Regular.missing_of_lacks (regular : world.Regular) (lacks : world.Lacks loader name) :
    world.Missing loader name := by
  induction lacks with
  | plain plain settled =>
      exact .plain plain fun parent among => regular.noFile_of_settled (settled parent among)
  | array written reference _ inductionHypothesis =>
      exact .array written reference inductionHypothesis

/-- A request for a name leads to others: by the file of the first loader with one to those of its
defining loader for the names of superclass and interfaces, and by the name of an array class to one
for its component and to those for what array classes inherit. -/
inductive Demands (world : World) : LoaderId × String → LoaderId × String → Prop where
  | superclass {loader definer : LoaderId} {name above : String} {file : ClassFile}
      (plain : name.toList.head? ≠ some '[') (topmost : world.Topmost loader name definer file)
      (nonzero : file.superClass ≠ 0) (named : file.className? file.superClass = some above) :
      Demands world (loader, name) (definer, above)
  | interface {loader definer : LoaderId} {name above : String} {file : ClassFile} {index : UInt16}
      (plain : name.toList.head? ≠ some '[') (topmost : world.Topmost loader name definer file)
      (declared : index ∈ file.interfaces) (named : file.className? index = some above) :
      Demands world (loader, name) (definer, above)
  | component {loader : LoaderId} {name : String} {type : FieldType}
      (written : FieldType.ofDescriptor? name = some (.array type))
      (reference : ¬ type.isPrimitive) : Demands world (loader, name) (loader, type.loadName)
  | inherited {loader : LoaderId} {name above : String} {type : FieldType}
      (written : FieldType.ofDescriptor? name = some (.array type))
      (there : ¬ world.Missing loader name)
      (among : above ∈ [WellKnown.objectClass, WellKnown.cloneableClass,
        WellKnown.serializableClass]) : Demands world (loader, name) (.bootstrap, above)

theorem Demands.of_alike {request next : LoaderId × String} (demands : world.Demands request next)
    (alike : world.Alike later) : later.Demands request next := by
  cases demands with
  | superclass plain topmost nonzero named =>
      exact .superclass plain (topmost.of_alike alike) nonzero named
  | interface plain topmost declared named =>
      exact .interface plain (topmost.of_alike alike) declared named
  | component written reference => exact .component written reference
  | inherited written there among =>
      exact .inherited written (fun missing => there (missing.of_alike alike.symm)) among

/-- All ways along which a request leads to others come to an end. -/
def Grounded (world : World) (loader : LoaderId) (name : String) : Prop :=
  Acc (Function.swap world.Demands) (loader, name)

/-- From where a relation comes to an end it leads into no circle. -/
theorem not_transGen_of_acc {α : Type} {relation : α → α → Prop} {place : α}
    (accessible : Acc (Function.swap relation) place) :
    ¬ Relation.TransGen relation place place := by
  replace accessible := accessible.transGen
  induction accessible with
  | intro place _ inductionHypothesis =>
      intro circle
      exact inductionHypothesis place (Relation.transGen_swap.2 circle) circle

theorem not_circular_of_acc {α : Type} {relation : α → α → Prop} {start place : α}
    (accessible : Acc (Function.swap relation) start)
    (reaches : Relation.ReflTransGen relation start place) :
    ¬ Relation.TransGen relation place place := by
  apply not_transGen_of_acc
  induction reaches with
  | refl => exact accessible
  | tail _ step inductionHypothesis => exact inductionHypothesis.inv step

/-- A request that is grounded leads into no circle. -/
theorem Grounded.not_circular {place : LoaderId × String} (grounded : world.Grounded loader name)
    (reaches : Relation.ReflTransGen world.Demands (loader, name) place) :
    ¬ Relation.TransGen world.Demands place place :=
  not_circular_of_acc grounded reaches

theorem Missing.grounded (missing : world.Missing loader name) : world.Grounded loader name := by
  induction missing with
  | plain plain none =>
      refine ⟨_, fun next demands => ?_⟩
      cases demands with
      | superclass _ topmost | interface _ topmost =>
          have absent := none _ topmost.among
          rw [topmost.has] at absent
          cases absent
      | component written | inherited written =>
          exact absurd (FieldType.head?_of_ofDescriptor?_array written) plain
  | array written reference below inductionHypothesis =>
      have bracket := FieldType.head?_of_ofDescriptor?_array written
      refine ⟨_, fun next demands => ?_⟩
      cases demands with
      | superclass plain | interface plain => exact absurd bracket plain
      | component own =>
          rw [written] at own
          cases own
          exact inductionHypothesis
      | inherited _ there => exact absurd (.array written reference below) there

section Regular

variable (regular : world.Regular) (sound : world.Sound)
include regular sound

/-- The request for a class is grounded as its linking is. -/
theorem Regular.grounded_of_founded (founded : world.Founded id) (registered : world.Registered id)
    (among : (world.type id).loader ∈ world.delegates loader) :
    world.Grounded loader (world.type id).name := by
  induction founded generalizing loader with
  | @intro id file linkage isFile linked _ _ _ supertypes =>
      have declared := Class.not_isArray_of_linkage? linked
      have plain := (regular.entries _ _ _ registered).placed.plain declared
      obtain ⟨own, topmost, isFileToo⟩ := regular.topmost_of_findLoaded plain among registered
      obtain rfl : file = own := Option.some_inj.1 (isFile.symm.trans isFileToo)
      have names := regular.links id file linkage isFile linked
      have grounded {supertype : ClassId} (above : supertype ∈ linkage.supertypes) :
          world.Grounded (world.type id).loader (world.type supertype).name := by
        have sees := names.supertypes supertype above
        exact supertypes supertype above sees.registered sees.among
      refine ⟨_, fun next demands => ?_⟩
      cases demands with
      | superclass _ topmostToo nonzero named =>
          obtain ⟨rfl, rfl⟩ := topmost.unique sound topmostToo
          cases above : linkage.superclass with
          | none => exact absurd (names.root above) nonzero
          | some superclass =>
              rw [names.superclass superclass above] at named
              cases named
              exact grounded (mem_supertypes_of_superclass above)
      | @interface _ _ _ _ own index _ topmostToo declared named =>
          obtain ⟨rfl, rfl⟩ := topmost.unique sound topmostToo
          have listed : own.className? index ∈ own.interfaces.map own.className? :=
            List.mem_map_of_mem declared
          rw [names.declared, named] at listed
          obtain ⟨interface, implemented, same⟩ := List.mem_map.1 listed
          cases same
          exact grounded (mem_supertypes_of_interface implemented)
      | component written | inherited written =>
          exact absurd (FieldType.head?_of_ofDescriptor?_array written) plain

theorem Regular.grounded_of_findLoaded (plain : name.toList.head? ≠ some '[')
    (among : definer ∈ world.delegates loader) (entry : world.findLoaded definer name = some id) :
    world.Grounded loader name := by
  have stands := regular.entries definer name id entry
  have isDeclared := stands.not_isArray plain
  cases stands.placed with
  | declared _ _ _ _ _ founded =>
      rw [← stands.name]
      refine regular.grounded_of_founded sound founded
        (regular.registered_of_findLoaded entry) ?_
      rw [stands.loader]
      exact among
  | primitiveArray kind => exact absurd (Class.isArray_of_primitive kind) isDeclared
  | referenceArray kind => exact absurd (Class.isArray_of_reference kind) isDeclared

/-- The bootstrap loader asks no other for what it has settled. -/
theorem Regular.grounded_of_settled {found : Option ClassId} (plain : name.toList.head? ≠ some '[')
    (settled : world.settled? .bootstrap name = some found) : world.Grounded .bootstrap name := by
  cases found with
  | some id =>
      exact regular.grounded_of_findLoaded sound plain List.mem_cons_self
        (findLoaded_eq_some.2 settled)
  | none =>
      refine (Missing.plain plain fun parent among => ?_).grounded
      rw [delegates, sound.root, List.mem_singleton] at among
      rw [among]
      exact (regular.absent _ _ settled).noFile

omit sound in
/-- What array classes inherit is there where an array class is found. -/
theorem Regular.aboveArrays_of_leadsTo (bracket : name.toList.head? = some '[')
    (leads : world.LeadsTo loader name id) : ∃ supertypes, world.AboveArrays supertypes := by
  have isArray : (world.type id).isArray := by
    obtain ⟨type, written⟩ := regular.written_of_leadsTo bracket leads
    rcases regular.leadsTo_array written leads with ⟨element, _, entry⟩ | ⟨_, component, _, entry⟩
    · exact regular.isArray_of_findLoaded entry
        (FieldType.head?_of_ofDescriptor?_array (FieldType.ofDescriptor?_arrayOfPrimitives element))
    · exact regular.isArray_of_findLoaded entry (Class.head?_arrayName (world.type component))
  cases (regular.entries _ _ _ (regular.registered_of_leadsTo leads)).placed with
  | declared declared => exact absurd isArray declared
  | primitiveArray _ _ _ above | referenceArray _ _ _ _ _ _ _ _ above => exact ⟨_, above⟩

theorem Regular.grounded_of_aboveArrays {supertypes : ArraySupertypes}
    (above : world.AboveArrays supertypes) {name : String}
    (among : name ∈ [WellKnown.objectClass, WellKnown.cloneableClass,
      WellKnown.serializableClass]) : world.Grounded .bootstrap name := by
  obtain ⟨cloneable, serializable, settled, settledToo, _⟩ := above.interfaces
  rcases List.mem_cons.1 among with rfl | among
  · exact regular.grounded_of_settled sound (by decide) (findLoaded_eq_some.1 above.superclass)
  · rcases List.mem_cons.1 among with rfl | among
    · exact regular.grounded_of_settled sound (by decide) settled
    · rw [List.mem_singleton.1 among]
      exact regular.grounded_of_settled sound (by decide) settledToo

/-- What a loader leads to it has been asked for without a circle. -/
theorem Regular.grounded_of_leadsTo (leads : world.LeadsTo loader name id) :
    world.Grounded loader name := by
  -- the name of an array class leads on to the shorter name of the component
  induction length : name.length using Nat.strongRecOn generalizing name id with
  | ind length inductionHypothesis =>
      by_cases plain : name.toList.head? ≠ some '['
      · obtain ⟨definer, among, entry⟩ := leads.exists_definer plain
        exact regular.grounded_of_findLoaded sound plain among entry
      · have bracket := not_not.1 plain
        refine ⟨_, fun next demands => ?_⟩
        cases demands with
        | superclass plainToo | interface plainToo => exact absurd bracket plainToo
        | component written reference =>
            rcases regular.leadsTo_array written leads with
              ⟨element, rfl, _⟩ | ⟨_, component, below, _⟩
            · exact absurd rfl reference
            · exact inductionHypothesis _ (length ▸ FieldType.length_loadName_lt written) below rfl
        | inherited written there among =>
            obtain ⟨supertypes, above⟩ := regular.aboveArrays_of_leadsTo bracket leads
            exact regular.grounded_of_aboveArrays sound above among

end Regular

/-! ### Loading -/

/-- Where a request leads into a circle loading fails, and leads to no class of the circle. -/
theorem Intact.load_circular (intact : world.Intact) {place : LoaderId × String}
    (reaches : Relation.ReflTransGen world.Demands (loader, name) place)
    (circle : Relation.TransGen world.Demands place place) :
    (∃ error, (runFrom world (load loader name)).1 = .error error) ∧
      ∀ id, ¬ (runFrom world (load loader name)).2.LeadsTo place.1 place.2 id := by
  have ends := (load_finds loader name world intact.sound).ends
  have evolves := ends.leads
  have alike := evolves.settles.alike
  have regular := evolves.regular intact.regular
  have later : world.Demands ≤ (runFrom world (load loader name)).2.Demands :=
    fun _ _ demands => Demands.of_alike demands alike
  have circleLater := Relation.TransGen.mono later _ _ circle
  constructor
  · cases outcome : (runFrom world (load loader name)).1 with
    | error error => exact ⟨error, rfl⟩
    | ok found =>
        have gives := ends.gives found outcome
        have grounded : (runFrom world (load loader name)).2.Grounded loader name := by
          cases found with
          | none => exact (regular.missing_of_lacks (gives.absent rfl)).grounded
          | some id => exact regular.grounded_of_leadsTo evolves.sound (gives.leads id rfl)
        exact absurd circleLater
          (grounded.not_circular (Relation.ReflTransGen.mono later _ _ reaches))
  · intro id leads
    exact (regular.grounded_of_leadsTo evolves.sound leads).not_circular .refl circleLater

/-- Loading comes to an end: it does what it would do if definitions could be nested arbitrarily
deep and names were arbitrarily long. Afterwards the same definitions are under way as before. Where
the names in class files lead from the requested one into a circle, loading fails, and by no name in
the circle a loader leads to a class. -/
theorem load_terminates (reachable : world.Reachable) :
    ∀ loader name, let ended := runFrom world (load loader name)
      (∀ beyond bottom depth, world.definitionLimit ≤ depth →
        runFrom world (loadWithinOr beyond bottom depth loader name) = ended) ∧
      (∀ other, (ended.2.loader other).directory.defining =
        (world.loader other).directory.defining) ∧
      (world.Undisturbed → ∀ place, Relation.ReflTransGen world.Demands (loader, name) place →
        Relation.TransGen world.Demands place place →
          (∃ error, ended.1 = .error error) ∧ ∀ id, ¬ ended.2.LeadsTo place.1 place.2 id) := by
  intro loader name ended
  have sound := reachable.clean.sound
  refine ⟨fun beyond bottom depth enough => ?_, ?_, fun undisturbed place => ?_⟩
  · exact sound.loadWithinOr_eq beyond bottom enough loader name
  · exact (load_finds loader name world sound).ends.leads.settles.defining
  · exact undisturbed.intact.load_circular

end World

/-! ### A superclass that implements its subclass -/

namespace Circular

set_option maxRecDepth 20000

/-- What the bootstrap loader has. -/
def base : Source := .holding
  [("java/lang/Object", .withoutMembers 0x0021 "java/lang/Object" "" [])]

/-- What the loader has that asks the bootstrap loader. -/
def upper : Source := .holding
  [("Snake", .withoutMembers 0x0021 "Snake" "Tail" []),
    ("Tail", .withoutMembers 0x0021 "Tail" "java/lang/Object" ["Snake"])]

/-- Asks that loader for the subclass, which fails. -/
def program : Program Unit (Except Error (Option ClassId)) := do
  let loader ← Program.ask (.addLoader "upper" .bootstrap [upper])
  Program.ask (.load loader "Snake")

def world : World :=
  (program.runWith (fun _ _ => .done (.ok none)) 0 ⟨.initial [base], ()⟩).2.world

def loader : LoaderId := ⟨1⟩

theorem undisturbed : world.Undisturbed := by
  refine ⟨_, Unit, _, fun _ _ => .done (.ok none), 0, program, (), fun _ _ => trivial, ?_, rfl⟩
  exact ⟨id, fun _ => ⟨id, fun _ => trivial⟩⟩

theorem reachable : world.Reachable :=
  ⟨Unit, _, fun _ _ => .done (.ok none), 0, program, _, (), rfl⟩

/-- What the file says that a loader has for a name. -/
def reads {α : Type} (name : String) (about : ClassFile → α) : Option α :=
  (world.fileFor loader name).toOption.join.map about

theorem exists_file {α : Type} {name : String} {about : ClassFile → α} {told : α}
    (same : reads name about = some told) :
    ∃ file, world.fileFor loader name = .ok (some file) ∧ about file = told := by
  obtain ⟨file, found, tells⟩ := Option.map_eq_some_iff.1 same
  refine ⟨file, ?_, tells⟩
  cases known : world.fileFor loader name with
  | error cause => simp [known, Except.toOption] at found
  | ok other => simpa [known, Except.toOption] using found

theorem snake_reads : reads "Snake" (fun file => (file.superClass, file.className? 4)) =
    some (4, some "Tail") := by
  decide +kernel

theorem tail_reads : reads "Tail" (fun file => (file.interfaces, file.className? 6)) =
    some ([6], some "Snake") := by
  decide +kernel

/-- The loader that is asked has neither file. -/
theorem above : ∀ parent ∈ (world.loader loader).chain, ∀ name ∈ ["Snake", "Tail"],
    (world.fileFor parent name).toOption.map Option.isNone = some true := by
  decide +kernel

theorem topmost {name : String} {file : ClassFile} (listed : name ∈ ["Snake", "Tail"])
    (has : world.fileFor loader name = .ok (some file)) :
    world.Topmost loader name loader file := by
  refine ⟨List.mem_cons_self, has, fun parent asked => ?_⟩
  have absent := above parent asked name listed
  cases known : world.fileFor parent name with
  | error cause => simp [known, Except.toOption] at absent
  | ok found => simpa [known, Except.toOption] using absent

theorem demands_tail : world.Demands (loader, "Snake") (loader, "Tail") := by
  obtain ⟨file, has, same⟩ := exists_file snake_reads
  obtain ⟨index, named⟩ := Prod.mk.inj same
  refine .superclass (by decide) (topmost (by decide) has) ?_ ?_
  · rw [index]
    decide
  · rw [index]
    exact named

theorem demands_snake : world.Demands (loader, "Tail") (loader, "Snake") := by
  obtain ⟨file, has, same⟩ := exists_file tail_reads
  obtain ⟨declared, named⟩ := Prod.mk.inj same
  refine .interface (by decide) (topmost (by decide) has) ?_ named
  rw [declared]
  exact List.mem_singleton_self 6

end Circular

namespace World

/-- The subclass cannot be loaded as a component either, whether or not limits are observed, and
nothing is found under its name. -/
theorem load_terminates_circular : Circular.world.Reachable ∧ Circular.world.Undisturbed ∧
    (∀ beyond bottom, runFrom Circular.world
      (loadWithinOr beyond bottom Circular.world.definitionLimit Circular.loader "[LSnake;") =
        runFrom Circular.world (load Circular.loader "[LSnake;")) ∧
    (∃ error, (runFrom Circular.world (load Circular.loader "[LSnake;")).1 = .error error) ∧
    ∀ id, ¬ (runFrom Circular.world (load Circular.loader "[LSnake;")).2.LeadsTo
      Circular.loader "Snake" id := by
  have reachable := Circular.reachable
  have undisturbed := Circular.undisturbed
  obtain ⟨ends, _, circular⟩ := load_terminates reachable Circular.loader "[LSnake;"
  have component :
      Circular.world.Demands (Circular.loader, "[LSnake;") (Circular.loader, "Snake") :=
    .component (show FieldType.ofDescriptor? "[LSnake;" = some (.array (.object "Snake")) by decide)
      (by decide)
  obtain ⟨fails, unfound⟩ := circular undisturbed (Circular.loader, "Snake") (.single component)
    (.tail (.single Circular.demands_tail) Circular.demands_snake)
  exact ⟨reachable, undisturbed, fun beyond bottom => ends beyond bottom _ (Nat.le_refl _), fails,
    unfound⟩

end World
end JavaMachine

import JavaMachine.Proofs.Recurrence
import JavaMachine.Proofs.Requests

/-!
# Definitions that come to need themselves

What a definition asks for are the names in the class file, the class of strings where a static
field starts with a string, and what array classes inherit. So the requests from a definition under
way to the one that is made under its name once more are a circle.
-/

namespace JavaMachine

/-- The internal name of the throwable for a definition that comes to need itself. -/
def Error.circularity : String := "java/lang/ClassCircularityError"

/-- The error is that of a definition that comes to need itself. -/
def Error.IsCircularity (error : Error) : Prop := error.throwable? = some circularity

/-- No other error is taken for one. -/
theorem Error.IsOrdinary.not_isCircularity {error : Error} (isOrdinary : error.IsOrdinary) :
    ¬ error.IsCircularity := by
  intro same
  cases error with
  | linkage cause =>
      cases cause with
      | circularity | duplicateMethod | duplicateField | raised => exact isOrdinary
      | _ => simp [IsCircularity, circularity, throwable?, LinkageError.throwable] at same
  | internal cause => cases same
  | runtime => exact isOrdinary

namespace World

variable {model world later : World} {loader other definer : LoaderId} {name key : String}
variable {file : ClassFile} {start here next : LoaderId × String}

/-! ### Circles -/

/-- A request leads to others: to those that it demands, and to one for the class of strings where
the class starts with a string. -/
inductive Entails (world : World) : LoaderId × String → LoaderId × String → Prop where
  | demands {request next : LoaderId × String} (demands : world.Demands request next) :
      Entails world request next
  | string {loader definer : LoaderId} {name : String} {file : ClassFile}
      (plain : name.toList.head? ≠ some '[') (topmost : world.Topmost loader name definer file)
      (starts : file.StartsWithString name) :
      Entails world (loader, name) (.bootstrap, WellKnown.stringClass)

/-- From the request on requests lead back to one that is on the way already. -/
def LeadsBack (world : World) (start : LoaderId × String) : Prop :=
  ∃ place, Relation.ReflTransGen world.Entails start place ∧
    Relation.TransGen world.Entails place place

/-- Requests for a declared class lead to the same ones where one loader defines it for them. -/
theorem Entails.of_topmost (entails : world.Entails (loader, name) next)
    (plain : name.toList.head? ≠ some '[') (sound : world.Sound)
    (topmost : world.Topmost loader name definer file)
    (topmostToo : world.Topmost other name definer file) : world.Entails (other, name) next := by
  cases entails with
  | demands demands =>
      cases demands with
      | superclass _ own nonzero named =>
          obtain ⟨rfl, rfl⟩ := topmost.unique sound own
          exact .demands (.superclass plain topmostToo nonzero named)
      | interface _ own declared named =>
          obtain ⟨rfl, rfl⟩ := topmost.unique sound own
          exact .demands (.interface plain topmostToo declared named)
      | component written | inherited written =>
          exact absurd (FieldType.head?_of_ofDescriptor?_array written) plain
  | string _ own starts =>
      obtain ⟨rfl, rfl⟩ := topmost.unique sound own
      exact .string plain topmostToo starts

theorem Topmost.own (topmost : world.Topmost loader name definer file) :
    world.Topmost definer name definer file :=
  ⟨List.mem_cons_self, topmost.has, topmost.above⟩

/-! ### Requests on the way -/

/-- The definition of a name has led to the request: by the file of the class, or by what array
classes inherit. -/
inductive Awaits (model : World) (here : LoaderId × String) (loader : LoaderId) (name : String) :
    Prop where
  | declared {file : ClassFile} (plain : name.toList.head? ≠ some '[')
      (topmost : model.Topmost loader name loader file)
      (onward : Relation.TransGen model.Entails (loader, name) here) : Awaits model here loader name
  | array {above : String} (bracket : name.toList.head? = some '[')
      (among : above ∈ inheritedNames)
      (onward : Relation.ReflTransGen model.Entails (.bootstrap, above) here) :
      Awaits model here loader name

theorem Awaits.step (awaits : model.Awaits here loader name) (entails : model.Entails here next) :
    model.Awaits next loader name := by
  cases awaits with
  | declared plain topmost onward => exact .declared plain topmost (onward.tail entails)
  | array bracket among onward => exact .array bracket among (onward.tail entails)

/-- A world in which the request `here` is to be answered, to which `start` has led; so has every
definition that is under way. -/
structure Engaged (model : World) (start here : LoaderId × String) (world : World) : Prop
    extends model.Matching world where
  reaches : Relation.ReflTransGen model.Entails start here
  awaits : ∀ loader name, world.Defining loader name → model.Awaits here loader name

namespace Engaged

theorem mono (engaged : model.Engaged start here world) (evolves : world.Evolves later) :
    model.Engaged start here later where
  toMatching := engaged.toMatching.mono evolves
  reaches := engaged.reaches
  awaits loader name underWay := engaged.awaits loader name (evolves.settles.idle underWay)

theorem step (engaged : model.Engaged start here world) (entails : model.Entails here next) :
    model.Engaged start next world where
  toMatching := engaged.toMatching
  reaches := engaged.reaches.tail entails
  awaits loader name underWay := (engaged.awaits loader name underWay).step entails

/-- A request for a name that is under way with a loader that is asked closes a circle. -/
theorem leadsBack_of_declared (engaged : model.Engaged start (loader, name) world)
    (plain : name.toList.head? ≠ some '[') (among : definer ∈ world.delegates loader)
    (underWay : world.Defining definer name) : model.LeadsBack start := by
  cases engaged.awaits definer name underWay with
  | declared _ own onward =>
      obtain ⟨next, entails, rest⟩ := Relation.TransGen.head'_iff.1 onward
      rw [engaged.alike.delegates] at among
      have entails := entails.of_topmost plain engaged.sound own ⟨among, own.has, own.above⟩
      exact ⟨(loader, name), engaged.reaches, .head' entails rest⟩
  | array bracket => exact absurd bracket plain

/-- So does a request for an array class while one is under way. -/
theorem leadsBack_of_array {type : FieldType} (engaged : model.Engaged start (loader, name) world)
    (written : FieldType.ofDescriptor? name = some (.array type))
    (there : ¬ model.Missing loader name) (bracket : key.toList.head? = some '[')
    (underWay : world.Defining definer key) : model.LeadsBack start := by
  cases engaged.awaits definer key underWay with
  | declared plain => exact absurd bracket plain
  | array _ among onward =>
      exact ⟨(loader, name), engaged.reaches, .head' (.demands (.inherited written there among))
        onward⟩

/-- A class comes in by its file, and linking it makes a request. -/
theorem linking {type : Class} (engaged : model.Engaged start (loader, name) world)
    (opens : world.Opens loader name definer file)
    (allocated : Class.allocate file definer = .ok type)
    (asks : file.Asks name definer next.1 next.2) :
    model.Engaged start next (world.opening definer name type) := by
  have topmost := (opens.topmost engaged.regularToo).of_alike engaged.alike.symm
  have entails : model.Entails (loader, name) next := by
    obtain ⟨other, above⟩ := next
    cases asks with
    | superclass nonzero named => exact .demands (.superclass opens.plain topmost nonzero named)
    | interface declared named => exact .demands (.interface opens.plain topmost declared named)
    | string starts => exact .string opens.plain topmost starts
  refine ⟨engaged.toMatching.opening opens allocated, engaged.reaches.tail entails,
    fun other key underWay => ?_⟩
  have idle := (Settles.addType (world.starting definer name) type).idle underWay
  rcases idle.of_starting with same | before
  · cases same
    exact .declared opens.plain topmost.own
      (.single (entails.of_topmost opens.plain engaged.sound topmost topmost.own))
  · exact (engaged.awaits other key before).step entails

/-- What array classes inherit is asked for. -/
theorem inheriting {type : FieldType} {above : String}
    (engaged : model.Engaged start (loader, name) world)
    (written : FieldType.ofDescriptor? name = some (.array type))
    (there : ¬ model.Missing loader name) (bracket : key.toList.head? = some '[')
    (among : above ∈ inheritedNames) :
    model.Engaged start (.bootstrap, above) (world.starting definer key) := by
  have entails : model.Entails (loader, name) (.bootstrap, above) :=
    .demands (.inherited written there among)
  refine ⟨engaged.toMatching.starting definer key, engaged.reaches.tail entails,
    fun other own underWay => ?_⟩
  rcases underWay.of_starting with same | before
  · cases same
    exact .array bracket among .refl
  · exact (engaged.awaits other own before).step entails

end Engaged

/-- What an array class is made for is not missing. -/
theorem Engaged.not_missing {type : FieldType} (engaged : model.Engaged start (loader, name) world)
    (written : FieldType.ofDescriptor? name = some (.array type))
    (grounds : world.Grounds loader type) : ¬ model.Missing loader name := by
  intro missing
  rcases grounds with primitive | ⟨component, leads⟩
  · exact (missing.component written).1 primitive
  · have below := ((missing.of_alike engaged.alike).component written).2
    exact engaged.regularToo.not_leadsTo_of_missing below leads

/-! ### Loading -/

/-- Where requests fail as definitions that come to need themselves they lead back. -/
theorem engaged_justifies : Justifies (fun error => error.IsCircularity → model.LeadsBack start)
    fun loader name world => model.Engaged start (loader, name) world where
  ordinary _ isOrdinary isCircularity := absurd isCircularity isOrdinary.not_isCircularity
  sound engaged := engaged.soundToo
  mono engaged := engaged.mono
  circular engaged plain among underWay _ := engaged.leadsBack_of_declared plain among underWay
  circularArray engaged written grounds bracket underWay _ :=
    engaged.leadsBack_of_array written (engaged.not_missing written grounds) bracket underWay
  component engaged written reference := engaged.step (.demands (.component written reference))
  inherited engaged written grounds bracket among :=
    engaged.inheriting written (engaged.not_missing written grounds) bracket among
  linking engaged opens allocated asks := engaged.linking opens allocated asks
  tables _ _ _ := by
    have another : ¬ "java/lang/ClassFormatError" = Error.circularity := by decide
    exact ⟨fun _ _ _ _ isCircularity => absurd (Option.some_inj.1 isCircularity) another,
      fun _ _ _ _ _ _ _ isCircularity => absurd (Option.some_inj.1 isCircularity) another⟩

/-- Loading fails as a definition that comes to need itself only where the requests that follow from
the first one lead back to one of them: by the names in class files, by those of components, by the
class of strings where a class starts with a string, and by what array classes inherit. -/
theorem load_circularity (undisturbed : world.Undisturbed) :
    ∀ loader name error, (runFrom world (World.load loader name)).1 = .error error →
      error.IsCircularity → world.LeadsBack (loader, name) := by
  intro loader name
  have intact := undisturbed.intact
  have engaged : world.Engaged (loader, name) (loader, name) world :=
    ⟨.refl intact.sound intact.regular, .refl,
      fun other key underWay => absurd underWay (intact.idle other key)⟩
  exact engaged_justifies.accounts_load loader name world engaged

/-! ### Requests that no class file makes -/

/-- The names that a class file has above the class, as far as there are such names. -/
def above (source : Source) (name : String) : Option (List (Option String)) :=
  (source.find? name).toOption.join.map fun file =>
    (file.superClass :: file.interfaces).map file.className?

/-- A request leads to others by the names in the class file, or by that of the component. -/
def Mentions (world : World) (request next : LoaderId × String) : Prop :=
  world.Demands request next ∧ ∀ type, FieldType.ofDescriptor? request.2 = some (.array type) →
    next = (request.1, type.loadName)

/-- Where there is but the bootstrap loader it is asked for the names in the class file. -/
theorem Mentions.of_above {source : Source} {names : List (Option String)}
    (mentions : (initial [source]).Mentions (.bootstrap, name) next)
    (plain : name.toList.head? ≠ some '[') (known : above source name = some names) :
    ∃ key, some key ∈ names ∧ next = (.bootstrap, key) := by
  have same {definer : LoaderId} {file : ClassFile}
      (topmost : (initial [source]).Topmost .bootstrap name definer file) :
      definer = .bootstrap ∧ (file.superClass :: file.interfaces).map file.className? = names := by
    have among := topmost.among
    have has := topmost.has
    rw [delegates, (sound_initial [source]).root, List.mem_singleton] at among
    rw [among, fileFor] at has
    refine ⟨among, ?_⟩
    cases found : source.find? name with
    | error cause => simp [above, found, Except.toOption] at known
    | ok own =>
        have first : Source.findFirst? [source] name = _ := Source.findFirst?_cons found []
        cases own with
        | none => cases has.symm.trans first
        | some own =>
            cases has.symm.trans first
            simpa [above, found, Except.toOption] using known
  cases mentions.1 with
  | superclass _ topmost _ named =>
      obtain ⟨rfl, rfl⟩ := same topmost
      exact ⟨_, List.mem_map.2 ⟨_, List.mem_cons_self, named⟩, rfl⟩
  | interface _ topmost declared named =>
      obtain ⟨rfl, rfl⟩ := same topmost
      exact ⟨_, List.mem_map.2 ⟨_, List.mem_cons_of_mem _ declared, named⟩, rfl⟩
  | component written | inherited written =>
      exact absurd (FieldType.head?_of_ofDescriptor?_array written) plain

end World

namespace Reentrant

set_option maxRecDepth 20000

/-- The root class with a constant text, the index of which is the last but one entry. -/
def root : ClassFile :=
  let file : ClassFile := .withoutMembers 0x0021 "java/lang/Object" "" []
  let texts := ["TEXT", "Ljava/lang/String;", "ConstantValue", "hello"]
  { file with
    pool := file.pool ++ texts.map (fun text => .utf8 (Text.ModifiedUtf8.encode text)) ++
      [.string 8]
    fields := [⟨⟨0x0018⟩, 5, 6, [⟨7, [0, 9]⟩]⟩] }

/-- The root class starts with a string, and the class of strings is below it. -/
def strings : Source := .holding
  [("java/lang/Object", root),
    ("java/lang/String", .withoutMembers 0x0031 "java/lang/String" "java/lang/Object" [])]

/-- An array class is named above an interface that array classes inherit. -/
def arrays : Source := .holding
  [("java/lang/Object", .withoutMembers 0x0021 "java/lang/Object" "" []),
    ("java/lang/Cloneable",
      .withoutMembers 0x0601 "java/lang/Cloneable" "java/lang/Object" ["[LShape;"]),
    ("Shape", .withoutMembers 0x0021 "Shape" "java/lang/Object" [])]

theorem undisturbed (source : Source) : (World.initial [source]).Undisturbed :=
  ⟨[source], .refl _⟩

theorem fails :
    (runFrom (World.initial [strings]) (World.load .bootstrap "java/lang/Object")).1 =
      .error (.linkage (.circularity "java/lang/Object")) ∧
    (runFrom (World.initial [arrays]) (World.load .bootstrap "java/lang/Cloneable")).1 =
      .error (.linkage (.circularity "java/lang/Cloneable")) := by
  decide +kernel

theorem above_eq : World.above strings "java/lang/Object" = some [none] ∧
    World.above arrays "java/lang/Object" = some [none] ∧
    World.above arrays "Shape" = some [some "java/lang/Object"] ∧
    World.above arrays "java/lang/Cloneable" = some [some "java/lang/Object", some "[LShape;"] := by
  decide +kernel

/-- Nothing is named above the root class. -/
theorem acc_root {source : Source} (known : World.above source "java/lang/Object" = some [none]) :
    Acc (Function.swap (World.initial [source]).Mentions) (.bootstrap, "java/lang/Object") := by
  refine ⟨_, fun next mentions => ?_⟩
  obtain ⟨key, among, _⟩ := World.Mentions.of_above mentions (by decide) known
  simp at among

/-- What is named above the interface comes to an end. -/
theorem acc_cloneable :
    Acc (Function.swap (World.initial [arrays]).Mentions) (.bootstrap, "java/lang/Cloneable") := by
  obtain ⟨_, aboveRoot, aboveShape, aboveCloneable⟩ := above_eq
  have root := acc_root aboveRoot
  have shape : Acc (Function.swap (World.initial [arrays]).Mentions) (.bootstrap, "Shape") := by
    refine ⟨_, fun next mentions => ?_⟩
    obtain ⟨key, among, rfl⟩ := World.Mentions.of_above mentions (by decide) aboveShape
    obtain rfl := Option.some_inj.1 (List.mem_singleton.1 among)
    exact root
  have shapes : Acc (Function.swap (World.initial [arrays]).Mentions) (.bootstrap, "[LShape;") := by
    refine ⟨_, fun next mentions => ?_⟩
    have component := mentions.2 (.object "Shape") (by decide)
    rw [component]
    exact shape
  refine ⟨_, fun next mentions => ?_⟩
  obtain ⟨key, among, rfl⟩ := World.Mentions.of_above mentions (by decide) aboveCloneable
  rcases List.mem_cons.1 among with same | among
  · cases same
    exact root
  · obtain rfl := Option.some_inj.1 (List.mem_singleton.1 among)
    exact shapes

end Reentrant

namespace World

/-- Linking the root class, which starts with a string, makes a request for the class of strings. -/
theorem load_circularity_strings : (initial [Reentrant.strings]).Undisturbed ∧
    (runFrom (initial [Reentrant.strings]) (World.load .bootstrap "java/lang/Object")).1 =
      .error (.linkage (.circularity "java/lang/Object")) ∧
    (Error.linkage (.circularity "java/lang/Object")).IsCircularity ∧
    (initial [Reentrant.strings]).LeadsBack (.bootstrap, "java/lang/Object") := by
  have undisturbed := Reentrant.undisturbed Reentrant.strings
  exact ⟨undisturbed, Reentrant.fails.1, rfl,
    load_circularity undisturbed .bootstrap "java/lang/Object" _ Reentrant.fails.1 rfl⟩

/-- The names in class files alone need not lead back to one that is on the way, neither where a
class starts with a string nor where an array class is asked for. -/
theorem circular_unmentioned :
    ((initial [Reentrant.strings]).Undisturbed ∧
      (∃ error, (runFrom (initial [Reentrant.strings])
        (World.load .bootstrap "java/lang/Object")).1 = .error error ∧ error.IsCircularity) ∧
      ¬ ∃ place, Relation.ReflTransGen (initial [Reentrant.strings]).Mentions
          (.bootstrap, "java/lang/Object") place ∧
        Relation.TransGen (initial [Reentrant.strings]).Mentions place place) ∧
    (initial [Reentrant.arrays]).Undisturbed ∧
      (∃ error, (runFrom (initial [Reentrant.arrays])
        (World.load .bootstrap "java/lang/Cloneable")).1 = .error error ∧ error.IsCircularity) ∧
      ¬ ∃ place, Relation.ReflTransGen (initial [Reentrant.arrays]).Mentions
          (.bootstrap, "java/lang/Cloneable") place ∧
        Relation.TransGen (initial [Reentrant.arrays]).Mentions place place := by
  obtain ⟨failsStrings, failsArrays⟩ := Reentrant.fails
  have root := Reentrant.acc_root Reentrant.above_eq.1
  refine ⟨⟨Reentrant.undisturbed _, ⟨_, failsStrings, rfl⟩, ?_⟩,
    Reentrant.undisturbed _, ⟨_, failsArrays, rfl⟩, ?_⟩
  · rintro ⟨place, reaches, circle⟩
    exact not_circular_of_acc root reaches circle
  · rintro ⟨place, reaches, circle⟩
    exact not_circular_of_acc Reentrant.acc_cloneable reaches circle

end World
end JavaMachine

import JavaMachine.Proofs.Agreement
import JavaMachine.Proofs.Declarations
import JavaMachine.Proofs.Dispatch
import JavaMachine.Proofs.Session

/-!
# Final methods

Building the tables of a class refuses a method for dispatch under a key for which the superclass
has a final one. What is final is therefore handed down unchanged along the chain of superclasses,
past private and static methods under the same key, which never take part in dispatch, and past
interfaces, which only fill in what is missing.
-/

namespace JavaMachine

/-! ### Tables -/

namespace MethodTables

variable {file : ClassFile} {owner : ClassId} {className : String} {tables later : MethodTables}
variable {method final : Method} {members : List (Member MethodFlags)}

/-- A method for dispatch does not take the place of a final one. -/
theorem enter_not_final (entered : tables.enter className method = .ok later)
    (isVirtual : method.isVirtual) (entry : tables.virtual.find? method.key = some final) :
    ¬ final.isFinal := by
  intro isFinal
  have known : (tables.virtual.find? method.key).filter Method.isFinal = some final := by
    rw [entry, Option.filter_some, if_pos isFinal]
  simp only [Method.isVirtual, Bool.and_eq_true, Bool.not_eq_true', decide_eq_true_eq] at isVirtual
  obtain ⟨⟨dynamic, accessible⟩, ordinary⟩ := isVirtual
  unfold enter at entered
  dsimp only at entered
  split at entered
  · cases entered
  · rw [dynamic, if_neg Bool.false_ne_true, if_neg (by simp [accessible, ordinary]),
      known] at entered
    cases entered

/-- While methods are entered a final entry stays, and none of them is for dispatch under its
key. -/
theorem enterAll_final (entered : enterAll file owner className members tables = .ok later)
    {key : String} (entry : tables.virtual.find? key = some final) (isFinal : final.isFinal) :
    ∀ member ∈ members, ∀ own, Method.ofMember file owner className member = .ok own →
      own.key = key → ¬ own.isVirtual := by
  induction members generalizing tables with
  | nil => exact nofun
  | cons first rest inductionHypothesis =>
      obtain ⟨method, read, entered⟩ := Except.bind_ok entered
      obtain ⟨middle, enteredFirst, entered⟩ := Except.bind_ok entered
      have special (same : method.key = key) : ¬ method.isVirtual := fun isVirtual =>
        enter_not_final enteredFirst isVirtual (same ▸ entry) isFinal
      have entryStill : middle.virtual.find? key = some final := by
        rw [(enter_ok enteredFirst).2.2]
        split
        next isVirtual =>
          rw [Table.find?_insert, if_neg fun same => special same isVirtual, entry]
        next => exact entry
      intro member listed own readOwn sameKey
      rcases List.mem_cons.1 listed with rfl | among
      · cases read.symm.trans readOwn
        exact special sameKey
      · exact inductionHypothesis entered entryStill member among own readOwn sameKey

theorem build_final {inherited : Table String Method} {interfaces : List (Table String Method)}
    (built : build file owner className inherited interfaces = .ok tables) {key : String}
    (entry : inherited.find? key = some final) (isFinal : final.isFinal)
    {member : Member MethodFlags} (listed : member ∈ file.methods)
    (read : Method.ofMember file owner className member = .ok method) (same : method.key = key) :
    ¬ method.isVirtual := by
  obtain ⟨entered, entering, _⟩ := Except.bind_ok built
  exact enterAll_final entering entry isFinal member listed method read same

end MethodTables

namespace World

variable {world start middle later : World} {id ancestor superclass : ClassId} {name key : String}
variable {file : ClassFile} {linkage : Linkage} {method own : Method} {load : Load}

/-! ### The chain of superclasses -/

/-- A class that has been linked declares no method for dispatch under a key for which its
superclass has a final one. -/
theorem Fits.not_isVirtual (fits : world.Fits id name file linkage)
    (above : linkage.superclass = some superclass)
    (entry : (world.type superclass).methods.virtual.find? key = some method)
    (isFinal : method.isFinal) {member : Member MethodFlags} (listed : member ∈ file.methods)
    (read : Method.ofMember file id name member = .ok own) (same : own.key = key) :
    ¬ own.isVirtual := by
  refine MethodTables.build_final fits.methods ?_ isFinal listed read same
  rw [inheritedVirtual, above]
  exact entry

/-- The entry for a final method is the same in all subclasses. -/
theorem Sound.find?_virtual_of_final (sound : world.Sound)
    (linked : ∃ linkage, (world.type id).linkage? = some linkage)
    (inherits : world.Inherits id ancestor)
    (entry : (world.type ancestor).methods.virtual.find? key = some method)
    (isFinal : method.isFinal) :
    (world.type id).methods.virtual.find? key = some method := by
  induction inherits using Relation.ReflTransGen.head_induction_on with
  | refl => exact entry
  | @head id superclass above _ inductionHypothesis =>
      have entryAbove := inductionHypothesis
        (sound.reaches_linked linked (.single (Class.mem_supertypes_of_superclass above)))
      obtain ⟨linkage, linked⟩ := linked
      obtain ⟨file, isFile, fits⟩ := sound.fits linked
      rw [Class.superclass?_of_linkage linked] at above
      have none : ((world.type id).methods.declared.find? key).filter Method.isVirtual =
          none := by
        refine Option.filter_eq_none_iff.2 fun own declared => ?_
        obtain ⟨same, fileToo, isFileToo, member, listed, read⟩ :=
          (sound.find?_declared linked key own).1 declared
        cases isFile.symm.trans isFileToo
        exact fits.not_isVirtual above entryAbove isFinal listed read same
      rw [sound.find?_virtual linked, none, Option.none_or, above]
      simp [inheritedVirtual, entryAbove]

/-- No subclass declares a method for dispatch under the key of a final one. -/
theorem Sound.not_declaresVirtual_of_final (sound : world.Sound)
    (linked : ∃ linkage, (world.type id).linkage? = some linkage)
    (inherits : world.Inherits id ancestor) (distinct : id ≠ ancestor)
    (entry : (world.type ancestor).methods.virtual.find? key = some method)
    (isFinal : method.isFinal) : ¬ world.DeclaresVirtual key id own := by
  rintro ⟨⟨file, isFile, member, listed, read⟩, isVirtual, same⟩
  rcases Relation.ReflTransGen.cases_head inherits with equal | ⟨superclass, above, inherits⟩
  · exact distinct equal
  · have entryAbove := sound.find?_virtual_of_final
      (sound.reaches_linked linked (.single (Class.mem_supertypes_of_superclass above))) inherits
      entry isFinal
    obtain ⟨linkage, linked⟩ := linked
    obtain ⟨fileToo, isFileToo, fits⟩ := sound.fits linked
    cases isFile.symm.trans isFileToo
    rw [Class.superclass?_of_linkage linked] at above
    exact fits.not_isVirtual above entryAbove isFinal listed read same isVirtual

/-! ### Attempts -/

/-- Linking that comes to a result has built tables from that for dispatch of the superclass that it
has found first. -/
theorem build_of_linkDeclared {loader : LoaderId} {static : Array Value}
    (ends : runFrom start (linkDeclared load id loader name file) =
      (.ok (linkage, static), later)) :
    ∃ superclass middle interfaces tables,
      runFrom start (linkSuperclass load loader name file) = (.ok superclass, middle) ∧
      MethodTables.build file id name
        (((superclass.bind fun superclass => (middle.type superclass).linkage?).map
          fun linkage => linkage.methods.virtual).getD {}) interfaces = .ok tables := by
  obtain ⟨superclass, middle, found, ends⟩ := exists_of_bind_ok ends
  rw [runFrom_bind_ok runFrom_get] at ends
  obtain ⟨interfaces, beside, _, ends⟩ := exists_of_bind_ok ends
  rw [runFrom_bind_ok runFrom_get] at ends
  obtain ⟨tables, _, builds, _⟩ := exists_of_bind_ok ends
  exact ⟨superclass, middle, _, tables, found, (eq_of_runFrom_ofLinking builds).1⟩

/-- A class that is about to be linked finds a superclass with a final method, at any distance
above, and its file declares a method for dispatch under the same key. -/
def Overrides (load : Load) (start : World) (id : ClassId) : Prop :=
  ∃ file superclass middle ancestor method own member,
    (start.type id).declared? = some { file } ∧ (start.type id).state = .allocated ∧
    runFrom start (linkSuperclass load (start.type id).loader (start.type id).name file) =
      (.ok (some superclass), middle) ∧
    middle.Inherits superclass ancestor ∧
    (middle.type ancestor).methods.virtual.find? own.key = some method ∧ method.isFinal ∧
    member ∈ file.methods ∧
    Method.ofMember file id (start.type id).name member = .ok own ∧ own.isVirtual

/-- Such a class fails to be linked. -/
theorem Overrides.fails (overrides : Overrides load start id) (finds : load.Finds)
    (sound : start.Sound) : ∃ error later,
      runFrom start (linkWith load id) = (.error error, later) ∧
        (later.type id).state = .initializationError ∧ (later.type id).linkage? = none := by
  obtain ⟨file, superclass, middle, ancestor, method, own, member, declared, state, found,
    inherits, entry, isFinal, listed, read, isVirtual⟩ := overrides
  rcases ends : runFrom start
      (linkDeclared load id (start.type id).loader (start.type id).name file) with
    ⟨error | ⟨linkage, static⟩, last⟩
  case ok =>
    obtain ⟨evolves, superFound⟩ := (linkSuperclass_ends finds _ _ file sound).ok found
    obtain ⟨inherited, linked⟩ := Option.isSome_iff_exists.1 (superFound.linked superclass rfl)
    have entryAbove := evolves.sound.find?_virtual_of_final ⟨_, linked⟩ inherits entry isFinal
    obtain ⟨_, _, _, _, foundToo, built⟩ := build_of_linkDeclared ends
    cases found.symm.trans foundToo
    refine absurd isVirtual (MethodTables.build_final built ?_ isFinal listed read rfl)
    rw [Option.bind_some, linked, Option.map_some, Option.getD_some, ← methods_of_linkage linked,
      entryAbove]
  case error =>
    have fails := runFrom_linkWith_error declared state ends
    obtain ⟨_, _, failed, lasting⟩ := linkWith_failed finds sound declared state fails
    refine ⟨error, _, fails, failed, ?_⟩
    rw [← Class.lasting_linkage?, lasting, Class.lasting_linkage?, Class.linkage?, declared]
    rfl

/-- In all worlds that are met a final method for dispatch is the entry in all subclasses, none of
them declares another one for dispatch under its key, and calls on them run it. Wherever such a
class comes to be linked that fails, and classes that are not linked are left behind. -/
theorem finals_kept (met : world.Met) :
    (∀ ancestor key method, (world.type ancestor).methods.virtual.find? key = some method →
      method.isFinal → ∀ id, (world.type id).linkage?.isSome → world.Inherits id ancestor →
        (world.type id).methods.virtual.find? key = some method ∧
        (id ≠ ancestor → ∀ own, ¬ world.DeclaresVirtual key id own) ∧
        ∀ resolved : Method, ¬ resolved.isPrivate → resolved.key = key →
          selectMethod (world.type id) resolved = method) ∧
    (∀ (start : World) (depth : Nat) (id : ClassId), start.Sound →
      Overrides (loadWithin depth) start id → ∃ error later,
        runFrom start (linkWith (loadWithin depth) id) = (.error error, later) ∧
          (later.type id).state = .initializationError ∧ (later.type id).linkage? = none) ∧
    (∀ loader file type, world.HasLoader loader → Class.allocate file loader = .ok type →
      Overrides World.load (world.addType type).2 world.nextId → ∃ error later,
        runFrom (world.addType type).2 (link world.nextId) = (.error error, later) ∧
          later.LeftBehind world.nextId) ∧
    ∀ id, ¬ (world.type id).isUsable → world.LeftBehind id := by
  have clean := met.clean
  refine ⟨fun ancestor key method entry isFinal id linked inherits => ?kept,
    fun start depth id sound overrides => overrides.fails (loadWithin_finds depth) sound,
    fun loader file type present allocated overrides => ?attempt, fun id => clean.leftBehind⟩
  case kept =>
    have linked := Option.isSome_iff_exists.1 linked
    have entryBelow := clean.sound.find?_virtual_of_final linked inherits entry isFinal
    refine ⟨entryBelow, fun distinct own => ?_, fun resolved accessible sameKey => ?_⟩
    · exact clean.sound.not_declaresVirtual_of_final linked inherits distinct entry isFinal
    · exact selectMethod_of_entry (sameKey ▸ entryBelow) accessible
  case attempt =>
    obtain ⟨kind, _, _, home, heads⟩ := allocate_eq allocated
    obtain ⟨error, later, fails, _⟩ := overrides.fails load_finds
      (clean.sound.addDeclared kind (home ▸ present) heads)
    exact ⟨error, later, fails, (clean.link_failed present allocated fails).2⟩

end World

/-! ### A sealed method -/

set_option maxRecDepth 20000

namespace Sealed

/-- `Base` has a final method, `Masking` a private one and `Static` a static one under the same key.
`Breaking` declares it for dispatch. -/
def files : List (String × ClassFile) :=
  [("java/lang/Object", Diamond.file 0x0021 "java/lang/Object" "" [] []),
    ("Base", Diamond.file 0x0021 "Base" "java/lang/Object" [] [0x0011]),
    ("Masking", Diamond.file 0x0021 "Masking" "Base" [] [0x0002]),
    ("Static", Diamond.file 0x0021 "Static" "Masking" [] [0x0008]),
    ("Leaf", Diamond.file 0x0021 "Leaf" "Static" [] []),
    ("Breaking", Diamond.file 0x0021 "Breaking" "Leaf" [] [0x0001])]

def operations : List Operation := [.load .bootstrap "Leaf", .load .bootstrap "Breaking"]

def session : Session := .inOrder [.holding files] operations

/-- The world after both. -/
def world : World := (World.initial [.holding files]).after operations

def leaf : ClassId := ⟨0⟩
def static : ClassId := ⟨1⟩
def masking : ClassId := ⟨2⟩
def base : ClassId := ⟨3⟩
def breaking : ClassId := ⟨5⟩

theorem met : world.Met :=
  ⟨session, Session.after_mem_worlds (by simp [operations, Operation.runsMethods])⟩

theorem superclasses : (world.type leaf).superclass? = some static ∧
    (world.type static).superclass? = some masking ∧ (world.type masking).superclass? = some base ∧
    (world.type leaf).linkage?.isSome := by
  decide +kernel

theorem final : (((world.type base).methods.virtual.find? "m ()V").filter Method.isFinal).isSome ∧
    (world.type breaking).name = "Breaking" ∧ ¬ (world.type breaking).isUsable := by
  decide +kernel

end Sealed

namespace World

/-- The method of `Base` is that of `Leaf`, and `Breaking` is left behind. -/
theorem finals_kept_sealed : Sealed.world.Met ∧ Sealed.world.Inherits Sealed.leaf Sealed.base ∧
    (∃ method, (Sealed.world.type Sealed.base).methods.virtual.find? "m ()V" = some method ∧
      method.isFinal ∧
      (Sealed.world.type Sealed.leaf).methods.virtual.find? "m ()V" = some method) ∧
    Sealed.world.LeftBehind Sealed.breaking := by
  obtain ⟨kept, _, _, leftBehind⟩ := finals_kept Sealed.met
  obtain ⟨first, second, third, linked⟩ := Sealed.superclasses
  obtain ⟨entry, _, unusable⟩ := Sealed.final
  have inherits : Sealed.world.Inherits Sealed.leaf Sealed.base :=
    .head first (.head second (.single third))
  obtain ⟨method, entry⟩ := Option.isSome_iff_exists.1 entry
  obtain ⟨entry, isFinal⟩ := Option.filter_eq_some_iff.1 entry
  exact ⟨Sealed.met, inherits, ⟨method, entry, isFinal,
    (kept _ _ _ entry isFinal _ linked inherits).1⟩, leftBehind _ unusable⟩

end World

/-! ### A constructor under the key of a final method -/

namespace Spelled

/-- `C` has a final method named like a constructor with part of its descriptor; `D`, which extends
`C`, has the constructor. Both have one key. -/
def files : List (String × ClassFile) :=
  [("java/lang/Object", .withoutMembers 0x0021 "java/lang/Object" "" []),
    ("C", .withMembers 0x0021 "C" "java/lang/Object" [] [("<init> (Lx", "(Ly;)V", 0x0011)] []),
    ("D", .withMembers 0x0021 "D" "C" [] [("<init>", "(Lx (Ly;)V", 0x0001)] [])]

def operations : List Operation := [.load .bootstrap "D"]

def session : Session := .inOrder [.holding files] operations

/-- The world after `D` has been loaded. -/
def world : World := (World.initial [.holding files]).after operations

def d : ClassId := ⟨0⟩
def c : ClassId := ⟨1⟩

theorem met : world.Met :=
  ⟨session, Session.after_mem_worlds (by simp [operations, Operation.runsMethods])⟩

theorem linked : (world.type d).linkage?.isSome ∧ (world.type d).superclass? = some c ∧
    (((world.type c).methods.virtual.find? "<init> (Lx (Ly;)V").filter Method.isFinal).isSome ∧
    (((world.type d).methods.declared.find? "<init> (Lx (Ly;)V").filter fun method =>
      !method.isStatic && !method.isPrivate).isSome := by
  decide +kernel

end Spelled

namespace World

/-- Constructors do not take part in dispatch, so one of them may stand under the key of a final
method of the superclass. -/
theorem constructor_under_final : Spelled.world.Met ∧
    (Spelled.world.type Spelled.d).linkage?.isSome ∧ Spelled.world.Inherits Spelled.d Spelled.c ∧
    Spelled.d ≠ Spelled.c ∧ ∃ method own,
      (Spelled.world.type Spelled.c).methods.virtual.find? "<init> (Lx (Ly;)V" = some method ∧
      method.isFinal ∧ Spelled.world.Declares Spelled.d own ∧ ¬ own.isStatic ∧ ¬ own.isPrivate ∧
      own.key = "<init> (Lx (Ly;)V" := by
  obtain ⟨linked, above, entry, declared⟩ := Spelled.linked
  obtain ⟨method, entry⟩ := Option.isSome_iff_exists.1 entry
  obtain ⟨entry, isFinal⟩ := Option.filter_eq_some_iff.1 entry
  obtain ⟨own, declared⟩ := Option.isSome_iff_exists.1 declared
  obtain ⟨declared, ordinary⟩ := Option.filter_eq_some_iff.1 declared
  obtain ⟨linkage, isLinked⟩ := Option.isSome_iff_exists.1 linked
  obtain ⟨key, declares⟩ := (Spelled.met.clean.sound.find?_declared isLinked _ _).1 declared
  simp only [Bool.and_eq_true, Bool.not_eq_true'] at ordinary
  exact ⟨Spelled.met, linked, .single above, by decide, method, own, entry, isFinal, declares,
    by simp [ordinary.1], by simp [ordinary.2], key⟩

end World
end JavaMachine

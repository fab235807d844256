import JavaMachine.Proofs.ArrayTrees
import JavaMachine.Proofs.Calls
import JavaMachine.Proofs.Links

/-!
# Arrays of several dimensions

The instruction that allocates arrays of several dimensions takes a length for each of them from the
stack. It looks at the class and at all lengths before it allocates anything, so it builds a whole
tree of arrays or none. That it could run out of lengths or of dimensions on its way is ruled out by
then.
-/

namespace JavaMachine

/-- The allocation of nested arrays has run out of lengths, or of dimensions of the class. -/
def Error.OfNesting : Error → Prop
  | internal .noLengthLeft | internal (.dimensionsLeft _ _) => True
  | _ => False

theorem Error.OfNesting.ofExecution {error : Error} (nesting : error.OfNesting) :
    error.OfExecution := by
  unfold Error.OfNesting at nesting
  split at nesting
  · trivial
  · trivial
  · exact nesting.elim

namespace World

variable {world : World} {id : ClassId} {index : UInt16}

/-- A class reference that has been resolved leads to its class again, and nothing happens. -/
theorem resolveClass_of_resolved {target : ClassId} (vetted : world.Vetted)
    (resolved : world.resolved? id .classRef index = some target) :
    runFrom world (resolveClass id index) = (.ok target, world) := by
  obtain ⟨pool, attached, entry⟩ := Option.bind_eq_some_iff.1 resolved
  obtain ⟨linkage, linked⟩ := Option.isSome_iff_exists.1
    (vetted.linked_of_pool? (Option.isSome_of_eq_some attached))
  obtain ⟨body, declared, _⟩ := Option.bind_eq_some_iff.1 linked
  have file : (world.type id).file? = some body.file := by rw [Class.file?, declared]; rfl
  obtain ⟨_, name, written, _⟩ :=
    (vetted.classes id).reads body.file file pool attached .classRef index target entry
  unfold ClassFile.className? at written
  split at written
  next place found =>
    have known : world.constantAt id index = .ok (.classRef place) :=
      constantAt_eq_ok.2 ⟨body.file, file, Option.isSome_of_eq_some attached, found⟩
    exact lookUp_of_resolved known rfl resolved
  next => cases written

theorem Clean.layered (clean : world.Clean) : Layered world.type :=
  fun id => (clean.vetted.classes id).dimension

/-- The lengths are read off the ints unless one is negative, of which the first is reported. -/
theorem mapM_arrayLength (ints : List Int32) :
    (∃ negative, ints.find? (·.toInt < 0) = some negative ∧
      ints.mapM arrayLength = .error (.negativeArraySize negative)) ∨
    (∀ int ∈ ints, 0 ≤ int.toInt) ∧
      ints.mapM arrayLength = .ok (ints.map fun int => int.toInt.toNat) := by
  induction ints with
  | nil => exact .inr ⟨nofun, rfl⟩
  | cons int rest inductionHypothesis =>
      rw [List.mapM_cons]
      by_cases negative : int.toInt < 0
      · have refused : arrayLength int = .error (.negativeArraySize int) :=
          if_neg (Int.not_le.2 negative)
        refine .inl ⟨int, List.find?_cons_of_pos (decide_eq_true negative), ?_⟩
        rw [refused]
        rfl
      · have allowed : arrayLength int = .ok int.toInt.toNat := if_pos (Int.not_lt.1 negative)
        rw [allowed]
        rcases inductionHypothesis with ⟨first, found, refused⟩ | ⟨above, gives⟩
        · refine .inl ⟨first, ?_, ?_⟩
          · rw [List.find?_cons_of_neg (by simpa using negative), found]
          · rw [refused]
            rfl
        · refine .inr ⟨List.forall_mem_cons.2 ⟨Int.not_lt.1 negative, above⟩, ?_⟩
          rw [gives]
          rfl

end World

namespace FrameM

variable {Client : Type} {machine : Machine Client} {id : ClassId} {stack : OperandStack}
variable {frame : Frame Client} {dimensions : UInt8}

/-- Allocates a tree of arrays whose lengths are ints, and pushes it. -/
def nest (id : ClassId) (ints : List Int32) : FrameM Client Unit :=
  match ints.mapM World.arrayLength with
  | .error exception => throw (.runtime exception)
  | .ok lengths => do
      let array ← onWorld (World.allocateNested lengths id)
      FrameM.onStack (OperandStack.push (.reference (some array)))

/-- What is done once the class is known. -/
def nestAs (dimensions : UInt8) (id : ClassId) : FrameM Client Unit := do
  let type := (← world).type id
  if !type.isArray ∨ type.dimension ≠ dimensions.toNat then
    throw (.linkage (.dimensionMismatch dimensions.toNat type.name type.dimension))
  else
    let ints ← popInts dimensions.toNat []
    nest id ints

theorem newNestedArray_eq (current : ClassId) (index : UInt16) :
    (newNestedArray current index dimensions : FrameM Client Unit) =
      onWorld (World.resolveClass current index) >>= nestAs dimensions :=
  rfl

section Resolution

variable {run : Runner Client} {client : Client} {current : ClassId} {index : UInt16}
variable {before known : World}

theorem runFrom_multianewarray_ok
    (resolves : runFrom before (World.resolveClass current index) = (.ok id, known)) :
    runFrom (Frame.mk ⟨before, client⟩ stack)
      (execute run current (.multianewarray index dimensions)) =
        runFrom (Frame.mk ⟨known, client⟩ stack) (nestAs dimensions id) := by
  rw [execute, newNestedArray_eq]
  exact runFrom_bind_ok (onWorld_of_runFrom resolves)

theorem runFrom_multianewarray_error {error : Error}
    (resolves : runFrom before (World.resolveClass current index) = (.error error, known)) :
    runFrom (Frame.mk ⟨before, client⟩ stack)
      (execute run current (.multianewarray index dimensions)) =
        (.error error, Frame.mk ⟨known, client⟩ stack) := by
  rw [execute, newNestedArray_eq]
  exact runFrom_bind_error (onWorld_of_runFrom resolves)

end Resolution

/-- Ints are popped from the top of the stack, the last first. -/
theorem popInts_reversed (reversed popped : List Int32) :
    runFrom (Frame.mk machine (reversed.map .int ++ stack)) (popInts reversed.length popped) =
      (.ok (reversed.reverse ++ popped), Frame.mk machine stack) := by
  induction reversed generalizing popped with
  | nil => rfl
  | cons int rest inductionHypothesis =>
      rw [List.reverse_cons, List.append_assoc]
      exact inductionHypothesis (int :: popped)

theorem popInts_ok {count : Nat} {popped ints : List Int32} {later : Frame Client}
    (ends : runFrom frame (popInts count popped) = (.ok ints, later)) :
    ints.length = count + popped.length ∧ later.machine = frame.machine := by
  induction count generalizing frame popped with
  | zero =>
      cases ends
      exact ⟨(Nat.zero_add _).symm, rfl⟩
  | succ count inductionHypothesis =>
      obtain ⟨int, middle, pops, rest⟩ := exists_of_bind_ok ends
      obtain ⟨length, kept⟩ := inductionHypothesis rest
      rw [List.length_cons] at length
      exact ⟨by omega, kept.trans (onStack_ends.1 pops).2⟩

theorem popInts_staysOnError (count : Nat) (popped : List Int32) :
    StaysOnError frame (popInts count popped : FrameM Client (List Int32)) := by
  induction count generalizing frame popped with
  | zero =>
      intro error later fails
      cases fails
  | succ count inductionHypothesis =>
      exact .bindStack fun int later _ => inductionHypothesis (int :: popped)

theorem popInts_raises (count : Nat) (popped : List Int32) :
    Raises (fun error => ¬ error.OfNesting)
      (popInts count popped : FrameM Client (List Int32)) := by
  induction count generalizing popped with
  | zero => exact .pure popped
  | succ count inductionHypothesis =>
      refine .bind (onStack_raises ?_) fun int => inductionHypothesis (int :: popped)
      refine .bind (.bind .get fun stack => ?_) fun value => ?_
      · split
        · exact .bind (.of_ok fun _ => ⟨⟨⟩, rfl⟩) fun _ => .pure _
        · exact .throw not_false
      · split
        · exact .pure _
        · exact .throw not_false

/-- With a length for each dimension of the class a tree of arrays is built if no length is
negative. If one is nothing happens. -/
theorem nest_cases (stack : OperandStack) {ints : List Int32} (clean : machine.world.Clean)
    (isArray : (machine.world.type id).isArray)
    (dimension : (machine.world.type id).dimension = ints.length) :
    (∃ negative, ints.find? (·.toInt < 0) = some negative ∧
      runFrom (Frame.mk machine stack) (nest id ints) =
        (.error (.runtime (.negativeArraySize negative)), Frame.mk machine stack)) ∨
    (∀ int ∈ ints, 0 ≤ int.toInt) ∧ ∃ root later,
      runFrom (Frame.mk machine stack) (nest id ints) =
        (.ok (), Frame.mk { machine with world := later } (.reference (some root) :: stack)) ∧
      machine.world.Builds id (ints.map fun int => int.toInt.toNat) root later := by
  unfold nest
  rcases World.mapM_arrayLength ints with ⟨negative, found, refused⟩ | ⟨above, gives⟩
  · refine .inl ⟨negative, found, ?_⟩
    rw [refused]
    rfl
  · rw [gives]
    have given : ints.map (fun int => int.toInt.toNat) ≠ [] := by
      have positive := clean.dimension_pos isArray
      intro empty
      rw [dimension, List.map_eq_nil_iff.1 empty] at positive
      exact Nat.lt_irrefl 0 positive
    have dimensionToo : (machine.world.type id).dimension =
        (ints.map fun int => int.toInt.toNat).length := by rw [List.length_map, dimension]
    have small : ∀ length ∈ ints.map (fun int => int.toInt.toNat), length < World.unreservable := by
      intro length among
      obtain ⟨int, _, rfl⟩ := List.mem_map.1 among
      have below := int.toInt_lt
      rw [World.unreservable]
      omega
    have allocates := World.runFrom_allocateNested clean.layered given dimensionToo small
    refine .inr ⟨above, _, _, ?_, World.builds_append clean.layered dimensionToo⟩
    dsimp only
    rw [runFrom_bind_ok (onWorld_of_runFrom allocates)]
    rfl

/-- Arrays of another number of dimensions are refused, and so are classes that are no arrays. -/
theorem nestAs_of_mismatch (mismatch : ¬ ((machine.world.type id).isArray ∧
      (machine.world.type id).dimension = dimensions.toNat)) :
    runFrom (Frame.mk machine stack) (nestAs dimensions id) =
      (.error (.linkage (.dimensionMismatch dimensions.toNat (machine.world.type id).name
        (machine.world.type id).dimension)), Frame.mk machine stack) := by
  have reads : runFrom (Frame.mk machine stack) world = (.ok machine.world, ⟨machine, stack⟩) := rfl
  rw [nestAs, runFrom_bind_ok reads]
  dsimp only
  rw [if_pos]
  · rfl
  · simpa [imp_iff_not_or] using mismatch

theorem nestAs_of_match (isArray : (machine.world.type id).isArray)
    (dimension : (machine.world.type id).dimension = dimensions.toNat) :
    runFrom (Frame.mk machine stack) (nestAs dimensions id) =
      runFrom (Frame.mk machine stack) (popInts dimensions.toNat [] >>= nest id) := by
  have reads : runFrom (Frame.mk machine stack) world = (.ok machine.world, ⟨machine, stack⟩) := rfl
  rw [nestAs, runFrom_bind_ok reads]
  dsimp only
  rw [if_neg]
  simp [isArray, dimension]

/-- The ints for the lengths stand on the stack with the last one on top. -/
theorem nestAs_append {ints : List Int32} (isArray : (machine.world.type id).isArray)
    (dimension : (machine.world.type id).dimension = dimensions.toNat)
    (length : ints.length = dimensions.toNat) :
    runFrom (Frame.mk machine ((ints.map .int).reverse ++ stack)) (nestAs dimensions id) =
      runFrom (Frame.mk machine stack) (nest id ints) := by
  have pops : runFrom (Frame.mk machine ((ints.map .int).reverse ++ stack))
      (popInts dimensions.toNat []) = (.ok ints, Frame.mk machine stack) := by
    have reversed : runFrom (Frame.mk machine (ints.reverse.map .int ++ stack))
        (popInts ints.reverse.length []) = _ := popInts_reversed ints.reverse []
    rwa [List.map_reverse, List.length_reverse, List.reverse_reverse, List.append_nil,
      length] at reversed
  rw [nestAs_of_match isArray dimension, runFrom_bind_ok pops]

/-- Where no tree is built the machine is left as it was, and never for want of lengths or of
dimensions. -/
theorem nestAs_error (clean : machine.world.Clean) {error : Error} {later : Frame Client}
    (fails : runFrom (Frame.mk machine stack) (nestAs dimensions id) = (.error error, later)) :
    later.machine = machine ∧ ¬ error.OfNesting := by
  by_cases matching : (machine.world.type id).isArray ∧
      (machine.world.type id).dimension = dimensions.toNat
  · obtain ⟨isArray, dimension⟩ := matching
    rw [nestAs_of_match isArray dimension] at fails
    rcases pops : runFrom (Frame.mk machine stack) (popInts dimensions.toNat []) with
      ⟨other | ints, ⟨own, below⟩⟩
    · rw [runFrom_bind_error pops] at fails
      cases fails
      exact ⟨popInts_staysOnError _ _ _ _ pops,
        (popInts_raises _ _).raises _ _ (congrArg Prod.fst pops)⟩
    · obtain ⟨length, same⟩ := popInts_ok pops
      dsimp only at same
      subst same
      rw [runFrom_bind_ok pops] at fails
      obtain ⟨negative, _, refused⟩ | ⟨_, _, _, builds, _⟩ :=
        nest_cases below clean isArray (dimension.trans length.symm)
      · cases refused.symm.trans fails
        exact ⟨rfl, not_false⟩
      · cases builds.symm.trans fails
  · rw [nestAs_of_mismatch matching] at fails
    cases fails
    exact ⟨rfl, not_false⟩

end FrameM

/-- An instruction for an array of several dimensions never runs out of lengths or of dimensions.
Once the class is resolved it changes the machine only if it succeeds. It fails if the class is no
array class or has another number of dimensions, and otherwise if one of the ints on the stack is
negative. If there is an int for each dimension, none of them negative, then a whole tree of arrays
is built. -/
theorem World.nested_arrays_built {world : World} (met : world.Met) {Client : Type}
    (run : Runner Client) (client : Client) (current : ClassId) (index : UInt16)
    (dimensions : UInt8) :
    let instruction := FrameM.execute run current (.multianewarray index dimensions)
    (∀ stack error, (runFrom (Frame.mk ⟨world, client⟩ stack) instruction).1 = .error error →
      ¬ error.OfNesting) ∧
    (∀ id, world.resolved? current .classRef index = some id →
      runFrom world (resolveClass current index) = (.ok id, world)) ∧
    ∀ id known, runFrom world (resolveClass current index) = (.ok id, known) →
      (∀ stack error later, runFrom (Frame.mk ⟨world, client⟩ stack) instruction =
        (.error error, later) → later.machine = ⟨known, client⟩) ∧
      (¬ ((known.type id).isArray ∧ (known.type id).dimension = dimensions.toNat) →
        ∀ stack, runFrom (Frame.mk ⟨world, client⟩ stack) instruction =
          (.error (.linkage (.dimensionMismatch dimensions.toNat (known.type id).name
            (known.type id).dimension)), Frame.mk ⟨known, client⟩ stack)) ∧
      ((known.type id).isArray → (known.type id).dimension = dimensions.toNat →
        ∀ (ints : List Int32) (stack : OperandStack), ints.length = dimensions.toNat →
          let nested := runFrom
            (Frame.mk ⟨world, client⟩ ((ints.map .int).reverse ++ stack)) instruction
          ((∃ int ∈ ints, int.toInt < 0) →
            ∃ negative, ints.find? (·.toInt < 0) = some negative ∧
              nested = (.error (.runtime (.negativeArraySize negative)),
                Frame.mk ⟨known, client⟩ stack)) ∧
          ((∀ int ∈ ints, 0 ≤ int.toInt) → ∃ root later,
            nested = (.ok (), Frame.mk ⟨later, client⟩ (.reference (some root) :: stack)) ∧
            known.Builds id (ints.map fun int => int.toInt.toNat) root later)) := by
  have clean := met.clean
  intro instruction
  have cleanLater {id : ClassId} {known : World}
      (resolves : runFrom world (resolveClass current index) = (.ok id, known)) : known.Clean :=
    ((resolve_ends current .classRef index clean.sound).ok resolves).1.toLasts.clean clean
  refine ⟨?never, fun id => resolveClass_of_resolved clean.vetted, ?built⟩
  case never =>
    intro stack error fails nesting
    rcases resolves : runFrom world (resolveClass current index) with ⟨other | id, known⟩
    · rw [FrameM.runFrom_multianewarray_error resolves] at fails
      cases fails
      exact (resolveClass_blameless current index).raises world error
        (congrArg Prod.fst resolves) nesting.ofExecution
    · rw [FrameM.runFrom_multianewarray_ok resolves] at fails
      exact (FrameM.nestAs_error (cleanLater resolves) (runFrom_eq_of_outcome fails)).2 nesting
  case built =>
    intro id known resolves
    have goesOn (stack : OperandStack) : runFrom (Frame.mk ⟨world, client⟩ stack) instruction =
        runFrom (Frame.mk ⟨known, client⟩ stack) (FrameM.nestAs dimensions id) :=
      FrameM.runFrom_multianewarray_ok resolves
    have clean : (Machine.mk known client).world.Clean := cleanLater resolves
    refine ⟨fun stack error later fails => ?_, fun mismatch stack => ?_, ?_⟩
    · rw [goesOn] at fails
      exact (FrameM.nestAs_error clean fails).1
    · rw [goesOn]
      exact FrameM.nestAs_of_mismatch mismatch
    · intro isArray dimension ints stack length nested
      have nests : nested = runFrom (Frame.mk ⟨known, client⟩ stack) (FrameM.nest id ints) :=
        (goesOn _).trans (FrameM.nestAs_append isArray dimension length)
      rw [nests]
      obtain ⟨negative, found, refused⟩ | ⟨above, builds⟩ :=
        FrameM.nest_cases stack clean isArray (dimension.trans length.symm)
      · refine ⟨fun _ => ⟨negative, found, refused⟩, fun above => ?_⟩
        have below : negative.toInt < 0 := by simpa using List.find?_some found
        exact absurd below (Int.not_lt.2 (above negative (List.mem_of_find?_eq_some found)))
      · refine ⟨?_, fun _ => builds⟩
        rintro ⟨int, among, below⟩
        exact absurd below (Int.not_lt.2 (above int among))

/-! ### A board -/

namespace Board

/-- A class with a constant for a class of arrays of arrays. -/
def files : List (String × ClassFile) :=
  let board : ClassFile := .withoutMembers 0x0021 "Board" "java/lang/Object" []
  [("java/lang/Object", .withoutMembers 0x0021 "java/lang/Object" "" []),
    ("Board", { board with
      pool := board.pool ++ [.utf8 (Text.ModifiedUtf8.encode "[[I"), .classRef 5] })]

def board : ClassId := ⟨0⟩

def operations : List Operation := [.load .bootstrap "Board", .resolve board .classRef 6]

/-- The world in which the constant has been resolved. -/
def world : World := (World.initial [.holding files]).after operations

def grids : ClassId := ⟨3⟩

def runner : Runner Unit := fun _ _ => pure none

theorem met : world.Met :=
  ⟨.inOrder [.holding files] operations,
    Session.after_mem_worlds (by simp [operations, Operation.runsMethods])⟩

set_option maxRecDepth 20000 in
theorem resolved : world.resolved? board .classRef 6 = some grids ∧
    (world.type grids).isArray ∧ (world.type grids).dimension = 2 := by
  decide +kernel

end Board

/-- A board of two rows with three squares each is built, but none with a negative number of
rows. -/
theorem World.nested_arrays_built_board : Board.world.Met ∧
    Board.world.resolved? Board.board .classRef 6 = some Board.grids ∧
    (∃ root later, runFrom (Frame.mk ⟨Board.world, ()⟩ [.int 3, .int 2])
      (FrameM.execute Board.runner Board.board (.multianewarray 6 2)) =
        (.ok (), Frame.mk ⟨later, ()⟩ [.reference (some root)]) ∧
      Board.world.Builds Board.grids [2, 3] root later) ∧
    runFrom (Frame.mk ⟨Board.world, ()⟩ [.int 3, .int (-2)])
      (FrameM.execute Board.runner Board.board (.multianewarray 6 2)) =
        (.error (.runtime (.negativeArraySize (-2))), Frame.mk ⟨Board.world, ()⟩ []) := by
  have met := Board.met
  obtain ⟨resolved, isArray, dimension⟩ := Board.resolved
  generalize Board.world = world at met resolved isArray dimension
  obtain ⟨_, known, ends⟩ := nested_arrays_built met Board.runner () Board.board 6 2
  obtain ⟨_, _, nests⟩ := ends Board.grids world (known Board.grids resolved)
  have above : ∀ int ∈ ([2, 3] : List Int32), 0 ≤ int.toInt :=
    List.forall_mem_cons.2 ⟨by decide, List.forall_mem_singleton.2 (by decide)⟩
  have below : ∃ int ∈ ([-2, 3] : List Int32), int.toInt < 0 :=
    ⟨-2, List.mem_cons_self, by decide⟩
  refine ⟨met, resolved, ?_, ?_⟩
  · exact (nests isArray dimension [2, 3] [] rfl).2 above
  · obtain ⟨negative, found, fails⟩ := (nests isArray dimension [-2, 3] [] rfl).1 below
    cases found
    exact fails

end JavaMachine

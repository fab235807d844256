import JavaMachine.Proofs.Transition

/-!
# Worlds with which nobody has interfered

Programs that ask neither for classes to be entered into directories nor for a shutdown keep worlds
regular: whatever they load, link, resolve and initialize, what a name stands for is settled by the
loaders alone.
-/

namespace JavaMachine

/-- A sound and regular world between two pieces of work. -/
structure World.Intact (world : World) : Prop where
  sound : world.Sound
  atRest : world.AtRest
  regular : world.Regular
  idle : ∀ loader name, ¬ world.Defining loader name

namespace World

variable {world later : World} {id : ClassId}

/-- What operations do to a world that is intact: it stays so, and names go on standing for what
they stood for. -/
def Sparing (world later : World) : Prop := world.Intact → later.Intact ∧ world.Retains later

instance : Course Sparing where
  trans first second intact :=
    have ⟨intact, retains⟩ := first intact
    have ⟨intact, retainsToo⟩ := second intact
    ⟨intact, retains.trans retainsToo⟩
  develop develops intact :=
    have develops := develops intact.sound intact.atRest
    ⟨⟨develops.sound, develops.grows.atRest intact.atRest, develops.regular intact.regular,
      fun loader name underWay => intact.idle loader name (develops.idle loader name underWay)⟩,
      develops.retains⟩

/-- A class moves on to no state in which it would be left unlinked. -/
theorem AtRest.withState (atRest : world.AtRest) {state : Class → ClassState}
    (moves : world.Moves id state) : (world.withState id state).AtRest := by
  intro other
  rw [World.withState, type_modifyType]
  split
  next same =>
    rw [← same.1]
    rcases moves with stays | advances
    · exact stays ▸ atRest id
    · intro next
      dsimp only at next
      rw [next] at advances
      cases advances
  · exact atRest other

/-- Neither entries into the journal nor the states of linked classes matter. -/
instance : Course.Transits Sparing where
  note world id occurrence intact := by
    have settles : world.Settles (world.note id occurrence) :=
      .of_loaders (fun _ _ => rfl) rfl rfl fun _ _ found => found
    refine ⟨⟨?_, intact.atRest, ?_, fun _ _ underWay => ?_⟩, settles.toRetains⟩
    · exact intact.sound.of_lasting rfl (fun _ => rfl) (.of_eq rfl) (fun _ _ _ => .inl)
        fun shaped => shaped
    · exact intact.regular.of_lasting intact.sound (fun _ => rfl) (.of_eq rfl) rfl rfl rfl
    · exact intact.idle _ _ (settles.idle underWay)
  move world id state moves intact := by
    have settles := Settles.withState world id state
    exact ⟨⟨intact.sound.withState id state, intact.atRest.withState moves,
      intact.regular.withState intact.sound id state,
      fun loader name underWay => intact.idle loader name (settles.idle underWay)⟩,
      settles.toRetains⟩

end World

/-! ### Programs -/

/-- The program interferes with no directory. -/
def Program.Spares {Client α : Type} (program : Program Client α) : Prop :=
  program.Abides fun operation => ¬ operation.Rebinds

namespace World

variable {world later : World}

theorem intact_initial (sources : List Source) : (World.initial sources).Intact where
  sound := sound_initial sources
  atRest := (inOrder_initial sources).atRest
  regular := by
    refine ⟨fun loader name id entry => ?_, fun loader name settled => ?_,
      fun _ _ found => (by cases found), fun id file linkage _ linked => ?_, ?_⟩
    · rw [findLoaded_initial] at entry
      cases entry
    · rw [settled?, (loader_initial sources loader).2] at settled
      cases settled
    · cases linked
    · constructor
      · intro place answer given
        cases given
      · intro place answer id given
        cases given
      · intro place answer given
        cases given
  idle loader name underWay := by
    rw [Defining, (loader_initial sources loader).2] at underWay
    cases underWay

/-- What a program of a client makes of the world, if it interferes with no directory. -/
def Continues (world later : World) : Prop :=
  ∃ (Client α : Type) (callback : Callback Client) (depth : Nat) (program : Program Client α)
    (client : Client), (∀ method arguments, (callback method arguments).Spares) ∧
      program.Spares ∧ (program.runWith callback depth ⟨world, client⟩).2.world = later

/-- What such a program makes of a fresh world. -/
def Undisturbed (world : World) : Prop := ∃ sources, (World.initial sources).Continues world

theorem Continues.refl (world : World) : world.Continues world :=
  ⟨Unit, Unit, fun _ _ => .done (.ok none), 0, .done (), (), fun _ _ => trivial, trivial, rfl⟩

theorem Continues.sparing (continues : world.Continues later) : world.Sparing later := by
  obtain ⟨Client, α, callback, depth, program, client, methods, spares, ends⟩ := continues
  have runner : (callback.runner depth).Follows (Along Sparing) :=
    runner_follows (fun _ follows id => initializing_follows follows id)
      (fun method arguments => (methods method arguments).mono fun _ idle rebinds =>
        absurd rebinds idle) depth
  rw [← ends]
  exact run_follows runner (spares.mono fun _ idle rebinds => absurd rebinds idle) ⟨world, client⟩

theorem Undisturbed.intact (undisturbed : world.Undisturbed) : world.Intact := by
  obtain ⟨sources, continues⟩ := undisturbed
  exact (continues.sparing (intact_initial sources)).1

end World

/-! ### Two loaders -/

/-- The file of a type that declares no members. -/
def ClassFile.withoutMembers (flags : UInt16) (name superclass : String)
    (interfaces : List String) : ClassFile where
  minorVersion := 0
  majorVersion := 52
  -- the text at place `n` has index `2 * n + 1`, and after it stands the class of that name
  pool := (name :: superclass :: interfaces).zipIdx.flatMap fun (text, place) =>
    [.utf8 (Text.ModifiedUtf8.encode text), .classRef (UInt16.ofNat (2 * place + 1))]
  flags := ⟨flags⟩
  thisClass := 2
  superClass := if superclass = "" then 0 else 4
  interfaces := (List.range interfaces.length).map fun place => UInt16.ofNat (2 * place + 6)
  fields := []
  methods := []
  attributes := []

/-- Class files in memory, under the given names. -/
def Source.holding (files : List (String × ClassFile)) : Source :=
  .memory (files.foldl (fun classes (name, file) => classes.insert name file) {})

namespace Layered

/-- What the bootstrap loader has. -/
def base : Source := .holding
  [("java/lang/Object", .withoutMembers 0x0021 "java/lang/Object" "" []),
    ("java/lang/Cloneable", .withoutMembers 0x0601 "java/lang/Cloneable" "java/lang/Object" []),
    ("Shape", .withoutMembers 0x0601 "Shape" "java/lang/Object" []),
    ("Polygon", .withoutMembers 0x0021 "Polygon" "java/lang/Object" ["Shape"])]

/-- What the loader has that asks the bootstrap loader. -/
def upper : Source := .holding [("Square", .withoutMembers 0x0021 "Square" "Polygon" [])]

/-- Asks that loader for array classes, for the first of them once more in the end. -/
def program : Program Unit (Except Error (Option ClassId)) := do
  let loader ← Program.ask (.addLoader "upper" .bootstrap [upper])
  discard (Program.ask (.load loader "[LSquare;"))
  discard (Program.ask (.load loader "[LPolygon;"))
  discard (Program.ask (.load loader "[LShape;"))
  Program.ask (.load loader "[LSquare;")

/-- The world after that. The array classes come last, in the order in which they were loaded. -/
def world : World :=
  (program.runWith (fun _ _ => .done (.ok none)) 0 ⟨.initial [base], ()⟩).2.world

def loader : LoaderId := ⟨1⟩
def squares : ClassId := ⟨5⟩
def polygons : ClassId := ⟨6⟩
def shapes : ClassId := ⟨7⟩

theorem undisturbed : world.Undisturbed := by
  refine ⟨_, Unit, _, fun _ _ => .done (.ok none), 0, program, (), fun _ _ => trivial, ?_, rfl⟩
  exact ⟨id, fun _ => ⟨id, fun _ => ⟨id, fun _ => ⟨id, fun _ => ⟨id, fun _ => trivial⟩⟩⟩⟩⟩

end Layered
end JavaMachine

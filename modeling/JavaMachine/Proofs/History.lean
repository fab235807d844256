import JavaMachine.Proofs.Recurrence

/-!
# Loading does not depend on history

Worlds in which loaders ask the same ones and have the same files may have seen different loads,
some of which have failed. None of that shows in what comes of a request: it comes out in the same
way, and classes that are found look the same and start with the same static values.
-/

namespace JavaMachine

/-- How a request comes out. -/
inductive OutcomeKind where
  | found
  | absent
  | failed
  deriving DecidableEq, Repr

/-- Whether a class was found, there is none, or the request failed. -/
def OutcomeKind.of : Except Error (Option ClassId) → OutcomeKind
  | .ok (some _) => found
  | .ok none => absent
  | .error _ => failed

namespace World

variable {world other : World} {loader : LoaderId} {name : String} {id own : ClassId}
variable {linkage : Linkage}

/-! ### How requests come out -/

section Kinds

variable (intact : world.Intact) (intactToo : other.Intact) (alike : world.Alike other)
include intact intactToo alike

theorem Intact.comparable : world.Comparable other :=
  ⟨intact.sound, intact.regular, intactToo.sound, intactToo.regular,
    fun loader _ _ => alike.shares loader⟩

/-- Where a class is found in one world one is found in the other. -/
theorem load_some_of_alike (outcome : (runFrom world (load loader name)).1 = .ok (some id)) :
    other.Obtains (load loader name) := by
  have ends := (load_finds loader name world intact.sound).ends
  have leads := (ends.gives _ outcome).leads id rfl
  -- the world after the load is the model by which it goes in the other world
  have comparable := (intactToo.comparable intact alike.symm).mono ends.leads
  have quiet : (runFrom world (load loader name)).2.Quiet other :=
    ⟨comparable.symm, intactToo.idle⟩
  exact quiet.load_some ((ends.leads.settles.alike.symm.trans alike).shares loader) leads

theorem load_none_of_alike (outcome : (runFrom world (load loader name)).1 = .ok none) :
    (runFrom other (load loader name)).1 = .ok none := by
  have ends := (load_finds loader name world intact.sound).ends
  have lacks := (ends.gives _ outcome).absent rfl
  have missing := (ends.leads.regular intact.regular).missing_of_lacks lacks
  exact (missing.of_alike (ends.leads.settles.alike.symm.trans alike)).load_none intactToo.sound
    intactToo.regular intactToo.idle

theorem load_kind_eq : OutcomeKind.of (runFrom other (load loader name)).1 =
    OutcomeKind.of (runFrom world (load loader name)).1 := by
  cases outcome : (runFrom world (load loader name)).1 with
  | ok found =>
      cases found with
      | some id =>
          obtain ⟨own, outcomeToo⟩ := load_some_of_alike intact intactToo alike outcome
          rw [outcomeToo]
          rfl
      | none => rw [load_none_of_alike intact intactToo alike outcome]
  | error error =>
      cases outcomeToo : (runFrom other (load loader name)).1 with
      | error errorToo => rfl
      | ok found =>
          cases found with
          | some own =>
              obtain ⟨id, found⟩ := load_some_of_alike intactToo intact alike.symm outcomeToo
              rw [outcome] at found
              cases found
          | none =>
              have absent := load_none_of_alike intactToo intact alike.symm outcomeToo
              rw [outcome] at absent
              cases absent

end Kinds

/-! ### Static values -/

/-- The value with which a static field of a class starts, according to the file. -/
def startValue? (world : World) (id : ClassId) (key : String) : Option FirstValue := do
  let file ← (world.type id).file?
  let slot ← (world.type id).fields.static.find? key
  (slot.field.firstValue? file).toOption

/-- A static field of a class has a value. -/
def Holds (world : World) (id : ClassId) (slot : FieldSlot) (first : FirstValue) : Prop :=
  ∃ value, (world.type id).static[slot.offset]? = some value ∧ world.Depicts value first

section Values

variable {file : ClassFile} {key : String} {slot : FieldSlot} {first : FirstValue}
variable (isFile : (world.type id).file? = some file)
variable (found : (world.type id).fields.static.find? key = some slot)
variable (known : slot.field.firstValue? file = .ok first)
include isFile found known

theorem startValue?_eq : world.startValue? id key = some first := by
  rw [startValue?, isFile, found]
  exact congrArg Except.toOption known

/-- The static fields of a class hold what the file says as long as nothing else is stored. -/
theorem Pristine.holds (pristine : world.Pristine (· = id))
    (linked : (world.type id).linkage? = some linkage) : world.Holds id slot first := by
  rw [fields_of_linkage? linked] at found
  obtain ⟨value, own, stored, same, depicts⟩ :=
    (pristine id file linkage rfl isFile linked).values key slot found
  rw [known] at same
  cases same
  exact ⟨value, stored, depicts⟩

end Values

/-- The static fields of classes with one title start with the same values. -/
theorem Twins.starts (comparable : world.Comparable other) (twins : world.Twins other id own)
    {key : String} {slot : FieldSlot}
    (found : (world.type id).fields.static.find? key = some slot) :
    ∃ slotToo first, (other.type own).fields.static.find? key = some slotToo ∧
      world.startValue? id key = some first ∧ other.startValue? own key = some first ∧
      (world.Pristine (· = id) → world.Holds id slot first) ∧
      (other.Pristine (· = own) → other.Holds own slotToo first) := by
  obtain ⟨linkage, linked⟩ : ∃ linkage, (world.type id).linkage? = some linkage := by
    cases linked : (world.type id).linkage? with
    | some linkage => exact ⟨linkage, rfl⟩
    | none =>
        rw [Class.fields, linked] at found
        cases found
  obtain ⟨file, linkageToo, linkedToo, isFileToo, fits, _⟩ := twins.exists_linkage comparable linked
  have isFile := (twins.file?_eq comparable linked).symm.trans isFileToo
  have tables := congrArg (fun portrait => portrait.staticFields.find? key)
    (twins.portrait_eq comparable)
  simp only [portrait, Table.find?_mapValues, found, Option.map_some] at tables
  obtain ⟨slotToo, foundToo, titled⟩ := Option.map_eq_some_iff.1 tables
  have renamed : slotToo.rename (fun _ => default) = slot.rename fun _ => default :=
    congrArg Prod.snd titled
  have fromLinkage := found
  rw [fields_of_linkage? linked] at fromLinkage
  obtain ⟨first, known⟩ := fits.firstValues key slot fromLinkage
  have knownToo : slotToo.field.firstValue? file = .ok first := by
    rw [← known, ← Field.firstValue?_rename (fun _ => default), ← Field.firstValue?_rename
      (fun _ => default) slot.field]
    exact congrArg (fun slot => slot.field.firstValue? file) renamed
  exact ⟨slotToo, first, foundToo, startValue?_eq isFile found known,
    startValue?_eq isFileToo foundToo knownToo,
    fun pristine => pristine.holds isFile found known linked,
    fun pristine => pristine.holds isFileToo foundToo knownToo linkedToo⟩

/-! ### What is found -/

/-- What comes of a request does not depend on what was loaded before. In two worlds with the same
loaders and files, with which nobody has interfered, it comes out in the same way. The classes that
are found have the same portraits: the same file, superclass, interfaces, methods and fields, with
classes told by their loaders and names. And their static fields start with the same values, which
they have as long as nothing else is stored. -/
theorem load_independent (undisturbed : world.Undisturbed) (undisturbedToo : other.Undisturbed)
    (alike : world.Alike other) :
    ∀ loader name, let ended := runFrom world (load loader name)
      let endedToo := runFrom other (load loader name)
      OutcomeKind.of endedToo.1 = OutcomeKind.of ended.1 ∧
      ∀ id own, ended.1 = .ok (some id) → endedToo.1 = .ok (some own) →
        endedToo.2.portrait own = ended.2.portrait id ∧
        ∀ key slot, (ended.2.type id).fields.static.find? key = some slot →
          ∃ slotToo first, (endedToo.2.type own).fields.static.find? key = some slotToo ∧
            ended.2.startValue? id key = some first ∧
            endedToo.2.startValue? own key = some first ∧
            (world.Pristine (· = id) → ended.2.Holds id slot first) ∧
            (other.Pristine (· = own) → endedToo.2.Holds own slotToo first) := by
  intro loader name ended endedToo
  have intact := undisturbed.intact
  have intactToo := undisturbedToo.intact
  refine ⟨load_kind_eq intact intactToo alike, fun id own outcome outcomeToo => ?_⟩
  have ends := (load_finds loader name world intact.sound).ends
  have endsToo := (load_finds loader name other intactToo.sound).ends
  have comparable : ended.2.Comparable endedToo.2 :=
    ((intactToo.comparable intact alike.symm).mono ends.leads).symm.mono endsToo.leads
  have twins := comparable.twins_of_leadsTo ((ends.gives _ outcome).leads id rfl)
    ((endsToo.gives _ outcomeToo).leads own rfl)
  refine ⟨twins.portrait_eq comparable, fun key slot found => ?_⟩
  obtain ⟨slotToo, first, foundToo, starts, startsToo, holds, holdsToo⟩ :=
    twins.starts comparable found
  exact ⟨slotToo, first, foundToo, starts, startsToo,
    fun pristine => holds (ends.leads.pristine pristine),
    fun pristine => holdsToo (endsToo.leads.pristine pristine)⟩

end World

/-! ### Two histories -/

/-- The operation loads. -/
def Operation.Loads : Operation → Prop
  | load _ _ => True
  | _ => False

/-- Under a program that does nothing but load worlds evolve. -/
theorem evolves_of_loads {Client α : Type} (runner : Runner Client) {program : Program Client α}
    (loads : program.Abides Operation.Loads) (machine : Machine Client)
    (sound : machine.world.Sound) :
    machine.world.Evolves (program.run runner machine).2.world := by
  induction program generalizing machine with
  | done result => exact .refl sound
  | inspect next inductionHypothesis =>
      exact inductionHypothesis machine (loads machine) machine sound
  | store client next inductionHypothesis =>
      exact inductionHypothesis loads { machine with client } sound
  | perform operation next inductionHypothesis =>
      cases operation with
      | load loader name =>
          let performed := (Operation.load loader name).perform runner machine
          have evolves : machine.world.Evolves performed.2.world :=
            (World.load_finds loader name machine.world sound).ends.leads
          exact evolves.trans
            (inductionHypothesis performed.1 (loads.2 _) performed.2 evolves.sound)
      | _ => exact loads.1.elim

namespace Histories

set_option maxRecDepth 20000

/-- A class with a constant text, the index of which is the last but one entry. -/
def greeting : ClassFile :=
  let file : ClassFile := .withoutMembers 0x0021 "Greeting" "java/lang/Object" []
  let texts := ["TEXT", "Ljava/lang/String;", "ConstantValue", "hello"]
  { file with
    pool := file.pool ++ texts.map (fun text => .utf8 (Text.ModifiedUtf8.encode text)) ++
      [.string 8]
    fields := [⟨⟨0x0018⟩, 5, 6, [⟨7, [0, 9]⟩]⟩] }

/-- What the bootstrap loader has. -/
def base : Source := .holding
  [("java/lang/Object", .withoutMembers 0x0021 "java/lang/Object" "" []),
    ("java/lang/String", .withoutMembers 0x0031 "java/lang/String" "java/lang/Object" []),
    ("Greeting", greeting)]

/-- What the loader has that asks the bootstrap loader. -/
def upper : Source := .holding
  [("Welcome", .withoutMembers 0x0021 "Welcome" "Greeting" []),
    ("Broken", .withoutMembers 0x0021 "Broken" "Nowhere" [])]

def loader : LoaderId := ⟨1⟩

/-- Asks for one class after the other. -/
def program : List (LoaderId × String) → Program Unit Unit
  | [] => .done ()
  | (loader, name) :: rest => .perform (.load loader name) fun _ => program rest

theorem loads (requests : List (LoaderId × String)) :
    (program requests).Abides Operation.Loads := by
  induction requests with
  | nil => trivial
  | cons request rest inductionHypothesis => exact ⟨trivial, fun _ => inductionHypothesis⟩

/-- The world after some requests. -/
def after (requests : List (LoaderId × String)) : World :=
  ((Program.perform (.addLoader "upper" .bootstrap [upper]) fun _ => program requests).runWith
    (fun _ _ => .done (.ok none)) 0 ⟨.initial [base], ()⟩).2.world

/-- A request that fails, one for which there is no class, and one that brings in `Greeting`. -/
def requests : List (LoaderId × String) :=
  [(loader, "Broken"), (loader, "[LNowhere;"), (loader, "[LWelcome;")]

theorem undisturbed (requests : List (LoaderId × String)) : (after requests).Undisturbed := by
  refine ⟨_, Unit, _, fun _ _ => .done (.ok none), 0, .perform _ fun _ => program requests, (),
    fun _ _ => trivial, ⟨id, fun _ => (loads requests).mono fun operation loads rebinds => ?_⟩, rfl⟩
  cases operation with
  | load => exact rebinds
  | _ => exact loads

theorem evolves (requests : List (LoaderId × String)) :
    (after []).Evolves (after requests) := by
  have sound := (undisturbed []).intact.sound
  exact evolves_of_loads _ (loads requests) ⟨after [], ()⟩ sound

theorem pristine (requests : List (LoaderId × String)) (about : ClassId → Prop) :
    (after requests).Pristine about :=
  (evolves requests).pristine fun _ _ _ _ _ linked => by cases linked

theorem alike (first second : List (LoaderId × String)) : (after first).Alike (after second) :=
  (evolves first).settles.alike.symm.trans (evolves second).settles.alike

/-- The loader is asked for the class after some requests. -/
def asked (requests : List (LoaderId × String)) : Except Error (Option ClassId) × World :=
  runFrom (after requests) (World.load loader "Greeting")

def text : String := fieldKey "Greeting" "TEXT" "Ljava/lang/String;"

/-- Where the class has come in, which starts with its text. -/
theorem found_later : (asked requests).1.toOption = some (some ⟨2⟩) ∧
    (((asked requests).2.type ⟨2⟩).fields.static.find? text).isSome ∧
      (asked requests).2.startValue? ⟨2⟩ text = some (.string "hello") := by
  decide +kernel

/-- Where the class comes in if it is the first to be asked for. -/
theorem found_first : (asked []).1.toOption = some (some ⟨0⟩) := by
  decide +kernel

theorem outcome_eq {requests : List (LoaderId × String)} {found : Option ClassId}
    (same : (asked requests).1.toOption = some found) : (asked requests).1 = .ok found := by
  cases outcome : (asked requests).1 with
  | error error =>
      rw [outcome] at same
      cases same
  | ok other =>
      rw [outcome] at same
      cases same
      rfl

end Histories

namespace World

/-- After requests of which some have failed the class has come in later than without them, but it
looks the same and has the same text. -/
theorem load_independent_greeting :
    (Histories.after Histories.requests).Undisturbed ∧ (Histories.after []).Undisturbed ∧
    (Histories.after Histories.requests).Alike (Histories.after []) ∧
    OutcomeKind.of (Histories.asked []).1 = OutcomeKind.of (Histories.asked Histories.requests).1 ∧
    (Histories.asked []).2.portrait ⟨0⟩ = (Histories.asked Histories.requests).2.portrait ⟨2⟩ ∧
    (∃ slot, (Histories.asked Histories.requests).2.Holds ⟨2⟩ slot (.string "hello")) ∧
    ∃ slot, (Histories.asked []).2.Holds ⟨0⟩ slot (.string "hello") := by
  have undisturbed := Histories.undisturbed Histories.requests
  have undisturbedToo := Histories.undisturbed []
  have alike := Histories.alike Histories.requests []
  obtain ⟨found, placed, starts⟩ := Histories.found_later
  obtain ⟨slot, placed⟩ := Option.isSome_iff_exists.1 placed
  obtain ⟨kinds, same⟩ :=
    load_independent undisturbed undisturbedToo alike Histories.loader "Greeting"
  obtain ⟨portraits, same⟩ := same _ _ (Histories.outcome_eq found)
    (Histories.outcome_eq Histories.found_first)
  obtain ⟨slotToo, first, _, startsToo, _, holds, holdsToo⟩ := same Histories.text slot placed
  obtain rfl : first = .string "hello" := Option.some_inj.1 (startsToo.symm.trans starts)
  exact ⟨undisturbed, undisturbedToo, alike, kinds, portraits,
    ⟨slot, holds (Histories.pristine _ _)⟩, ⟨slotToo, holdsToo (Histories.pristine _ _)⟩⟩

end World
end JavaMachine

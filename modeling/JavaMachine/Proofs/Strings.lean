import JavaMachine.Proofs.Contents
import JavaMachine.Proofs.Directory
import JavaMachine.Proofs.History
import JavaMachine.Proofs.Relinking

/-!
# Canonical strings

For each text there is one string at most that a machine gives for it: to those who ask for it, as
the value of a constant of any class, and as that with which a static field of any class starts. It
is an instance of the class of strings with the text. Where the string for a text cannot be made no
other has been made meanwhile.
-/

namespace JavaMachine

namespace World

variable {world later : World} {id : ClassId} {loader : LoaderId} {name text : String}
variable {object : ObjectId} {index : UInt16} {error : Error}

/-- The object is an instance of the class of strings with the text. -/
structure HasString (world : World) (object : ObjectId) (text : String) : Prop where
  type : world.findLoaded .bootstrap WellKnown.stringClass = some (world.object object).type
  text : (world.object object).text? = some text

/-- The constant at an index of a class is a string with the text. -/
def Spells (world : World) (id : ClassId) (index : UInt16) (text : String) : Prop :=
  ∃ file place, (world.type id).file? = some file ∧
    file.constant? index = some (.string place) ∧ file.text? place = some text

theorem text?_of_lasting {object : Object} (carries : object.lasting.2 = some (.text text)) :
    object.text? = some text := by
  unfold Object.lasting at carries
  split at carries
  next fields attachment body =>
    cases carries
    simp [Object.text?, body]
  next => cases carries

theorem StringsKnown.hasString (known : world.StringsKnown)
    (found : world.strings.find? text = some object) : world.HasString object text := by
  obtain ⟨type, entry, lasting⟩ := known text object found
  refine ⟨?_, text?_of_lasting (congrArg Prod.snd lasting)⟩
  rw [entry, ← Object.lasting_fst, lasting]

theorem HasString.text_eq {other : String} (has : world.HasString object text)
    (hasToo : world.HasString object other) : other = text :=
  Option.some_inj.1 (hasToo.text.symm.trans has.text)

/-! ### Strings that cannot be made -/

/-- A name that is not entered is not entered by an attempt to define it that fails. -/
theorem findLoaded_of_getOrDefine_error {define : WorldM (Option ClassId)}
    (defines : Ends Unfolds (world.starting loader name) define fun _ _ => True)
    (unknown : world.findLoaded loader name = none)
    (fails : runFrom world (getOrDefine loader name define) = (.error error, later)) :
    later.findLoaded loader name = none := by
  cases undecided : world.settled? loader name with
  | some found =>
      rw [runFrom_getOrDefine undecided] at fails
      cases fails
  | none =>
      by_cases underWay : world.Defining loader name
      · rw [runFrom_getOrDefine_circular undecided underWay] at fails
        cases fails
        exact unknown
      · have unfolds := defines.leads
        rw [runFrom_getOrDefine_open undecided underWay] at fails
        rcases ends : runFrom (world.starting loader name) define with ⟨raised | found, defined⟩
        all_goals rw [ends] at fails unfolds
        · cases fails
          rw [findLoaded_eq_getD, settled?_stopping, settled?_defined unfolds.settles undecided]
          rfl
        · cases fails

/-- The same when the bootstrap loader is asked for the name, which asks no other. -/
theorem Sound.findLoaded_of_load_error (sound : world.Sound) (plain : name.toList.head? ≠ some '[')
    (unknown : world.findLoaded .bootstrap name = none)
    (fails : runFrom world (load .bootstrap name) = (.error error, later)) :
    later.findLoaded .bootstrap name = none := by
  rw [sound.load_of_plain plain, loadNamed, runFrom_bind_ok runFrom_get, sound.root, loadAlong,
    runFrom_answering] at fails
  rw [runFrom_bind_ok runFrom_get, unknown] at fails
  dsimp only at fails
  have nobody : runFrom world (loadAlong defineBySources [] name) = (.ok none, world) := rfl
  rw [runFrom_bind_ok nobody] at fails
  have defines :=
    (defines_defineBySources .bootstrap name plain _ (sound.starting .bootstrap name)).ends
  rcases ends : runFrom world (getOrDefine .bootstrap name (defineBySources .bootstrap name))
    with ⟨outcome, middle⟩
  dsimp only at fails
  rw [ends] at fails
  obtain ⟨rfl, rfl⟩ := Prod.mk.inj fails
  have open_ : middle.findLoaded .bootstrap name = none :=
    findLoaded_of_getOrDefine_error (defines.mono fun _ _ _ => trivial) unknown ends
  exact open_

theorem Sound.load_of_findLoaded (sound : world.Sound) (plain : name.toList.head? ≠ some '[')
    (entry : world.findLoaded loader name = some id) :
    (runFrom world (load loader name)).1 = .ok (some id) := by
  rw [sound.load_of_plain plain, loadNamed, runFrom_bind_ok runFrom_get, loadAlong,
    runFrom_answering, runFrom_bind_ok runFrom_get, entry]
  rfl

/-- A class that is required in vain is not entered. -/
theorem Sound.findLoaded_of_required_error (sound : world.Sound)
    (plain : name.toList.head? ≠ some '[')
    (fails : runFrom world (load.required .bootstrap name) = (.error error, later)) :
    later.findLoaded .bootstrap name = none := by
  have ends := (load_finds .bootstrap name world sound).ends
  have gives := ends.gives
  have leads := ends.leads
  rcases loads : runFrom world (load .bootstrap name) with ⟨raised | _ | id, middle⟩
  all_goals rw [loads] at gives leads
  · rw [Load.required, runFrom_bind_error loads] at fails
    cases fails
    cases entry : world.findLoaded .bootstrap name with
    | some id =>
        have outcome := sound.load_of_findLoaded plain entry
        rw [loads] at outcome
        cases outcome
    | none => exact sound.findLoaded_of_load_error plain entry loads
  · rw [Load.required, runFrom_bind_ok loads] at fails
    cases fails
    have absent := (gives _ rfl).absent rfl
    have settled := absent.settled plain List.mem_cons_self leads.sound.bootstrap
    rw [findLoaded_eq_getD, settled]
    rfl
  · rw [Load.required, runFrom_bind_ok loads] at fails
    cases fails

/-- Without the class of strings there are no strings. -/
theorem StringsKnown.strings_eq (known : world.StringsKnown)
    (unknown : world.findLoaded .bootstrap WellKnown.stringClass = none) : world.strings = {} := by
  cases same : world.strings with
  | mk entries distinct =>
      cases entries with
      | nil => rfl
      | cons entry rest =>
          have found : world.strings.find? entry.1 = some entry.2 := by
            rw [same, Table.find?, Table.lookupIn, if_pos rfl]
          obtain ⟨type, entered, _⟩ := known _ _ found
          rw [unknown] at entered
          cases entered

/-- A string that cannot be made leaves no other behind. -/
theorem StringsKnown.of_intern_error (known : world.StringsKnown) (sound : world.Sound)
    (fails : runFrom world (intern text) = (.error error, later)) :
    later.strings = world.strings := by
  rw [intern, Load.intern, runFrom_bind_ok runFrom_get] at fails
  cases new : world.strings.find? text with
  | some object =>
      rw [new] at fails
      cases fails
  | none =>
      rw [new] at fails
      have plain : WellKnown.stringClass.toList.head? ≠ some '[' := by decide
      have ends := Load.required_ends load_finds .bootstrap WellKnown.stringClass sound
      have evolves := ends.leads
      have gives := ends.gives
      rcases requires : runFrom world (load.required .bootstrap WellKnown.stringClass)
        with ⟨raised | id, middle⟩
      all_goals
        rw [requires] at evolves gives
        dsimp only at fails
      · rw [runFrom_bind_error requires] at fails
        cases fails
        have unknown := sound.findLoaded_of_required_error plain requires
        rw [(evolves.strings known).strings_eq unknown, known.strings_eq]
        rw [Option.eq_none_iff_forall_ne_some]
        intro id entry
        rw [evolves.retains.findLoaded entry] at unknown
        cases unknown
      · -- the class of strings has instances, so there is no other reason to fail
        have entry := (gives id rfl).entry_of_bootstrap evolves.sound plain
        obtain ⟨linkage, linked⟩ :=
          Option.isSome_iff_exists.1 (evolves.sound.linked_of_findLoaded plain entry)
        obtain ⟨object, allocated⟩ := allocateInstance_delivers (.text text) linked
        rw [runFrom_bind_ok requires, runFrom_bind_of_outcome allocated] at fails
        cases fails

/-! ### Worlds with canonical strings -/

/-- Canonical strings carry their texts, and constants have been resolved to canonical strings. -/
structure Spelled (world : World) : Prop where
  strings : world.StringsKnown
  literals : world.LiteralsKnown

/-- Canonical strings stay. -/
def KeepsStrings (world later : World) : Prop :=
  ∀ text object, world.strings.find? text = some object → later.strings.find? text = some object

theorem Spelled.of_same (spelled : world.Spelled) (retains : world.Retains later)
    (objects : world.KeepsObjects later) (strings : later.strings = world.strings)
    (pools : ∀ id index, later.resolved? id .string index = world.resolved? id .string index) :
    later.Spelled :=
  ⟨spelled.strings.of_same retains objects strings, spelled.literals.of_same retains pools⟩

theorem Spelled.develops (spelled : world.Spelled) (clean : world.Clean)
    (develops : world.Develops later) : later.Spelled ∧ world.KeepsStrings later :=
  ⟨⟨develops.strings spelled.strings, develops.literals clean.vetted spelled.literals⟩,
    develops.retains.strings⟩

theorem spelled_initial (sources : List Source) : (World.initial sources).Spelled where
  strings text object found := by cases found
  literals id index object resolved := by cases resolved

theorem retains_note (world : World) (id : ClassId) (occurrence : Occurrence) :
    world.Retains (world.note id occurrence) :=
  Settles.toRetains (.of_loaders (fun _ _ => rfl) rfl rfl fun _ _ found => found)

instance : Bond KeepsStrings :=
  ⟨fun _ _ _ found => found, fun first second text object found =>
    second text object (first text object found)⟩

instance : Steady KeepsStrings Spelled where
  works clean works spelled := spelled.develops clean works.toDevelops
  note {world} id occurrence _ spelled :=
    ⟨spelled.of_same (retains_note world id occurrence) (.of_eq rfl) rfl fun _ _ => rfl,
      fun _ _ found => found⟩
  move {world id state} _ _ spelled :=
    ⟨spelled.of_same (Settles.withState world id state).toRetains (.of_eq rfl) rfl fun other =>
      resolved?_withState world id other state .string, fun _ _ found => found⟩

/-- Only directories are changed, and names stay settled as they are. -/
structure Relists (world later : World) : Prop where
  retains : world.Retains later
  classes : later.classes = world.classes
  objects : later.objects = world.objects
  strings : later.strings = world.strings

theorem Relists.refl (world : World) : world.Relists world :=
  ⟨.refl world, rfl, rfl, rfl⟩

theorem register_relists (world : World) (loader : LoaderId) (id : ClassId) :
    world.Relists (runFrom world (register loader id)).2 := by
  cases known : world.settled? loader (world.type id).name with
  | some found =>
      rw [runFrom_register_known known]
      exact .refl world
  | none =>
      rw [runFrom_register_open known]
      dsimp only
      refine ⟨.modifyDirectory fun other found settled => ?_, rfl, rfl, rfl⟩
      have distinct : (world.type id).name ≠ other := by
        rintro rfl
        rw [known] at settled
        cases settled
      rw [settled?] at settled
      simp [Directory.settle, distinct, settled]

theorem registerUsable_relists (world : World) (loader : LoaderId) (id : ClassId) :
    world.Relists (runFrom world (Operation.registerUsable loader id)).2 := by
  rw [Operation.registerUsable, runFrom_bind_ok runFrom_get]
  split
  · exact register_relists world loader id
  · exact .refl world

theorem Relists.keepsStrings (relists : world.Relists later) : world.KeepsStrings later :=
  relists.retains.strings

theorem Relists.spelled (relists : world.Relists later) (spelled : world.Spelled) :
    later.Spelled := by
  refine spelled.of_same relists.retains (.of_eq relists.objects) relists.strings fun id => ?_
  exact resolved?_eq_of_type (by rw [World.type, relists.classes, World.type]) .string

/-! ### Constants that are strings -/

theorem Spells.endures (spells : world.Spells id index text) (endures : world.Endures later) :
    later.Spells id index text := by
  obtain ⟨file, place, declared, entry⟩ := spells
  have present : id.index < world.classes.size := by
    apply Nat.lt_of_not_ge
    intro absent
    rw [type_eq_default absent] at declared
    cases declared
    have empty : (default : ClassFile).constant? index = none := by
      unfold ClassFile.constant?
      split <;> rfl
    exact absurd (empty.symm.trans entry.1) nofun
  refine ⟨file, place, ?_, entry⟩
  rw [← Class.lasting_file?, endures.lasting id present, Class.lasting_file?, declared]

theorem Means.find?_of_spells (means : world.Means id .string index object)
    (spells : world.Spells id index text) : world.strings.find? text = some object := by
  obtain ⟨file, constant, declared, placed, denotes⟩ := means
  obtain ⟨own, place, declaredToo, placedToo, written⟩ := spells
  rw [declared] at declaredToo
  cases declaredToo
  rw [placed] at placedToo
  cases placedToo
  cases denotes with
  | string writtenToo known =>
      rw [written] at writtenToo
      cases writtenToo
      exact known

/-- A constant is resolved to the canonical string with its text. -/
theorem Spelled.find?_of_resolve (spelled : world.Spelled) (clean : world.Clean)
    (spells : world.Spells id index text)
    (ends : runFrom world (resolveString id index) = (.ok object, later)) :
    later.Spelled ∧ later.strings.find? text = some object := by
  obtain ⟨searches, resolves⟩ := (resolve_ends id .string index clean.sound).ok ends
  exact ⟨(spelled.develops clean searches.toDevelops).1,
    (resolves.literal clean.vetted spelled.literals rfl).find?_of_spells
      (spells.endures searches.grows.endures)⟩

/-- To load a constant that is a string is to resolve it and to push what it is resolved to. -/
theorem runFrom_ldc {Client : Type} {frame : Frame Client} {run : Runner Client}
    (spells : frame.machine.world.Spells id index text) :
    runFrom frame (FrameM.execute run id (.ldc index)) =
      match frame.machine.world.tagAt id index,
        runFrom frame.machine.world (resolveString id index) with
      | .error error, _ => (.error error, frame)
      | .ok _, (.error error, later) =>
          (.error error, { frame with machine := { frame.machine with world := later } })
      | .ok _, (.ok object, later) =>
          (.ok (),
            ⟨{ frame.machine with world := later }, .reference (some object) :: frame.stack⟩) := by
  change runFrom frame (FrameM.loadConstant id index) = _
  cases known : frame.machine.world.tagAt id index with
  | error error =>
      have asks : runFrom frame FrameM.world = (.ok frame.machine.world, frame) := rfl
      rw [FrameM.loadConstant, runFrom_bind_ok asks, known]
      rfl
  | ok tag =>
      obtain ⟨constant, found, rfl⟩ := tagAt_eq_ok.1 known
      obtain ⟨file, declared, _, entry⟩ := constantAt_eq_ok.1 found
      obtain ⟨own, place, declaredToo, entryToo, _⟩ := spells
      rw [declared] at declaredToo
      cases declaredToo
      rw [entry] at entryToo
      cases entryToo
      rcases resolves : runFrom frame.machine.world (resolveString id index) with
        ⟨error | object, later⟩
      · exact (FrameM.runFrom_loadConstant known).trans
          (runFrom_bind_error (runFrom_bind_error (FrameM.onWorld_of_runFrom resolves)))
      · have gives : runFrom frame (FrameM.constantValue id index .string) =
            (.ok (.reference (some object)),
              { frame with machine := { frame.machine with world := later } }) :=
          runFrom_bind_ok (FrameM.onWorld_of_runFrom resolves)
        exact (FrameM.runFrom_loadConstant known).trans (runFrom_bind_ok gives)

/-! ### Those who ask for strings -/

variable {Client α : Type} {run : Runner Client} {machine last : Machine Client}

theorem runFrom_of_onWorld {action : WorldM α} {outcome : Except Error α}
    (ends : Operation.onWorld action machine = (outcome, last)) :
    runFrom machine.world action = (outcome, last.world) := by
  rcases known : runFrom machine.world action with ⟨given, later⟩
  have performed : Operation.onWorld action machine = (given, { machine with world := later }) :=
    runFrom_onWorld known
  rw [performed] at ends
  cases ends
  rfl

theorem runFrom_of_onFrame {action : FrameM Client Unit} {stack left : OperandStack}
    {outcome : Except Error Unit}
    (ends : Operation.onFrame action stack machine = ((outcome, left), last)) :
    runFrom (Frame.mk machine stack) action = (outcome, ⟨last, left⟩) := by
  rcases known : runFrom (Frame.mk machine stack) action with ⟨given, middle, below⟩
  have performed : Operation.onFrame action stack machine = ((given, below), middle) := by
    change (((runFrom (Frame.mk machine stack) action).1,
      (runFrom (Frame.mk machine stack) action).2.stack),
        (runFrom (Frame.mk machine stack) action).2.machine) = _
    rw [known]
  rw [performed] at ends
  cases ends
  rfl

/-- A constant that is a string has been loaded: it has been resolved and pushed. -/
theorem Spells.of_ldc {stack left : OperandStack} (spells : machine.world.Spells id index text)
    (ends : (Operation.execute id (.ldc index) stack).perform run machine =
      ((.ok (), left), last)) :
    ∃ object, left = .reference (some object) :: stack ∧
      runFrom machine.world (resolveString id index) = (.ok object, last.world) ∧
      Step.Passes ⟨machine.world, .execute id (.ldc index) stack⟩ last.world := by
  have ended : runFrom (Frame.mk machine stack) (FrameM.execute run id (.ldc index)) =
    (.ok (), ⟨last, left⟩) := runFrom_of_onFrame ends
  rw [runFrom_ldc spells] at ended
  cases known : machine.world.tagAt id index with
  | error error =>
      rw [known] at ended
      cases ended
  | ok tag =>
      rcases resolves : runFrom machine.world (resolveString id index) with
        ⟨error | object, later⟩
      all_goals
        rw [known, resolves] at ended
        cases ended
      refine ⟨object, rfl, rfl, .inr fun {Other} otherRun client => ?_⟩
      -- what methods do has no part in it
      have again : runFrom (Frame.mk ⟨machine.world, client⟩ stack)
          (FrameM.execute otherRun id (.ldc index)) = _ := runFrom_ldc spells
      rw [known, resolves] at again
      exact congrArg (fun ended => ended.2.machine) again

/-- What is answered to those who ask for the string with a text: to those who intern the text,
look up a constant with it or load one. -/
inductive Gains (world : World) (text : String) (object : ObjectId) :
    (operation : Operation) → operation.Answer → Prop where
  | intern : Gains world text object (.intern text) (.ok object)
  | resolve {id : ClassId} {index : UInt16} (spells : world.Spells id index text) :
      Gains world text object (.resolve id .string index) (.ok object)
  | load {id : ClassId} {index : UInt16} (stack : OperandStack)
      (spells : world.Spells id index text) :
      Gains world text object (.execute id (.ldc index) stack)
        (.ok (), .reference (some object) :: stack)

/-- They are given the canonical string, and nothing else is asked for meanwhile. -/
theorem Gains.known {operation : Operation} {answer : operation.Answer}
    (gains : machine.world.Gains text object operation answer) (clean : machine.world.Clean)
    (spelled : machine.world.Spelled) (ends : operation.perform run machine = (answer, last)) :
    Step.Passes ⟨machine.world, operation⟩ last.world ∧ last.world.Spelled ∧
      last.world.strings.find? text = some object := by
  have leaves (plain : operation.runsMethods = false) :
      Step.Passes ⟨machine.world, operation⟩ last.world := by
    have left := perform_eq_left plain run machine
    rw [ends] at left
    exact .inl (congrArg Machine.world left)
  cases gains with
  | intern =>
      have interns := Load.intern_ends load_finds text clean.sound
      obtain ⟨evolves, found⟩ := interns.ok (runFrom_of_onWorld ends)
      exact ⟨leaves rfl, (spelled.develops clean evolves.toDevelops).1, found⟩
  | resolve spells =>
      exact ⟨leaves rfl, spelled.find?_of_resolve clean spells (runFrom_of_onWorld ends)⟩
  | load stack spells =>
      obtain ⟨pushed, same, resolves, passes⟩ := spells.of_ldc ends
      cases same
      exact ⟨passes, spelled.find?_of_resolve clean spells resolves⟩

/-! ### Static fields that start with strings -/

/-- A class has a static field that is final and whose value is a constant that is a string. -/
def ConstantString (world : World) (id : ClassId) (slot : FieldSlot) (text : String) : Prop :=
  ∃ key index, (world.type id).fields.static.find? key = some slot ∧ slot.field.isFinal ∧
    slot.field.constant = some index ∧ world.Spells id index text

/-- The static field at a place of a class holds the canonical string with a text. -/
def Presents (world : World) (id : ClassId) (place : Nat) (text : String) : Prop :=
  ∃ object, (world.type id).static[place]? = some (.reference (some object)) ∧
    world.strings.find? text = some object

theorem Presents.mono {place : Nat} (presents : world.Presents id place text)
    (static : (later.type id).static[place]? = (world.type id).static[place]?)
    (keeps : world.KeepsStrings later) : later.Presents id place text := by
  obtain ⟨object, held, known⟩ := presents
  exact ⟨object, static ▸ held, keeps text object known⟩

theorem firstValue?_of_string {file : ClassFile} {field : Field} {place : UInt16}
    {first : FirstValue} (isFinal : field.isFinal) (names : field.constant = some index)
    (entry : file.constant? index = some (.string place)) (written : file.text? place = some text)
    (known : field.firstValue? file = .ok first) : first = .string text := by
  unfold Field.firstValue? at known
  rw [isFinal, names] at known
  dsimp only at known
  rw [entry] at known
  have required : file.requireText place = .ok text := ClassFile.requireText_eq_ok.2 written
  split at known
  case h_1 other => cases other
  case h_2 other _ | h_3 other _ | h_4 other _ => cases other
  case h_5 same _ =>
    cases same
    rw [required] at known
    split at known
    · cases known
      rfl
    · cases known
  case h_6 => cases known

/-- The fields with strings of a class that is linked meanwhile hold the canonical ones. -/
theorem LeavesFields.presents {slot : FieldSlot} (leaves : world.LeavesFields later)
    (unlinked : (world.type id).linkage? = none) (constant : later.ConstantString id slot text) :
    later.Presents id slot.offset text := by
  obtain ⟨key, index, found, isFinal, names, file, place, declared, entry, written⟩ := constant
  obtain ⟨linkage, linked⟩ := Option.isSome_iff_exists.1 (linked_of_holds (.static found rfl))
  rw [fields_of_linkage? linked] at found
  obtain ⟨value, first, held, known, depicts⟩ :=
    (leaves.starts id file linkage unlinked declared linked).values key slot found
  rw [firstValue?_of_string isFinal names entry written known] at depicts
  obtain ⟨object, rfl, canonical⟩ := depicts
  exact ⟨object, held, canonical⟩

/-- No class is linked where something is stored at once. -/
theorem linkage?_left_of_stores {operation : Operation} (plain : operation.runsMethods = false)
    (stores : operation.Stores) (world : World) (id : ClassId) :
    ((Step.left ⟨world, operation⟩).type id).linkage? = (world.type id).linkage? := by
  have changes (attempt : World → Except Error World)
      (keeps : ∀ later, attempt world = .ok later →
        (later.type id).linkage? = (world.type id).linkage?) :
      ((runFrom world (change attempt)).2.type id).linkage? = (world.type id).linkage? := by
    cases attempted : attempt world with
    | error error => rw [runFrom_change_error attempted]
    | ok later =>
        rw [runFrom_change_ok attempted]
        exact keeps later attempted
  cases operation with
  | putField object slot value =>
      refine changes (fun world => world.putField object slot value) fun later stored => ?_
      obtain ⟨changed, _, rfl⟩ := stored_of_map stored
      rfl
  | putReference array index element =>
      refine changes (fun world => world.putReference array index element) fun later stored => ?_
      obtain ⟨changed, _, rfl⟩ := stored_of_map stored
      rfl
  | putStatic type slot value =>
      refine changes (fun world => world.putStatic type slot value) fun later stored => ?_
      cases slot with
      | none =>
          obtain ⟨error, refused⟩ := putStatic_none world type value
          rw [stored] at refused
          cases refused
      | some slot =>
          obtain ⟨_, _, _, rfl⟩ := putStatic_eq_ok.1 stored
          rw [← Class.lasting_linkage?, (keeps_withStatic world type slot.offset value).lasting,
            Class.lasting_linkage?]
  | writeField | execute => cases plain
  | _ => exact absurd stores not_false

/-- An operation has led to a class having been linked: its fields with strings hold the canonical
ones. -/
theorem Clean.presents_left {operation : Operation} {slot : FieldSlot} (clean : world.Clean)
    (unlinked : (world.type id).linkage? = none)
    (constant : (Step.left ⟨world, operation⟩).ConstantString id slot text) :
    (Step.left ⟨world, operation⟩).Presents id slot.offset text := by
  have linked : ((Step.left ⟨world, operation⟩).type id).linkage? ≠ none := by
    obtain ⟨key, _, found, _⟩ := constant
    exact Option.isSome_iff_ne_none.1 (linked_of_holds (.static found rfl))
  cases plain : operation.runsMethods with
  | true =>
      have left : Step.left ⟨world, operation⟩ = world := if_pos plain
      rw [left] at linked
      exact absurd unlinked linked
  | false =>
      by_cases stores : operation.Stores
      · rw [linkage?_left_of_stores plain stores] at linked
        exact absurd unlinked linked
      suffices leaves : world.LeavesFields (Step.left ⟨world, operation⟩) from
        leaves.presents unlinked constant
      rw [Step.left, plain]
      by_cases rebinds : operation.Rebinds
      · cases operation with
        | shutDown => exact .of_eq rfl rfl
        | register loader type =>
            exact (registerUsable_ends loader type clean.sound).leads.2.toLeavesFields
        | _ => exact absurd rebinds not_false
      · have works := perform_works plain rebinds stores (fun _ _ => pure none) ⟨world, ()⟩
          clean.sound clean.atRest
        exact works.leaves.toLeavesFields

/-! ### Fields in which nothing is stored -/

/-- A static field at a place of a class holds the canonical string if a constant says so. -/
structure Shows (id : ClassId) (place : Nat) (world : World) : Prop extends world.Spelled where
  presents : ∀ slot text, world.ConstantString id slot text → slot.offset = place →
    world.Presents id place text

theorem Shows.of_leaves {place : Nat} (shows : Shows id place world) (spelled : later.Spelled)
    (leaves : world.LeavesFields later) (retains : world.Retains later) :
    Shows id place later where
  toSpelled := spelled
  presents slot text constant same := by
    cases before : (world.type id).linkage? with
    | none => exact same ▸ leaves.presents before constant
    | some linkage =>
        have linked := Option.isSome_of_eq_some before
        have usable := Class.isUsable_of_linkage? linked
        refine Presents.mono ?_ (by rw [leaves.static id linked]) retains.strings
        refine shows.presents slot text ?_ same
        obtain ⟨key, index, found, isFinal, names, file, spot, declared, entry⟩ := constant
        rw [retains.usable.fields_eq linked] at found
        rw [retains.file?_eq usable] at declared
        exact ⟨key, index, found, isFinal, names, file, spot, declared, entry⟩

theorem Shows.of_lasting {place : Nat} (shows : Shows id place world) (spelled : later.Spelled)
    (lasting : (later.type id).lasting = (world.type id).lasting)
    (static : (later.type id).static[place]? = (world.type id).static[place]?)
    (keeps : world.KeepsStrings later) : Shows id place later where
  toSpelled := spelled
  presents slot text constant same := by
    refine Presents.mono (shows.presents slot text ?_ same) static keeps
    obtain ⟨key, index, found, isFinal, names, file, spot, declared, entry⟩ := constant
    rw [Class.fields_eq_of_lasting lasting] at found
    rw [← Class.lasting_file?, lasting, Class.lasting_file?] at declared
    exact ⟨key, index, found, isFinal, names, file, spot, declared, entry⟩

/-- A store at another place leaves the string where it is. -/
theorem Shows.store {place : Nat} {slot : FieldSlot} {value : Value} {holder : Holder}
    (shows : Shows id place world) (clean : world.Clean)
    (apart : holder = .type id → slot.offset ≠ place)
    (stored : world.store slot value holder = .ok later) : Shows id place later := by
  have develops := develops_store clean.sound stored
  obtain ⟨spelled, keeps⟩ := shows.toSpelled.develops clean develops
  cases holder with
  | object target =>
      obtain ⟨changed, _, rfl⟩ := stored_of_map stored
      exact shows.of_lasting spelled rfl rfl keeps
  | type target =>
      obtain ⟨_, _, _, rfl⟩ := putStatic_eq_ok.1 stored
      refine shows.of_lasting spelled ((keeps_withStatic world target _ value).lasting id) ?_ keeps
      rw [static_withStatic]
      split
      next same => rw [Array.getElem?_setIfInBounds_ne (apart (congrArg Holder.type same))]
      next => rfl

theorem shows_initial (id : ClassId) (place : Nat) (sources : List Source) :
    Shows id place (World.initial sources) where
  toSpelled := spelled_initial sources
  presents slot text constant := by
    obtain ⟨key, _, found, _⟩ := constant
    rw [type_eq_default (Nat.zero_le _)] at found
    cases found

instance (id : ClassId) (place : Nat) : Steady KeepsStrings (Shows id place) where
  works clean works shows :=
    have ⟨spelled, keeps⟩ := shows.toSpelled.develops clean works.toDevelops
    ⟨shows.of_leaves spelled works.leaves.toLeavesFields works.retains, keeps⟩
  note {world} other occurrence clean shows := by
    obtain ⟨spelled, keeps⟩ : (world.note other occurrence).Spelled ∧
        KeepsStrings world (world.note other occurrence) :=
      Steady.note other occurrence clean shows.toSpelled
    exact ⟨shows.of_leaves spelled (.of_eq rfl rfl) (retains_note world other occurrence), keeps⟩
  move {world other state} clean moves shows := by
    obtain ⟨spelled, keeps⟩ : (world.withState other state).Spelled ∧
        KeepsStrings world (world.withState other state) :=
      Steady.move clean moves shows.toSpelled
    exact ⟨shows.of_leaves spelled (LeavesContents.withState world other state).toLeavesFields
      (Settles.withState world other state).toRetains, keeps⟩

end World

/-! ### Sessions -/

/-- The operation does not shut the machine down. -/
def World.GoesOn (_ : World) (operation : Operation) : Prop := operation ≠ .shutDown

/-- The operation stores nothing in the static field at a place of a class. -/
def World.SparesField (id : ClassId) (place : Nat) (world : World) (operation : Operation) : Prop :=
  ∀ later slot value, world.Attempts operation later (.type id) slot value → slot.offset ≠ place

/-- The operation does neither. -/
structure World.GoesOnSparing (id : ClassId) (place : Nat) (world : World) (operation : Operation) :
    Prop where
  goesOn : world.GoesOn operation
  spares : world.SparesField id place operation

/-- The machine is never shut down. -/
def Session.KeepsRunning (session : Session) : Prop := session.Abides World.GoesOn

/-- Nothing is stored in the static field at a place of a class. -/
def Session.Leaves (session : Session) (id : ClassId) (place : Nat) : Prop :=
  session.Abides (World.SparesField id place)

/-- How clients come by strings for a text, and the world in which they do: they are given them, or
they find them in static fields that have the text as their value. To be sure that it is this value
they look when the class has just been linked, or where nothing else is ever stored. -/
inductive Session.ComesBy (session : Session) (text : String) (object : ObjectId) :
    World → Prop where
  | given {Client : Type} {run : Runner Client} {machine last : Machine Client}
      {operation : Operation} {answer : operation.Answer}
      (taken : ⟨machine.world, operation⟩ ∈ session.steps)
      (gains : machine.world.Gains text object operation answer)
      (ends : operation.perform run machine = (answer, last)) :
      ComesBy session text object last.world
  | linked {step : Step} {id : ClassId} {slot : FieldSlot} (taken : step ∈ session.steps)
      (unlinked : (step.world.type id).linkage? = none)
      (constant : step.left.ConstantString id slot text)
      (held : (step.left.type id).static[slot.offset]? = some (.reference (some object))) :
      ComesBy session text object step.left
  | kept {world : World} {id : ClassId} {slot : FieldSlot} (met : world ∈ session.worlds)
      (constant : world.ConstantString id slot text) (leaves : session.Leaves id slot.offset)
      (held : (world.type id).static[slot.offset]? = some (.reference (some object))) :
      ComesBy session text object world

namespace Session

variable {session : Session} {world later : World} {text : String} {object : ObjectId}
variable {rule : World → Operation → Prop}

theorem ComesBy.of_intern (taken : ⟨world, .intern text⟩ ∈ session.steps)
    (interns : runFrom world (World.intern text) = (.ok object, later)) :
    session.ComesBy text object later := by
  let run : Runner Unit := fun _ _ => pure none
  have ends : (Operation.intern text).perform run ⟨world, ()⟩ = (.ok object, ⟨later, ()⟩) :=
    runFrom_onWorld interns
  exact .given taken .intern ends

/-- What relisting keeps is kept by all changes of directories but by shutting down. -/
theorem rebindsKeep_of_relists {bond : World → World → Prop} {holds : World → Prop} [Bond bond]
    (runs : ∀ world operation, rule world operation → world.GoesOn operation)
    (keeps : ∀ {world later : World}, world.Relists later → holds world →
      holds later ∧ bond world later) : RebindsKeep bond rule holds := by
  intro Client run operation rebinds machine allowed
  cases operation with
  | shutDown => exact absurd rfl (runs _ _ allowed)
  | register loader id =>
      apply Observes.of_world
      intro before
      have lasts := (registerUsable_ends loader id before.clean.sound).leads.1
      obtain ⟨holding, bound⟩ :=
        keeps (World.registerUsable_relists machine.world loader id) before.holds
      exact ⟨⟨lasts.clean before.clean, holding⟩, bound⟩
  | _ => exact absurd rebinds id

theorem storesKeep_spelled (rule : World → Operation → Prop) :
    StoresKeep World.KeepsStrings rule World.Spelled :=
  storesKeep_of_develops fun clean develops spelled => spelled.develops clean develops

theorem rebindsKeep_spelled (runs : ∀ world operation, rule world operation →
    world.GoesOn operation) : RebindsKeep World.KeepsStrings rule World.Spelled :=
  rebindsKeep_of_relists runs fun relists spelled =>
    ⟨relists.spelled spelled, relists.keepsStrings⟩

theorem rebindsKeep_shows (id : ClassId) (place : Nat)
    (runs : ∀ world operation, rule world operation → world.GoesOn operation) :
    RebindsKeep World.KeepsStrings rule (World.Shows id place) :=
  rebindsKeep_of_relists runs fun relists shows =>
    ⟨shows.of_leaves (relists.spelled shows.toSpelled) (.of_eq relists.classes relists.objects)
      relists.retains, relists.keepsStrings⟩

theorem KeepsRunning.joins (running : session.KeepsRunning) :
    Joins World.KeepsStrings World.Spelled (World.initial session.sources) session.steps
      session.last.world :=
  Session.joins_of_abides (storesKeep_spelled _) (rebindsKeep_spelled fun _ _ goesOn => goesOn)
    running (World.spelled_initial session.sources)

theorem KeepsRunning.spelled_left (running : session.KeepsRunning) {step : Step}
    (taken : step ∈ session.steps) : step.left.Spelled := by
  have left := (running.joins.met step taken).left (storesKeep_spelled _)
    (rebindsKeep_spelled fun _ _ goesOn => goesOn) (running step taken)
  exact left.1.holds

/-- Canonical strings are so to the end. -/
theorem KeepsRunning.keepsStrings (running : session.KeepsRunning) (met : world ∈ session.worlds) :
    world.KeepsStrings session.last.world := by
  rcases List.mem_cons.1 met with rfl | among
  · exact Bond.refl session.last.world
  · have bound := Session.pairwise_of_abides (storesKeep_spelled _)
      (rebindsKeep_spelled fun _ _ goesOn => goesOn) running
      (World.spelled_initial session.sources)
    exact (List.pairwise_cons.1 bound).1 world among

/-- Stores elsewhere leave the string in a static field. -/
theorem governs_shows (id : ClassId) (place : Nat) :
    Governs (World.GoesOnSparing id place) (World.Shows id place)
      (fun _ holder slot _ => holder = .type id → slot.offset ≠ place) World.KeepsStrings where
  binds develops := develops.retains.strings
  grants _ allowed attempts same := by
    subst same
    exact allowed.spares _ _ _ attempts
  endures _ _ fine := fine
  stores before apart stored := before.holds.store before.clean apart stored
  fills {world later _ array index element} before _ _ stored := by
    have develops := World.develops_putReference array index element before.clean.sound
    rw [World.runFrom_change_ok stored] at develops
    exact before.holds.of_leaves (before.holds.toSpelled.develops before.clean develops).1
      (World.leavesFields_putReference stored) develops.retains

theorem KeepsRunning.shows (running : session.KeepsRunning) {id : ClassId} {place : Nat}
    (leaves : session.Leaves id place) (met : world ∈ session.worlds) :
    World.Shows id place world := by
  have joins := Session.joins_of_abides (governs_shows id place).storesKeep
    (rebindsKeep_shows id place fun _ _ allowed => allowed.goesOn)
    (fun step taken => ⟨running step taken, leaves step taken⟩)
    (World.shows_initial id place session.sources)
  exact (joins.holds_of_mem_worlds world met).holds

/-- Whoever comes by a string for a text comes by the canonical one. -/
theorem KeepsRunning.canonical (running : session.KeepsRunning)
    (comes : session.ComesBy text object world) :
    world.HasString object text ∧ session.last.world.strings.find? text = some object := by
  have joins := running.joins
  cases comes with
  | given taken gains ends =>
      obtain ⟨clean, spelled⟩ := joins.met _ taken
      obtain ⟨passes, later, known⟩ := gains.known clean spelled ends
      exact ⟨later.strings.hasString known, joins.passed _ taken _ passes text object known⟩
  | @linked step id slot taken unlinked constant held =>
      have holding := joins.met step taken
      obtain ⟨canonical, heldToo, known⟩ := holding.clean.presents_left unlinked constant
      rw [held] at heldToo
      cases heldToo
      exact ⟨(running.spelled_left taken).strings.hasString known,
        joins.passed step taken _ (.inl rfl) text object known⟩
  | kept met constant leaves held =>
      have shows := running.shows leaves met
      obtain ⟨canonical, heldToo, known⟩ := shows.presents _ text constant rfl
      rw [held] at heldToo
      cases heldToo
      exact ⟨shows.strings.hasString known, running.keepsStrings met text object known⟩

/-- Each text has one string, which is an instance of the class of strings with this text and no
other: whoever comes by a string for the text comes by this one, in whatever order and whatever has
failed before. Each final static field whose value is a constant that is a string holds one when its
class has been linked, and for as long as nothing is stored in it. Where a string cannot be made
none has been made. -/
theorem strings_canonical (running : session.KeepsRunning) :
    (∀ text object world, session.ComesBy text object world →
      world.HasString object text ∧ session.last.world.HasString object text) ∧
    (∀ text object world other objectToo worldToo, session.ComesBy text object world →
      session.ComesBy other objectToo worldToo → (objectToo = object ↔ other = text)) ∧
    (∀ step ∈ session.steps, ∀ id slot text, (step.world.type id).linkage? = none →
      step.left.ConstantString id slot text → ∃ object,
        (step.left.type id).static[slot.offset]? = some (.reference (some object)) ∧
          session.ComesBy text object step.left) ∧
    (∀ world ∈ session.worlds, ∀ id slot text, world.ConstantString id slot text →
      session.Leaves id slot.offset → ∃ object,
        (world.type id).static[slot.offset]? = some (.reference (some object)) ∧
          session.ComesBy text object world) ∧
    ∀ world ∈ session.worlds, ∀ text error later,
      runFrom world (World.intern text) = (.error error, later) →
        later.strings = world.strings := by
  have joins := running.joins
  have ended := joins.after.holds.strings
  refine ⟨fun text object world comes => ?_, fun text object world other objectToo worldToo comes
    comesToo => ?_, fun step taken id slot text unlinked constant => ?_,
    fun world met id slot text constant leaves => ?_, fun world met text error later fails => ?_⟩
  · obtain ⟨has, known⟩ := running.canonical comes
    exact ⟨has, ended.hasString known⟩
  · obtain ⟨_, known⟩ := running.canonical comes
    obtain ⟨_, knownToo⟩ := running.canonical comesToo
    constructor
    · rintro rfl
      exact (ended.hasString known).text_eq (ended.hasString knownToo)
    · rintro rfl
      rw [known] at knownToo
      exact (Option.some_inj.1 knownToo).symm
  · obtain ⟨object, held, _⟩ := (joins.met step taken).clean.presents_left unlinked constant
    exact ⟨object, held, .linked taken unlinked constant held⟩
  · obtain ⟨object, held, _⟩ := (running.shows leaves met).presents slot text constant rfl
    exact ⟨object, held, .kept met constant leaves held⟩
  · have holding := joins.holds_of_mem_worlds world met
    exact holding.holds.strings.of_intern_error holding.clean.sound fails

end Session

namespace Greetings

/-- A class that starts with a text is loaded, the text is interned, and so is another one. -/
def operations : List Operation :=
  [.load .bootstrap "Greeting", .intern "hello", .intern "goodbye"]

def session : Session := .inOrder [Histories.base] operations

theorem plain : ∀ operation ∈ operations, operation.runsMethods = false := by
  intro operation among
  simp only [operations, List.mem_cons, List.not_mem_nil, or_false] at among
  obtain rfl | rfl | rfl := among <;> rfl

def loaded : World := (World.initial [Histories.base]).after [.load .bootstrap "Greeting"]

set_option maxRecDepth 20000 in
theorem linked : ((loaded.type ⟨0⟩).fields.static.find? Histories.text).map (fun slot =>
      (slot.field.isFinal, slot.field.constant)) = some (true, some 9) ∧
    (loaded.type ⟨0⟩).file?.map (fun file => (file.constant? 9, file.text? 8)) =
      some (some (.string 8), some "hello") ∧
    (runFrom loaded (World.intern "hello")).1.isOk := by
  decide +kernel

theorem abides : session.KeepsRunning := by
  refine Session.abides_inOrder plain fun operation among _ => ?_
  simp only [operations, List.mem_cons, List.not_mem_nil, or_false] at among
  obtain rfl | rfl | rfl := among <;> exact nofun

/-- The class starts with the text. -/
theorem constantString : ∃ slot, loaded.ConstantString ⟨0⟩ slot "hello" := by
  obtain ⟨starts, written, _⟩ := linked
  obtain ⟨slot, found, same⟩ := Option.map_eq_some_iff.1 starts
  obtain ⟨file, declared, entries⟩ := Option.map_eq_some_iff.1 written
  simp only [Prod.mk.injEq] at same entries
  exact ⟨slot, _, 9, found, same.1, same.2, file, 8, declared, entries⟩

/-- The text is interned. -/
theorem interned : ∃ object world, session.ComesBy "hello" object world := by
  have taken : ⟨loaded, .intern "hello"⟩ ∈ session.steps :=
    Session.mem_steps_inOrder _ [.load .bootstrap "Greeting"] [.intern "goodbye"] _ plain
  rcases interns : runFrom loaded (World.intern "hello") with ⟨error | object, later⟩
  · have succeeds := linked.2.2
    rw [interns] at succeeds
    cases succeeds
  · exact ⟨object, later, .of_intern taken interns⟩

/-- The class has been loaded by the first operation. -/
theorem loads : ∃ step ∈ session.steps, (step.world.type ⟨0⟩).linkage? = none ∧
    step.left = loaded :=
  ⟨_, Session.mem_steps_inOrder _ [] [.intern "hello", .intern "goodbye"] _ plain, rfl, rfl⟩

end Greetings

/-- The object that is interned for a text is the one that a class starts with, and an instance of
the class of strings. -/
theorem Session.strings_canonical_greeting : Greetings.session.KeepsRunning ∧
    ∃ object world, ∃ place : Nat,
      (Greetings.loaded.type ⟨0⟩).static[place]? = some (.reference (some object)) ∧
        Greetings.session.ComesBy "hello" object world ∧
          Greetings.session.last.world.HasString object "hello" := by
  obtain ⟨has, unique, starts, _⟩ := Session.strings_canonical Greetings.abides
  obtain ⟨step, taken, unlinked, left⟩ := Greetings.loads
  obtain ⟨slot, constant⟩ := Greetings.constantString
  obtain ⟨object, held, comes⟩ := starts step taken ⟨0⟩ slot "hello" unlinked (left ▸ constant)
  obtain ⟨given, world, gives⟩ := Greetings.interned
  obtain rfl : given = object := (unique _ _ _ _ _ _ comes gives).2 rfl
  rw [left] at held
  exact ⟨Greetings.abides, given, world, slot.offset, held, gives, (has _ _ _ gives).2⟩

end JavaMachine

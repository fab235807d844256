import JavaMachine.Proofs.Completeness

/-!
# What is met on the way

A session is what a client does with a fresh machine, by a program and by the programs that run its
methods. It is watched: each time an operation is asked for, also by a method in the midst of
another operation, the operation is written down with the world in which it is asked for. An
invariant that every work, every entry into the journal and every move of a class keeps holds of all
these worlds, if the stores and the changes of directories that are asked for keep it. What binds
each world to the next one meanwhile binds it to all that come after it.
-/

namespace JavaMachine

/-- An operation that is asked for, and the world in which that happens. -/
structure Step where
  world : World
  operation : Operation

/-- The world to which an operation has led before anything else can be asked for. If methods may be
run, that is the one in which it is asked for itself. -/
def Step.left (step : Step) : World :=
  if step.operation.runsMethods then step.world
  else (step.operation.perform (fun _ _ => pure none) ⟨step.world, ()⟩).2.world

theorem perform_eq_left {Client : Type} {operation : Operation}
    (plain : operation.runsMethods = false) (run : Runner Client) (machine : Machine Client) :
    (operation.perform run machine).2 =
      { machine with world := Step.left ⟨machine.world, operation⟩ } := by
  rw [Step.left, plain]
  cases operation with
  | initializeClass | construct | readField | writeField | execute | call => cases plain
  | _ => rfl

/-- Whatever methods do, the operation leads to this world and nothing else is asked for. -/
def Step.Leads (step : Step) (world : World) : Prop :=
  ∀ {Client : Type} (run : Runner Client) (client : Client),
    (step.operation.perform run ⟨step.world, client⟩).2 = ⟨world, client⟩

theorem Step.leads_left {step : Step} (plain : step.operation.runsMethods = false) :
    step.Leads step.left :=
  fun run client => perform_eq_left plain run ⟨step.world, client⟩

/-- The operation leads to this world before anything else can be asked for. -/
def Step.Passes (step : Step) (world : World) : Prop := world = step.left ∨ step.Leads world

theorem Step.left_load (world : World) (loader : LoaderId) (name : String) :
    Step.left ⟨world, .load loader name⟩ = (runFrom world (World.load loader name)).2 := rfl

/-- A client, and what it has asked for, the last first. -/
structure Watched (Client : Type) where
  client : Client
  steps : List Step

/-- The same program for a client that is watched. -/
def Program.watched {Client α : Type} : Program Client α → Program (Watched Client) α
  | .done result => .done result
  | .inspect next => .inspect fun machine =>
      (next { world := machine.world, client := machine.client.client }).watched
  | .store client next => .inspect fun machine =>
      .store { machine.client with client } next.watched
  | .perform operation next => .inspect fun machine =>
      .store { machine.client with steps := ⟨machine.world, operation⟩ :: machine.client.steps } <|
        .perform operation fun answer => (next answer).watched

/-- The same way of running methods for a client that is watched. -/
def Callback.watched {Client : Type} (callback : Callback Client) : Callback (Watched Client) :=
  fun method arguments => (callback method arguments).watched

/-- What a client does, started on a fresh machine. -/
structure Session where
  {Client Result : Type}
  callback : Callback Client
  depth : Nat
  program : Program Client Result
  sources : List Source
  client : Client

namespace Session

/-- The machine in the end, with all that has been asked for. -/
def last (session : Session) : Machine (Watched session.Client) :=
  (session.program.watched.runWith session.callback.watched session.depth
    ⟨World.initial session.sources, ⟨session.client, []⟩⟩).2

/-- What has been asked for, the last first. -/
def steps (session : Session) : List Step := session.last.client.steps

/-- The worlds in which something was asked for, and the one that is left. -/
def worlds (session : Session) : List World :=
  session.last.world :: session.steps.map Step.world

theorem last_mem_worlds (session : Session) : session.last.world ∈ session.worlds :=
  List.mem_cons_self

theorem world_mem_worlds {session : Session} {step : Step} (taken : step ∈ session.steps) :
    step.world ∈ session.worlds :=
  List.mem_cons_of_mem _ (List.mem_map_of_mem taken)

/-- Nothing was asked for but what the rule allows. -/
def Abides (session : Session) (rule : World → Operation → Prop) : Prop :=
  ∀ step ∈ session.steps, rule step.world step.operation

end Session

/-- The world is met in a session. -/
def World.Met (world : World) : Prop := ∃ session : Session, world ∈ session.worlds

/-- The world is met in the session after the step has been taken. -/
def Session.Since (session : Session) (step : Step) (world : World) : Prop :=
  ∃ later earlier, session.steps = later ++ step :: earlier ∧
    world ∈ session.last.world :: later.map Step.world

/-! ### Invariants -/

namespace World

variable {world middle later : World}

/-- Classes, objects and the journal last. -/
structure Endures (world later : World) : Prop where
  size : world.classes.size ≤ later.classes.size
  lasting : ∀ id, id.index < world.classes.size →
    (later.type id).lasting = (world.type id).lasting
  objects : world.KeepsObjects later
  journal : world.journal <:+ later.journal

theorem Endures.usable (endures : world.Endures later) : world.KeepsUsable later :=
  fun id usable => endures.lasting id (present_of_isUsable usable)

theorem Grows.endures (grows : world.Grows later) : world.Endures later :=
  ⟨grows.size, grows.lasting, grows.objects, grows.journal ▸ List.suffix_refl _⟩

theorem Endures.refl (world : World) : world.Endures world := (Grows.refl world).endures

theorem Endures.trans (first : world.Endures middle) (second : middle.Endures later) :
    world.Endures later where
  size := Nat.le_trans first.size second.size
  lasting id present :=
    (second.lasting id (Nat.lt_of_lt_of_le present first.size)).trans (first.lasting id present)
  objects := first.objects.trans second.objects
  journal := first.journal.trans second.journal

end World

/-- What binds worlds to later ones. -/
class Bond (bond : World → World → Prop) : Prop where
  refl : ∀ world, bond world world
  trans : ∀ {world middle later}, bond world middle → bond middle later → bond world later

instance : Bond World.Endures := ⟨.refl, .trans⟩

/-- What goes on holding of clean worlds, and binds them, as long as nothing is done but work,
entries into the journal and moves of classes. -/
class Steady (bond : World → World → Prop) (holds : World → Prop) : Prop extends Bond bond where
  works : ∀ {world later : World}, world.Clean → world.Works later → holds world →
    holds later ∧ bond world later
  note : ∀ {world : World} id occurrence, world.Clean → holds world →
    holds (world.note id occurrence) ∧ bond world (world.note id occurrence)
  move : ∀ {world : World} {id state}, world.Clean → world.Moves id state → holds world →
    holds (world.withState id state) ∧ bond world (world.withState id state)

/-- What goes on holding of clean worlds whatever is done but stores. -/
class Steadfast (holds : World → Prop) : Prop where
  lasts : ∀ {world later : World}, world.Clean → world.Lasts later → world.LeavesContents later →
    holds world → holds later
  note : ∀ {world : World} id occurrence, world.Clean → holds world →
    holds (world.note id occurrence)
  move : ∀ {world : World} {id state}, world.Clean → world.Moves id state → holds world →
    holds (world.withState id state)

instance : Steadfast fun _ => True := ⟨fun _ _ _ => id, fun _ _ _ => id, fun _ _ => id⟩

instance {holds : World → Prop} [Steadfast holds] : Steady World.Endures holds where
  works clean works holding :=
    ⟨Steadfast.lasts clean works.toLasts works.leaves holding, works.grows.endures⟩
  note id occurrence clean holding :=
    ⟨Steadfast.note id occurrence clean holding, Nat.le_refl _, fun _ _ => rfl, .of_eq rfl,
      List.suffix_cons _ _⟩
  move clean moves holding :=
    ⟨Steadfast.move clean moves holding, Nat.le_of_eq (World.size_withState _ _ _).symm,
      fun other _ => World.lasting_withState _ _ other _, .of_eq rfl, List.suffix_refl _⟩

/-- The world is clean, and the invariant holds of it. -/
structure HoldsCleanly (holds : World → Prop) (world : World) : Prop where
  clean : world.Clean
  holds : holds world

/-- What lies between two worlds: the invariant has held wherever something was asked for, and each
world is bound to those that come after it. -/
structure Joins (bond : World → World → Prop) (holds : World → Prop) (world : World)
    (steps : List Step) (later : World) : Prop where
  after : HoldsCleanly holds later
  bound : bond world later
  met : ∀ step ∈ steps, HoldsCleanly holds step.world
  reached : ∀ step ∈ steps, bond world step.world
  passed : ∀ step ∈ steps, ∀ world, step.Passes world → bond world later
  between : steps.Pairwise fun after before => ∀ world, before.Passes world → bond world after.world

namespace Joins

variable {bond : World → World → Prop} {holds : World → Prop} {world middle later : World}
variable {steps latter former : List Step}

theorem none (after : HoldsCleanly holds later) (bound : bond world later) :
    Joins bond holds world [] later :=
  ⟨after, bound, nofun, nofun, nofun, .nil⟩

variable [Bond bond]

theorem append (first : Joins bond holds world former middle)
    (second : Joins bond holds middle latter later) :
    Joins bond holds world (latter ++ former) later where
  after := second.after
  bound := Bond.trans first.bound second.bound
  met step among := (List.mem_append.1 among).elim (second.met step) (first.met step)
  reached step among := (List.mem_append.1 among).elim
    (fun late => Bond.trans first.bound (second.reached step late)) (first.reached step)
  passed step among := (List.mem_append.1 among).elim (second.passed step)
    fun early world passes => Bond.trans (first.passed step early world passes) second.bound
  between := List.pairwise_append.2 ⟨second.between, first.between,
    fun _ late _ early world passes =>
      Bond.trans (first.passed _ early world passes) (second.reached _ late)⟩

/-- The operation itself is asked for before anything that is asked for meanwhile. -/
theorem asked (before : HoldsCleanly holds world) (joins : Joins bond holds world steps later)
    {operation : Operation}
    (passed : ∀ middle, Step.Passes ⟨world, operation⟩ middle →
      bond middle later ∧ ∀ step ∈ steps, bond middle step.world) :
    Joins bond holds world (steps ++ [⟨world, operation⟩]) later where
  after := joins.after
  bound := joins.bound
  met step among := (List.mem_append.1 among).elim (joins.met step) fun this => by
    rw [List.mem_singleton.1 this]
    exact before
  reached step among := (List.mem_append.1 among).elim (joins.reached step) fun this => by
    rw [List.mem_singleton.1 this]
    exact Bond.refl world
  passed step among := (List.mem_append.1 among).elim (joins.passed step) fun this => by
    rw [List.mem_singleton.1 this]
    exact fun middle passes => (passed middle passes).1
  between := List.pairwise_append.2 ⟨joins.between, List.pairwise_singleton _ _,
    fun step among _ this => by
      rw [List.mem_singleton.1 this]
      exact fun middle passes => (passed middle passes).2 step among⟩

end Joins

variable {Client α : Type} {rule : World → Operation → Prop} {holds : World → Prop}
variable {bond : World → World → Prop}

/-- More has been asked for. -/
def Lengthens (machine later : Machine (Watched Client)) : Prop :=
  machine.client.steps <:+ later.client.steps

instance : Trail.Develops (Lengthens : Machine (Watched Client) → _ → Prop) where
  trans := List.IsSuffix.trans
  develop _ := List.suffix_refl _

/-- More has been asked for. If the rule allows all that and the invariant held before, then it has
held wherever something was asked for, and goes on holding. -/
structure Observes (bond : World → World → Prop) (rule : World → Operation → Prop)
    (holds : World → Prop) (machine later : Machine (Watched Client)) : Prop where
  lengthens : Lengthens machine later
  keeps : ∀ steps, later.client.steps = steps ++ machine.client.steps →
    (∀ step ∈ steps, rule step.world step.operation) → HoldsCleanly holds machine.world →
      Joins bond holds machine.world steps later.world

namespace Observes

variable {machine middle last : Machine (Watched Client)}

/-- Nothing is asked for. -/
theorem of_world {later : World} (keeps : HoldsCleanly holds machine.world →
    HoldsCleanly holds later ∧ bond machine.world later) :
    Observes bond rule holds machine { machine with world := later } where
  lengthens := List.suffix_refl _
  keeps steps same _ before := by
    have none : steps = [] := by simpa using same
    subst none
    obtain ⟨after, bound⟩ := keeps before
    exact .none after bound

variable [Bond bond]

/-- What goes on needs to be looked at only where the invariant holds still. -/
theorem bind (first : Observes bond rule holds machine middle) (lengthens : Lengthens middle last)
    (rest : HoldsCleanly holds machine.world → HoldsCleanly holds middle.world →
      bond machine.world middle.world → Observes bond rule holds middle last) :
    Observes bond rule holds machine last where
  lengthens := first.lengthens.trans lengthens
  keeps steps same allowed before := by
    obtain ⟨former, sameFormer⟩ := first.lengthens
    obtain ⟨latter, sameLatter⟩ := lengthens
    have split : steps = latter ++ former := by
      rw [← sameLatter, ← sameFormer, ← List.append_assoc] at same
      exact (List.append_cancel_right same).symm
    subst split
    have joins := first.keeps former sameFormer.symm
      (fun step among => allowed step (List.mem_append_right _ among)) before
    exact joins.append ((rest before joins.after joins.bound).keeps latter sameLatter.symm
      (fun step among => allowed step (List.mem_append_left _ among)) joins.after)

theorem trans (first : Observes bond rule holds machine middle)
    (second : Observes bond rule holds middle last) : Observes bond rule holds machine last :=
  first.bind second.lengthens fun _ _ _ => second

end Observes

instance [Steady bond holds] :
    Trail.Transits (Observes bond rule holds : Machine (Watched Client) → _ → Prop) where
  trans := Observes.trans
  work works := by
    apply Observes.of_world
    intro before
    have works := works before.clean.sound before.clean.atRest
    have steady : holds _ ∧ bond _ _ := Steady.works before.clean works before.holds
    exact ⟨⟨works.toLasts.clean before.clean, steady.1⟩, steady.2⟩
  note machine id occurrence := by
    apply Observes.of_world
    intro before
    have cleanly : World.Cleanly machine.world (machine.world.note id occurrence) :=
      Course.Transits.note machine.world id occurrence
    have steady : holds _ ∧ bond _ _ := Steady.note id occurrence before.clean before.holds
    exact ⟨⟨cleanly before.clean, steady.1⟩, steady.2⟩
  move machine id state moves := by
    apply Observes.of_world
    intro before
    have cleanly : World.Cleanly machine.world (machine.world.withState id state) :=
      Course.Transits.move machine.world id state moves
    have steady : holds _ ∧ bond _ _ := Steady.move before.clean moves before.holds
    exact ⟨⟨cleanly before.clean, steady.1⟩, steady.2⟩

/-- The stores that the rule allows keep the invariant. -/
def StoresKeep (bond : World → World → Prop) (rule : World → Operation → Prop)
    (holds : World → Prop) : Prop :=
  ∀ {Client : Type} {run : Runner (Watched Client)}, run.Follows (Observes bond rule holds) →
    ∀ operation, operation.Stores → ∀ machine : Machine (Watched Client),
      rule machine.world operation →
        Observes bond rule holds machine (operation.perform run machine).2

/-- The changes of directories that the rule allows keep the invariant. -/
def RebindsKeep (bond : World → World → Prop) (rule : World → Operation → Prop)
    (holds : World → Prop) : Prop :=
  ∀ {Client : Type} (run : Runner (Watched Client)) (operation : Operation), operation.Rebinds →
    ∀ machine : Machine (Watched Client), rule machine.world operation →
      Observes bond rule holds machine (operation.perform run machine).2

/-- What holds on wherever worlds develop is kept by all stores. -/
theorem storesKeep_of_develops [Steady bond holds]
    (develops : ∀ {world later : World}, world.Clean → world.Develops later → holds world →
      holds later ∧ bond world later) : StoresKeep bond rule holds := by
  intro Client run follows operation storing machine _
  have : Trail.Develops (Observes bond rule holds : Machine (Watched Client) → _ → Prop) :=
    { develop := fun developing => by
        apply Observes.of_world
        intro before
        have developing := developing before.clean.sound before.clean.atRest
        obtain ⟨holding, bound⟩ := develops before.clean developing before.holds
        exact ⟨⟨developing.toLasts.clean before.clean, holding⟩, bound⟩ }
  exact store_follows follows storing machine

/-- Whatever lasts while contents are left alone is kept by changes of directories. -/
theorem rebindsKeep (rule : World → Operation → Prop) (holds : World → Prop) [Steadfast holds] :
    RebindsKeep World.Endures rule holds := by
  intro Client run operation rebinds machine _
  refine rebind_follows (fun machine later lasts => ?_) rebinds machine
  apply Observes.of_world
  intro before
  obtain ⟨lasts, leaves⟩ := lasts before.clean.sound before.clean.atRest
  exact ⟨⟨lasts.clean before.clean, Steadfast.lasts before.clean lasts leaves before.holds⟩,
    lasts.grows.endures⟩

/-- Methods and initializations only add to what has been asked for. -/
theorem Runner.Follows.lengthens {run : Runner (Watched Client)}
    (follows : run.Follows (Observes bond rule holds)) : run.Follows Lengthens :=
  ⟨fun method arguments => ⟨fun start => ((follows.runs method arguments).leads start).lengthens⟩,
    fun id => ⟨fun start => ((follows.initializes id).leads start).lengthens⟩⟩

section Sessions

variable [Steady bond holds] (stores : StoresKeep bond rule holds)
  (rebinds : RebindsKeep bond rule holds) {run : Runner (Watched Client)}
include stores rebinds

/-- Operations only add to what has been asked for, and do so as the invariant says if the rule
allows them. -/
theorem perform_observes (follows : run.Follows (Observes bond rule holds))
    (operation : Operation) (machine : Machine (Watched Client)) :
    Lengthens machine (operation.perform run machine).2 ∧
      (rule machine.world operation →
        Observes bond rule holds machine (operation.perform run machine).2) := by
  constructor
  · exact perform_follows follows.lengthens operation machine
      (fun rebinding => rebind_follows (fun _ _ _ => List.suffix_refl _) rebinding machine)
      fun storing => store_follows follows.lengthens storing machine
  · intro allowed
    exact perform_follows follows operation machine
      (fun rebinding => rebinds run operation rebinding machine allowed) fun storing =>
        stores follows operation storing machine allowed

/-- An operation is asked for and then performed. -/
theorem ask_observes (follows : run.Follows (Observes bond rule holds)) (operation : Operation)
    (machine : Machine (Watched Client)) :
    let asking : Machine (Watched Client) := { machine with
      client := { machine.client with
        steps := ⟨machine.world, operation⟩ :: machine.client.steps } }
    Observes bond rule holds machine (operation.perform run asking).2 := by
  intro asking
  obtain ⟨lengthens, performs⟩ := perform_observes stores rebinds follows operation asking
  refine ⟨(List.suffix_cons _ _).trans lengthens, fun steps same allowed before => ?_⟩
  obtain ⟨others, sameOthers⟩ := lengthens
  -- what is asked for now comes last among the steps, which are kept the last first
  have split : steps = others ++ [⟨machine.world, operation⟩] := by
    have same := sameOthers.trans same
    rw [List.append_cons] at same
    exact (List.append_cancel_right same).symm
  subst split
  have permitted := allowed _ (List.mem_append_right _ List.mem_cons_self)
  have joins : Joins bond holds machine.world others _ :=
    (performs permitted).keeps others sameOthers.symm
      (fun step among => allowed step (List.mem_append_left _ among)) before
  refine joins.asked before fun middle passes => ?_
  have led (leads : Step.Leads ⟨machine.world, operation⟩ middle) :
      bond middle (operation.perform run asking).2.world ∧
        ∀ step ∈ others, bond middle step.world := by
    have ended := leads run asking.client
    have none : others = [] := by
      rw [ended] at sameOthers
      exact List.append_left_eq_self.1 sameOthers
    subst none
    refine ⟨?_, nofun⟩
    rw [ended]
    exact Bond.refl middle
  rcases passes with rfl | leads
  · cases plain : operation.runsMethods with
    | true =>
        have left : Step.left ⟨machine.world, operation⟩ = machine.world := if_pos plain
        rw [left]
        exact ⟨joins.bound, joins.reached⟩
    | false => exact led (Step.leads_left plain)
  · exact led leads

/-- Programs that are watched keep the invariant. -/
theorem run_observes (follows : run.Follows (Observes bond rule holds))
    (program : Program Client α) (machine : Machine (Watched Client)) :
    Observes bond rule holds machine (program.watched.run run machine).2 := by
  induction program generalizing machine with
  | done result => exact Trail.refl machine
  | inspect next inductionHypothesis => exact inductionHypothesis _ machine
  | store client next inductionHypothesis =>
      have rest := inductionHypothesis { machine with client := { machine.client with client } }
      exact ⟨rest.lengthens, rest.keeps⟩
  | perform operation next inductionHypothesis =>
      exact (ask_observes stores rebinds follows operation machine).trans
        (inductionHypothesis _ _)

theorem runner_observes (callback : Callback Client) (depth : Nat) :
    (callback.watched.runner depth).Follows (Observes bond rule holds) := by
  -- methods run programs that call methods one level deeper, so the induction is on the depth
  induction depth with
  | zero =>
      have runs : ∀ method arguments, Follows Machine.self (Observes bond rule holds)
          (callback.watched.runner 0 method arguments) :=
        fun _ _ => Follows.throw _
      exact ⟨runs, fun id => initializing_follows runs id⟩
  | succ depth inductionHypothesis =>
      have runs : ∀ method arguments, Follows Machine.self (Observes bond rule holds)
          (callback.watched.runner (depth + 1) method arguments) :=
        fun method arguments =>
          ⟨run_observes stores rebinds inductionHypothesis (callback method arguments)⟩
      exact ⟨runs, fun id => initializing_follows runs id⟩

/-- If the invariant holds of fresh worlds and nothing is asked for but what the rule allows, it
holds of all worlds that are met, and each is bound to those that come after it. -/
theorem Session.joins_of_abides {session : Session} (abides : session.Abides rule)
    (initial : holds (World.initial session.sources)) :
    Joins bond holds (World.initial session.sources) session.steps session.last.world :=
  (run_observes stores rebinds (runner_observes stores rebinds session.callback session.depth)
    session.program ⟨World.initial session.sources, ⟨session.client, []⟩⟩).keeps session.steps
      (List.append_nil _).symm abides ⟨World.clean_initial session.sources, initial⟩

/-- The invariant holds of the world that is left, and the one in which the operation was asked for
is bound to it. -/
theorem HoldsCleanly.left {step : Step} (holding : HoldsCleanly holds step.world)
    (allowed : rule step.world step.operation) :
    HoldsCleanly holds step.left ∧ bond step.world step.left := by
  cases plain : step.operation.runsMethods with
  | true =>
      rw [Step.left, if_pos plain]
      exact ⟨holding, Bond.refl step.world⟩
  | false =>
      let machine : Machine (Watched Unit) := ⟨step.world, ⟨(), []⟩⟩
      let callback : Callback Unit := fun _ _ => .done (.ok none)
      have follows := runner_observes stores rebinds callback 0
      obtain ⟨_, performs⟩ := perform_observes stores rebinds follows step.operation machine
      have led := perform_eq_left plain (callback.watched.runner 0) machine
      have joins := (performs allowed).keeps [] (by rw [led]; rfl) nofun holding
      rw [led] at joins
      exact ⟨joins.after, joins.bound⟩

/-- Each world that is met is bound to those that are met later. -/
theorem Session.pairwise_of_abides {session : Session} (abides : session.Abides rule)
    (initial : holds (World.initial session.sources)) :
    session.worlds.Pairwise fun later earlier => bond earlier later := by
  have joins := Session.joins_of_abides stores rebinds abides initial
  have leads (step : Step) (taken : step ∈ session.steps) : bond step.world step.left :=
    ((joins.met step taken).left stores rebinds (abides step taken)).2
  refine List.pairwise_cons.2 ⟨fun world among => ?_, List.pairwise_map.2 ?_⟩
  · obtain ⟨step, taken, rfl⟩ := List.mem_map.1 among
    exact Bond.trans (leads step taken) (joins.passed step taken _ (.inl rfl))
  · exact joins.between.imp_of_mem fun {_ before} _ taken bound =>
      Bond.trans (leads before taken) (bound _ (.inl rfl))

end Sessions

namespace Joins

variable {session : Session}

theorem holds_of_mem_worlds (joins : Joins bond holds (World.initial session.sources)
    session.steps session.last.world) : ∀ world ∈ session.worlds, HoldsCleanly holds world := by
  intro world among
  rcases List.mem_cons.1 among with rfl | asked
  · exact joins.after
  · obtain ⟨step, taken, rfl⟩ := List.mem_map.1 asked
    exact joins.met step taken

theorem bound_of_passes (joins : Joins bond holds (World.initial session.sources)
    session.steps session.last.world) {step : Step} {passed world : World}
    (since : session.Since step world) (passes : step.Passes passed) : bond passed world := by
  obtain ⟨later, earlier, same, among⟩ := since
  rcases List.mem_cons.1 among with rfl | asked
  · exact joins.passed step (same ▸ List.mem_append_right _ List.mem_cons_self) passed passes
  · obtain ⟨other, taken, rfl⟩ := List.mem_map.1 asked
    have between := joins.between
    rw [same] at between
    exact (List.pairwise_append.1 between).2.2 other taken step List.mem_cons_self passed passes

theorem bound_of_since (joins : Joins bond holds (World.initial session.sources)
    session.steps session.last.world) {step : Step} {world : World}
    (since : session.Since step world) : bond step.left world :=
  joins.bound_of_passes since (.inl rfl)

end Joins

/-- The invariant holds of all worlds that are met, if it holds of fresh ones and nothing is asked
for but what the rule allows. -/
theorem Session.holds_of_abides [Steadfast holds] (stores : StoresKeep World.Endures rule holds)
    {session : Session} (abides : session.Abides rule)
    (initial : holds (World.initial session.sources)) :
    ∀ world ∈ session.worlds, HoldsCleanly holds world :=
  (Session.joins_of_abides stores (rebindsKeep rule holds) abides initial).holds_of_mem_worlds

theorem Session.mem_worlds_of_since {session : Session} {step : Step} {world : World}
    (since : session.Since step world) : world ∈ session.worlds := by
  obtain ⟨later, earlier, same, among⟩ := since
  rw [worlds, same]
  rcases List.mem_cons.1 among with rfl | asked
  · exact List.mem_cons_self
  · rw [List.map_append]
    exact List.mem_cons_of_mem _ (List.mem_append_left _ asked)

theorem storesKeep_endures : StoresKeep World.Endures (fun _ _ => True) fun _ => True :=
  storesKeep_of_develops fun _ develops _ => ⟨trivial, develops.grows.endures⟩

/-- Whatever is asked for, the worlds that are met are clean, and classes, objects and the
journal last. -/
theorem Session.joins (session : Session) : Joins World.Endures (fun _ => True)
    (World.initial session.sources) session.steps session.last.world :=
  Session.joins_of_abides storesKeep_endures (rebindsKeep (fun _ _ => True) fun _ => True)
    (fun _ _ => trivial) trivial

/-- Classes, objects and the journal last from each world that is met to those that are met
later. -/
theorem Session.pairwise_endures (session : Session) :
    session.worlds.Pairwise fun later earlier => earlier.Endures later :=
  Session.pairwise_of_abides storesKeep_endures (rebindsKeep (fun _ _ => True) fun _ => True)
    (fun _ _ => trivial) trivial

theorem World.Met.clean {world : World} (met : world.Met) : world.Clean := by
  obtain ⟨session, among⟩ := met
  exact (session.joins.holds_of_mem_worlds world among).clean

/-! ### Operations in order -/

/-- Asks for operations one after the other. -/
def Program.inOrder {Client : Type} : List Operation → Program Client Unit
  | [] => .done ()
  | operation :: rest => .perform operation fun _ => inOrder rest

/-- The world to which the operations lead. -/
def World.after (world : World) : List Operation → World
  | [] => world
  | operation :: rest => (Step.left ⟨world, operation⟩).after rest

/-- The operations with the worlds in which they are asked for, the last first. -/
def World.stepsOf (world : World) : List Operation → List Step
  | [] => []
  | operation :: rest => (Step.left ⟨world, operation⟩).stepsOf rest ++ [⟨world, operation⟩]

theorem World.stepsOf_append (world : World) (former latter : List Operation) :
    world.stepsOf (former ++ latter) =
      (world.after former).stepsOf latter ++ world.stepsOf former := by
  induction former generalizing world with
  | nil => exact (List.append_nil _).symm
  | cons operation rest inductionHypothesis =>
      rw [List.cons_append, stepsOf, inductionHypothesis, List.append_assoc]
      rfl

theorem World.operation_of_mem_stepsOf {world : World} {operations : List Operation} {step : Step}
    (among : step ∈ world.stepsOf operations) : step.operation ∈ operations := by
  induction operations generalizing world with
  | nil => cases among
  | cons operation rest inductionHypothesis =>
      rcases List.mem_append.1 among with late | now
      · exact List.mem_cons_of_mem _ (inductionHypothesis late)
      · rw [List.mem_singleton.1 now]
        exact List.mem_cons_self

namespace Session

/-- A session in which nothing is done but that operations are asked for. -/
def inOrder (sources : List Source) (operations : List Operation) : Session where
  callback _ _ := .done (.ok none)
  depth := 0
  program := Program.inOrder operations
  sources := sources
  client := ()

section InOrder

variable {sources : List Source} {operations : List Operation}

theorem last_inOrder (plain : ∀ operation ∈ operations, operation.runsMethods = false) :
    (inOrder sources operations).last = ⟨(World.initial sources).after operations,
      ⟨(), (World.initial sources).stepsOf operations⟩⟩ := by
  suffices runs : ∀ run (machine : Machine (Watched Unit)),
      ((Program.inOrder operations).watched.run run machine).2 =
        ⟨machine.world.after operations, ⟨machine.client.client,
          machine.world.stepsOf operations ++ machine.client.steps⟩⟩ by
    refine (runs _ _).trans ?_
    rw [List.append_nil]
    rfl
  intro run machine
  induction operations generalizing machine with
  | nil => rfl
  | cons operation rest inductionHypothesis =>
      have goes := inductionHypothesis
        (fun other among => plain other (List.mem_cons_of_mem _ among))
        (operation.perform run ⟨machine.world, ⟨machine.client.client,
          ⟨machine.world, operation⟩ :: machine.client.steps⟩⟩).2
      refine Eq.trans goes ?_
      rw [perform_eq_left (plain operation List.mem_cons_self), World.after, World.stepsOf,
        List.append_assoc]
      rfl

theorem after_mem_worlds (plain : ∀ operation ∈ operations, operation.runsMethods = false) :
    (World.initial sources).after operations ∈ (inOrder sources operations).worlds := by
  have ended : (inOrder sources operations).last.world =
      (World.initial sources).after operations := by rw [last_inOrder plain]
  exact ended ▸ (inOrder sources operations).last_mem_worlds

theorem steps_inOrder (plain : ∀ operation ∈ operations, operation.runsMethods = false) :
    (inOrder sources operations).steps = (World.initial sources).stepsOf operations := by
  rw [steps, last_inOrder plain]

theorem abides_inOrder {rule : World → Operation → Prop}
    (plain : ∀ operation ∈ operations, operation.runsMethods = false)
    (allowed : ∀ operation ∈ operations, ∀ world, rule world operation) :
    (inOrder sources operations).Abides rule := by
  intro step among
  rw [steps_inOrder plain] at among
  exact allowed _ (World.operation_of_mem_stepsOf among) _

theorem mem_steps_inOrder (sources : List Source) (former latter : List Operation)
    (operation : Operation)
    (plain : ∀ other ∈ former ++ operation :: latter, other.runsMethods = false) :
    ⟨(World.initial sources).after former, operation⟩ ∈
      (inOrder sources (former ++ operation :: latter)).steps := by
  rw [steps_inOrder plain, World.stepsOf_append, World.stepsOf]
  simp

theorem since_inOrder (sources : List Source) (former latter : List Operation)
    (operation : Operation)
    (plain : ∀ other ∈ former ++ operation :: latter, other.runsMethods = false) :
    (inOrder sources (former ++ operation :: latter)).Since
      ⟨(World.initial sources).after former, operation⟩
        ((World.initial sources).after (former ++ operation :: latter)) := by
  have reached : (inOrder sources (former ++ operation :: latter)).last.world =
      (World.initial sources).after (former ++ operation :: latter) := by
    rw [last_inOrder plain]
  rw [← reached]
  refine ⟨(Step.left ⟨(World.initial sources).after former, operation⟩).stepsOf latter,
    (World.initial sources).stepsOf former, ?_, List.mem_cons_self⟩
  rw [steps_inOrder plain, World.stepsOf_append, World.stepsOf, List.append_assoc]
  rfl

end InOrder
end Session
end JavaMachine

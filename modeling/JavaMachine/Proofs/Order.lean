import JavaMachine.Proofs.Session

/-!
# Order on the way

Not only what a program leaves is in order, but every world in which it, or a method in the midst of
another operation, asks for something. A class moves only where that is entered into the journal at
once, and nothing is asked for in between. So the worlds that are met are as the journal pictures
them, which is lawful in the end.
-/

namespace JavaMachine

namespace World

variable {world later : World} {id : ClassId}

/-- Since the latest entry into the journal classes have been added at most. -/
def UpToDate (world : World) : Prop := OnlyAdded world.journal.picture world.classes

theorem upToDate_note (world : World) (id : ClassId) (occurrence : Occurrence) :
    (world.note id occurrence).UpToDate := .refl _

theorem Grows.upToDate (grows : world.Grows later) (upToDate : world.UpToDate) :
    later.UpToDate := by
  rw [UpToDate, grows.journal]
  exact upToDate.trans grows.onlyAdded

/-- A class is in a state other than those of new classes if the journal pictures it so. -/
theorem UpToDate.stateIn_iff (upToDate : world.UpToDate) :
    stateIn world.classes id = some .beingInitialized ↔
      stateIn world.journal.picture id = some .beingInitialized := by
  constructor
  · intro here
    rcases upToDate.before_or_fresh here with before | ⟨type, fresh, state⟩
    · exact before
    · exact absurd state fresh.not_beingInitialized
  · exact upToDate.stateIn

/-- A class whose initializer has been called is there, and does not wait for its initialization. -/
theorem called_of_lawful {journal : Journal}
    (lawful : ∀ moment earlier, moment :: earlier <:+ journal → moment.IsLawful earlier)
    (called : journal.Called id) :
    stateIn journal.picture id ≠ none ∧ stateIn journal.picture id ≠ some .linked := by
  induction journal with
  | nil =>
      obtain ⟨moment, membership, _⟩ := called
      cases membership
  | cons moment earlier inductionHypothesis =>
      have now := lawful moment earlier (List.suffix_refl _)
      obtain ⟨call, membership, type, initializer, calling⟩ := called
      rcases List.mem_cons.1 membership with rfl | before
      · subst type
        rw [Journal.picture, (now.call initializer calling).busy]
        simp
      · obtain ⟨there, begun⟩ := inductionHypothesis
          (fun other rest suffix => lawful other rest (suffix.trans (List.suffix_cons _ _)))
          ⟨call, before, type, initializer, calling⟩
        obtain ⟨middle, added, moves, others⟩ := now.states
        obtain ⟨state, here⟩ := Option.ne_none_iff_exists'.1 there
        have between : stateIn middle id = stateIn (Journal.picture earlier) id :=
          (added.stateIn here).trans here.symm
        rw [← between] at there begun
        by_cases same : id = moment.type
        · subst same
          exact ⟨moves.present there, moves.not_linked begun⟩
        · rw [Journal.picture, stateIn, others id same]
          exact ⟨there, begun⟩

/-- A clean world that is as its journal pictures it is in order, if the journal is lawful. -/
theorem Clean.inOrder (clean : world.Clean) (upToDate : world.UpToDate)
    (lawful : ∀ moment earlier, moment :: earlier <:+ world.journal → moment.IsLawful earlier) :
    world.InOrder where
  sound := clean.sound
  atRest := clean.atRest
  lawful := lawful
  added := upToDate
  active id := by
    rw [upToDate.stateIn_iff]
    cases same : world.journal with
    | nil => simp [Journal.picture, Journal.active, stateIn]
    | cons moment earlier => exact (lawful moment earlier (same ▸ List.suffix_refl _)).active id
  called id called := by
    obtain ⟨there, begun⟩ := called_of_lawful lawful called
    obtain ⟨state, here⟩ := Option.ne_none_iff_exists'.1 there
    rw [upToDate.stateIn here, ← here]
    exact ⟨there, begun⟩

end World

/-! ### Keeping up with the journal -/

variable {Client α : Type}

/-- The world is clean, and wherever something was asked for the journal was up to date. -/
structure Machine.Kept (machine : Machine (Watched Client)) : Prop where
  clean : machine.world.Clean
  steps : ∀ step ∈ machine.client.steps, step.world.UpToDate

/-- So it is now. -/
structure Machine.Current (machine : Machine (Watched Client)) : Prop extends machine.Kept where
  upToDate : machine.world.UpToDate

/-- The journal is kept up to date. -/
def KeepsUp (machine later : Machine (Watched Client)) : Prop := machine.Current → later.Current

theorem KeepsUp.of_lasts {machine : Machine (Watched Client)} {later : World}
    (lasts : machine.world.Sound → machine.world.AtRest → machine.world.Lasts later) :
    KeepsUp machine { machine with world := later } := by
  intro current
  have lasts := lasts current.clean.sound current.clean.atRest
  exact ⟨⟨lasts.clean current.clean, current.steps⟩, lasts.grows.upToDate current.upToDate⟩

instance : Trail.Develops (KeepsUp : Machine (Watched Client) → _ → Prop) where
  trans first second current := second (first current)
  develop develops := .of_lasts fun sound atRest => (develops sound atRest).toLasts

theorem Machine.Kept.note {machine : Machine (Watched Client)} (kept : machine.Kept) (id : ClassId)
    (occurrence : Occurrence) :
    Machine.Current { machine with world := machine.world.note id occurrence } where
  clean := (Course.Transits.note machine.world id occurrence : World.Cleanly _ _) kept.clean
  steps := kept.steps
  upToDate := machine.world.upToDate_note id occurrence

theorem Machine.Kept.move {machine : Machine (Watched Client)} (kept : machine.Kept) {id : ClassId}
    {state : Class → ClassState} (moves : machine.world.Moves id state) :
    Machine.Kept { machine with world := machine.world.withState id state } where
  clean := (Course.Transits.move machine.world id state moves : World.Cleanly _ _) kept.clean
  steps := kept.steps

instance : Trail.Notes (KeepsUp : Machine (Watched Client) → _ → Prop) where
  note _ id occurrence current := current.toKept.note id occurrence

section Initializing

variable {run : Runner (Watched Client)}
  (follows : ∀ method arguments, Follows Machine.self KeepsUp (run method arguments))
include follows

/-- Once a class is initialized the journal is up to date; when that fails the failure has still to
be entered. -/
theorem initializeLinked_kept (id : ClassId) {superclasses : MachineM (Watched Client) Unit}
    (above : Follows Machine.self KeepsUp superclasses) (machine : Machine (Watched Client))
    (current : machine.Current) :
    let ended := runFrom machine (initializeLinked run id superclasses)
    ended.2.Kept ∧ (ended.1 = .ok () → ended.2.Current) := by
  intro ended
  by_cases may : (machine.world.type id).state.canAdvanceTo .beingInitialized
  case neg =>
    obtain ⟨error, refused⟩ := initializeLinked_refused run superclasses may
    simp only [ended, refused]
    exact ⟨current.toKept, nofun⟩
  have begun : (machine.beginning id).Current := (current.toKept.move (.inr may)).note id .begun
  have attempts : Follows Machine.self KeepsUp (do superclasses; runInitializer run id) :=
    .bind above fun _ => runInitializer_follows follows id
  have attempted := attempts.leads _ begun
  rcases tried : runFrom (machine.beginning id) (do superclasses; runInitializer run id) with
    ⟨error | _, middle⟩
  all_goals
    have attempted : middle.Current := by simpa only [tried] using attempted
  · simp only [ended, initializeLinked_error may tried]
    refine ⟨?_, nofun⟩
    rw [Machine.failing, World.markFailed_eq]
    exact attempted.toKept.move (World.moves_markFailed middle.world id)
  · by_cases mayToo : (middle.world.type id).state.canAdvanceTo .fullyInitialized
    · have done : (middle.completing id).Current :=
        (attempted.toKept.move (.inr mayToo)).note id .completed
      simp only [ended, initializeLinked_ok may tried mayToo]
      exact ⟨done.toKept, fun _ => done⟩
    · obtain ⟨error, stuck⟩ := initializeLinked_stuck may tried mayToo
      simp only [ended, stuck]
      exact ⟨attempted.toKept, nofun⟩

theorem initializeFrom_kept (id : ClassId) {superclasses : MachineM (Watched Client) Unit}
    (above : Follows Machine.self KeepsUp superclasses) (machine : Machine (Watched Client))
    (current : machine.Current) :
    let ended := runFrom machine (initializeFrom run id superclasses)
    ended.2.Kept ∧ (ended.1 = .ok () → ended.2.Current) := by
  intro ended
  simp only [ended]
  rw [initializeFrom, runFrom_bind_ok (runFrom_world machine)]
  dsimp only
  split
  · exact ⟨current.toKept, fun _ => current⟩
  · split
    · exact ⟨current.toKept, fun _ => current⟩
    · exact ⟨current.toKept, fun _ => current⟩
    · exact ⟨current.toKept, fun same => by cases same⟩
    · exact ⟨current.toKept, fun same => by cases same⟩
    · exact initializeLinked_kept follows id above machine current

theorem initializeAlong_keepsUp (ids : List ClassId) :
    Follows Machine.self KeepsUp (initializeAlong run ids) := by
  induction ids with
  | nil => exact .pure _
  | cons id superclasses inductionHypothesis =>
      refine ⟨fun machine current => ?_⟩
      obtain ⟨kept, done⟩ := initializeFrom_kept follows id inductionHypothesis machine current
      rcases ends : runFrom machine (initializeFrom run id (initializeAlong run superclasses))
        with ⟨error | _, later⟩
      all_goals rw [ends] at kept done
      · rw [initializeAlong, runFrom_tryCatch_error ends, runFrom_bind_ok (runFrom_note _ _ _)]
        exact kept.note id (.failed error)
      · rw [initializeAlong, runFrom_tryCatch_ok ends]
        exact done rfl

theorem initializeClass_keepsUp (id : ClassId) :
    Follows Machine.self KeepsUp (initializeClass run id) :=
  .bind MachineM.world_follows fun _ => initializeAlong_keepsUp follows _

end Initializing

/-! ### Programs -/

/-- Programs that are watched keep the journal up to date. -/
theorem run_keepsUp {run : Runner (Watched Client)} (follows : run.Follows KeepsUp)
    (program : Program Client α) (machine : Machine (Watched Client)) :
    KeepsUp machine (program.watched.run run machine).2 := by
  induction program generalizing machine with
  | done result => exact Trail.refl machine
  | inspect next inductionHypothesis => exact inductionHypothesis _ machine
  | store client next inductionHypothesis =>
      intro current
      exact inductionHypothesis { machine with client := { machine.client with client } }
        ⟨⟨current.clean, current.steps⟩, current.upToDate⟩
  | perform operation next inductionHypothesis =>
      intro current
      let asking : Machine (Watched Client) := { machine with
        client := { machine.client with
          steps := ⟨machine.world, operation⟩ :: machine.client.steps } }
      have asked : asking.Current := by
        refine ⟨⟨current.clean, fun step among => ?_⟩, current.upToDate⟩
        rcases List.mem_cons.1 among with rfl | before
        · exact current.upToDate
        · exact current.steps step before
      have performs : KeepsUp asking (operation.perform run asking).2 :=
        perform_follows follows operation asking
          (fun rebinds => rebind_follows (fun _ _ lasts =>
            .of_lasts fun sound atRest => (lasts sound atRest).1) rebinds asking)
          fun stores => store_follows follows stores asking
      exact inductionHypothesis _ _ (performs asked)

theorem runner_keepsUp (callback : Callback Client) (depth : Nat) :
    (callback.watched.runner depth).Follows KeepsUp := by
  induction depth with
  | zero =>
      have runs : ∀ method arguments, Follows Machine.self KeepsUp
          (callback.watched.runner 0 method arguments) :=
        fun _ _ => .throw _
      exact ⟨runs, initializeClass_keepsUp runs⟩
  | succ depth inductionHypothesis =>
      have runs : ∀ method arguments, Follows Machine.self KeepsUp
          (callback.watched.runner (depth + 1) method arguments) :=
        fun method arguments => ⟨run_keepsUp inductionHypothesis (callback method arguments)⟩
      exact ⟨runs, initializeClass_keepsUp runs⟩

/-- Wherever something is asked for the world is in order. -/
theorem World.Met.inOrder {world : World} (met : world.Met) : world.InOrder := by
  have clean := met.clean
  obtain ⟨session, among⟩ := met
  have current : session.last.Current := by
    refine run_keepsUp (runner_keepsUp session.callback session.depth) session.program _
      ⟨⟨World.clean_initial session.sources, nofun⟩, .refl _⟩
  have last : session.last.world.InOrder :=
    (runWith_proceeds session.callback.watched session.depth session.program.watched
      session.sources ⟨session.client, []⟩).inOrder
  rcases List.mem_cons.1 among with rfl | asked
  · exact last
  · obtain ⟨step, taken, rfl⟩ := List.mem_map.1 asked
    have suffix := ((List.pairwise_cons.1 session.pairwise_endures).1 step.world asked).journal
    exact clean.inOrder (current.steps step taken) fun moment earlier within =>
      last.lawful moment earlier (within.trans suffix)

namespace World

/-- A world on the way of a session: one that is met, or what loading and linking have made of one
that is. -/
def Passed (world : World) : Prop := ∃ start : World, start.Met ∧ start.Lasts world

variable {world : World}

theorem Met.passed (met : world.Met) : world.Passed :=
  ⟨world, met, met.clean.sound, .refl world, fun vetted => vetted, fun _ _ underWay => underWay⟩

theorem Passed.inOrder (passed : world.Passed) : world.InOrder := by
  obtain ⟨start, met, lasts⟩ := passed
  exact lasts.inOrder met.inOrder

theorem Passed.clean (passed : world.Passed) : world.Clean := by
  obtain ⟨start, met, lasts⟩ := passed
  exact lasts.clean met.clean

end World
end JavaMachine

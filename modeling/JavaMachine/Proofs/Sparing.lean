import JavaMachine.Proofs.Session
import JavaMachine.Proofs.Undisturbed

/-!
# Sessions that spare directories

As long as nobody enters classes into directories or shuts the machine down, the worlds that are met
are intact, their pools remember nothing but what constants mean, names go on standing for what they
stood for, and what has been resolved stays resolved.
-/

namespace JavaMachine
namespace World

variable {world middle later : World}

/-- An intact world whose pools remember what constants mean. -/
structure Faithful (world : World) : Prop extends world.Intact where
  known : world.ConstantsKnown

theorem Faithful.versed (faithful : world.Faithful) (clean : world.Clean) : world.Versed :=
  ⟨faithful.sound, clean.vetted, faithful.regular, faithful.known⟩

/-- Names go on standing for what they stood for, and what has been resolved stays resolved. -/
structure Upholds (world later : World) : Prop where
  retains : world.Retains later
  remembers : world.Remembers later

instance : Bond Upholds where
  refl world := ⟨.refl world, .refl world⟩
  trans first second :=
    ⟨first.retains.trans second.retains, first.remembers.trans second.remembers⟩

theorem Faithful.of_sparing (faithful : world.Faithful) (sparing : world.Sparing later)
    (recollects : world.Retains later → world.Recollects later) :
    later.Faithful ∧ world.Upholds later := by
  obtain ⟨intact, retains⟩ := sparing faithful.toIntact
  have recollects := recollects retains
  exact ⟨⟨intact, recollects.known⟩, retains, recollects.remembers⟩

theorem Faithful.develops (faithful : world.Faithful) (clean : world.Clean)
    (develops : world.Develops later) : later.Faithful ∧ world.Upholds later :=
  faithful.of_sparing (Course.develop fun _ _ => develops) fun _ =>
    develops.recollects (faithful.versed clean)

instance : Steady Upholds Faithful where
  works clean works faithful := faithful.develops clean works.toDevelops
  note {world} id occurrence _ faithful :=
    faithful.of_sparing (Course.Transits.note world id occurrence) fun retains =>
      faithful.known.recollects faithful.sound retains fun _ _ _ => rfl
  move {world id state} _ moves faithful :=
    faithful.of_sparing (Course.Transits.move world id state moves) fun retains =>
      faithful.known.recollects faithful.sound retains fun other =>
        resolved?_withState world id other state

theorem faithful_initial (sources : List Source) : (World.initial sources).Faithful where
  toIntact := intact_initial sources
  known id kind index result resolved := by
    cases resolved

end World

/-- Nothing was asked for that interferes with directories. -/
def Session.Spares (session : Session) : Prop :=
  session.Abides fun _ operation => ¬ operation.Rebinds

/-- Nothing is to be kept where directories are spared. -/
theorem rebindsKeep_spared (bond : World → World → Prop) (holds : World → Prop) :
    RebindsKeep bond (fun _ operation => ¬ operation.Rebinds) holds := by
  intro Client run operation rebinds machine allowed
  exact absurd rebinds allowed

namespace Session.Spares

variable {session : Session} {world : World}

theorem joins (spares : session.Spares) : Joins World.Upholds World.Faithful
    (World.initial session.sources) session.steps session.last.world :=
  Session.joins_of_abides
    (storesKeep_of_develops fun clean develops faithful => faithful.develops clean develops)
    (rebindsKeep_spared _ _) spares (World.faithful_initial session.sources)

theorem faithful (spares : session.Spares) (among : world ∈ session.worlds) : world.Faithful :=
  (spares.joins.holds_of_mem_worlds world among).holds

theorem versed (spares : session.Spares) (among : world ∈ session.worlds) : world.Versed :=
  (spares.faithful among).versed (spares.joins.holds_of_mem_worlds world among).clean

theorem upholds (spares : session.Spares) {step : Step} (since : session.Since step world) :
    step.left.Upholds world :=
  spares.joins.bound_of_since since

end Session.Spares
end JavaMachine

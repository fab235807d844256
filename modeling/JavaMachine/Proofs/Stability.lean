import JavaMachine.Proofs.Undisturbed

/-!
# Stability of names

Every loader that is asked for a class has its answer entered, whoever asked and whatever came of
it. A class that a loader has given once it gives ever after: a name leads on to where it has led,
and a loader that leads to a class finds it.
-/

namespace JavaMachine
namespace World

variable {world later : World} {loader : LoaderId} {name : String} {id : ClassId}

/-! ### What is entered -/

/-- The request is a request to the loader for the name, whose outcome is entered when it is known.
-/
def Answered (loader : LoaderId) (name : String) (request : WorldM (Option ClassId)) : Prop :=
  ∀ world : World, (runFrom world request).2.answers.back? =
    some ⟨loader, name, world.answers.size, (runFrom world request).1⟩

theorem answered_answering (loader : LoaderId) (name : String)
    (request : WorldM (Option ClassId)) :
    Answered loader name (answering loader name request) := by
  intro world
  rw [runFrom_answering]
  exact Array.back?_push

theorem answered_loadNamed (define : Load) (loader : LoaderId) (name : String) :
    Answered loader name (loadNamed define loader name) := by
  intro world
  rw [loadNamed, runFrom_bind_ok runFrom_get]
  exact answered_answering loader name _ world

theorem answered_loadAny (define : Load) (limit : Nat) (loader : LoaderId) (name : String) :
    Answered loader name (loadAny define limit loader name) := by
  cases limit with
  | zero => exact answered_loadNamed define loader name
  | succ limit =>
      rw [loadAny]
      split
      · exact answered_answering loader name _
      · exact answered_loadNamed define loader name

theorem answered_load (loader : LoaderId) (name : String) :
    Answered loader name (load loader name) := by
  intro world
  rw [load, runFrom_bind_ok runFrom_get]
  cases world.definitionLimit with
  | zero => exact answered_loadAny _ _ loader name world
  | succ depth => exact answered_loadAny _ _ loader name world

/-! ### What is given again -/

/-- A class that a loader has given it gives again. -/
theorem Intact.load_again (intact : world.Intact) (sparing : world.Sparing later)
    {answer : LoaderAnswer} (given : answer ∈ world.answers)
    (found : answer.outcome = .ok (some id)) :
    (runFrom later (load answer.loader answer.name)).1 = .ok (some id) := by
  obtain ⟨place, _, entered⟩ := Array.mem_iff_getElem.1 given
  have leads := intact.regular.recalls.leads place answer id
    (Array.getElem?_eq_some_iff.2 ⟨_, entered⟩) found
  obtain ⟨intactLater, retains⟩ := sparing intact
  have finding := load_finds answer.loader answer.name later intactLater.sound
  exact finding.again intactLater.regular id (leads.mono intact.sound retains)

/-- What a loader comes to answer is entered. A class that it has once given for a name it has given
whenever it was asked for the name afterwards, in the course of whatever else, and gives again after
whatever else is done. -/
theorem load_stable (undisturbed : world.Undisturbed) :
    (∀ loader name, Answered loader name (load loader name)) ∧
    (∀ (before place : Nat) (earlier answer : LoaderAnswer),
      world.answers[before]? = some earlier → world.answers[place]? = some answer →
        before < answer.earlier → earlier.loader = answer.loader → earlier.name = answer.name →
          ∀ id, earlier.outcome = .ok (some id) → answer.outcome = .ok (some id)) ∧
    ∀ answer ∈ world.answers, ∀ id, answer.outcome = .ok (some id) →
      ∀ later, world.Continues later → answer ∈ later.answers ∧
        (runFrom later (load answer.loader answer.name)).1 = .ok (some id) := by
  have intact := undisturbed.intact
  refine ⟨answered_load, ?meanwhile, ?afterwards⟩
  case meanwhile =>
    intro before place earlier answer entered enteredToo isEarlier
    exact intact.regular.recalls.agree place answer enteredToo before earlier isEarlier entered
  case afterwards =>
    intro answer given id found later continues
    obtain ⟨place, present, entered⟩ := Array.mem_iff_getElem.1 given
    have retained := (continues.sparing intact).2.answers place answer
      (Array.getElem?_eq_some_iff.2 ⟨present, entered⟩)
    exact ⟨Array.mem_of_getElem? retained, intact.load_again continues.sparing given found⟩

end World

namespace Layered

set_option maxRecDepth 20000 in
/-- The loader gives the array class when it is asked for the first time, and it is asked again. -/
theorem answers : (world.answers[11]?.map fun answer =>
      (answer.loader, answer.name, answer.outcome.toOption)) =
        some (loader, "[LSquare;", some (some squares)) ∧
    (world.answers[24]?.map fun answer => (answer.loader, answer.name, answer.earlier)) =
      some (loader, "[LSquare;", 24) := by
  decide +kernel

end Layered

namespace World

/-- Whenever the loader is asked for the array class again, it is the one that it has given. -/
theorem load_stable_layered : Layered.world.Undisturbed ∧
    (∃ answer, Layered.world.answers[24]? = some answer ∧
      answer.outcome = .ok (some Layered.squares)) ∧
    (runFrom Layered.world (load Layered.loader "[LSquare;")).1 = .ok (some Layered.squares) := by
  obtain ⟨_, meanwhile, afterwards⟩ := load_stable Layered.undisturbed
  obtain ⟨first, again⟩ := Layered.answers
  obtain ⟨earlier, entered, same⟩ := Option.map_eq_some_iff.1 first
  obtain ⟨answer, enteredToo, sameToo⟩ := Option.map_eq_some_iff.1 again
  simp only [Prod.mk.injEq] at same sameToo
  have found : earlier.outcome = .ok (some Layered.squares) := by
    cases outcome : earlier.outcome with
    | error error => simp [outcome, Except.toOption] at same
    | ok found => simpa [outcome, Except.toOption] using same.2.2
  obtain ⟨_, finds⟩ := afterwards earlier (Array.mem_of_getElem? entered) _ found
    Layered.world (.refl Layered.world)
  rw [same.1, same.2.1] at finds
  refine ⟨Layered.undisturbed, ⟨answer, enteredToo, ?_⟩, finds⟩
  exact meanwhile 11 24 earlier answer entered enteredToo (by omega)
    (same.1.trans sameToo.1.symm) (same.2.1.trans sameToo.2.1.symm) _ found

end World
end JavaMachine

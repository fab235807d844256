import JavaMachine.World
import Mathlib.Order.Defs.Unbundled

/-!
# Computations and the relations they follow

A computation ends in a state whether or not it fails. What it does to the state is told by a
transitive relation between the states before and after, so that it composes along binds; what its
result is worth is told by a postcondition.
-/

namespace JavaMachine

variable {σ α β : Type}

/-- The outcome of a computation, and the state in which it ends. -/
def runFrom (start : σ) (action : ExceptT Error (StateM σ) α) : Except Error α × σ := action start

/-! ### How a computation goes on -/

section Running

variable {action : ExceptT Error (StateM σ) α} {next : α → ExceptT Error (StateM σ) β}
variable {handler : Error → ExceptT Error (StateM σ) α}
variable {start later : σ} {result : α} {error : Error}

@[simp] theorem runFrom_get : runFrom start get = (.ok start, start) := rfl

@[simp] theorem runFrom_modify {change : σ → σ} :
    runFrom start (modify change : ExceptT Error (StateM σ) PUnit) = (.ok ⟨⟩, change start) := rfl

theorem runFrom_modifyGet_bind {change : σ → α × σ} :
    runFrom start (modifyGet change >>= next) =
      runFrom (change start).2 (next (change start).1) := rfl

theorem runFrom_bind_ok (first : runFrom start action = (.ok result, later)) :
    runFrom start (action >>= next) = runFrom later (next result) := by
  change ExceptT.bindCont next (runFrom start action).1 (runFrom start action).2 = _
  rw [first]
  rfl

/-- A computation whose outcome is known ends in the state in which it ends. -/
theorem runFrom_eq_of_outcome {outcome : Except Error α}
    (known : (runFrom start action).1 = outcome) :
    runFrom start action = (outcome, (runFrom start action).2) :=
  Prod.ext known rfl

theorem runFrom_bind_of_outcome (first : (runFrom start action).1 = .ok result) :
    runFrom start (action >>= next) = runFrom (runFrom start action).2 (next result) :=
  runFrom_bind_ok (runFrom_eq_of_outcome first)

theorem runFrom_bind_error (first : runFrom start action = (.error error, later)) :
    runFrom start (action >>= next) = (.error error, later) := by
  change ExceptT.bindCont next (runFrom start action).1 (runFrom start action).2 = _
  rw [first]
  rfl

/-- A computation that comes to a result has come to one in its first part. -/
theorem exists_of_bind_ok {final : β}
    (ends : runFrom start (action >>= next) = (.ok final, later)) :
    ∃ result middle, runFrom start action = (.ok result, middle) ∧
      runFrom middle (next result) = (.ok final, later) := by
  rcases first : runFrom start action with ⟨error | result, middle⟩
  · rw [runFrom_bind_error first] at ends
    cases ends
  · rw [runFrom_bind_ok first] at ends
    exact ⟨result, middle, rfl, ends⟩

/-- What comes to a result past a guard was let through. -/
theorem ok_of_guard {refused : Prop} [Decidable refused]
    (ends : runFrom start (if refused then throw error else action) = (.ok result, later)) :
    ¬ refused ∧ runFrom start action = (.ok result, later) := by
  split at ends
  · cases ends
  next passed => exact ⟨passed, ends⟩

theorem ok_of_ofExcept {outcome : Except Error α}
    (ends : runFrom start (ofExcept outcome) = (.ok result, later)) :
    outcome = .ok result ∧ start = later := by
  cases outcome with
  | error error => cases ends
  | ok known =>
      cases ends
      exact ⟨rfl, rfl⟩

theorem runFrom_tryCatch_ok (tried : runFrom start action = (.ok result, later)) :
    runFrom start (tryCatch action handler) = (.ok result, later) := by
  change ExceptT.tryCatch action handler start = _
  simp only [runFrom] at tried
  simp only [ExceptT.tryCatch, ExceptT.mk, bind, StateT.bind]
  rw [tried]
  rfl

theorem runFrom_tryCatch_error (tried : runFrom start action = (.error error, later)) :
    runFrom start (tryCatch action handler) = runFrom later (handler error) := by
  change ExceptT.tryCatch action handler start = _
  simp only [runFrom] at tried
  simp only [ExceptT.tryCatch, ExceptT.mk, bind, StateT.bind]
  rw [tried]
  rfl

end Running

/-! ### Where a computation ends -/

/-- The computation leads along the relation, even where it fails, to results as `post` says. -/
structure Ends (relation : σ → σ → Prop) (start : σ) (action : ExceptT Error (StateM σ) α)
    (post : α → σ → Prop) : Prop where
  leads : relation start (runFrom start action).2
  gives : ∀ result, (runFrom start action).1 = .ok result → post result (runFrom start action).2

namespace Ends

variable {relation : σ → σ → Prop} {start : σ} {post : α → σ → Prop} {goal : β → σ → Prop}
variable {action : ExceptT Error (StateM σ) α} {next : α → ExceptT Error (StateM σ) β}

theorem of_ok {result : α} {later : σ} (ends : runFrom start action = (.ok result, later))
    (leads : relation start later) (holds : post result later) :
    Ends relation start action post := by
  constructor
  · rw [ends]
    exact leads
  · intro other same
    rw [ends] at same ⊢
    cases same
    exact holds

theorem of_error {error : Error} {later : σ} (ends : runFrom start action = (.error error, later))
    (leads : relation start later) : Ends relation start action post := by
  constructor
  · rw [ends]
    exact leads
  · intro other same
    rw [ends] at same
    cases same

/-- What is known of a computation that came to a result. -/
theorem ok {result : α} {later : σ} (known : Ends relation start action post)
    (ends : runFrom start action = (.ok result, later)) :
    relation start later ∧ post result later := by
  have leads := known.leads
  have holds := known.gives result
  rw [ends] at leads holds
  exact ⟨leads, holds rfl⟩

/-- What is known of a computation that failed. -/
theorem error {error : Error} {later : σ} (known : Ends relation start action post)
    (ends : runFrom start action = (.error error, later)) : relation start later := by
  have leads := known.leads
  rwa [ends] at leads

theorem pure {result : α} (stays : relation start start) (holds : post result start) :
    Ends relation start (pure result) post :=
  of_ok rfl stays holds

theorem throw {error : Error} (stays : relation start start) :
    Ends relation start (throw error : ExceptT Error (StateM σ) α) post :=
  of_error rfl stays

theorem modify {change : σ → σ} (leads : relation start (change start)) :
    Ends relation start (modify change : ExceptT Error (StateM σ) PUnit) fun _ later =>
      later = change start :=
  of_ok rfl leads rfl

theorem set {other : σ} (leads : relation start other) :
    Ends relation start (set other : ExceptT Error (StateM σ) PUnit) fun _ later =>
      later = other :=
  of_ok rfl leads rfl

theorem modifyGet {change : σ → α × σ} (leads : relation start (change start).2) :
    Ends relation start (modifyGet change) fun result later =>
      result = (change start).1 ∧ later = (change start).2 :=
  of_ok rfl leads ⟨rfl, rfl⟩

/-- Reading the state goes on with the state as it is. -/
theorem bindGet {next : σ → ExceptT Error (StateM σ) β}
    (rest : Ends relation start (next start) goal) : Ends relation start (get >>= next) goal :=
  ⟨rest.leads, rest.gives⟩

theorem mono {other : α → σ → Prop} (ends : Ends relation start action post)
    (implies : ∀ result later, post result later → other result later) :
    Ends relation start action other :=
  ⟨ends.leads, fun result same => implies _ _ (ends.gives result same)⟩

/-- Where the relation leads another one leads as well. -/
theorem relax {other : σ → σ → Prop} (ends : Ends relation start action post)
    (implies : ∀ later, relation start later → other start later) :
    Ends other start action post :=
  ⟨implies _ ends.leads, ends.gives⟩

/-- The relation leads to the state in which a result is given. -/
theorem withLeads (ends : Ends relation start action post) :
    Ends relation start action fun result later => relation start later ∧ post result later :=
  ⟨ends.leads, fun result same => ⟨ends.leads, ends.gives result same⟩⟩

variable [IsTrans σ relation]

theorem bind (first : Ends relation start action post)
    (rest : ∀ result later, relation start later → post result later →
      Ends relation later (next result) goal) :
    Ends relation start (action >>= next) goal := by
  rcases ends : runFrom start action with ⟨error | result, later⟩
  · exact of_error (runFrom_bind_error ends) (first.error ends)
  · obtain ⟨leads, holds⟩ := first.ok ends
    have second := rest _ _ leads holds
    constructor
    · rw [runFrom_bind_ok ends]
      exact IsTrans.trans _ _ _ leads second.leads
    · rw [runFrom_bind_ok ends]
      exact second.gives

end Ends
end JavaMachine

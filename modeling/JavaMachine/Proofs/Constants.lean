import JavaMachine.Proofs.Retrial

/-!
# The pool as a cache

In worlds that know their constants a lookup gives what the constant means whenever it means
something, no matter what the pool remembers. Remembering is therefore transparent: what has been
looked up before comes out of the pool as it would come of a new lookup. Failures are not
remembered, but they recur.
-/

namespace JavaMachine.World

variable {world later : World} {id : ClassId} {kind : ConstantKind} {index : UInt16}
variable {result : kind.Meaning}

/-! ### What the pool remembers makes no difference -/

/-- The change makes a pool remember nothing that it has not remembered before. -/
def Forgets (change : ResolvedPool → ResolvedPool) : Prop :=
  ∀ pool kind index result, (change pool).find? kind index = some result →
    pool.find? kind index = some result

/-- A world that forgets knows its constants still. -/
theorem Versed.changePool (versed : world.Versed) {change : ResolvedPool → ResolvedPool}
    (forgets : Forgets change) : (world.changePool id change).Versed where
  sound := (keeps_changePool world id change).sound versed.sound
  vetted := versed.vetted.changePool fun pool attached kind index result resolved =>
    have entry := forgets pool kind index result resolved
    have vets := versed.vetted.classes id
    ⟨vets.constants pool attached kind index result entry, fun file declared =>
      vets.reads file declared pool attached kind index result entry⟩
  regular := by
    have keeps := keeps_changePool world id change
    exact versed.regular.of_lasting versed.sound keeps.lasting keeps.objects keeps.loaders
      keeps.answers keeps.strings
  known other kind index result resolved := by
    have before : world.resolved? other kind index = some result := by
      rw [resolved?_changePool] at resolved
      split at resolved
      · obtain ⟨pool, attached, entry⟩ := Option.bind_eq_some_iff.1 resolved
        exact Option.bind_eq_some_iff.2 ⟨pool, attached, forgets pool kind index result entry⟩
      · exact resolved
    obtain ⟨usable, means⟩ := versed.known other kind index result before
    have retains := retains_changePool world id change
    exact ⟨retains.usable.isUsable usable, means.mono versed.sound retains usable⟩

section Cached

variable (versed : world.Versed)
include versed

/-- What is remembered is a result for the constant that stands at the index. -/
theorem Versed.constantAt (resolved : world.resolved? id kind index = some result) :
    (world.type id).pool?.isSome ∧
      ∃ constant, world.constantAt id index = .ok constant ∧ constant.tag = kind.tag := by
  obtain ⟨pool, attached, _⟩ := Option.bind_eq_some_iff.1 resolved
  obtain ⟨_, file, constant, declared, found, denotes⟩ := versed.known id kind index result resolved
  have attached := Option.isSome_of_eq_some attached
  exact ⟨attached, constant, constantAt_eq_ok.2 ⟨file, declared, attached, found⟩, denotes.tag_eq⟩

end Cached

end JavaMachine.World

namespace JavaMachine

/-! ### Sessions -/

namespace Retried

def sources : List Source :=
  [.holding [("java/lang/Object", .withoutMembers 0x0021 "java/lang/Object" "" [])]]

/-- A class with a constant for another one, which cannot be linked. -/
def first : Source :=
  let user : ClassFile := .withoutMembers 0x0021 "User" "java/lang/Object" []
  .holding
    [("User", { user with
      pool := user.pool ++ [.utf8 (Text.ModifiedUtf8.encode "Part"), .classRef 5] }),
    ("Part", .withoutMembers 0x0021 "Part" "Missing" [])]

/-- A class of the same name that can be linked. -/
def second : Source := .holding [("Part", .withoutMembers 0x0021 "Part" "java/lang/Object" [])]

def user : ClassId := ⟨0⟩
def root : ClassId := ⟨1⟩
def part : ClassId := ⟨3⟩

def before : List Operation := [.addLoader "first" .bootstrap [first], .load ⟨1⟩ "User"]

/-- Another loader gets the class of the name. -/
def meanwhile : List Operation :=
  [.addLoader "second" .bootstrap [second], .load ⟨2⟩ "Part"]

/-- The superclass of `User` is looked up, and then the class that cannot be linked. -/
def operations : List Operation :=
  before ++ .resolve user .classRef 4 :: .resolve user .classRef 6 :: meanwhile

theorem operations_eq : operations =
    (before ++ [.resolve user .classRef 4]) ++ .resolve user .classRef 6 :: meanwhile := rfl

def session : Session := .inOrder sources operations

/-- The world in which the superclass is looked up. -/
def early : World := (World.initial sources).after before

/-- The world in which the other class is looked up. -/
def next : World := (World.initial sources).after (before ++ [.resolve user .classRef 4])

/-- The world after that. -/
def last : World := (World.initial sources).after operations

theorem plain : ∀ operation ∈ operations, operation.runsMethods = false := by
  simp [operations, before, meanwhile, Operation.runsMethods]

theorem spares : session.Spares := by
  refine Session.abides_inOrder plain fun operation among world => ?_
  simp only [operations, before, meanwhile, List.cons_append, List.nil_append, List.mem_cons,
    List.not_mem_nil, or_false] at among
  rcases among with rfl | rfl | rfl | rfl | rfl | rfl <;> exact not_false

theorem taken : ⟨early, .resolve user .classRef 4⟩ ∈ session.steps :=
  Session.mem_steps_inOrder sources before _ (.resolve user .classRef 4) plain

theorem since : session.Since ⟨early, .resolve user .classRef 4⟩ last :=
  Session.since_inOrder sources before _ (.resolve user .classRef 4) plain

theorem takenNext : ⟨next, .resolve user .classRef 6⟩ ∈ session.steps := by
  have plain := plain
  rw [operations_eq] at plain
  rw [session, operations_eq]
  exact Session.mem_steps_inOrder sources _ meanwhile (.resolve user .classRef 6) plain

set_option maxRecDepth 20000

theorem finds : (runFrom early (World.resolve user .classRef 4)).1 = .ok root ∧
    (last.type user).linkage?.isSome ∧
    (last.type user).file?.bind (fun file => file.constant? 4) = some (.classRef 3) := by
  decide +kernel

theorem fails : (next.type user).linkage?.isSome ∧
    (runFrom next (World.resolve user .classRef 6)).1 =
      .error (.linkage (.classNotFound "Missing")) ∧
    last.findLoaded ⟨2⟩ "Part" = some part ∧ (last.type part).linkage?.isSome := by
  decide +kernel

end Retried

end JavaMachine

import JavaMachine.Proofs.Definitions

/-!
# The directory of a loader

A directory is asked for classes, classes are entered into it, and names are defined in it. A name
is open until a class is entered under it or its definition comes to an end, which may be that there
is no class. What it is settled to is then neither defined nor entered anew.
-/

namespace JavaMachine

/-- What is asked of the directory of a loader. -/
inductive DirectoryCall where
  | find (name : String)
  | register (id : ClassId)
  | getOrDefine (name : String) (definer : WorldM (Option ClassId))

namespace World

/-- The directory of the loader is that of the other world. -/
structure SameDirectory (loader : LoaderId) (world later : World) : Prop where
  hasLoader : later.HasLoader loader ↔ world.HasLoader loader
  directory : (later.loader loader).directory = (world.loader loader).directory

/-- The definer does nothing to the directory of the loader. -/
def Spares (loader : LoaderId) (definer : WorldM (Option ClassId)) : Prop :=
  ∀ world, SameDirectory loader world (runFrom world definer).2

end World

namespace DirectoryCall

/-- The call as a computation. -/
def run (loader : LoaderId) : DirectoryCall → WorldM (Option ClassId)
  | find name => return (← get).findLoaded loader name
  | register id => do
      World.register loader id
      return some id
  | getOrDefine name definer => World.getOrDefine loader name definer

/-- The definer of the call, if it has one, does nothing to the directory itself. -/
def Plain (loader : LoaderId) : DirectoryCall → Prop
  | getOrDefine _ definer => World.Spares loader definer
  | _ => True

end DirectoryCall

namespace World

variable {world later : World} {loader : LoaderId} {name other : String} {id : ClassId}
variable {found : Option ClassId} {definer : WorldM (Option ClassId)} {call : DirectoryCall}
variable {calls : List DirectoryCall}

/-- The world after calls, which may have failed. -/
def afterCalls (loader : LoaderId) (world : World) : List DirectoryCall → World
  | [] => world
  | call :: rest => afterCalls loader (runFrom world (call.run loader)).2 rest

/-- The call defines the name while there is no class for it, with a definer that finds nothing. -/
def Misses (loader : LoaderId) (name : String) (world : World) (call : DirectoryCall) : Prop :=
  ∃ definer, call = .getOrDefine name definer ∧ world.findLoaded loader name = none ∧
    (runFrom (world.starting loader name) definer).1 = .ok none

/-- Among the calls there is one whose definer finds nothing for the name. The first such call runs
its definer. -/
def FoundNothing (loader : LoaderId) (name : String) (world : World) : List DirectoryCall → Prop
  | [] => False
  | call :: rest => Misses loader name world call ∨
      FoundNothing loader name (runFrom world (call.run loader)).2 rest

/-! ### One call -/

theorem SameDirectory.settled?_eq (same : SameDirectory loader world later) (name : String) :
    later.settled? loader name = world.settled? loader name := by
  rw [settled?, settled?, same.directory]

/-- The loader is there and no definition in its directory is under way. -/
structure Rests (loader : LoaderId) (world : World) : Prop where
  hasLoader : world.HasLoader loader
  idle : (world.loader loader).directory.defining = []

theorem Rests.not_defining (rests : Rests loader world) : ¬ world.Defining loader name := by
  rw [Defining, rests.idle]
  exact List.not_mem_nil

theorem runFrom_register_open (undecided : world.settled? loader (world.type id).name = none) :
    runFrom world (register loader id) = (.ok (), world.modifyDirectory loader fun directory =>
      directory.settle (world.type id).name (some id)) := by
  rw [settled?] at undecided
  rw [register, runFrom_bind_ok runFrom_get]
  dsimp only
  rw [undecided]
  rfl

theorem runFrom_register_known (known : world.settled? loader (world.type id).name = some found) :
    runFrom world (register loader id) = (if found = some id then .ok () else
      .error (.linkage (.duplicateClass (world.type id).name)), world) := by
  rw [settled?] at known
  rw [register, runFrom_bind_ok runFrom_get]
  dsimp only
  rw [known]
  dsimp only
  split <;> rfl

/-- The directory in which the definition of a name has come to its end, and the marks are as before
it. -/
theorem directory_settling (same : SameDirectory loader (world.starting loader name) later)
    (present : world.HasLoader loader) :
    ((later.settling loader name found).loader loader).directory =
      (world.loader loader).directory.settle name found := by
  have there : later.HasLoader loader := same.hasLoader.2 (hasLoader_modifyDirectory.2 present)
  rw [settling, loader_modifyDirectory, if_pos ⟨rfl, there⟩, same.directory, starting,
    loader_modifyDirectory, if_pos ⟨rfl, present⟩]
  simp [Directory.start, Directory.stop]

theorem directory_stopping (same : SameDirectory loader (world.starting loader name) later)
    (present : world.HasLoader loader) :
    SameDirectory loader world (later.stopping loader name) := by
  have there : later.HasLoader loader := same.hasLoader.2 (hasLoader_modifyDirectory.2 present)
  constructor
  · exact iff_of_true (hasLoader_modifyDirectory.2 there) present
  · rw [stopping, loader_modifyDirectory, if_pos ⟨rfl, there⟩, same.directory, starting,
      loader_modifyDirectory, if_pos ⟨rfl, present⟩]
    simp [Directory.start, Directory.stop]

/-- The directory comes to have one more settled name. -/
structure Enters (loader : LoaderId) (name : String) (found : Option ClassId)
    (world later : World) : Prop where
  undecided : world.settled? loader name = none
  hasLoader : later.HasLoader loader
  directory : (later.loader loader).directory = (world.loader loader).directory.settle name found

theorem Enters.settled?_eq (enters : Enters loader name found world later) :
    later.settled? loader other =
      if name = other then some found else world.settled? loader other := by
  rw [settled?, enters.directory]
  exact Table.find?_insert ..

theorem register_enters (present : world.HasLoader loader)
    (undecided : world.settled? loader (world.type id).name = none) :
    Enters loader (world.type id).name (some id) world (runFrom world (register loader id)).2 := by
  rw [runFrom_register_open undecided]
  refine ⟨undecided, hasLoader_modifyDirectory.2 present, ?_⟩
  rw [loader_modifyDirectory, if_pos ⟨rfl, present⟩]

/-- Where a name is open its definer is run, and the answer is what the definer has found. A failure
leaves the directory as it was. -/
theorem getOrDefine_enters (rests : Rests loader world) (spares : Spares loader definer)
    (undecided : world.settled? loader name = none) :
    (runFrom world (getOrDefine loader name definer)).1 =
        (runFrom (world.starting loader name) definer).1 ∧
      match (runFrom (world.starting loader name) definer).1 with
      | .ok found => Enters loader name found world (runFrom world (getOrDefine loader name definer)).2
      | .error _ => SameDirectory loader world (runFrom world (getOrDefine loader name definer)).2 := by
  have same := spares (world.starting loader name)
  rw [runFrom_getOrDefine_open undecided rests.not_defining]
  rcases ran : runFrom (world.starting loader name) definer with ⟨error | found, defined⟩
  all_goals rw [ran] at same
  · exact ⟨rfl, directory_stopping same rests.hasLoader⟩
  · exact ⟨rfl, undecided, hasLoader_modifyDirectory.2
      (same.hasLoader.2 (hasLoader_modifyDirectory.2 rests.hasLoader)),
      directory_settling same rests.hasLoader⟩

/-- What a call does to the directory. What is settled stays, and a name comes to be settled to
nothing only where a definer finds nothing. -/
structure Advances (loader : LoaderId) (world : World) (call : DirectoryCall) (later : World) :
    Prop where
  rests : Rests loader later
  retains : ∀ {name found}, world.settled? loader name = some found →
    later.settled? loader name = some found
  misses : ∀ name, later.settled? loader name = some none ↔
    world.settled? loader name = some none ∨ Misses loader name world call

theorem SameDirectory.advances (same : SameDirectory loader world later)
    (rests : Rests loader world)
    (known : ∀ name, Misses loader name world call → world.settled? loader name = some none) :
    Advances loader world call later where
  rests := ⟨same.hasLoader.2 rests.hasLoader, same.directory ▸ rests.idle⟩
  retains settled := (same.settled?_eq _).trans settled
  misses name := by
    rw [same.settled?_eq]
    exact ⟨.inl, fun either => either.elim id (known name)⟩

theorem Enters.advances (enters : Enters loader name found world later)
    (rests : Rests loader world)
    (misses : ∀ other, Misses loader other world call ↔ name = other ∧ found = none) :
    Advances loader world call later where
  rests := ⟨enters.hasLoader, by rw [enters.directory]; exact rests.idle⟩
  retains {other _} settled := by
    have distinct : name ≠ other := by
      rintro rfl
      rw [enters.undecided] at settled
      cases settled
    rw [enters.settled?_eq, if_neg distinct, settled]
  misses other := by
    rw [enters.settled?_eq, misses]
    split
    next same =>
      subst same
      simp [enters.undecided]
    next distinct => simp [distinct]

theorem misses_getOrDefine (undecided : world.settled? loader name = none)
    (definer : WorldM (Option ClassId)) (other : String) :
    Misses loader other world (.getOrDefine name definer) ↔ name = other ∧
      (runFrom (world.starting loader name) definer).1 = .ok none := by
  constructor
  · rintro ⟨_, same, _, missed⟩
    cases same
    exact ⟨rfl, missed⟩
  · rintro ⟨rfl, missed⟩
    exact ⟨definer, rfl, by rw [findLoaded, Directory.find?, ← settled?, undecided]; rfl, missed⟩

theorem settled?_eq_of_misses (missed : Misses loader other world (.getOrDefine name definer))
    (settled : world.settled? loader name = some found) :
    world.settled? loader other = some none := by
  obtain ⟨_, same, unfound, _⟩ := missed
  cases same
  cases found with
  | none => exact settled
  | some id =>
      rw [findLoaded_eq_some.2 settled] at unfound
      cases unfound

theorem snd_run_register :
    (runFrom world ((DirectoryCall.register id).run loader)).2 =
      (runFrom world (register loader id)).2 := by
  rcases ends : runFrom world (register loader id) with ⟨error | _, later⟩
  · exact congrArg Prod.snd (runFrom_bind_error ends)
  · exact congrArg Prod.snd (runFrom_bind_ok ends)

theorem advances_call (rests : Rests loader world) (plain : call.Plain loader) :
    Advances loader world call (runFrom world (call.run loader)).2 := by
  cases call with
  | find name => exact SameDirectory.advances ⟨.rfl, rfl⟩ rests nofun
  | register id =>
      rw [snd_run_register]
      cases settled : world.settled? loader (world.type id).name with
      | none =>
          refine (register_enters rests.hasLoader settled).advances rests fun other => ?_
          simp [Misses]
      | some found =>
          rw [runFrom_register_known settled]
          exact SameDirectory.advances ⟨.rfl, rfl⟩ rests nofun
  | getOrDefine name definer =>
      rw [DirectoryCall.run]
      cases settled : world.settled? loader name with
      | some found =>
          rw [runFrom_getOrDefine settled]
          exact SameDirectory.advances ⟨.rfl, rfl⟩ rests fun other missed =>
            settled?_eq_of_misses missed settled
      | none =>
          obtain ⟨_, enters⟩ := getOrDefine_enters rests plain settled
          have misses := misses_getOrDefine settled definer
          cases ran : (runFrom (world.starting loader name) definer).1 with
          | error error =>
              rw [ran] at enters misses
              exact SameDirectory.advances enters rests fun other missed => by
                cases ((misses other).1 missed).2
          | ok found =>
              rw [ran] at enters misses
              refine Enters.advances enters rests fun other => (misses other).trans ?_
              simp

/-! ### Many calls -/

/-- Nothing is under way between the calls, and what they settle they settle once. -/
theorem advances_calls (plain : ∀ call ∈ calls, call.Plain loader) (rests : Rests loader world) :
    Rests loader (world.afterCalls loader calls) ∧
      (∀ name found, world.settled? loader name = some found →
        (world.afterCalls loader calls).settled? loader name = some found) ∧
      ∀ name, (world.afterCalls loader calls).settled? loader name = some none ↔
        world.settled? loader name = some none ∨ FoundNothing loader name world calls := by
  induction calls generalizing world with
  | nil => exact ⟨rests, fun _ _ => id, fun name => by simp [afterCalls, FoundNothing]⟩
  | cons call calls ih =>
      obtain ⟨first, others⟩ := List.forall_mem_cons.1 plain
      have advances := advances_call rests first
      obtain ⟨rests, retains, misses⟩ := ih others advances.rests
      refine ⟨rests, fun name found settled => retains name found (advances.retains settled),
        fun name => (misses name).trans ?_⟩
      rw [advances.misses, FoundNothing, or_assoc]

/-- There is no class for the name, and no definer has found nothing for it. -/
def Open (loader : LoaderId) (name : String) (world : World) (calls : List DirectoryCall) : Prop :=
  (world.afterCalls loader calls).findLoaded loader name = none ∧
    ¬ FoundNothing loader name world calls

theorem open_iff (undecided : world.settled? loader name = none)
    (misses : (world.afterCalls loader calls).settled? loader name = some none ↔
      world.settled? loader name = some none ∨ FoundNothing loader name world calls) :
    Open loader name world calls ↔ (world.afterCalls loader calls).settled? loader name = none := by
  have missed : FoundNothing loader name world calls ↔
      (world.afterCalls loader calls).settled? loader name = some none := by
    simp [misses, undecided]
  rw [Open, missed, findLoaded, Directory.find?, ← settled?]
  rcases (world.afterCalls loader calls).settled? loader name with _ | _ | id <;> simp

theorem register_spec (present : world.HasLoader loader) (id : ClassId)
    (named : (world.type id).name = name) :
    (world.settled? loader name = none ∨ world.findLoaded loader name = some id →
      (runFrom world (register loader id)).1 = .ok () ∧
        (runFrom world (register loader id)).2.findLoaded loader name = some id) ∧
    (¬ (world.settled? loader name = none ∨ world.findLoaded loader name = some id) →
      runFrom world (register loader id) = (.error (.linkage (.duplicateClass name)), world)) := by
  subst named
  cases settled : world.settled? loader (world.type id).name with
  | none =>
      have enters := register_enters present settled
      refine ⟨fun _ => ⟨by rw [runFrom_register_open settled], ?_⟩, fun other => by simp at other⟩
      exact findLoaded_eq_some.2 (by rw [enters.settled?_eq, if_pos rfl])
  | some found =>
      rw [runFrom_register_known settled, findLoaded_eq_some, settled]
      by_cases same : found = some id <;> simp [same]

theorem getOrDefine_spec (rests : Rests loader world) (name : String)
    (definer : WorldM (Option ClassId)) :
    (world.settled? loader name = none → Spares loader definer →
      (runFrom world (getOrDefine loader name definer)).1 =
          (runFrom (world.starting loader name) definer).1 ∧
        (∀ found, (runFrom world (getOrDefine loader name definer)).1 = .ok found →
          (runFrom world (getOrDefine loader name definer)).2.findLoaded loader name = found) ∧
        ∀ error, (runFrom world (getOrDefine loader name definer)).1 = .error error →
          SameDirectory loader world (runFrom world (getOrDefine loader name definer)).2) ∧
    (¬ world.settled? loader name = none →
      runFrom world (getOrDefine loader name definer) =
        (.ok (world.findLoaded loader name), world)) := by
  constructor
  · intro undecided spares
    obtain ⟨same, enters⟩ := getOrDefine_enters rests spares undecided
    refine ⟨same, fun found ends => ?_, fun error ends => ?_⟩
    · rw [← same, ends] at enters
      have entry : settled? _ loader name = some found :=
        (Enters.settled?_eq enters).trans (if_pos rfl)
      rw [findLoaded, Directory.find?, ← settled?, entry]
      rfl
    · rw [← same, ends] at enters
      exact enters
  · intro decided
    obtain ⟨found, settled⟩ := Option.ne_none_iff_exists'.1 decided
    rw [runFrom_getOrDefine settled, findLoaded, Directory.find?, ← settled?, settled]
    rfl

/-- A definer may also load through the same directory, as those of the loaders do, and settle other
names there. It cannot settle its own name, the definition of which is under way. It is run where
its name is open and the answer is what it has found, as if it spared the directory. The other names
are as it has left them, which a failure does not undo. -/
theorem getOrDefine_nested (present : world.HasLoader loader)
    (undecided : world.settled? loader name = none) (idle : ¬ world.Defining loader name)
    {outcome : Except Error (Option ClassId)} {defined : World}
    (ran : runFrom (world.starting loader name) definer = (outcome, defined))
    (settles : (world.starting loader name).Settles defined) :
    ∃ ended, runFrom world (getOrDefine loader name definer) = (outcome, ended) ∧
      world.Settles ended ∧ ended.settled? loader name = outcome.toOption ∧
      ∀ other, other ≠ name → ended.settled? loader other = defined.settled? loader other := by
  have opens := @runFrom_getOrDefine_open _ _ _ definer undecided idle
  have there : defined.HasLoader loader := settles.hasLoader_iff.2
    (hasLoader_modifyDirectory.2 present)
  rw [ran] at opens
  cases outcome with
  | error error =>
      refine ⟨_, opens, .of_definition undecided (fun _ _ _ => rfl) settles idle fun _ => rfl, ?_,
        fun other _ => settled?_stopping ..⟩
      rw [settled?_stopping, settled?_defined settles undecided]
      rfl
  | ok found =>
      have others (directory : Directory) (other : String) (distinct : other ≠ name) :
          ((directory.stop name).settle name found).entries.find? other =
            directory.entries.find? other := by
        simp [Directory.settle, Directory.stop, distinct.symm]
      refine ⟨_, opens, .of_definition undecided others settles idle fun _ => rfl,
        settled?_settling there, fun other distinct => ?_⟩
      rw [settling, settled?_modifyDirectory, if_pos ⟨rfl, there⟩, others _ _ distinct]
      rfl

/-- The definer of a loader for a declared class is such a definer: it loads what is above the
class, often by the same loader. -/
theorem settles_defineFrom {load : Load} (finds : load.Finds) (sound : world.Sound)
    (plain : name.toList.head? ≠ some '[') (present : world.HasLoader loader)
    (sources : List Source) : (world.starting loader name).Settles
      (runFrom (world.starting loader name) (defineFrom load loader name sources)).2 :=
  (defineFrom_ends finds plain sources (sound.starting loader name)
    fun _ => hasLoader_modifyDirectory.2 present).leads.settles

/-- After any calls on a new directory its names are settled as in a map. A class is entered if its
name is open or stands for the class, and else refused; it is then found. A definer is run exactly
if its name is open, and the answer is what it has found; a definer that fails leaves the directory
as it was. A class that is found under a name is found under it for ever. The definers of the calls
spare the directory; what holds for one that loads through it is said by `getOrDefine_nested`. -/
theorem directory_maps (present : world.HasLoader loader)
    (fresh : (world.loader loader).directory = {})
    (plain : ∀ call ∈ calls, call.Plain loader) {now : World}
    (after : world.afterCalls loader calls = now) :
    (∀ id name, (now.type id).name = name →
      ((Open loader name world calls ∨ now.findLoaded loader name = some id) →
        (runFrom now (register loader id)).1 = .ok () ∧
          (runFrom now (register loader id)).2.findLoaded loader name = some id) ∧
      (¬ (Open loader name world calls ∨ now.findLoaded loader name = some id) →
        runFrom now (register loader id) = (.error (.linkage (.duplicateClass name)), now))) ∧
    (∀ name definer,
      (Open loader name world calls → Spares loader definer →
        (runFrom now (getOrDefine loader name definer)).1 =
            (runFrom (now.starting loader name) definer).1 ∧
          (∀ found, (runFrom now (getOrDefine loader name definer)).1 = .ok found →
            (runFrom now (getOrDefine loader name definer)).2.findLoaded loader name = found) ∧
          ∀ error, (runFrom now (getOrDefine loader name definer)).1 = .error error →
            SameDirectory loader now (runFrom now (getOrDefine loader name definer)).2) ∧
      (¬ Open loader name world calls →
        runFrom now (getOrDefine loader name definer) =
          (.ok (now.findLoaded loader name), now))) ∧
    ∀ name id, now.findLoaded loader name = some id → ∀ more,
      (∀ call ∈ more, call.Plain loader) →
        (now.afterCalls loader more).findLoaded loader name = some id := by
  have undecided (name : String) : world.settled? loader name = none := by
    rw [settled?, fresh]
    rfl
  obtain ⟨rests, _, misses⟩ := advances_calls plain ⟨present, by rw [fresh]⟩
  have opens (name : String) := open_iff (undecided name) (misses name)
  rw [after] at rests opens
  refine ⟨fun id name named => ?_, fun name definer => ?_, fun name id found more plain => ?_⟩
  · rw [opens]
    exact register_spec rests.hasLoader id named
  · rw [opens]
    exact getOrDefine_spec rests name definer
  · obtain ⟨_, retains, _⟩ := advances_calls plain rests
    exact findLoaded_eq_some.2 (retains name _ (findLoaded_eq_some.1 found))

/-! ### A name that was asked for too early -/

/-- A class that no directory has. -/
def strayed : World :=
  ((initial []).addType {
    name := "A"
    flags := ⟨0x21⟩
    loader := .bootstrap
    state := .linked
    kind := .declared { file := default } }).2

theorem directory_maps_strayed :
    strayed.HasLoader .bootstrap ∧ (strayed.loader .bootstrap).directory = {} ∧
    (∀ call ∈ [DirectoryCall.getOrDefine "B" (pure none), .find "A"], call.Plain .bootstrap) ∧
    (runFrom (strayed.afterCalls .bootstrap [.getOrDefine "B" (pure none), .find "A"])
      (register .bootstrap ⟨0⟩)).1 = .ok () := by
  have plain : ∀ call ∈ [DirectoryCall.getOrDefine "B" (pure none), .find "A"],
      call.Plain .bootstrap := by
    simp only [List.forall_mem_cons]
    exact ⟨fun _ => ⟨.rfl, rfl⟩, trivial, nofun⟩
  refine ⟨by decide, rfl, plain, ?_⟩
  refine (((directory_maps (by decide) rfl plain rfl).1 ⟨0⟩ "A" rfl).1 (.inl ⟨rfl, ?_⟩)).1
  simp [FoundNothing, Misses]

/-- A class is refused as a duplicate where no class is found under its name: a definer has found
nothing for it before. -/
theorem register_refused_strayed :
    (strayed.afterCalls .bootstrap [.getOrDefine "A" (pure none)]).findLoaded .bootstrap "A" = none ∧
    (runFrom (strayed.afterCalls .bootstrap [.getOrDefine "A" (pure none)])
      (register .bootstrap ⟨0⟩)).1 = .error (.linkage (.duplicateClass "A")) :=
  ⟨rfl, rfl⟩

end World
end JavaMachine

import JavaMachine.Proofs.Undisturbed

/-!
# Delegation

A loader asks the loaders of its chain before it looks into its own sources, so the first loader
from the top with a file for a name defines the class. Directories that loaders look into before
they ask, and names that they have looked for in vain, change nothing of that.
-/

namespace JavaMachine
namespace World

variable {world later : World} {loader other definer : LoaderId} {name : String}
variable {id type : ClassId} {file : ClassFile}

theorem hasLoader_of_fileFor (found : world.fileFor loader name = .ok (some file)) :
    world.HasLoader loader := by
  apply Decidable.byContradiction
  intro absent
  rw [fileFor, loader_eq_default absent] at found
  cases found

/-- The loader is the first from the top, among those that `loader` asks and itself, that has a file
for the name. -/
structure Topmost (world : World) (loader : LoaderId) (name : String) (definer : LoaderId)
    (file : ClassFile) : Prop where
  among : definer ∈ world.delegates loader
  has : world.fileFor definer name = .ok (some file)
  above : ∀ parent ∈ (world.loader definer).chain, world.fileFor parent name = .ok none

theorem Topmost.unique {own : ClassFile} (topmost : world.Topmost loader name definer file)
    (sound : world.Sound) (topmostToo : world.Topmost loader name other own) :
    other = definer ∧ own = file := by
  have same : other = definer := by
    rcases sound.chain_linear topmost.among topmostToo.among with same | above | above
    · exact same.symm
    · have none := topmost.above other above
      rw [topmostToo.has] at none
      cases none
    · have none := topmostToo.above definer above
      rw [topmost.has] at none
      cases none
  subst same
  have has := topmost.has
  rw [topmostToo.has] at has
  cases has
  exact ⟨rfl, rfl⟩

/-- Loaders ask the same ones in both worlds, and have the same files. -/
structure Alike (world later : World) : Prop where
  delegates : ∀ loader, later.delegates loader = world.delegates loader
  files : ∀ loader name, later.fileFor loader name = world.fileFor loader name

theorem Alike.refl (world : World) : world.Alike world := ⟨fun _ => rfl, fun _ _ => rfl⟩

theorem Alike.symm (alike : world.Alike later) : later.Alike world :=
  ⟨fun loader => (alike.delegates loader).symm, fun loader name => (alike.files loader name).symm⟩

theorem Alike.trans {middle : World} (first : world.Alike middle) (second : middle.Alike later) :
    world.Alike later :=
  ⟨fun loader => (second.delegates loader).trans (first.delegates loader),
    fun loader name => (second.files loader name).trans (first.files loader name)⟩

theorem Alike.chain_eq (alike : world.Alike later) (loader : LoaderId) :
    (later.loader loader).chain = (world.loader loader).chain :=
  List.tail_eq_of_cons_eq (alike.delegates loader)

theorem Settles.alike (settles : world.Settles later) : world.Alike later where
  delegates := settles.delegates_eq
  files loader name := by
    by_cases present : world.HasLoader loader
    · exact settles.toRetains.fileFor_eq present name
    · apply fileFor_eq_of_sources
      rw [loader_eq_default present, loader_eq_default (mt settles.hasLoader_iff.1 present)]

theorem alike_starting (world : World) (loader : LoaderId) (name : String) :
    world.Alike (world.starting loader name) where
  delegates := (keepsLoaders_modifyDirectory world loader _).delegates_eq
  files other key :=
    fileFor_eq_of_sources (by rw [starting, loader_modifyDirectory]; split <;> rfl) key

theorem Topmost.of_alike (topmost : world.Topmost loader name definer file)
    (alike : world.Alike later) : later.Topmost loader name definer file where
  among := by
    rw [alike.delegates]
    exact topmost.among
  has := by
    rw [alike.files]
    exact topmost.has
  above parent above := by
    rw [alike.chain_eq] at above
    rw [alike.files]
    exact topmost.above parent above

theorem Topmost.hasLoader (topmost : world.Topmost loader name definer file) :
    world.HasLoader loader := by
  by_contra absent
  have among := topmost.among
  rw [delegates, loader_eq_default absent] at among
  cases List.mem_singleton.1 among
  exact absent (hasLoader_of_fileFor topmost.has)

/-! ### Loaders in two worlds -/

/-- A loader and those that it asks ask the same ones in both worlds, and have the same files. -/
structure Shares (world later : World) (loader : LoaderId) : Prop where
  delegates : ∀ definer ∈ world.delegates loader, later.delegates definer = world.delegates definer
  files : ∀ definer ∈ world.delegates loader, ∀ name,
    later.fileFor definer name = world.fileFor definer name

theorem Alike.shares (alike : world.Alike later) (loader : LoaderId) : world.Shares later loader :=
  ⟨fun definer _ => alike.delegates definer, fun definer _ => alike.files definer⟩

/-- Loaders go on asking the same ones and having the same files while others are added. -/
theorem Retains.shares (retains : world.Retains later) (sound : world.Sound)
    (present : world.HasLoader loader) : world.Shares later loader := by
  have there (definer : LoaderId) (among : definer ∈ world.delegates loader) :
      world.HasLoader definer := by
    rcases List.mem_cons.1 among with rfl | above
    · exact present
    · exact sound.hasLoader_of_chain above
  refine ⟨fun definer among => ?_, fun definer among => retains.fileFor_eq (there definer among)⟩
  rw [World.delegates, retains.chain definer (there definer among), World.delegates]

namespace Shares

variable {middle : World}

theorem own (shares : world.Shares later loader) :
    later.delegates loader = world.delegates loader :=
  shares.delegates loader List.mem_cons_self

theorem symm (shares : world.Shares later loader) : later.Shares world loader := by
  constructor <;> intro definer among <;> rw [shares.own] at among
  · exact (shares.delegates definer among).symm
  · exact fun name => (shares.files definer among name).symm

theorem of_alike (shares : world.Shares middle loader) (alike : middle.Alike later) :
    world.Shares later loader :=
  ⟨fun definer among => (alike.delegates definer).trans (shares.delegates definer among),
    fun definer among name => (alike.files definer name).trans (shares.files definer among name)⟩

/-- What holds of a loader holds of those that it asks. -/
theorem of_delegate (shares : world.Shares later loader) (sound : world.Sound)
    (among : definer ∈ world.delegates loader) : world.Shares later definer :=
  have below := (sound.suffix_delegates among).subset
  ⟨fun _ above => shares.delegates _ (below above), fun _ above => shares.files _ (below above)⟩

end Shares

theorem Topmost.of_shares (topmost : world.Topmost loader name definer file) (sound : world.Sound)
    (shares : world.Shares later loader) : later.Topmost loader name definer file where
  among := by
    rw [shares.own]
    exact topmost.among
  has := by
    rw [shares.files definer topmost.among]
    exact topmost.has
  above parent above := by
    rw [List.tail_eq_of_cons_eq (shares.delegates definer topmost.among)] at above
    have among := (sound.suffix_delegates topmost.among).subset (List.mem_cons_of_mem _ above)
    rw [shares.files parent among]
    exact topmost.above parent above

/-! ### What directories say -/

/-- The class that stands under a name has been defined by the first loader with a file. -/
theorem Regular.topmost_of_findLoaded (regular : world.Regular)
    (plain : name.toList.head? ≠ some '[') (among : definer ∈ world.delegates loader)
    (entry : world.findLoaded definer name = some id) :
    ∃ file, world.Topmost loader name definer file ∧ (world.type id).file? = some file := by
  have stands := regular.entries definer name id entry
  have isDeclared := stands.not_isArray plain
  cases stands.placed with
  | @declared _ _ first file isFile found _ =>
      rw [stands.loader, stands.name] at first found
      exact ⟨file, ⟨among, found, fun parent above =>
        (regular.absent _ _ (first parent above)).noFile⟩, isFile⟩
  | primitiveArray kind => exact absurd (Class.isArray_of_primitive kind) isDeclared
  | referenceArray kind => exact absurd (Class.isArray_of_reference kind) isDeclared

/-- A loader without a file for a name has entered no class under it. -/
theorem Regular.findLoaded_eq_none (regular : world.Regular) (plain : name.toList.head? ≠ some '[')
    (none : world.fileFor loader name = .ok none) : world.findLoaded loader name = .none := by
  cases entry : world.findLoaded loader name with
  | none => rfl
  | some id =>
      obtain ⟨_, topmost, _⟩ := regular.topmost_of_findLoaded plain List.mem_cons_self entry
      rw [topmost.has] at none
      cases none

/-! ### Names for which there is no file -/

/-- A loader has no file for a name that is settled to stand for no class, and one that is not there
has none at all. -/
theorem Regular.noFile_of_settled (regular : world.Regular)
    (settled : world.HasLoader loader → world.settled? loader name = some none) :
    world.fileFor loader name = .ok none := by
  by_cases present : world.HasLoader loader
  · exact (regular.absent _ _ (settled present)).noFile
  · rw [fileFor, loader_eq_default present]
    rfl

/-- Definitions give no class, and do nothing, where the loader has no file. -/
def Abstains (define : Load) : Prop :=
  ∀ loader name (world : World), world.fileFor loader name = .ok none →
    runFrom world (define loader name) = (.ok none, world)

theorem runFrom_defineFrom_none {load : Load} {sources : List Source}
    (none : Source.findFirst? sources name = .ok none) :
    runFrom world (defineFrom load loader name sources) = (.ok .none, world) := by
  induction sources with
  | nil => rfl
  | cons source rest inductionHypothesis =>
      cases known : source.find? name with
      | error cause =>
          rw [Source.findFirst?, known] at none
          cases none
      | ok found =>
          rw [Source.findFirst?_cons known] at none
          cases found with
          | some file => cases none
          | none =>
              have asked : runFrom world (WorldM.ofLinking (source.find? name)) =
                  (.ok Option.none, world) := by
                rw [known]
                rfl
              rw [defineFrom, runFrom_bind_ok asked]
              exact inductionHypothesis none

theorem abstains_defineFrom (load : Load) :
    Abstains (fun definer className => do
      defineFrom load definer className ((← get).loader definer).sources) := by
  intro loader name world none
  rw [runFrom_bind_ok runFrom_get]
  exact runFrom_defineFrom_none none

/-- A definition that succeeds settles a name that is not under way. -/
theorem outcome_getOrDefine {define : WorldM (Option ClassId)} {found : Option ClassId}
    (unsettled : world.settled? loader name = none) (idle : ¬ world.Defining loader name)
    (defined : (runFrom (world.starting loader name) define).1 = .ok found) :
    (runFrom world (getOrDefine loader name define)).1 = .ok found := by
  rw [runFrom_getOrDefine_open unsettled idle, runFrom_eq_of_outcome defined]

theorem outcome_getOrDefine_none {define : WorldM (Option ClassId)}
    (unknown : world.findLoaded loader name = none) (idle : ¬ world.Defining loader name)
    (abstains : (runFrom (world.starting loader name) define).1 = .ok none) :
    (runFrom world (getOrDefine loader name define)).1 = .ok none := by
  cases settled : world.settled? loader name with
  | some found =>
      rw [runFrom_getOrDefine settled]
      cases found with
      | none => rfl
      | some id =>
          rw [findLoaded_eq_some.2 settled] at unknown
          cases unknown
  | none => exact outcome_getOrDefine settled idle abstains

/-- Where no loader has a file for a name that is not under way, none is found. -/
theorem outcome_loadAlong_none {define : Load} (defines : Defines define)
    (abstains : Abstains define) (plain : name.toList.head? ≠ some '[') (loaders : List LoaderId)
    (sound : world.Sound) (regular : world.Regular) (asked : world.AskedTogether loaders)
    (none : ∀ loader ∈ loaders, world.fileFor loader name = .ok none)
    (idle : ∀ loader ∈ loaders, ¬ world.Defining loader name) :
    (runFrom world (loadAlong define loaders name)).1 = .ok .none := by
  induction loaders with
  | nil => rfl
  | cons loader parents inductionHypothesis =>
      have above := inductionHypothesis (asked.tail sound)
        (fun parent among => none parent (List.mem_cons_of_mem _ among))
        (fun parent among => idle parent (List.mem_cons_of_mem _ among))
      have evolves := (loadAlong_ends defines plain parents sound (asked.tail sound)).leads
      have noFile := none loader List.mem_cons_self
      rw [loadAlong, runFrom_answering, runFrom_bind_ok runFrom_get,
        regular.findLoaded_eq_none plain noFile]
      dsimp only
      rw [runFrom_bind_of_outcome above]
      rw [← evolves.settles.alike.files] at noFile
      apply outcome_getOrDefine_none ((evolves.regular regular).findLoaded_eq_none plain noFile)
      · exact fun underWay => idle loader List.mem_cons_self (evolves.settles.idle underWay)
      · rw [abstains loader name]
        rw [← noFile]
        exact (alike_starting _ loader name).files loader name

/-! ### Loading -/

/-- Loading allows for at least one definition. -/
theorem load_eq (world : World) (loader : LoaderId) (name : String) :
    ∃ depth, runFrom world (load loader name) =
      runFrom world (loadWithin (depth + 1) loader name) := by
  obtain ⟨depth, same⟩ : ∃ depth, world.definitionLimit = depth + 1 := ⟨_, rfl⟩
  refine ⟨depth, ?_⟩
  rw [load, runFrom_bind_ok runFrom_get, same]

theorem loadAny_of_plain (define : Load) (limit : Nat) (plain : name.toList.head? ≠ some '[') :
    loadAny define limit loader name = loadNamed define loader name := by
  cases limit with
  | zero => rfl
  | succ limit => rw [loadAny, if_neg plain]

theorem Regular.load_none (regular : world.Regular) (sound : world.Sound)
    (plain : name.toList.head? ≠ some '[')
    (none : ∀ parent ∈ world.delegates loader, world.fileFor parent name = .ok none)
    (idle : ∀ parent ∈ world.delegates loader, ¬ world.Defining parent name) :
    (runFrom world (load loader name)).1 = .ok .none := by
  obtain ⟨depth, same⟩ := load_eq world loader name
  rw [same, loadWithin, loadAny_of_plain _ _ plain, loadNamed, runFrom_bind_ok runFrom_get]
  exact outcome_loadAlong_none (defines_defineFrom (loadWithin_finds depth)) (abstains_defineFrom _)
    plain _ sound regular (.inr ⟨loader, rfl⟩) none idle

theorem Intact.load_none (intact : world.Intact) (plain : name.toList.head? ≠ some '[')
    (none : ∀ parent ∈ world.delegates loader, world.fileFor parent name = .ok none) :
    (runFrom world (load loader name)).1 = .ok .none :=
  intact.regular.load_none intact.sound plain none fun parent _ => intact.idle parent name

/-- What a loader has found it has by the first loader with a file, or no loader has one. -/
theorem Regular.of_found {found : Option ClassId} (regular : later.Regular)
    (plain : name.toList.head? ≠ some '[') (ends : Found loader name found later) :
    (∀ id, found = some id → (later.type id).name = name ∧ ∃ file,
      later.Topmost loader name (later.type id).loader file ∧ (later.type id).file? = some file) ∧
    (found = none → ∀ parent ∈ later.delegates loader, later.fileFor parent name = .ok none) := by
  refine ⟨fun id same => ?_, fun none parent among => ?_⟩
  · obtain ⟨definer, among, entry⟩ := (ends.leads id same).exists_definer plain
    have stands := regular.entries definer name id entry
    rw [stands.loader]
    exact ⟨stands.name, regular.topmost_of_findLoaded plain among entry⟩
  · exact regular.noFile_of_settled ((ends.absent none).settled plain among)

/-! ### Types above -/

theorem Registered.sees (registered : world.Registered id) :
    world.Sees (world.type id).loader id :=
  ⟨List.mem_cons_self, registered⟩

/-- The supertypes of an entered class are entered with loaders that its loader asks, those of array
classes with the bootstrap loader. -/
theorem Regular.sees_supertype (regular : world.Regular) (sound : world.Sound)
    (registered : world.Registered id) (above : type ∈ (world.type id).supertypes) :
    world.Sees (world.type id).loader type := by
  have usable := sound.directories _ _ _ registered
  have entered {supertypes : ArraySupertypes} (inherited : world.AboveArrays supertypes)
      (membership : type ∈ supertypes.superclass :: supertypes.interfaces) :
      world.Sees (world.type id).loader type := by
    obtain ⟨name, _, entry⟩ := inherited.exists_entry membership
    have stands := regular.entries _ _ _ entry
    refine ⟨?_, regular.registered_of_findLoaded entry⟩
    rw [stands.loader]
    exact sound.top _ (sound.homes id (present_of_isUsable usable))
  cases (regular.entries _ _ _ registered).placed with
  | declared declared =>
      obtain ⟨linkage, linked⟩ := Option.isSome_iff_exists.1 (linkage?_of_isUsable usable declared)
      obtain ⟨file, isFile, _⟩ := sound.fits linked
      rw [supertypes_of_linkage linked] at above
      exact (regular.links id file linkage isFile linked).supertypes type above
  | primitiveArray kind _ _ inherited | referenceArray kind _ _ _ _ _ _ _ inherited =>
      refine entered inherited ?_
      simpa [Class.supertypes, Class.superclass?, Class.interfaces, kind] using above

/-- A loader that sees a class sees the types above. -/
theorem Regular.sees_of_reaches (regular : world.Regular) (sound : world.Sound)
    (sees : world.Sees loader id) (reaches : world.Reaches id type) : world.Sees loader type := by
  induction reaches with
  | refl => exact sees
  | tail _ step inductionHypothesis =>
      have seesAbove := regular.sees_supertype sound inductionHypothesis.registered step
      exact sound.sees_of_sees inductionHypothesis.among seesAbove

/-! ### Delegation -/

/-- Of the loaders that a loader asks and itself, the first from the top with a file for a plain
name defines the class; no class is found where no loader has a file, and only there. Along a chain
no two loaders define classes with one name, and the types above a class are defined by its loader
or by loaders that this asks. -/
theorem load_delegates (undisturbed : world.Undisturbed) :
    (∀ loader name, name.toList.head? ≠ some '[' →
      let ended := runFrom world (load loader name)
      (ended.1 = .ok none ↔
        ∀ parent ∈ world.delegates loader, world.fileFor parent name = .ok none) ∧
      ∀ id, ended.1 = .ok (some id) → (ended.2.type id).name = name ∧ ∃ file,
        world.Topmost loader name (ended.2.type id).loader file ∧
          (ended.2.type id).file? = some file) ∧
    (∀ loader name, name.toList.head? ≠ some '[' →
      ∀ first ∈ world.delegates loader, ∀ second ∈ world.delegates loader, ∀ id other,
        world.findLoaded first name = some id → world.findLoaded second name = some other →
          second = first ∧ other = id) ∧
    ∀ loader name id, world.findLoaded loader name = some id → ∀ above, world.Reaches id above →
      (world.type above).loader ∈ world.delegates loader := by
  have intact := undisturbed.intact
  refine ⟨fun loader name plain => ?found, ?unique, ?above⟩
  case found =>
    intro ended
    have ends := (load_finds loader name world intact.sound).ends
    have settles := ends.leads.settles
    have gives (found : Option ClassId) (same : ended.1 = .ok found) :=
      (ends.leads.regular intact.regular).of_found plain (ends.gives found same)
    refine ⟨⟨fun none parent among => ?_, intact.load_none plain⟩, fun id same => ?_⟩
    · rw [← settles.alike.delegates] at among
      rw [← settles.alike.files]
      exact (gives _ none).2 rfl parent among
    · obtain ⟨named, file, topmost, isFile⟩ := (gives _ same).1 id rfl
      exact ⟨named, file, topmost.of_alike settles.alike.symm, isFile⟩
  case unique =>
    intro loader name plain first among second amongToo id other entry entryToo
    obtain ⟨file, topmost, _⟩ := intact.regular.topmost_of_findLoaded plain among entry
    obtain ⟨own, topmostToo, _⟩ := intact.regular.topmost_of_findLoaded plain amongToo entryToo
    refine ⟨(topmost.unique intact.sound topmostToo).1, ?_⟩
    exact (intact.regular.entry_unique intact.sound plain among entry amongToo entryToo).symm
  case above =>
    intro loader name id entry above reaches
    have registered := intact.regular.registered_of_findLoaded entry
    have sees := intact.regular.sees_of_reaches intact.sound registered.sees reaches
    rw [← (intact.regular.entries loader name id entry).loader]
    exact sees.among

end World

namespace Layered

def polygon : ClassId := ⟨1⟩

set_option maxRecDepth 20000 in
/-- The loader finds a class of the bootstrap loader, and no class where there is no file. -/
theorem asked : (runFrom world (World.load loader "Polygon")).1.toOption = some (some polygon) ∧
    (runFrom world (World.load loader "Circle")).1.toOption = some none ∧
      world.findLoaded loader "Square" = some ⟨0⟩ := by
  decide +kernel

end Layered

namespace World

/-- The class comes from the first loader with a file, and where none is found there is none. -/
theorem load_delegates_layered : Layered.world.Undisturbed ∧
    (∃ definer file, Layered.world.Topmost Layered.loader "Polygon" definer file) ∧
    (∀ parent ∈ Layered.world.delegates Layered.loader,
      Layered.world.fileFor parent "Circle" = .ok none) ∧
    ∀ above, Layered.world.Reaches ⟨0⟩ above →
      (Layered.world.type above).loader ∈ Layered.world.delegates Layered.loader := by
  obtain ⟨found, _, home⟩ := load_delegates Layered.undisturbed
  obtain ⟨polygon, circle, square⟩ := Layered.asked
  have given {name : String} {id : Option ClassId}
      (outcome : (runFrom Layered.world (load Layered.loader name)).1.toOption = some id) :
      (runFrom Layered.world (load Layered.loader name)).1 = .ok id := by
    cases ended : (runFrom Layered.world (load Layered.loader name)).1 with
    | error error => simp [ended, Except.toOption] at outcome
    | ok other => simpa [ended, Except.toOption] using outcome
  refine ⟨Layered.undisturbed, ?_, ?_, home _ _ _ square⟩
  · obtain ⟨_, file, topmost, _⟩ := (found _ "Polygon" (by decide)).2 _ (given polygon)
    exact ⟨_, file, topmost⟩
  · exact (found _ "Circle" (by decide)).1.1 (given circle)

end World
end JavaMachine

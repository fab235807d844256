import JavaMachine.Linking
import JavaMachine.Proofs.Growth

/-!
# What is read off class files

A loader finds the file of a class in the first of its sources that has one, and a static field
starts with what the file says: a value, or the canonical string with a text. Neither depends on
what has been loaded.
-/

namespace JavaMachine

/-- The file that the first source to have one has for a class. -/
def Source.findFirst? : List Source → String → Except LinkageError (Option ClassFile)
  | [], _ => .ok none
  | source :: rest, name => do
      match ← source.find? name with
      | some file => return some file
      | none => findFirst? rest name

theorem Source.findFirst?_cons {source : Source} {name : String} {found : Option ClassFile}
    (known : source.find? name = .ok found) (rest : List Source) :
    findFirst? (source :: rest) name =
      found.elim (findFirst? rest name) fun file => .ok (some file) := by
  rw [findFirst?, known]
  cases found <;> rfl

/-- The file that a loader has for a class in its own sources. -/
def World.fileFor (world : World) (loader : LoaderId) (name : String) :
    Except LinkageError (Option ClassFile) :=
  Source.findFirst? (world.loader loader).sources name

theorem World.fileFor_eq_of_sources {world later : World} {loader : LoaderId}
    (sources : (later.loader loader).sources = (world.loader loader).sources) (name : String) :
    later.fileFor loader name = world.fileFor loader name := by
  rw [fileFor, sources, fileFor]

/-! ### First values of static fields -/

/-- What a static field starts with. -/
inductive FirstValue where
  | plain (value : Value)
  | string (text : String)
  deriving DecidableEq, Repr

/-- What the class file says a static field starts with. -/
def Field.firstValue? (file : ClassFile) (field : Field) : Except LinkageError FirstValue :=
  match field.isFinal, field.constant with
  | true, some index =>
      match file.constant? index, field.valueType with
      | some (.integer value), type =>
          if type.isIntLike then .ok (.plain (.int value))
          else .error (.constantMismatch index field.key)
      | some (.float bits), .primitive .float => .ok (.plain (.float (Number.single bits)))
      | some (.long high low), .primitive .long => .ok (.plain (.long (Number.long high low)))
      | some (.double high low), .primitive .double => .ok (.plain (.double (Number.double high low)))
      | some (.string textIndex), .object =>
          if field.descriptor = "L" ++ WellKnown.stringClass ++ ";" then do
            return .string (← file.requireText textIndex)
          else .error (.constantMismatch index field.key)
      | _, _ => .error (.constantMismatch index field.key)
  | _, _ => .ok (.plain (.default field.valueType))

/-- The value with which a field starts; the canonical string is found or made. -/
def FirstValue.value (load : Load) : FirstValue → WorldM Value
  | plain value => return value
  | string text => return .reference (some (← load.intern text))

theorem World.initialValue_eq (load : Load) (file : ClassFile) (field : Field) :
    initialValue load file field =
      WorldM.ofLinking (field.firstValue? file) >>= FirstValue.value load := by
  unfold initialValue Field.firstValue?
  cases field.isFinal
  case false => rfl
  cases field.constant
  case none => rfl
  case some index =>
    dsimp only
    rcases file.constant? index with _ | entry
    · rfl
    cases entry
    case integer value =>
      by_cases isIntLike : field.valueType.isIntLike
      · simp only [isIntLike, if_true]
        rfl
      · simp only [isIntLike]
        rfl
    case string text =>
      cases field.valueType
      case object =>
        dsimp only
        split
        · cases file.requireText text <;> rfl
        · rfl
      all_goals rfl
    all_goals
      rcases field.valueType with _ | primitive | _ | _
      case primitive => cases primitive <;> rfl
      all_goals rfl

namespace World

variable {world later : World} {about : ClassId → Prop}

/-- The value is the one with which a static field starts, a canonical string for a text. -/
def Depicts (world : World) (value : Value) : FirstValue → Prop
  | .plain first => value = first
  | .string text => ∃ object, value = .reference (some object) ∧
      world.strings.find? text = some object

theorem Depicts.mono {value : Value} {first : FirstValue}
    (depicts : world.Depicts value first) (strings : ∀ text object,
      world.strings.find? text = some object → later.strings.find? text = some object) :
    later.Depicts value first := by
  cases first with
  | plain first => exact depicts
  | string text =>
      obtain ⟨object, same, known⟩ := depicts
      exact ⟨object, same, strings text object known⟩

/-- The static values are those with which the fields of a layout start. -/
structure Starts (world : World) (file : ClassFile) (fields : FieldLayout) (static : Array Value) :
    Prop where
  size : static.size = fields.static.size
  values : ∀ key slot, fields.static.find? key = some slot → ∃ value first,
    static[slot.offset]? = some value ∧ slot.field.firstValue? file = .ok first ∧
      world.Depicts value first

theorem Starts.mono {file : ClassFile} {fields : FieldLayout} {static : Array Value}
    (starts : world.Starts file fields static) (strings : ∀ text object,
      world.strings.find? text = some object → later.strings.find? text = some object) :
    later.Starts file fields static where
  size := starts.size
  values key slot found := by
    obtain ⟨value, first, stored, known, depicts⟩ := starts.values key slot found
    exact ⟨value, first, stored, known, depicts.mono strings⟩

/-- The static fields of some of the linked classes have the values with which they start. -/
def Pristine (world : World) (about : ClassId → Prop) : Prop :=
  ∀ id file linkage, about id → (world.type id).file? = some file →
    (world.type id).linkage? = some linkage →
      world.Starts file linkage.fields (world.type id).static

end World
end JavaMachine

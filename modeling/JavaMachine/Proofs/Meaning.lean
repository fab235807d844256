import JavaMachine.Proofs.Naming
import JavaMachine.Proofs.Walks
import JavaMachine.Resolution

/-!
# What constants mean

A constant of a class means one thing at most to lookups of a kind: a text or a number, the class to
which the loader leads by a name, a canonical string, or the method or field that is found in such a
class. What a constant means it goes on meaning. A world knows its constants if the pools of its
classes remember nothing but what constants mean.
-/

namespace JavaMachine.World

variable {world middle later : World} {loader : LoaderId} {file : ClassFile} {id : ClassId}
variable {kind : ConstantKind} {index : UInt16} {constant : Constant} {result other : kind.Meaning}

/-- What the pool of a class remembers of a lookup. -/
def resolved? (world : World) (id : ClassId) (kind : ConstantKind) (index : UInt16) :
    Option kind.Meaning :=
  (world.type id).pool?.bind fun pool => pool.find? kind index

/-- A class reference and a name with a descriptor lead to a declared class and two texts. -/
structure PointsTo (world : World) (loader : LoaderId) (file : ClassFile)
    (owner nameAndType : UInt16) (type : ClassId) (name descriptor : String) : Prop where
  leads : ∃ className, file.className? owner = some className ∧ world.LeadsTo loader className type
  declared : ¬ (world.type type).isArray
  names : ∃ first second, file.constant? nameAndType = some (.nameAndType first second) ∧
    file.text? first = some name ∧ file.text? second = some descriptor

/-- What a constant in the file of a class of a loader means to lookups of a kind. -/
inductive Denotes (world : World) (loader : LoaderId) (file : ClassFile) :
    Constant → (kind : ConstantKind) → kind.Meaning → Prop where
  | classRef {name : UInt16} {className : String} {type : ClassId}
      (written : file.text? name = some className) (leads : world.LeadsTo loader className type) :
      Denotes world loader file (.classRef name) .classRef type
  | string {place : UInt16} {text : String} {object : ObjectId}
      (written : file.text? place = some text)
      (known : world.strings.find? text = some object) :
      Denotes world loader file (.string place) .string object
  | method {owner nameAndType : UInt16} {type : ClassId} {name descriptor : String}
      (points : world.PointsTo loader file owner nameAndType type name descriptor) :
      Denotes world loader file (.methodRef owner nameAndType) .method
        (world.findMethod type name descriptor)
  | interfaceMethod {owner nameAndType : UInt16} {type : ClassId} {name descriptor : String}
      (points : world.PointsTo loader file owner nameAndType type name descriptor) :
      Denotes world loader file (.interfaceMethodRef owner nameAndType) .interfaceMethod
        (world.findMethod type name descriptor)
  | field {owner nameAndType : UInt16} {type : ClassId} {name descriptor : String}
      (points : world.PointsTo loader file owner nameAndType type name descriptor) :
      Denotes world loader file (.fieldRef owner nameAndType) .field
        (world.findField type name descriptor)
  | nameAndType {first second : UInt16} {name descriptor : String}
      (written : file.text? first = some name) (writtenToo : file.text? second = some descriptor) :
      Denotes world loader file (.nameAndType first second) .nameAndType (name, descriptor)
  | utf8 {bytes : List UInt8} {text : String}
      (decoded : Text.ModifiedUtf8.decode bytes = some text) :
      Denotes world loader file (.utf8 bytes) .utf8 text
  | int {value : Int32} : Denotes world loader file (.integer value) .int value
  | float {bits : UInt32} : Denotes world loader file (.float bits) .float (Number.single bits)
  | long {high low : UInt32} :
      Denotes world loader file (.long high low) .long (Number.long high low)
  | double {high low : UInt32} :
      Denotes world loader file (.double high low) .double (Number.double high low)

/-- What the constant at an index of a class means to lookups of a kind. -/
def Means (world : World) (id : ClassId) (kind : ConstantKind) (index : UInt16)
    (result : kind.Meaning) : Prop :=
  ∃ file constant, (world.type id).file? = some file ∧ file.constant? index = some constant ∧
    world.Denotes (world.type id).loader file constant kind result

/-- What pools remember is what constants mean. -/
def ConstantsKnown (world : World) : Prop :=
  ∀ id kind index result, world.resolved? id kind index = some result →
    (world.type id).isUsable ∧ world.Means id kind index result

/-- In particular canonical strings. -/
def LiteralsKnown (world : World) : Prop :=
  ∀ id index object, world.resolved? id .string index = some object →
    (world.type id).isUsable ∧ world.Means id .string index object

/-! ### Constants mean one thing -/

theorem Denotes.tag_eq (denotes : world.Denotes loader file constant kind result) :
    constant.tag = kind.tag := by
  cases denotes <;> rfl

section Unique

variable (sound : world.Sound) (regular : world.Regular)
include sound regular

theorem PointsTo.unique {owner nameAndType : UInt16} {type typeToo : ClassId}
    {name descriptor nameToo descriptorToo : String}
    (points : world.PointsTo loader file owner nameAndType type name descriptor)
    (pointsToo : world.PointsTo loader file owner nameAndType typeToo nameToo descriptorToo) :
    typeToo = type ∧ nameToo = name ∧ descriptorToo = descriptor := by
  obtain ⟨⟨_, written, leads⟩, _, _, _, constant, text, textToo⟩ := points
  obtain ⟨⟨_, same, leadsToo⟩, _, _, _, sameToo, sameText, sameTextToo⟩ := pointsToo
  cases written.symm.trans same
  cases constant.symm.trans sameToo
  cases text.symm.trans sameText
  cases textToo.symm.trans sameTextToo
  exact ⟨regular.leadsTo_unique sound leads leadsToo, rfl, rfl⟩

theorem Denotes.unique (denotes : world.Denotes loader file constant kind result)
    (denotesToo : world.Denotes loader file constant kind other) : other = result := by
  cases denotes with
  | classRef written leads =>
      cases denotesToo with
      | classRef same leadsToo =>
          cases written.symm.trans same
          exact regular.leadsTo_unique sound leads leadsToo
  | string written known =>
      cases denotesToo with
      | string same knownToo =>
          cases written.symm.trans same
          exact Option.some_inj.1 (knownToo.symm.trans known)
  | method points =>
      cases denotesToo with
      | method pointsToo =>
          obtain ⟨rfl, rfl, rfl⟩ := points.unique sound regular pointsToo
          rfl
  | interfaceMethod points =>
      cases denotesToo with
      | interfaceMethod pointsToo =>
          obtain ⟨rfl, rfl, rfl⟩ := points.unique sound regular pointsToo
          rfl
  | field points =>
      cases denotesToo with
      | field pointsToo =>
          obtain ⟨rfl, rfl, rfl⟩ := points.unique sound regular pointsToo
          rfl
  | nameAndType written writtenToo =>
      cases denotesToo with
      | nameAndType same sameToo =>
          cases written.symm.trans same
          cases writtenToo.symm.trans sameToo
          rfl
  | utf8 decoded =>
      cases denotesToo with
      | utf8 same => exact Option.some_inj.1 (same.symm.trans decoded)
  | int | float | long | double =>
      cases denotesToo
      rfl

theorem Means.unique (means : world.Means id kind index result)
    (meansToo : world.Means id kind index other) : other = result := by
  obtain ⟨_, _, isFile, found, denotes⟩ := means
  obtain ⟨_, _, isFileToo, foundToo, denotesToo⟩ := meansToo
  cases isFile.symm.trans isFileToo
  cases found.symm.trans foundToo
  exact denotes.unique sound regular denotesToo

end Unique

/-! ### Constants go on meaning what they mean -/

section Retained

variable (sound : world.Sound) (retains : world.Retains later)
include sound retains

theorem PointsTo.mono {owner nameAndType : UInt16} {type : ClassId} {name descriptor : String}
    (points : world.PointsTo loader file owner nameAndType type name descriptor) :
    later.PointsTo loader file owner nameAndType type name descriptor := by
  obtain ⟨⟨className, written, leads⟩, declared, names⟩ := points
  refine ⟨⟨className, written, leads.mono sound retains⟩, ?_, names⟩
  rwa [retains.isArray_eq (leads.isUsable sound)]

omit retains in
theorem PointsTo.linked {owner nameAndType : UInt16} {type : ClassId} {name descriptor : String}
    (points : world.PointsTo loader file owner nameAndType type name descriptor) :
    (world.type type).linkage?.isSome := by
  obtain ⟨⟨_, _, leads⟩, declared, _⟩ := points
  simpa [Class.isUsable, declared] using leads.isUsable sound

theorem Denotes.mono (denotes : world.Denotes loader file constant kind result) :
    later.Denotes loader file constant kind result := by
  cases denotes with
  | classRef written leads => exact .classRef written (leads.mono sound retains)
  | string written known => exact .string written (retains.strings _ _ known)
  | method points =>
      rw [← retains.usable.findMethod_eq sound (points.linked sound)]
      exact .method (points.mono sound retains)
  | interfaceMethod points =>
      rw [← retains.usable.findMethod_eq sound (points.linked sound)]
      exact .interfaceMethod (points.mono sound retains)
  | field points =>
      rw [← retains.usable.findField_eq sound (points.linked sound)]
      exact .field (points.mono sound retains)
  | nameAndType written writtenToo => exact .nameAndType written writtenToo
  | utf8 decoded => exact .utf8 decoded
  | int => exact .int
  | float => exact .float
  | long => exact .long
  | double => exact .double

theorem Means.mono (means : world.Means id kind index result) (usable : (world.type id).isUsable) :
    later.Means id kind index result := by
  obtain ⟨file, constant, isFile, found, denotes⟩ := means
  refine ⟨file, constant, (retains.file?_eq usable).trans isFile, found, ?_⟩
  rw [retains.loader_eq usable]
  exact denotes.mono sound retains

end Retained

/-- Canonical strings stay even where names come to stand for something else. -/
theorem Means.mono_string {object : ObjectId} (retains : world.Retains later)
    (means : world.Means id .string index object) (usable : (world.type id).isUsable) :
    later.Means id .string index object := by
  obtain ⟨file, constant, isFile, found, denotes⟩ := means
  refine ⟨file, constant, (retains.file?_eq usable).trans isFile, found, ?_⟩
  cases denotes with
  | string written known => exact .string written (retains.strings _ _ known)

theorem LiteralsKnown.of_same (known : world.LiteralsKnown) (retains : world.Retains later)
    (same : ∀ id index, later.resolved? id .string index = world.resolved? id .string index) :
    later.LiteralsKnown := by
  intro id index object resolved
  obtain ⟨usable, means⟩ := known id index object (same id index ▸ resolved)
  exact ⟨retains.usable.isUsable usable, means.mono_string retains usable⟩

/-! ### What is remembered -/

/-- What has been resolved stays resolved. -/
def Remembers (world later : World) : Prop :=
  ∀ id kind index result, world.resolved? id kind index = some result →
    later.resolved? id kind index = some result

theorem Remembers.refl (world : World) : world.Remembers world := fun _ _ _ _ resolved => resolved

theorem Remembers.trans (first : world.Remembers middle) (second : middle.Remembers later) :
    world.Remembers later :=
  fun id kind index result resolved =>
    second id kind index result (first id kind index result resolved)

/-- A sound, vetted and regular world whose pools remember what constants mean. -/
structure Versed (world : World) : Prop where
  sound : world.Sound
  vetted : world.Vetted
  regular : world.Regular
  known : world.ConstantsKnown

/-- The later world knows its constants, and what has been resolved stays resolved. -/
structure Recollects (world later : World) : Prop where
  known : later.ConstantsKnown
  remembers : world.Remembers later

/-- The pools remember what they remembered. -/
theorem ConstantsKnown.recollects (known : world.ConstantsKnown) (sound : world.Sound)
    (retains : world.Retains later)
    (same : ∀ id kind index, later.resolved? id kind index = world.resolved? id kind index) :
    world.Recollects later where
  known id kind index result resolved := by
    obtain ⟨usable, means⟩ := known id kind index result (same id kind index ▸ resolved)
    exact ⟨retains.usable.isUsable usable, means.mono sound retains usable⟩
  remembers id kind index result resolved := by rw [same, resolved]

theorem resolved?_eq_of_type {id other : ClassId} {later : World}
    (same : later.type id = world.type other) (kind : ConstantKind) (index : UInt16) :
    later.resolved? id kind index = world.resolved? other kind index := by
  rw [resolved?, same, ← resolved?]

theorem resolved?_eq_of_pool (same : (later.type id).pool? = (world.type id).pool?)
    (kind : ConstantKind) (index : UInt16) :
    later.resolved? id kind index = world.resolved? id kind index := by
  rw [resolved?, same, ← resolved?]

end JavaMachine.World

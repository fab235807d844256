import JavaMachine.Descriptor

/-!
# Reading descriptors

What is read is what was written, and array types are read by reading their components. So the name
of an array class tells the name of its component's class.
-/

namespace JavaMachine
namespace FieldType

variable {text rest : List Char} {name : List Char} {type : FieldType} {descriptor : String}

theorem readClassName_sound (read : readClassName text = some (name, rest)) :
    text = name ++ ';' :: rest ∧ ';' ∉ name := by
  induction text generalizing name with
  | nil => cases read
  | cons char others inductionHypothesis =>
      rw [readClassName] at read
      split at read
      next same =>
        cases read
        exact ⟨by rw [same]; rfl, List.not_mem_nil⟩
      next distinct =>
        obtain ⟨⟨inner, left⟩, readInner, same⟩ := Option.map_eq_some_iff.1 read
        cases same
        obtain ⟨written, none⟩ := inductionHypothesis readInner
        refine ⟨by rw [written]; rfl, ?_⟩
        intro membership
        rcases List.mem_cons.1 membership with head | among
        · exact distinct head.symm
        · exact none among

theorem readClassName_append (none : ';' ∉ name) :
    readClassName (name ++ ';' :: rest) = some (name, rest) := by
  induction name with
  | nil => simp [readClassName]
  | cons char others inductionHypothesis =>
      rw [List.mem_cons, not_or] at none
      have distinct : char ≠ ';' := fun same => none.1 same.symm
      rw [List.cons_append, readClassName, if_neg distinct, inductionHypothesis none.2]
      rfl

theorem letter_of_ofLetter? {char : Char} {primitive : Primitive}
    (read : Primitive.ofLetter? char = some primitive) : primitive.letter = char := by
  unfold Primitive.ofLetter? at read
  split at read
  all_goals cases read
  all_goals rfl

/-- What is read of a text is written in front of the rest. -/
theorem read_sound (read : FieldType.read text = some (type, rest)) :
    text = type.chars ++ rest := by
  induction text generalizing type with
  | nil => cases read
  | cons char others inductionHypothesis =>
      rw [FieldType.read] at read
      split at read
      next same =>
        obtain ⟨⟨component, left⟩, readInner, same⟩ := Option.map_eq_some_iff.1 read
        cases same
        rw [inductionHypothesis readInner, ‹char = '['›]
        rfl
      next =>
        split at read
        next isObject =>
          obtain ⟨⟨name, left⟩, readName, same⟩ := Option.map_eq_some_iff.1 read
          cases same
          rw [(readClassName_sound readName).1, isObject]
          simp [chars]
        next =>
          obtain ⟨primitive, readLetter, same⟩ := Option.map_eq_some_iff.1 read
          cases same
          rw [← letter_of_ofLetter? readLetter]
          rfl

theorem read_of_ofDescriptor? (read : ofDescriptor? descriptor = some type) :
    FieldType.read descriptor.toList = some (type, []) := by
  unfold ofDescriptor? at read
  split at read
  next type found =>
    cases read
    exact found
  next => cases read

theorem toList_of_ofDescriptor? (read : ofDescriptor? descriptor = some type) :
    descriptor.toList = type.chars := by
  rw [read_sound (read_of_ofDescriptor? read), List.append_nil]

/-- What is read of a descriptor is what it describes. -/
theorem descriptor_of_ofDescriptor? (read : ofDescriptor? descriptor = some type) :
    type.descriptor = descriptor := by
  rw [FieldType.descriptor, ← toList_of_ofDescriptor? read, String.ofList_toList]

theorem head?_of_ofDescriptor?_array {component : FieldType}
    (read : ofDescriptor? descriptor = some (array component)) :
    descriptor.toList.head? = some '[' := by
  rw [toList_of_ofDescriptor? read]
  rfl

/-- The class of an array type is loaded by a name with a bracket. -/
theorem head?_loadName_array (component : FieldType) :
    (array component).loadName.toList.head? = some '[' := by
  simp [loadName, FieldType.descriptor, chars]

/-- A type one dimension higher is read by one more bracket. -/
theorem ofDescriptor?_bracket (descriptor : String) :
    ofDescriptor? ("[" ++ descriptor) = (ofDescriptor? descriptor).map array := by
  have chars : ("[" ++ descriptor).toList = '[' :: descriptor.toList := by simp
  rw [ofDescriptor?, ofDescriptor?, chars, FieldType.read, if_pos rfl]
  rcases FieldType.read descriptor.toList with _ | ⟨type, _ | ⟨char, others⟩⟩
  · rfl
  · rfl
  · rfl

/-- The component type of an array type that is read was read without the first bracket. -/
theorem read_component {component : FieldType}
    (read : ofDescriptor? descriptor = some (array component)) :
    FieldType.read descriptor.toList.tail = some (component, []) := by
  have written := toList_of_ofDescriptor? read
  have opened := read_of_ofDescriptor? read
  rw [written, chars] at opened ⊢
  rw [FieldType.read, if_pos rfl] at opened
  obtain ⟨⟨inner, left⟩, readInner, same⟩ := Option.map_eq_some_iff.1 opened
  cases same
  exact readInner

/-- Class names that are read end before the first semicolon. -/
theorem semicolon_notMem_of_read {className : String}
    (read : FieldType.read text = some (object className, rest)) : ';' ∉ className.toList := by
  cases text with
  | nil => cases read
  | cons char others =>
      rw [FieldType.read] at read
      split at read
      · obtain ⟨inner, _, same⟩ := Option.map_eq_some_iff.1 read
        cases same
      · split at read
        · obtain ⟨⟨name, left⟩, readName, same⟩ := Option.map_eq_some_iff.1 read
          cases same
          rw [String.toList_ofList]
          exact (readClassName_sound readName).2
        · obtain ⟨primitive, _, same⟩ := Option.map_eq_some_iff.1 read
          cases same

/-- The type of arrays over a class is read from the name of the class. -/
theorem ofDescriptor?_arrayOfObjects {className : String} (none : ';' ∉ className.toList) :
    ofDescriptor? ("[L" ++ className ++ ";") = some (array (object className)) := by
  have chars : ("[L" ++ className ++ ";").toList = '[' :: 'L' :: (className.toList ++ [';']) := by
    simp
  have read : FieldType.read ('L' :: (className.toList ++ [';'])) =
      some (object className, []) := by
    rw [FieldType.read, if_neg (by decide), if_pos rfl, readClassName_append none]
    simp
  rw [ofDescriptor?, chars, FieldType.read, if_pos rfl, read]
  rfl

theorem ofDescriptor?_arrayOfPrimitives (element : Primitive) :
    ofDescriptor? (array (primitive element)).descriptor = some (array (primitive element)) := by
  cases element <;> rfl

/-- The class at the bottom of the type, if there is one, is not named like an array class. -/
def IsPlain : FieldType → Prop
  | primitive _ => True
  | object className => className.toList.head? ≠ some '['
  | array component => component.IsPlain

instance decidableIsPlain : (type : FieldType) → Decidable type.IsPlain
  | primitive _ => isTrue trivial
  | object className => inferInstanceAs (Decidable (className.toList.head? ≠ some '['))
  | array component => decidableIsPlain component

/-- The text is the name that an array class has: it is read as an array type, and not over a class
that is named like an array class itself. -/
def IsArrayName (text : String) : Prop :=
  ∃ component, ofDescriptor? text = some (array component) ∧ component.IsPlain

theorem IsArrayName.head? {text : String} (named : IsArrayName text) :
    text.toList.head? = some '[' := by
  obtain ⟨component, written, _⟩ := named
  exact head?_of_ofDescriptor?_array written

/-- The text is the name of the class to which it leads: either it is not read as an array type at
all, or it is the name that an array class has. -/
def IsClassName (text : String) : Prop :=
  ∀ component, ofDescriptor? text = some (array component) → component.IsPlain

instance (text : String) : Decidable (IsClassName text) :=
  match read : ofDescriptor? text with
  | some (array component) => decidable_of_iff component.IsPlain
      ⟨fun plain other same => by cases read.symm.trans same; exact plain,
        fun named => named component read⟩
  | some (primitive _) | some (object _) | none =>
      isTrue fun other same => by cases read.symm.trans same

theorem IsArrayName.isClassName {text : String} (named : IsArrayName text) : IsClassName text := by
  obtain ⟨component, written, plain⟩ := named
  intro other writtenToo
  cases written.symm.trans writtenToo
  exact plain

theorem isClassName_of_head? {text : String} (plain : text.toList.head? ≠ some '[') :
    IsClassName text :=
  fun _ written => absurd (head?_of_ofDescriptor?_array written) plain

theorem isArrayName_ofPrimitives (element : Primitive) :
    IsArrayName (array (primitive element)).descriptor :=
  ⟨_, ofDescriptor?_arrayOfPrimitives element, trivial⟩

/-- The type of the components of an array type that is read is read from its own descriptor. -/
theorem ofDescriptor?_component {component : FieldType}
    (read : ofDescriptor? descriptor = some (array component)) :
    ofDescriptor? component.descriptor = some component := by
  have readInner := read_component read
  rw [toList_of_ofDescriptor? read, chars, List.tail_cons] at readInner
  rw [ofDescriptor?, FieldType.descriptor, String.toList_ofList, readInner]

/-- Below the name of an array class there is the name of a class again. -/
theorem IsPlain.isClassName_loadName {component : FieldType} (plain : component.IsPlain)
    (read : ofDescriptor? descriptor = some (array component)) :
    IsClassName component.loadName := by
  cases component with
  | primitive element => exact isClassName_of_head? (by cases element <;> decide)
  | object className => exact isClassName_of_head? plain
  | array below => exact IsArrayName.isClassName ⟨below, ofDescriptor?_component read, plain⟩

theorem not_isPrimitive {type : FieldType}
    (notPrimitive : ∀ element, type ≠ .primitive element) : ¬ type.isPrimitive := by
  cases type with
  | primitive element => exact absurd rfl (notPrimitive element)
  | object | array => exact Bool.false_ne_true

/-- The class of a component has a shorter name than that of the arrays. -/
theorem length_loadName_lt {component : FieldType}
    (read : ofDescriptor? descriptor = some (array component)) :
    component.loadName.length < descriptor.length := by
  rw [← String.length_toList, ← String.length_toList, toList_of_ofDescriptor? read]
  cases component with
  | object className =>
      simp [loadName, chars]
      omega
  | primitive | array => simp [loadName, FieldType.descriptor, chars]

end FieldType

/-! ### Types of methods -/

theorem ReturnType.read_sound {text rest : List Char} {type : ReturnType}
    (read : ReturnType.read text = some (type, rest)) : text = type.chars ++ rest := by
  unfold ReturnType.read at read
  split at read
  next found =>
    cases read
    exact FieldType.read_sound found
  next =>
    split at read
    · cases read
      rfl
    · cases read

namespace MethodType

theorem readTypes_sound {limit : Nat} {text rest : List Char} {types : List FieldType}
    (read : readTypes limit text = (types, rest)) :
    text = types.flatMap FieldType.chars ++ rest := by
  induction limit generalizing text types with
  | zero =>
      cases read
      rfl
  | succ limit inductionHypothesis =>
      rw [readTypes] at read
      split at read
      · cases read
        rfl
      next type others found =>
        cases read
        rw [FieldType.read_sound found, List.flatMap_cons, List.append_assoc,
          ← inductionHypothesis rfl]

theorem toList_of_ofDescriptor? {descriptor : String} {type : MethodType}
    (read : ofDescriptor? descriptor = some type) : descriptor.toList = type.chars := by
  unfold ofDescriptor? at read
  split at read
  next rest opened =>
    split at read
    next parameters others readParameters =>
      split at read
      next result readResult =>
        cases read
        rw [opened, readTypes_sound readParameters, ReturnType.read_sound readResult,
          List.append_nil]
        rfl
      next => cases read
    next => cases read
  next => cases read

end MethodType
end JavaMachine

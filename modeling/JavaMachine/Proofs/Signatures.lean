import JavaMachine.Proofs.Descriptor

/-!
# Descriptors are read exactly

A class name is written between `L` and a semicolon, so a type whose class has a semicolon in its
name cannot be read back. All other types are read as they are written, whatever follows them, and
nothing else is read. The same holds of results and of whole methods. In a method the parameters end
where the parenthesis stands that begins no type, though class names may contain one as well.
-/

namespace JavaMachine

theorem Primitive.ofLetter?_letter (primitive : Primitive) :
    ofLetter? primitive.letter = some primitive := by
  cases primitive <;> rfl

/-! ### Types of fields -/

namespace FieldType

variable {text rest : List Char} {type : FieldType}

/-- The class at the bottom of the type, if there is one, has a name without semicolons. -/
def IsWritable : FieldType → Prop
  | primitive _ => True
  | object className => ';' ∉ className.toList
  | array component => component.IsWritable

instance decidableIsWritable : (type : FieldType) → Decidable type.IsWritable
  | primitive _ => isTrue trivial
  | object className => inferInstanceAs (Decidable (';' ∉ className.toList))
  | array component => decidableIsWritable component

/-- A type that is written is read, and what follows it is left. -/
theorem read_chars_append (writable : type.IsWritable) (rest : List Char) :
    FieldType.read (type.chars ++ rest) = some (type, rest) := by
  induction type with
  | primitive primitive =>
      rw [chars, List.singleton_append, FieldType.read]
      rw [if_neg (by cases primitive <;> decide), if_neg (by cases primitive <;> decide)]
      rw [primitive.ofLetter?_letter]
      rfl
  | object className =>
      have written : (object className).chars ++ rest =
          'L' :: (className.toList ++ ';' :: rest) := by simp [chars]
      rw [written, FieldType.read, if_neg (by decide), if_pos rfl, readClassName_append writable]
      simp
  | array component inductionHypothesis =>
      rw [chars, List.cons_append, FieldType.read, if_pos rfl, inductionHypothesis writable]
      rfl

/-- What is read as an array type is a bracket and what is read as the component. -/
theorem read_of_array {component : FieldType}
    (read : FieldType.read text = some (array component, rest)) :
    ∃ others, FieldType.read others = some (component, rest) := by
  have written := read_sound read
  rw [written, chars, List.cons_append, FieldType.read, if_pos rfl] at read
  obtain ⟨⟨inner, left⟩, readInner, same⟩ := Option.map_eq_some_iff.1 read
  cases same
  exact ⟨_, readInner⟩

/-- Class names that are read have no semicolon, at any depth. -/
theorem isWritable_of_read (read : FieldType.read text = some (type, rest)) :
    type.IsWritable := by
  induction type generalizing text with
  | primitive primitive => exact trivial
  | object className => exact semicolon_notMem_of_read read
  | array component inductionHypothesis =>
      obtain ⟨others, readInner⟩ := read_of_array read
      exact inductionHypothesis readInner

@[simp] theorem toList_descriptor (type : FieldType) : type.descriptor.toList = type.chars :=
  String.toList_ofList

/-- A whole text is read as a type exactly if it is the descriptor of the type. -/
theorem ofDescriptor?_eq_some {descriptor : String} : ofDescriptor? descriptor = some type ↔
    descriptor = type.descriptor ∧ type.IsWritable := by
  constructor
  · intro read
    exact ⟨(descriptor_of_ofDescriptor? read).symm, isWritable_of_read (read_of_ofDescriptor? read)⟩
  · rintro ⟨rfl, writable⟩
    have read := read_chars_append writable []
    rw [List.append_nil] at read
    rw [ofDescriptor?, toList_descriptor, read]

theorem length_chars_pos (type : FieldType) : 0 < type.chars.length := by
  cases type <;> simp [chars]

end FieldType

/-! ### Types of results -/

namespace ReturnType

variable {text rest : List Char} {type other : ReturnType}

/-- The type, if there is one, can be read back. -/
def IsWritable (type : ReturnType) : Prop := ∀ own, type = some own → own.IsWritable

/-- The written form of the type. -/
def descriptor (type : ReturnType) : String := String.ofList type.chars

@[simp] theorem toList_descriptor (type : ReturnType) : type.descriptor.toList = type.chars :=
  String.toList_ofList

theorem read_chars_append (writable : type.IsWritable) (rest : List Char) :
    ReturnType.read (type.chars ++ rest) = some (type, rest) := by
  cases type with
  | some own =>
      unfold ReturnType.read
      rw [chars, FieldType.read_chars_append (writable own rfl)]
  | none => rfl

theorem isWritable_of_read (read : ReturnType.read text = some (type, rest)) :
    type.IsWritable := by
  rintro own rfl
  unfold ReturnType.read at read
  split at read
  next found =>
    cases read
    exact FieldType.isWritable_of_read found
  next =>
    split at read <;> cases read

theorem read_eq_some :
    ReturnType.read text = some (type, rest) ↔ text = type.chars ++ rest ∧ type.IsWritable := by
  constructor
  · intro read
    exact ⟨read_sound read, isWritable_of_read read⟩
  · rintro ⟨rfl, writable⟩
    exact read_chars_append writable rest

/-- What begins with a descriptor that can be read is no other descriptor that can be read. -/
theorem eq_of_chars_append (writable : type.IsWritable) (writableToo : other.IsWritable)
    (begins : type.chars ++ rest = other.chars) : type = other := by
  have read := read_chars_append writable rest
  have readToo := read_chars_append writableToo []
  rw [List.append_nil, ← begins, read] at readToo
  cases readToo
  rfl

end ReturnType

/-- A text is read as the type of a field exactly if it is the descriptor of the type, and a result
type is read from the front of a text exactly if the text is its descriptor followed by what is
left, provided that there is no semicolon in the name of a class. So no descriptor of these is the
beginning of another one. -/
theorem FieldType.descriptors_exact :
    (∀ (text : String) (type : FieldType), ofDescriptor? text = some type ↔
      text = type.descriptor ∧ type.IsWritable) ∧
    (∀ (text rest : String) (type : ReturnType),
      ReturnType.read text.toList = some (type, rest.toList) ↔
        text = type.descriptor ++ rest ∧ type.IsWritable) ∧
    ∀ (type other : ReturnType) (rest : String), type.IsWritable → other.IsWritable →
      other.descriptor = type.descriptor ++ rest → rest = "" ∧ type = other := by
  refine ⟨fun text type => ofDescriptor?_eq_some, fun text rest type => ?_, ?_⟩
  · rw [ReturnType.read_eq_some, ← String.toList_inj]
    simp
  · intro type other rest writable writableToo begins
    have characters : type.chars ++ rest.toList = other.chars := by
      rw [← other.toList_descriptor, begins]
      simp
    have same := ReturnType.eq_of_chars_append writable writableToo characters
    subst same
    have none : rest.toList = [] := by simpa using characters
    exact ⟨String.toList_eq_nil_iff.1 none, rfl⟩

/-- A parenthesis in the name of a class ends neither the name nor the type. -/
theorem FieldType.descriptors_exact_parenthesis :
    (array (object "a)b")).IsWritable ∧ ReturnType.IsWritable none ∧
      ofDescriptor? "[La)b;" = some (array (object "a)b")) ∧
      ReturnType.read "VV".toList = some (none, "V".toList) ∧
      ∀ type : ReturnType, type.IsWritable → type.descriptor = "V" → type = none := by
  obtain ⟨fields, results, apart⟩ := descriptors_exact
  have plain : (array (object "a)b")).IsWritable := by decide
  have empty : ReturnType.IsWritable none := nofun
  refine ⟨plain, empty, (fields _ _).2 ⟨by decide, plain⟩, (results _ _ _).2 ⟨by decide, empty⟩, ?_⟩
  intro type writable same
  exact (apart none type "" empty writable same).2.symm

/-! ### Types of methods -/

namespace MethodType

variable {limit : Nat} {text rest : List Char} {types : List FieldType} {type : MethodType}

/-- The parameters and the result can be read back. -/
structure IsWritable (type : MethodType) : Prop where
  parameters : ∀ parameter ∈ type.parameters, parameter.IsWritable
  result : type.result.IsWritable

/-- Types that are written one after the other are read up to a text that begins with none. -/
theorem readTypes_append (writable : ∀ type ∈ types, type.IsWritable)
    (stops : FieldType.read rest = none) (enough : types.length ≤ limit) :
    readTypes limit (types.flatMap FieldType.chars ++ rest) = (types, rest) := by
  induction types generalizing limit with
  | nil =>
      cases limit with
      | zero => rfl
      | succ limit =>
          rw [List.flatMap_nil, List.nil_append, readTypes]
          rw [stops]
  | cons type others inductionHypothesis =>
      obtain ⟨limit, rfl⟩ : ∃ left, limit = left + 1 := ⟨limit - 1, by simp at enough; omega⟩
      rw [List.forall_mem_cons] at writable
      rw [List.flatMap_cons, List.append_assoc, readTypes]
      rw [FieldType.read_chars_append writable.1]
      dsimp only
      rw [inductionHypothesis writable.2 (Nat.le_of_succ_le_succ enough)]

theorem isWritable_of_readTypes (read : readTypes limit text = (types, rest)) :
    ∀ type ∈ types, type.IsWritable := by
  induction limit generalizing text types with
  | zero =>
      cases read
      exact nofun
  | succ limit inductionHypothesis =>
      rw [readTypes] at read
      split at read
      · cases read
        exact nofun
      next type others found =>
        cases read
        rw [List.forall_mem_cons]
        exact ⟨FieldType.isWritable_of_read found, inductionHypothesis rfl⟩

/-- There are no more types in a text than characters. -/
theorem length_le_flatMap_chars (types : List FieldType) :
    types.length ≤ (types.flatMap FieldType.chars).length := by
  induction types with
  | nil => simp
  | cons type others inductionHypothesis =>
      have positive := type.length_chars_pos
      simp only [List.length_cons, List.flatMap_cons, List.length_append]
      omega

@[simp] theorem toList_descriptor (type : MethodType) : type.descriptor.toList = type.chars :=
  String.toList_ofList

theorem isWritable_of_ofDescriptor? {descriptor : String}
    (read : ofDescriptor? descriptor = some type) : type.IsWritable := by
  unfold ofDescriptor? at read
  split at read
  next rest opened =>
    split at read
    next parameters others readParameters =>
      split at read
      next result readResult =>
        cases read
        exact ⟨isWritable_of_readTypes readParameters, ReturnType.isWritable_of_read readResult⟩
      next => cases read
    next => cases read
  next => cases read

/-- The parameters end at the parenthesis, with which no type begins, and the rest is the result. -/
theorem ofDescriptor?_descriptor (writable : type.IsWritable) :
    ofDescriptor? type.descriptor = some type := by
  have result := ReturnType.read_chars_append writable.result []
  rw [List.append_nil] at result
  have parameters : readTypes
      (type.parameters.flatMap FieldType.chars ++ ')' :: type.result.chars).length
      (type.parameters.flatMap FieldType.chars ++ ')' :: type.result.chars) =
        (type.parameters, ')' :: type.result.chars) := by
    apply readTypes_append writable.parameters
    · rfl
    · have enough := length_le_flatMap_chars type.parameters
      rw [List.length_append]
      omega
  have written : type.descriptor.toList =
      '(' :: (type.parameters.flatMap FieldType.chars ++ ')' :: type.result.chars) := by
    rw [toList_descriptor, chars]
    rfl
  rw [ofDescriptor?, written]
  simp only [parameters, result]

/-- A whole text is read as the type of a method exactly if it is made of a parenthesis, the
descriptors of the parameters one after the other, the other parenthesis and the descriptor of the
result, provided that there is no semicolon in the name of a class. So the text alone tells the
parameters and the result. -/
theorem signatures_exact :
    (∀ (text : String) (parameters : List FieldType) (result : ReturnType),
      ofDescriptor? text = some ⟨parameters, result⟩ ↔
        text = "(" ++ String.join (parameters.map FieldType.descriptor) ++ ")" ++
          result.descriptor ∧
        (∀ parameter ∈ parameters, parameter.IsWritable) ∧ result.IsWritable) ∧
    ∀ type other : MethodType, type.IsWritable → other.IsWritable →
      type.descriptor = other.descriptor → type = other := by
  constructor
  · intro text parameters result
    have written : (MethodType.mk parameters result).descriptor =
        "(" ++ String.join (parameters.map FieldType.descriptor) ++ ")" ++ result.descriptor := by
      rw [← String.toList_inj, toList_descriptor, chars]
      simp [List.flatMap, Function.comp_def]
    rw [← written]
    constructor
    · intro read
      have writable := isWritable_of_ofDescriptor? read
      refine ⟨?_, writable.parameters, writable.result⟩
      rw [← String.toList_inj, toList_of_ofDescriptor? read, toList_descriptor]
    · rintro ⟨rfl, writable, writableToo⟩
      exact ofDescriptor?_descriptor ⟨writable, writableToo⟩
  · intro type other writable writableToo same
    have read := ofDescriptor?_descriptor writable
    rw [same, ofDescriptor?_descriptor writableToo] at read
    cases read
    rfl

/-- Blanks and parentheses may stand in the name of a class. -/
theorem signatures_exact_parenthesis :
    (∀ parameter ∈ [FieldType.object "a) (b", .array (.primitive .long)], parameter.IsWritable) ∧
      ofDescriptor? "(La) (b;[J)V" =
        some ⟨[.object "a) (b", .array (.primitive .long)], none⟩ ∧
      ∀ type : MethodType, type.IsWritable → type.descriptor = "(La) (b;[J)V" →
        type.parameters.length = 2 := by
  obtain ⟨exact, apart⟩ := signatures_exact
  have plain : ∀ parameter ∈ [FieldType.object "a) (b", .array (.primitive .long)],
      parameter.IsWritable := by decide
  refine ⟨plain, (exact _ _ _).2 ⟨by decide, plain, nofun⟩, fun type writable same => ?_⟩
  cases apart type ⟨[.object "a) (b", .array (.primitive .long)], none⟩ writable ⟨plain, nofun⟩ same
  rfl

end MethodType
end JavaMachine

import JavaMachine.Proofs.Completeness
import JavaMachine.Proofs.Dispatch
import JavaMachine.Proofs.Operands

/-!
# Methods to which a call leads

A constant leads to a method that some class declares, and a dynamic call selects another method
under the same key. A key tells how results are kept, whatever blanks there are in names, and it
tells the name and the descriptor as soon as names are without blanks.
-/

namespace JavaMachine

/-! ### What a key tells -/

/-- How a result is kept, by the end of a descriptor that is read backwards. -/
def resultShape? : List Char → Option Shape
  | ';' :: _ | _ :: '[' :: _ => some .reference
  | letter :: _ => (Primitive.ofLetter? letter).map fun type => (FieldType.primitive type).shape
  | [] => none

theorem FieldType.resultShape?_component (component : FieldType) (before : List Char) :
    resultShape? (component.chars.reverse ++ '[' :: before) = some .reference := by
  induction component generalizing before with
  | primitive type => cases type <;> rfl
  | object className => simp [chars, resultShape?]
  | array component inductionHypothesis =>
      simpa [chars] using inductionHypothesis ('[' :: before)

namespace MethodType

/-- The end of a descriptor tells how results are kept. -/
theorem resultShape?_chars (type : MethodType) (before : List Char) :
    resultShape? (before ++ type.chars).reverse = type.result.map FieldType.shape := by
  obtain ⟨parameters, result⟩ := type
  have backwards : (before ++ MethodType.chars ⟨parameters, result⟩).reverse =
      (ReturnType.chars result).reverse ++
        ')' :: (before ++ '(' :: parameters.flatMap FieldType.chars).reverse := by
    simp [MethodType.chars]
  rw [backwards]
  cases result with
  | none => rfl
  | some type =>
      cases type with
      | primitive type => cases type <;> rfl
      | object className => simp [ReturnType.chars, FieldType.chars, resultShape?, FieldType.shape]
      | array component =>
          simpa [ReturnType.chars, FieldType.chars, FieldType.shape] using
            component.resultShape?_component _

end MethodType

/-- The type of the method is the one that its descriptor describes. -/
def Method.IsTyped (method : Method) : Prop :=
  MethodType.ofDescriptor? method.descriptor = some method.type

/-- Methods under one key put values of the same shape onto the stack. -/
theorem Method.results_eq_of_key {method other : Method} (typed : method.IsTyped)
    (typedToo : other.IsTyped) (same : method.key = other.key) :
    method.results = other.results := by
  have shape {method : Method} (typed : method.IsTyped) :
      method.type.result.map FieldType.shape = resultShape? method.key.toList.reverse := by
    rw [key, methodKey, String.toList_append, MethodType.toList_of_ofDescriptor? typed,
      method.type.resultShape?_chars]
  rw [results, shape typed, same, ← shape typedToo, ← results]

namespace World

variable {world : World} {id : ClassId} {method : Method}

theorem Declares.isTyped (declares : world.Declares id method) : method.IsTyped := by
  obtain ⟨file, _, member, _, read⟩ := declares
  exact (Method.ofMember_ok read).2.2

/-- No method that a class declares has a blank in its name. -/
def NamesWithoutBlanks (world : World) : Prop :=
  ∀ id method, world.Declares id method → ' ' ∉ method.name.toList

/-- Names are without blanks if those in the files of all classes are. -/
theorem namesWithoutBlanks_of_files
    (plain : ∀ type ∈ world.classes, ∀ file, type.file? = some file →
      ∀ member ∈ file.methods, ∀ name, file.requireText member.name = .ok name →
        ' ' ∉ name.toList) :
    world.NamesWithoutBlanks := by
  rintro id method ⟨file, declared, member, among, read⟩
  have present : world.type id ∈ world.classes := by
    rcases Nat.lt_or_ge id.index world.classes.size with present | absent
    · rw [type_eq_of_getElem? (Array.getElem?_eq_getElem present)]
      exact Array.getElem_mem present
    · rw [type_eq_default absent] at declared
      cases declared
      cases among
  exact plain _ present file declared member among method.name (Method.ofMember_ok read).1

/-! ### What a call selects -/

theorem DeclaresVirtual.not_isStatic {key : String}
    (declares : world.DeclaresVirtual key id method) :
    ¬ method.isStatic := by
  intro isStatic
  have isVirtual := declares.isVirtual
  simp [Method.isVirtual, isStatic] at isVirtual

/-- A call selects the very method, or one that a class declares for dispatch under its key. -/
theorem Sound.selectMethod_cases (sound : world.Sound) (receiver : ClassId) (resolved : Method) :
    selectMethod (world.type receiver) resolved = resolved ∨
      ∃ type, world.DeclaresVirtual resolved.key type
        (selectMethod (world.type receiver) resolved) := by
  rw [selectMethod]
  split
  · exact .inl rfl
  · cases entry : (world.type receiver).virtualMethod? resolved.name resolved.descriptor with
    | none => exact .inl rfl
    | some selected =>
        have linked : (world.type receiver).linkage?.isSome := by
          by_contra unlinked
          rw [Class.virtualMethod?, Class.methods,
            Option.not_isSome_iff_eq_none.1 unlinked] at entry
          cases entry
        obtain ⟨type, _, declares, _⟩ :=
          sound.firstDeclares (Option.isSome_iff_exists.1 linked) entry
        exact .inr ⟨type, declares⟩

/-- What a call selects is declared under the key of the method that is referred to, and it is an
instance method if that is one. -/
theorem Sound.selectMethod_spec (sound : world.Sound) {resolved : Method}
    (declares : world.Declares id resolved) (receiver : ClassId) :
    let selected := selectMethod (world.type receiver) resolved
    (∃ type, world.Declares type selected) ∧ selected.key = resolved.key ∧
      (¬ resolved.isStatic → ¬ selected.isStatic) := by
  intro selected
  rcases sound.selectMethod_cases receiver resolved with same | ⟨type, virtual⟩
  · rw [show selected = resolved from same]
    exact ⟨⟨id, declares⟩, rfl, fun dynamic => dynamic⟩
  · exact ⟨⟨type, virtual.declares⟩, virtual.key, fun _ => virtual.not_isStatic⟩

/-- What a call selects puts values of the same shape onto the stack as the method that is referred
to. -/
theorem Sound.results_selectMethod (sound : world.Sound) {resolved : Method}
    (declares : world.Declares id resolved) (receiver : ClassId) :
    (selectMethod (world.type receiver) resolved).results = resolved.results := by
  obtain ⟨⟨type, declaresToo⟩, same, _⟩ := sound.selectMethod_spec declares receiver
  exact Method.results_eq_of_key declaresToo.isTyped declares.isTyped same

/-- Where names are without blanks, what a call selects has the name, the descriptor and the type of
the method that is referred to. -/
theorem Sound.selectMethod_same (sound : world.Sound) (plain : world.NamesWithoutBlanks)
    {resolved : Method} (declares : world.Declares id resolved) (receiver : ClassId) :
    let selected := selectMethod (world.type receiver) resolved
    selected.name = resolved.name ∧ selected.descriptor = resolved.descriptor ∧
      selected.type = resolved.type := by
  intro selected
  obtain ⟨⟨type, declaresToo⟩, same, _⟩ := sound.selectMethod_spec declares receiver
  obtain ⟨names, descriptors⟩ := MethodTables.methodKey_eq_of_names same
    (plain type selected declaresToo) (plain id resolved declares)
  have typed : MethodType.ofDescriptor? selected.descriptor = some selected.type :=
    declaresToo.isTyped
  rw [descriptors, declares.isTyped] at typed
  exact ⟨names, descriptors, (Option.some_inj.1 typed).symm⟩

end World

namespace FrameM

variable {Client : Type} {frame later : Frame Client} {current : ClassId} {index : UInt16}
variable {resolved : Method}

/-- A constant leads from a clean world to a method that a class declares, in a world that is sound
again. -/
theorem methodAt_declares (clean : frame.machine.world.Clean)
    (resolves : runFrom frame (methodAt current index) = (.ok resolved, later)) :
    later.machine.world.Sound ∧ ∃ id, later.machine.world.Declares id resolved := by
  obtain ⟨_, _, known, resolves⟩ := exists_of_bind_ok resolves
  cases known
  obtain ⟨tag, _, known, resolves⟩ := exists_of_bind_ok resolves
  obtain ⟨found, middle, looked, resolves⟩ := exists_of_bind_ok resolves
  obtain ⟨_, rfl⟩ := ok_of_ofExcept known
  have offers {action : WorldM (Option Method)}
      (ends : Ends (World.Searches 3) frame.machine.world action fun result later =>
        frame.machine.world.Vetted → later.Offers .method result)
      (looks : runFrom frame (onWorld action) = (.ok found, middle)) :
      middle.machine.world.Sound ∧ middle.machine.world.Offers .method found := by
    obtain ⟨gives, rfl⟩ := onWorld_ok looks
    exact ⟨ends.leads.sound, ends.gives _ gives clean.vetted⟩
  have offered : middle.machine.world.Sound ∧ middle.machine.world.Offers .method found := by
    split at looked
    · exact offers ((World.resolve_ends current .interfaceMethod index clean.sound).mono
        fun _ _ resolves => resolves.offers) looked
    · exact offers ((World.resolve_ends current .method index clean.sound).mono
        fun _ _ resolves => resolves.offers) looked
  cases found with
  | none => cases resolves
  | some method =>
      cases resolves
      obtain ⟨id, key, declared⟩ := offered.2 _ rfl
      obtain ⟨linkage, linked⟩ := Option.isSome_iff_exists.1 (World.linked_of_declared declared)
      exact ⟨offered.1, id, ((offered.1.find?_declared linked key _).1 declared).2⟩

end FrameM
end JavaMachine

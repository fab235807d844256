import JavaMachine.Class.FieldLayout
import JavaMachine.Proofs.MethodTables
import Mathlib.Data.List.Nodup

/-!
# What field layouts hold

The slots of a layout are its fields numbered from 0, so a layout is known by the list of its
fields: those of the superclass, then those of the interfaces that are new by their keys, then those
of the file that are not static.
-/

namespace JavaMachine

theorem Field.ofMember_owner {file : ClassFile} {owner : ClassId} {className : String}
    {member : Member FieldFlags} {field : Field}
    (read : ofMember file owner className member = .ok field) :
    field.owner = owner ∧ field.ownerName = className := by
  obtain ⟨name, _, read⟩ := Except.bind_ok read
  obtain ⟨descriptor, _, read⟩ := Except.bind_ok read
  split at read
  · cases read
  · obtain ⟨constant, _, read⟩ := Except.bind_ok read
    cases read
    exact ⟨rfl, rfl⟩

namespace FieldLayout

variable {file : ClassFile} {owner : ClassId} {className : String} {layout later : FieldLayout}
variable {fields : List Field} {slots : List FieldSlot} {slot : FieldSlot} {key : String}

/-! ### Numbering -/

/-- Fields with the offsets at which they stand. -/
def layOut (fields : List Field) : List FieldSlot :=
  fields.zipIdx.map fun (field, offset) => ⟨offset, field⟩

@[simp] theorem length_layOut (fields : List Field) : (layOut fields).length = fields.length := by
  simp [layOut]

@[simp] theorem map_field_layOut (fields : List Field) :
    (layOut fields).map FieldSlot.field = fields := by
  simp [layOut, Function.comp_def]

theorem getElem?_layOut (fields : List Field) (offset : Nat) :
    (layOut fields)[offset]? = fields[offset]?.map fun field => ⟨offset, field⟩ := by
  simp [layOut, Function.comp_def]

theorem layOut_concat (fields : List Field) (field : Field) :
    layOut (fields ++ [field]) = layOut fields ++ [⟨fields.length, field⟩] := by
  simp [layOut, List.zipIdx_append]

theorem layOut_prefix_append (fields others : List Field) :
    layOut fields <+: layOut (fields ++ others) := by
  simp only [layOut, List.zipIdx_append, List.map_append]
  exact List.prefix_append _ _

theorem mem_layOut_iff : slot ∈ layOut fields ↔ (layOut fields)[slot.offset]? = some slot := by
  constructor
  · intro membership
    obtain ⟨place, found⟩ := List.mem_iff_getElem?.1 membership
    obtain ⟨field, here, same⟩ := Option.map_eq_some_iff.1 (getElem?_layOut fields place ▸ found)
    cases same
    exact found
  · exact List.mem_of_getElem?

/-! ### Fields that are new -/

/-- The fields whose keys are not known yet, of several with the same key the first. -/
def missing (known : List String) : List Field → List Field
  | [] => []
  | field :: rest =>
      if field.key ∈ known then missing known rest
      else field :: missing (known ++ [field.key]) rest

theorem mem_of_mem_missing {known : List String} {field : Field}
    (membership : field ∈ missing known fields) : field ∈ fields ∧ field.key ∉ known := by
  induction fields generalizing known with
  | nil => cases membership
  | cons first rest inductionHypothesis =>
      rw [missing] at membership
      split at membership
      · obtain ⟨among, new⟩ := inductionHypothesis membership
        exact ⟨List.mem_cons_of_mem _ among, new⟩
      next new =>
        rcases List.mem_cons.1 membership with same | among
        · subst same
          exact ⟨List.mem_cons_self, new⟩
        · obtain ⟨among, newToo⟩ := inductionHypothesis among
          exact ⟨List.mem_cons_of_mem _ among, fun old => newToo (List.mem_append_left _ old)⟩

theorem nodup_keys_missing (known : List String) (fields : List Field) :
    ((missing known fields).map Field.key).Nodup := by
  induction fields generalizing known with
  | nil => exact List.nodup_nil
  | cons first rest inductionHypothesis =>
      rw [missing]
      split
      · exact inductionHypothesis known
      · rw [List.map_cons, List.nodup_cons]
        refine ⟨?_, inductionHypothesis _⟩
        intro among
        obtain ⟨field, membership, same⟩ := List.mem_map.1 among
        exact (mem_of_mem_missing membership).2 (by simp [same])

/-- No key of the fields is left out. -/
theorem key_mem_missing {known : List String} {field : Field} (membership : field ∈ fields) :
    field.key ∈ known ∨ field.key ∈ (missing known fields).map Field.key := by
  induction fields generalizing known with
  | nil => cases membership
  | cons first rest inductionHypothesis =>
      rw [missing]
      split
      next old =>
        rcases List.mem_cons.1 membership with same | among
        · exact .inl (same ▸ old)
        · exact inductionHypothesis among
      next =>
        rw [List.map_cons]
        rcases List.mem_cons.1 membership with same | among
        · exact .inr (same ▸ List.mem_cons_self)
        · rcases inductionHypothesis among with old | new
          · rcases List.mem_append.1 old with old | same
            · exact .inl old
            · exact .inr (List.mem_singleton.1 same ▸ List.mem_cons_self)
          · exact .inr (List.mem_cons_of_mem _ new)

/-! ### Lookup by key -/

theorem findSlot?_isSome : (findSlot? slots key).isSome ↔
    key ∈ slots.map fun slot => slot.field.key := by
  simp [findSlot?, List.find?_isSome]

/-- Where no key stands twice, the slot with a key is the one found. -/
theorem findSlot?_eq_some (distinct : (slots.map fun slot => slot.field.key).Nodup) :
    findSlot? slots key = some slot ↔ slot ∈ slots ∧ slot.field.key = key := by
  constructor
  · intro found
    exact ⟨List.mem_of_find?_eq_some found, by simpa using List.find?_some found⟩
  · rintro ⟨membership, same⟩
    obtain ⟨other, found⟩ := Option.isSome_iff_exists.1
      (findSlot?_isSome.2 (List.mem_map.2 ⟨slot, membership, same⟩))
    have sameToo : other.field.key = key := by simpa using List.find?_some found
    rw [found, List.inj_on_of_nodup_map distinct (List.mem_of_find?_eq_some found) membership
      (sameToo.trans same.symm)]

theorem keys_layOut (fields : List Field) :
    ((layOut fields).map fun slot => slot.field.key) = fields.map Field.key := by
  conv_rhs => rw [← map_field_layOut fields, List.map_map]
  rfl

/-! ### Lawful layouts -/

/-- What holds of a layout however far it has been built: slots are numbered from 0, no key stands
twice, and static fields have a table of their own. -/
structure Lawful (layout : FieldLayout) : Prop where
  numbered : layout.slots = layOut (layout.slots.map FieldSlot.field)
  distinct : (layout.slots.map fun slot => slot.field.key).Nodup
  instances : ∀ slot ∈ layout.slots, ¬ slot.field.isStatic
  statics : ∀ key slot, layout.static.find? key = some slot → slot.field.isStatic

theorem lawful_empty : ({} : FieldLayout).Lawful where
  numbered := rfl
  distinct := List.nodup_nil
  instances := nofun
  statics := nofun

/-- A slot is at its offset. -/
theorem Lawful.getElem?_offset (lawful : layout.Lawful) (membership : slot ∈ layout.slots) :
    layout.slots[slot.offset]? = some slot := by
  rw [lawful.numbered] at membership ⊢
  exact mem_layOut_iff.1 membership

/-- The slot at an offset has that offset. -/
theorem Lawful.offset_eq (lawful : layout.Lawful) {offset : Nat}
    (found : layout.slots[offset]? = some slot) : slot.offset = offset := by
  rw [lawful.numbered, getElem?_layOut] at found
  obtain ⟨field, _, same⟩ := Option.map_eq_some_iff.1 found
  cases same
  rfl

/-! ### Inheritance -/

theorem addMissing_layOut (fields : List Field) (field : Field) :
    addMissing (layOut fields) field =
      if field.key ∈ fields.map Field.key then layOut fields else layOut (fields ++ [field]) := by
  rw [addMissing, layOut_concat, length_layOut]
  simp only [findSlot?_isSome, keys_layOut]

/-- The fields of a list are added as far as they are new. -/
theorem foldl_addMissing_layOut (fields others : List Field) :
    others.foldl addMissing (layOut fields) =
      layOut (fields ++ missing (fields.map Field.key) others) := by
  induction others generalizing fields with
  | nil => simp [missing]
  | cons field rest inductionHypothesis =>
      rw [List.foldl_cons, addMissing_layOut, missing]
      split
      · exact inductionHypothesis fields
      · rw [inductionHypothesis, List.map_append, List.append_assoc]
        rfl

/-- A layout begins with the fields of the superclass and goes on with those of the interfaces that
are new. -/
theorem slots_inherit (fields : List Field) (interfaces : List (List FieldSlot)) :
    (inherit (layOut fields) interfaces).slots =
      layOut (fields ++ missing (fields.map Field.key)
        (interfaces.flatMap fun inherited => inherited.map FieldSlot.field)) := by
  rw [← foldl_addMissing_layOut, List.foldl_flatMap]
  rfl

theorem lawful_inherit {superclass : FieldLayout} (lawful : superclass.Lawful)
    {interfaces : List (List FieldSlot)}
    (instances : ∀ inherited ∈ interfaces, ∀ slot ∈ inherited, ¬ slot.field.isStatic) :
    (inherit superclass.slots interfaces).Lawful := by
  have slots := slots_inherit (superclass.slots.map FieldSlot.field) interfaces
  rw [← lawful.numbered] at slots
  refine ⟨?_, ?_, ?_, nofun⟩
  · rw [slots, map_field_layOut]
  · rw [slots, keys_layOut, List.map_append, List.nodup_append]
    refine ⟨?_, nodup_keys_missing _ _, ?_⟩
    · rw [List.map_map]
      exact lawful.distinct
    · intro key known other new same
      obtain ⟨field, membership, sameKey⟩ := List.mem_map.1 new
      exact (mem_of_mem_missing membership).2 (sameKey.trans same.symm ▸ known)
  · intro slot membership
    have among : slot.field ∈ (inherit superclass.slots interfaces).slots.map FieldSlot.field :=
      List.mem_map_of_mem membership
    rw [slots, map_field_layOut, List.mem_append] at among
    rcases among with above | new
    · obtain ⟨other, membership, same⟩ := List.mem_map.1 above
      exact same ▸ lawful.instances other membership
    · obtain ⟨inherited, isInterface, among⟩ := List.mem_flatMap.1 (mem_of_mem_missing new).1
      obtain ⟨other, membership, same⟩ := List.mem_map.1 among
      exact same ▸ instances inherited isInterface other membership

/-! ### Own fields -/

theorem add_ok {field : Field} (added : layout.add className field = .ok later) :
    findSlot? layout.slots field.key = none ∧
      later.slots = (if field.isStatic then layout.slots
        else layout.slots ++ [⟨layout.slots.length, field⟩]) ∧
      later.static = if field.isStatic then
        layout.static.insert field.key ⟨layout.static.size, field⟩ else layout.static := by
  unfold add at added
  dsimp only at added
  split at added
  · cases added
  next absent =>
    rw [not_or, Option.not_isSome_iff_eq_none] at absent
    refine ⟨absent.1, ?_⟩
    split at added
    next static =>
      cases added
      simp [static]
    next nonstatic =>
      cases added
      simp [nonstatic]

/-- A field is added under a new key. -/
theorem find?_static_of_add {field : Field} (added : layout.add className field = .ok later) :
    layout.static.find? field.key = none := by
  unfold add at added
  dsimp only at added
  split at added
  · cases added
  next absent =>
    rw [not_or] at absent
    simpa [Table.contains] using absent.2

theorem Lawful.add (lawful : layout.Lawful) {field : Field}
    (added : layout.add className field = .ok later) : later.Lawful := by
  obtain ⟨absent, slots, static⟩ := add_ok added
  by_cases isStatic : field.isStatic
  · rw [if_pos isStatic] at slots static
    refine ⟨slots ▸ lawful.numbered, slots ▸ lawful.distinct, slots ▸ lawful.instances, ?_⟩
    intro key slot found
    rw [static, Table.find?_insert] at found
    split at found
    · cases found
      exact isStatic
    · exact lawful.statics key slot found
  · rw [if_neg isStatic] at slots static
    refine ⟨?_, ?_, ?_, static ▸ lawful.statics⟩
    · have lengths : (layout.slots.map FieldSlot.field).length = layout.slots.length :=
        List.length_map _
      rw [slots, List.map_append, List.map_singleton, layOut_concat, ← lawful.numbered, lengths]
    · rw [slots, List.map_append, List.map_singleton, ← List.concat_eq_append, List.nodup_concat]
      refine ⟨fun known => ?_, lawful.distinct⟩
      rw [← findSlot?_isSome, absent] at known
      cases known
    · intro slot membership
      rw [slots, List.mem_append, List.mem_singleton] at membership
      rcases membership with before | new
      · exact lawful.instances slot before
      · rw [new]
        exact isStatic

/-- Reads the fields of a class file one after the other and adds them. -/
def addAll (file : ClassFile) (owner : ClassId) (className : String) :
    List (Member FieldFlags) → FieldLayout → Except LinkageError FieldLayout
  | [], layout => .ok layout
  | member :: rest, layout => do
      let field ← Field.ofMember file owner className member
      addAll file owner className rest (← layout.add className field)

variable {members : List (Member FieldFlags)}

theorem addAll_cons {member : Member FieldFlags} {field : Field}
    (read : Field.ofMember file owner className member = .ok field)
    (added : layout.add className field = .ok later) (rest : List (Member FieldFlags)) :
    addAll file owner className (member :: rest) layout =
      addAll file owner className rest later := by
  simp only [addAll, read, added, bind, Except.bind]

theorem Lawful.addAll (lawful : layout.Lawful)
    (added : addAll file owner className members layout = .ok later) : later.Lawful := by
  induction members generalizing layout with
  | nil =>
      cases added
      exact lawful
  | cons member rest inductionHypothesis =>
      obtain ⟨field, _, added⟩ := Except.bind_ok added
      obtain ⟨middle, addedFirst, added⟩ := Except.bind_ok added
      exact inductionHypothesis (lawful.add addedFirst) added

/-- Static fields stay where they are while others are added. -/
theorem find?_static_of_addAll (added : addAll file owner className members layout = .ok later)
    (found : layout.static.find? key = some slot) : later.static.find? key = some slot := by
  induction members generalizing layout with
  | nil =>
      cases added
      exact found
  | cons member rest inductionHypothesis =>
      obtain ⟨field, _, added⟩ := Except.bind_ok added
      obtain ⟨middle, addedFirst, added⟩ := Except.bind_ok added
      apply inductionHypothesis added
      rw [(add_ok addedFirst).2.2]
      split
      · have distinct : field.key ≠ key := by
          intro same
          rw [← same, find?_static_of_add addedFirst] at found
          cases found
        rw [Table.find?_insert, if_neg distinct, found]
      · exact found

theorem mem_addMissing {field : Field} (membership : slot ∈ addMissing slots field) :
    slot ∈ slots ∨ slot.field = field := by
  unfold addMissing at membership
  split at membership
  · exact .inl membership
  · rcases List.mem_append.1 membership with old | new
    · exact .inl old
    · exact .inr (by rw [List.mem_singleton.1 new])

theorem mem_foldl_addMissing {fields : List Field}
    (membership : slot ∈ fields.foldl addMissing slots) : slot ∈ slots ∨ slot.field ∈ fields := by
  induction fields generalizing slots with
  | nil => exact .inl membership
  | cons first rest inductionHypothesis =>
      rcases inductionHypothesis membership with before | among
      · refine (mem_addMissing before).imp_right fun same => ?_
        rw [same]
        exact List.mem_cons_self
      · exact .inr (List.mem_cons_of_mem _ among)

/-- What is inherited comes from the superclass or from one of the interfaces. -/
theorem mem_inherit {interfaces : List (List FieldSlot)}
    (membership : slot ∈ (inherit slots interfaces).slots) :
    slot ∈ slots ∨ ∃ inherited ∈ interfaces, slot.field ∈ inherited.map FieldSlot.field := by
  simp only [inherit] at membership
  induction interfaces generalizing slots with
  | nil => exact .inl membership
  | cons first rest inductionHypothesis =>
      rcases inductionHypothesis membership with before | ⟨inherited, isInterface, among⟩
      · exact (mem_foldl_addMissing before).imp_right fun among =>
          ⟨first, List.mem_cons_self, among⟩
      · exact .inr ⟨inherited, List.mem_cons_of_mem _ isInterface, among⟩

/-- What is added to a layout belongs to the class that declares it. -/
theorem owner_addAll (added : addAll file owner className members layout = .ok later) :
    (∀ slot ∈ later.slots, slot ∈ layout.slots ∨ slot.field.owner = owner) ∧
      ∀ key slot, later.static.find? key = some slot →
        layout.static.find? key = some slot ∨ slot.field.owner = owner := by
  induction members generalizing layout with
  | nil =>
      cases added
      exact ⟨fun _ => .inl, fun _ _ => .inl⟩
  | cons member rest inductionHypothesis =>
      obtain ⟨field, read, added⟩ := Except.bind_ok added
      obtain ⟨middle, addedFirst, added⟩ := Except.bind_ok added
      obtain ⟨instances, statics⟩ := inductionHypothesis added
      obtain ⟨_, slots, static⟩ := add_ok addedFirst
      have own := (Field.ofMember_owner read).1
      constructor
      · intro slot membership
        refine (instances slot membership).elim (fun before => ?_) .inr
        rw [slots] at before
        split at before
        · exact .inl before
        · rcases List.mem_append.1 before with old | new
          · exact .inl old
          · rw [List.mem_singleton.1 new]
            exact .inr own
      · intro key slot found
        refine (statics key slot found).elim (fun before => ?_) .inr
        rw [static] at before
        split at before
        · rw [Table.find?_insert] at before
          split at before
          · cases before
            exact .inr own
          · exact .inl before
        · exact .inl before

/-- The static fields of a layout are those of one class, and each has a place to itself. -/
structure Hosted (layout : FieldLayout) (owner : ClassId) (className : String) : Prop where
  owned : ∀ key slot, layout.static.find? key = some slot →
    slot.field.owner = owner ∧ slot.field.ownerName = className
  placed : ∀ key slot, layout.static.find? key = some slot → slot.offset < layout.static.size
  apart : ∀ key slot keyToo slotToo, layout.static.find? key = some slot →
    layout.static.find? keyToo = some slotToo → slotToo.offset = slot.offset → slotToo = slot

theorem hosted_inherit (slots : List FieldSlot) (interfaces : List (List FieldSlot)) :
    (inherit slots interfaces).Hosted owner className :=
  ⟨nofun, nofun, nofun⟩

theorem Hosted.add (hosted : layout.Hosted owner className) {field : Field}
    (own : field.owner = owner ∧ field.ownerName = className)
    (added : layout.add className field = .ok later) : later.Hosted owner className := by
  have absent := find?_static_of_add added
  obtain ⟨_, _, static⟩ := add_ok added
  by_cases isStatic : field.isStatic
  · rw [if_pos isStatic] at static
    have size : later.static.size = layout.static.size + 1 := by
      rw [static, Table.size_insert_of_absent _ _ absent]
    have cases {key : String} {slot : FieldSlot} (found : later.static.find? key = some slot) :
        slot = ⟨layout.static.size, field⟩ ∨ layout.static.find? key = some slot := by
      rw [static, Table.find?_insert] at found
      split at found
      · cases found
        exact .inl rfl
      · exact .inr found
    refine ⟨fun key slot found => ?_, fun key slot found => ?_,
      fun key slot keyToo slotToo found foundToo same => ?_⟩
    · rcases cases found with rfl | before
      · exact own
      · exact hosted.owned key slot before
    · rw [size]
      rcases cases found with rfl | before
      · exact Nat.lt_succ_self _
      · exact Nat.lt_succ_of_lt (hosted.placed key slot before)
    · rcases cases found with rfl | before
      all_goals rcases cases foundToo with rfl | beforeToo
      · rfl
      · exact absurd same (Nat.ne_of_lt (hosted.placed _ _ beforeToo))
      · exact absurd same.symm (Nat.ne_of_lt (hosted.placed _ _ before))
      · exact hosted.apart key slot keyToo slotToo before beforeToo same
  · rw [if_neg isStatic] at static
    exact ⟨static ▸ hosted.owned, static ▸ hosted.placed, static ▸ hosted.apart⟩

theorem Hosted.addAll (hosted : layout.Hosted owner className)
    (added : FieldLayout.addAll file owner className members layout = .ok later) :
    later.Hosted owner className := by
  induction members generalizing layout with
  | nil =>
      cases added
      exact hosted
  | cons member rest inductionHypothesis =>
      obtain ⟨field, read, added⟩ := Except.bind_ok added
      obtain ⟨middle, addedFirst, added⟩ := Except.bind_ok added
      exact inductionHypothesis (hosted.add (Field.ofMember_owner read) addedFirst) added

/-- The fields are those that a class file declares by the members, in their order. -/
def Reads (file : ClassFile) (owner : ClassId) (className : String) :
    List (Member FieldFlags) → List Field → Prop :=
  List.Forall₂ fun member field => Field.ofMember file owner className member = .ok field

/-- The fields of a class file that are not static are added in their order. -/
theorem slots_addAll (lawful : layout.Lawful)
    (added : FieldLayout.addAll file owner className members layout = .ok later) :
    ∃ fields, Reads file owner className members fields ∧
      later.slots = layOut (layout.slots.map FieldSlot.field ++
        fields.filter fun field => !field.isStatic) := by
  induction members generalizing layout with
  | nil =>
      cases added
      exact ⟨[], .nil, by simpa using lawful.numbered⟩
  | cons member rest inductionHypothesis =>
      obtain ⟨field, read, added⟩ := Except.bind_ok added
      obtain ⟨middle, addedFirst, added⟩ := Except.bind_ok added
      obtain ⟨fields, readRest, slots⟩ := inductionHypothesis (lawful.add addedFirst) added
      obtain ⟨_, slotsFirst, _⟩ := add_ok addedFirst
      refine ⟨field :: fields, .cons read readRest, ?_⟩
      rw [slots, slotsFirst]
      by_cases isStatic : field.isStatic
      · simp [isStatic]
      · simp [isStatic]

end FieldLayout
end JavaMachine

import JavaMachine.Proofs.FieldLayout
import JavaMachine.Proofs.Files

/-!
# Owners under other identities

Tables and layouts carry the identities of the classes that own methods and fields, but how they are
built does not depend on them: when all owners get other identities, what is built is the same but
for these.
-/

namespace JavaMachine

/-! ### Tables -/

namespace Table

universe u v w

variable {κ : Type u} {α : Type v} {β : Type w}

theorem eq_of_entries {table other : Table κ α} (same : table.entries = other.entries) :
    table = other := by
  obtain ⟨entries, distinct⟩ := table
  dsimp only at same
  subst same
  rfl

/-- The table with other values for the same keys. -/
def mapValues (change : α → β) (table : Table κ α) : Table κ β where
  entries := table.entries.map fun entry => (entry.1, change entry.2)
  keys_nodup := by
    rw [List.map_map]
    exact table.keys_nodup

@[simp] theorem size_mapValues (change : α → β) (table : Table κ α) :
    (table.mapValues change).size = table.size :=
  List.length_map _

theorem mapValues_mapValues {γ : Type w} {change : α → β} {again : β → γ} (table : Table κ α) :
    (table.mapValues change).mapValues again = table.mapValues fun value => again (change value) :=
  eq_of_entries (List.map_map ..)

variable [DecidableEq κ]

theorem lookupIn_map (change : α → β) (key : κ) (pairs : List (κ × α)) :
    lookupIn key (pairs.map fun entry => (entry.1, change entry.2)) =
      (lookupIn key pairs).map change := by
  induction pairs with
  | nil => rfl
  | cons head rest inductionHypothesis =>
      rw [List.map_cons, lookupIn, lookupIn, inductionHypothesis]
      split <;> rfl

@[simp] theorem find?_mapValues (change : α → β) (table : Table κ α) (key : κ) :
    (table.mapValues change).find? key = (table.find? key).map change :=
  lookupIn_map change key table.entries

@[simp] theorem contains_mapValues (change : α → β) (table : Table κ α) (key : κ) :
    (table.mapValues change).contains key = table.contains key := by
  rw [contains, find?_mapValues, Option.isSome_map, contains]

theorem putInto_map (change : α → β) (key : κ) (value : α) (pairs : List (κ × α)) :
    putInto key (change value) (pairs.map fun entry => (entry.1, change entry.2)) =
      (putInto key value pairs).map fun entry => (entry.1, change entry.2) := by
  induction pairs with
  | nil => rfl
  | cons head rest inductionHypothesis =>
      rw [List.map_cons, putInto, putInto]
      split
      · rfl
      · rw [inductionHypothesis, List.map_cons]

theorem insert_mapValues (change : α → β) (table : Table κ α) (key : κ) (value : α) :
    (table.mapValues change).insert key (change value) =
      (table.insert key value).mapValues change :=
  eq_of_entries (putInto_map change key value table.entries)

theorem insertMissing_mapValues (change : α → β) (table other : Table κ α) :
    (table.mapValues change).insertMissing (other.mapValues change) =
      (table.insertMissing other).mapValues change := by
  obtain ⟨pairs, distinct⟩ := other
  change List.foldl _ _ (pairs.map _) = (pairs.foldl _ table).mapValues change
  clear distinct
  rw [List.foldl_map]
  induction pairs generalizing table with
  | nil => rfl
  | cons head rest inductionHypothesis =>
      rw [List.foldl_cons, List.foldl_cons, find?_mapValues, Option.isSome_map]
      split
      · exact inductionHypothesis table
      · rw [insert_mapValues]
        exact inductionHypothesis _

theorem foldl_insertMissing_mapValues (change : α → β) (table : Table κ α)
    (others : List (Table κ α)) :
    (others.map (mapValues change)).foldl insertMissing (table.mapValues change) =
      (others.foldl insertMissing table).mapValues change := by
  induction others generalizing table with
  | nil => rfl
  | cons first rest inductionHypothesis =>
      rw [List.map_cons, List.foldl_cons, List.foldl_cons, insertMissing_mapValues]
      exact inductionHypothesis _

end Table

/-! ### Methods -/

/-- The method with another identity for its owner. -/
def Method.rename (owners : ClassId → ClassId) (method : Method) : Method :=
  { method with owner := owners method.owner }

/-- The tables with other identities for the owners of methods. -/
def MethodTables.rename (owners : ClassId → ClassId) (tables : MethodTables) : MethodTables where
  declared := tables.declared.mapValues (Method.rename owners)
  virtual := tables.virtual.mapValues (Method.rename owners)
  nonvirtual := tables.nonvirtual.mapValues (Method.rename owners)
  static := tables.static.mapValues (Method.rename owners)

variable {owners : ClassId → ClassId} {file : ClassFile} {owner : ClassId} {className : String}

theorem Method.ofMember_rename (member : Member MethodFlags) :
    ofMember file (owners owner) className member =
      (ofMember file owner className member).map (Method.rename owners) := by
  unfold ofMember
  cases file.requireText member.name with
  | error cause => rfl
  | ok name =>
      cases known : file.requireText member.descriptor with
      | error cause => rfl
      | ok descriptor =>
          simp only [bind, Except.bind]
          split
          · rfl
          · cases codeIn file member.attributes none <;> rfl

namespace MethodTables

/-- Tables are built alike whether or not methods are changed in this way. -/
structure Ignore (change : Method → Method) : Prop where
  key (method : Method) : (change method).key = method.key
  name (method : Method) : (change method).name = method.name
  ownerName (method : Method) : (change method).ownerName = method.ownerName
  flags (method : Method) : (change method).flags = method.flags

/-- The tables with all methods changed. -/
def mapMethods (change : Method → Method) (tables : MethodTables) : MethodTables where
  declared := tables.declared.mapValues change
  virtual := tables.virtual.mapValues change
  nonvirtual := tables.nonvirtual.mapValues change
  static := tables.static.mapValues change

theorem enter_mapMethods {change : Method → Method} (ignore : Ignore change)
    (tables : MethodTables) (method : Method) :
    (tables.mapMethods change).enter className (change method) =
      (tables.enter className method).map (mapMethods change) := by
  have isStatic (method : Method) : (change method).isStatic = method.isStatic :=
    congrArg MethodFlags.isStatic (ignore.flags method)
  have isPrivate (method : Method) : (change method).isPrivate = method.isPrivate :=
    congrArg MethodFlags.isPrivate (ignore.flags method)
  have isFinal (method : Method) : (change method).isFinal = method.isFinal :=
    congrArg MethodFlags.isFinal (ignore.flags method)
  have overridden : ((tables.virtual.find? method.key).map change).filter Method.isFinal =
      ((tables.virtual.find? method.key).filter Method.isFinal).map change := by
    rw [Option.filter_map, show Method.isFinal ∘ change = Method.isFinal from funext isFinal]
  simp only [enter, mapMethods, Table.contains_mapValues, Table.find?_mapValues, ignore.key,
    ignore.name, isStatic, isPrivate, isFinal, Table.insert_mapValues, overridden]
  split
  · rfl
  · split
    · rfl
    · split
      · rfl
      · cases (tables.virtual.find? method.key).filter Method.isFinal with
        | some overridden => simp only [Option.map_some, Except.map, ignore.ownerName]
        | none =>
            simp only [Except.map, Option.map_none]
            split <;> rfl

/-- Tables see of the owners of methods no more than their names. -/
theorem ignore_rename (owners : ClassId → ClassId) : Ignore (Method.rename owners) :=
  ⟨fun _ => rfl, fun _ => rfl, fun _ => rfl, fun _ => rfl⟩

theorem enter_rename (tables : MethodTables) (method : Method) :
    (tables.rename owners).enter className (method.rename owners) =
      (tables.enter className method).map (rename owners) :=
  enter_mapMethods (ignore_rename owners) tables method

theorem enterAll_rename (members : List (Member MethodFlags)) (tables : MethodTables) :
    enterAll file (owners owner) className members (tables.rename owners) =
      (enterAll file owner className members tables).map (rename owners) := by
  induction members generalizing tables with
  | nil => rfl
  | cons member rest inductionHypothesis =>
      rw [enterAll, enterAll, Method.ofMember_rename]
      cases Method.ofMember file owner className member with
      | error cause => rfl
      | ok method =>
          simp only [Except.map, bind, Except.bind, enter_rename]
          cases tables.enter className method with
          | error cause => rfl
          | ok entered => exact inductionHypothesis entered

theorem build_rename (inherited : Table String Method) (interfaces : List (Table String Method)) :
    build file (owners owner) className (inherited.mapValues (Method.rename owners))
        (interfaces.map (Table.mapValues (Method.rename owners))) =
      (build file owner className inherited interfaces).map (rename owners) := by
  have entered : enterAll file (owners owner) className file.methods
      (MethodTables.rename owners { virtual := inherited }) =
        (enterAll file owner className file.methods { virtual := inherited }).map
          (rename owners) :=
    enterAll_rename _ _
  rw [build, build]
  change enterAll file (owners owner) className file.methods
    (MethodTables.rename owners { virtual := inherited }) >>= _ = _
  rw [entered]
  cases enterAll file owner className file.methods { virtual := inherited } with
  | error cause => rfl
  | ok tables =>
      simp only [Except.map, bind, Except.bind, pure, Except.pure, rename,
        Table.foldl_insertMissing_mapValues]

end MethodTables

/-! ### Fields -/

/-- The field with another identity for its owner. -/
def Field.rename (owners : ClassId → ClassId) (field : Field) : Field :=
  { field with owner := owners field.owner }

/-- The slot with another identity for the owner of its field. -/
def FieldSlot.rename (owners : ClassId → ClassId) (slot : FieldSlot) : FieldSlot :=
  { slot with field := slot.field.rename owners }

/-- The layout with other identities for the owners of fields. -/
def FieldLayout.rename (owners : ClassId → ClassId) (layout : FieldLayout) : FieldLayout where
  slots := layout.slots.map (FieldSlot.rename owners)
  static := layout.static.mapValues (FieldSlot.rename owners)

namespace Field

@[simp] theorem rename_key (owners : ClassId → ClassId) (field : Field) :
    (field.rename owners).key = field.key := rfl

@[simp] theorem firstValue?_rename (owners : ClassId → ClassId) (field : Field) :
    (field.rename owners).firstValue? file = field.firstValue? file := rfl

theorem ofMember_rename (member : Member FieldFlags) :
    ofMember file (owners owner) className member =
      (ofMember file owner className member).map (Field.rename owners) := by
  unfold ofMember
  cases file.requireText member.name with
  | error cause => rfl
  | ok name =>
      cases known : file.requireText member.descriptor with
      | error cause => rfl
      | ok descriptor =>
          simp only [bind, Except.bind]
          split
          · rfl
          · cases constantIn file member.attributes none <;> rfl

end Field

namespace FieldLayout

theorem isSome_findSlot?_rename (slots : List FieldSlot) (key : String) :
    (findSlot? (slots.map (FieldSlot.rename owners)) key).isSome =
      (findSlot? slots key).isSome := by
  rw [findSlot?, List.find?_map, Option.isSome_map]
  rfl

theorem addMissing_rename (slots : List FieldSlot) (field : Field) :
    addMissing (slots.map (FieldSlot.rename owners)) (field.rename owners) =
      (addMissing slots field).map (FieldSlot.rename owners) := by
  rw [addMissing, addMissing, Field.rename_key, isSome_findSlot?_rename]
  split
  · rfl
  · rw [List.map_append, List.length_map]
    rfl

theorem inherit_rename (superclass : List FieldSlot) (interfaces : List (List FieldSlot)) :
    inherit (superclass.map (FieldSlot.rename owners))
        (interfaces.map (List.map (FieldSlot.rename owners))) =
      (inherit superclass interfaces).rename owners := by
  have missing (fields : List FieldSlot) (slots : List FieldSlot) :
      ((fields.map (FieldSlot.rename owners)).map FieldSlot.field).foldl addMissing
          (slots.map (FieldSlot.rename owners)) =
        ((fields.map FieldSlot.field).foldl addMissing slots).map (FieldSlot.rename owners) := by
    induction fields generalizing slots with
    | nil => rfl
    | cons first rest inductionHypothesis =>
        simp only [List.map_cons, List.foldl_cons]
        rw [← inductionHypothesis, ← addMissing_rename]
        rfl
  rw [inherit, inherit, rename]
  congr 1
  induction interfaces generalizing superclass with
  | nil => rfl
  | cons first rest inductionHypothesis =>
      rw [List.map_cons, List.foldl_cons, List.foldl_cons, missing]
      exact inductionHypothesis _

theorem add_rename (layout : FieldLayout) (field : Field) :
    (layout.rename owners).add className (field.rename owners) =
      (layout.add className field).map (rename owners) := by
  have sameKind : (field.rename owners).isStatic = field.isStatic := rfl
  simp only [add, rename, Field.rename_key, sameKind, isSome_findSlot?_rename,
    Table.contains_mapValues, Table.size_mapValues, List.length_map]
  split
  · rfl
  · split
    · rw [Except.map, rename, ← Table.insert_mapValues]
      rfl
    · rw [Except.map, rename, List.map_append]
      rfl

theorem addAll_rename (members : List (Member FieldFlags)) (layout : FieldLayout) :
    addAll file (owners owner) className members (layout.rename owners) =
      (addAll file owner className members layout).map (rename owners) := by
  induction members generalizing layout with
  | nil => rfl
  | cons member rest inductionHypothesis =>
      rw [addAll, addAll, Field.ofMember_rename]
      cases Field.ofMember file owner className member with
      | error cause => rfl
      | ok field =>
          simp only [Except.map, bind, Except.bind, add_rename]
          cases layout.add className field with
          | error cause => rfl
          | ok added => exact inductionHypothesis added

end FieldLayout
end JavaMachine

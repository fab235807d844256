import JavaMachine.Proofs.PrimitiveArrays
import Mathlib.Algebra.BigOperators.Ring.List
import Mathlib.Algebra.Ring.Nat

/-!
# Trees of arrays

An array of several dimensions is allocated as a tree, an array before its elements and each element
with its own elements before the next one. The order of allocation gives every array of the tree a
number, from which it can be told which objects there are afterwards, and that no two paths of
indices lead to the same one.
-/

namespace JavaMachine

/-! ### Numbers of arrays -/

/-- The number of arrays in a tree. All arrays on a level have the same length; the lengths of the
levels are given from the root on. -/
def treeSize : (lengths : List Nat) → Nat
  | [] => 0
  | length :: rest => 1 + length * treeSize rest

/-- On the first level there is the root, and on each other one there are as many arrays as there
are elements on the level above. -/
theorem treeSize_eq_sum (lengths : List Nat) : treeSize lengths =
    ((List.range lengths.length).map fun depth => (lengths.take depth).prod).sum := by
  induction lengths with
  | nil => rfl
  | cons length rest inductionHypothesis =>
      rw [treeSize, inductionHypothesis, ← List.sum_map_mul_left, List.length_cons,
        List.range_succ_eq_map, List.map_cons, List.sum_cons, List.map_map]
      rfl

/-- The path of indices leads to an array of a tree with the lengths. -/
def IsPath : (lengths path : List Nat) → Prop
  | [], _ => False
  | _ :: _, [] => True
  | length :: rest, place :: path => place < length ∧ IsPath rest path

/-- The number of the array to which a path leads. -/
def treeNumber : (lengths path : List Nat) → Nat
  | [], _ | _ :: _, [] => 0
  | _ :: rest, place :: path => 1 + place * treeSize rest + treeNumber rest path

/-- The places of the elements below an element are within the tree. -/
theorem add_mul_add_lt {place length size number : Nat} (inside : place < length)
    (small : number < size) : place * size + number < length * size := by
  have fits := Nat.mul_le_mul_right size inside
  rw [Nat.succ_mul] at fits
  omega

theorem IsPath.treeNumber_lt {lengths path : List Nat} (leads : IsPath lengths path) :
    treeNumber lengths path < treeSize lengths := by
  induction lengths generalizing path with
  | nil => exact absurd leads not_false
  | cons length rest inductionHypothesis =>
      cases path with
      | nil =>
          rw [treeNumber, treeSize]
          omega
      | cons place path =>
          have within := add_mul_add_lt leads.1 (inductionHypothesis leads.2)
          rw [treeNumber, treeSize]
          omega

/-- Different paths lead to different numbers. -/
theorem IsPath.eq_of_treeNumber_eq {lengths path other : List Nat} (leads : IsPath lengths path)
    (leadsToo : IsPath lengths other) (same : treeNumber lengths path = treeNumber lengths other) :
    path = other := by
  induction lengths generalizing path other with
  | nil => exact absurd leads not_false
  | cons length rest inductionHypothesis =>
      match path, other with
      | [], [] => rfl
      | [], place :: other | place :: path, [] =>
          simp only [treeNumber] at same
          omega
      | place :: path, otherPlace :: other =>
          have small := leads.2.treeNumber_lt
          have smallToo := leadsToo.2.treeNumber_lt
          have sums : treeNumber rest path + treeSize rest * place =
              treeNumber rest other + treeSize rest * otherPlace := by
            simp only [treeNumber] at same
            rw [Nat.mul_comm _ place, Nat.mul_comm _ otherPlace]
            omega
          -- the place is the quotient, and the number below it the remainder
          have places := congrArg (· / treeSize rest) sums
          have numbers := congrArg (· % treeSize rest) sums
          simp only [Nat.add_mul_div_left _ _ (Nat.zero_lt_of_lt small), Nat.div_eq_of_lt small,
            Nat.div_eq_of_lt smallToo, Nat.zero_add] at places
          simp only [Nat.add_mul_mod_self_left, Nat.mod_eq_of_lt small,
            Nat.mod_eq_of_lt smallToo] at numbers
          rw [places, inductionHypothesis leads.2 leadsToo.2 numbers]

/-! ### Blocks of the same size -/

section Blocks

variable {α : Type} {block : Nat → List α} {count size place number : Nat}

theorem length_blocks (sizes : ∀ place, (block place).length = size) (count : Nat) :
    ((List.range count).flatMap block).length = count * size := by
  induction count with
  | zero => exact (Nat.zero_mul size).symm
  | succ count inductionHypothesis =>
      rw [List.range_succ, List.flatMap_append, List.length_append, inductionHypothesis,
        Nat.succ_mul, List.flatMap_singleton, sizes]

/-- What is found in a list of blocks is found in the block to which the place belongs. -/
theorem getElem?_blocks (sizes : ∀ place, (block place).length = size) (inside : place < count)
    (small : number < size) :
    ((List.range count).flatMap block)[place * size + number]? = (block place)[number]? := by
  induction count with
  | zero => exact absurd inside (Nat.not_lt_zero place)
  | succ count inductionHypothesis =>
      rw [List.range_succ, List.flatMap_append]
      rcases Nat.lt_or_eq_of_le (Nat.le_of_lt_succ inside) with before | last
      · rw [List.getElem?_append_left, inductionHypothesis before]
        rw [length_blocks sizes]
        exact add_mul_add_lt before small
      · rw [List.getElem?_append_right, length_blocks sizes, last]
        · simp
        · rw [length_blocks sizes, last]
          exact Nat.le_add_right _ _

end Blocks

/-! ### The arrays of a tree -/

/-- The content of a new array of the class. -/
def Class.blank (type : Class) (length : Nat) : ObjectBody :=
  match type.kind with
  | .primitiveArray element _ => .primitives (.zeroed element length)
  | _ => .references (Array.replicate length none)

/-- The type of the elements of an array of the class. -/
def Class.elementType (type : Class) : ValueType :=
  match type.kind with
  | .primitiveArray element _ => .primitive element
  | _ => .object

/-- The element of an array at a place. -/
def Object.element? (object : Object) (place : Nat) : Option Value :=
  match object.body with
  | .record _ _ => none
  | .primitives elements => elements.value? place
  | .references elements => elements[place]?.map .reference

theorem PrimitiveArray.value?_zeroed (element : Primitive) {length place : Nat}
    (inside : place < length) :
    (zeroed element length).value? place = some (Value.default (.primitive element)) := by
  cases element <;>
    simp only [value?, zeroed, PrimitiveArray.element, Primitive.cellType, read?,
      Array.getElem?_replicate, if_pos inside] <;> rfl

theorem PrimitiveArray.size_zeroed (element : Primitive) (length : Nat) :
    (zeroed element length).size = length := by
  cases element <;> exact Array.size_replicate

theorem Class.length?_blank (type : Class) (id : ClassId) (length : Nat) :
    (Object.mk id (type.blank length)).length? = some length := by
  unfold blank Object.length?
  cases type.kind with
  | primitiveArray element supertypes =>
      exact congrArg some (PrimitiveArray.size_zeroed element length)
  | declared body | referenceArray component dimension supertypes => simp

/-- The elements of a new array are zero or null. -/
theorem Class.element?_blank (type : Class) (id : ClassId) {length place : Nat}
    (inside : place < length) : (Object.mk id (type.blank length)).element? place =
      some (Value.default type.elementType) := by
  unfold blank elementType Object.element?
  cases type.kind with
  | primitiveArray element supertypes => exact PrimitiveArray.value?_zeroed element inside
  | declared body | referenceArray component dimension supertypes =>
      simp only [Array.getElem?_replicate, if_pos inside]
      rfl

theorem Class.component?_eq_some {type : Class} {component : ClassId} :
    type.component? = some component ↔ ∃ dimension supertypes,
      type.kind = .referenceArray component dimension supertypes := by
  unfold component?
  cases type.kind with
  | declared body | primitiveArray element supertypes => simp
  | referenceArray own dimension supertypes => simp

section Trees

/-- Each array class has one dimension more than its component. -/
def Layered (types : ClassId → Class) : Prop :=
  ∀ id component, (types id).component? = some component →
    (types id).dimension = (types component).dimension + 1

variable {types : ClassId → Class} {id component : ClassId} {lengths rest path : List Nat}
variable {length next first place number : Nat}

/-- Arrays of more than one dimension are arrays of arrays. -/
theorem Layered.exists_component (layered : Layered types)
    (dimension : (types id).dimension = rest.length + 2) : ∃ component,
      (types id).component? = some component ∧
        (types component).dimension = rest.length + 1 := by
  have below := layered id
  cases kind : (types id).kind with
  | declared body | primitiveArray element supertypes =>
      rw [Class.dimension, kind] at dimension
      dsimp only at dimension
      omega
  | referenceArray component own supertypes =>
      have known : (types id).component? = some component := by rw [Class.component?, kind]
      have more := below component known
      exact ⟨component, known, by omega⟩

/-- The class of the arrays that are so many levels below an array of the class. -/
def componentAt (types : ClassId → Class) (id : ClassId) : (depth : Nat) → Option ClassId
  | 0 => some id
  | depth + 1 => (types id).component?.bind fun component => componentAt types component depth

/-- Where the element of the root at a place stands, if the root has the number `first`. -/
def elementNumber (rest : List Nat) (first place : Nat) : Nat := first + 1 + place * treeSize rest

variable (types) in
/-- The arrays of a tree in the order in which they are allocated, the first of which becomes the
object with the number `first`. -/
def arrayTree : (lengths : List Nat) → ClassId → (first : Nat) → List Object
  | [], _, _ => []
  | [length], id, _ => [⟨id, (types id).blank length⟩]
  | length :: next :: rest, id, first =>
      match (types id).component? with
      | none => []
      | some component =>
          let number := elementNumber (next :: rest) first
          ⟨id, .references ((List.range length).map fun place => some ⟨number place⟩).toArray⟩ ::
            (List.range length).flatMap fun place =>
              arrayTree (next :: rest) component (number place)

theorem arrayTree_cons (known : (types id).component? = some component) :
    arrayTree types (length :: next :: rest) id first =
      ⟨id, .references ((List.range length).map fun place =>
        some ⟨elementNumber (next :: rest) first place⟩).toArray⟩ ::
          (List.range length).flatMap fun place => arrayTree types (next :: rest) component
            (elementNumber (next :: rest) first place) := by
  rw [arrayTree, known]

theorem length_arrayTree (layered : Layered types)
    (dimension : (types id).dimension = lengths.length) :
    (arrayTree types lengths id first).length = treeSize lengths := by
  induction lengths generalizing id first with
  | nil => rfl
  | cons length rest inductionHypothesis =>
      cases rest with
      | nil => rfl
      | cons next rest =>
          obtain ⟨component, known, below⟩ := layered.exists_component dimension
          rw [arrayTree_cons known, List.length_cons,
            length_blocks fun _ => inductionHypothesis below, Nat.add_comm]
          rfl

/-- An array below an element of the root is found in the tree of that element. -/
theorem getElem?_arrayTree (layered : Layered types)
    (dimension : (types id).dimension = rest.length + 2)
    (known : (types id).component? = some component) (inside : place < length)
    (small : number < treeSize (next :: rest)) :
    (arrayTree types (length :: next :: rest) id first)[
        1 + place * treeSize (next :: rest) + number]? =
      (arrayTree types (next :: rest) component
        (elementNumber (next :: rest) first place))[number]? := by
  have below : (types component).dimension = (next :: rest).length := by
    have more := layered id component known
    rw [List.length_cons]
    omega
  rw [arrayTree_cons known, show 1 + place * treeSize (next :: rest) + number =
    place * treeSize (next :: rest) + number + 1 by omega, List.getElem?_cons_succ]
  exact getElem?_blocks (fun _ => length_arrayTree layered below) inside small

/-- The array is one to which the path leads in a tree of arrays of the class: of its level in class
and length, and on the last level with elements that are zero or null. -/
structure StandsAt (types : ClassId → Class) (lengths : List Nat) (id : ClassId) (path : List Nat)
    (object : Object) : Prop where
  type : componentAt types id path.length = some object.type
  length : object.length? = lengths[path.length]?
  blank : path.length + 1 = lengths.length → ∀ length, object.length? = some length →
    ∀ place < length, object.element? place =
      some (Value.default (types object.type).elementType)

/-- The number of a path tells where its array is in the tree. -/
theorem exists_standsAt (layered : Layered types)
    (dimension : (types id).dimension = lengths.length) (leads : IsPath lengths path) : ∃ object,
      (arrayTree types lengths id first)[treeNumber lengths path]? = some object ∧
        StandsAt types lengths id path object := by
  induction lengths generalizing id first path with
  | nil => exact absurd leads not_false
  | cons length rest inductionHypothesis =>
      match rest, path with
      | [], [] =>
          have same := (types id).length?_blank id length
          refine ⟨_, rfl, rfl, same, fun _ other known place inside => ?_⟩
          cases known.symm.trans same
          exact (types id).element?_blank id inside
      | [], _ :: _ => exact absurd leads.2 not_false
      | next :: rest, [] =>
          obtain ⟨component, known, _⟩ := layered.exists_component dimension
          rw [arrayTree_cons known]
          refine ⟨_, rfl, rfl, ?_, nofun⟩
          simp [Object.length?]
      | next :: rest, place :: path =>
          obtain ⟨component, known, below⟩ := layered.exists_component dimension
          obtain ⟨object, found, stands⟩ := inductionHypothesis below leads.2
          refine ⟨object, ?_, ?_, stands.length, fun last => stands.blank (Nat.succ.inj last)⟩
          · rw [treeNumber, getElem?_arrayTree layered dimension known leads.1
              leads.2.treeNumber_lt]
            exact found
          · rw [List.length_cons, componentAt, known]
            exact stands.type

namespace World

variable {world : World}

/-- The object that is reached from an array by going to the elements at the places one after the
other. -/
def follow (world : World) : (root : ObjectId) → (path : List Nat) → Option ObjectId
  | root, [] => some root
  | root, place :: path =>
      match (world.object root).element? place with
      | some (.reference (some element)) => world.follow element path
      | _ => none

/-- The world holds the tree from the number on. -/
def HoldsTree (world : World) (tree : List Object) (first : Nat) : Prop :=
  ∀ number object, tree[number]? = some object → world.objects[first + number]? = some object

theorem object_of_getElem? {number : Nat} {object : Object}
    (found : world.objects[number]? = some object) : world.object ⟨number⟩ = object := by
  rw [World.object, Array.getD_eq_getD_getElem?, found]
  rfl

/-- In a world that holds the tree paths lead to the arrays with their numbers. -/
theorem HoldsTree.follow (layered : Layered types)
    (dimension : (types id).dimension = lengths.length)
    (holds : world.HoldsTree (arrayTree types lengths id first) first)
    (leads : IsPath lengths path) :
    world.follow ⟨first⟩ path = some ⟨first + treeNumber lengths path⟩ := by
  induction lengths generalizing id first path with
  | nil => exact absurd leads not_false
  | cons length rest inductionHypothesis =>
      match rest, path with
      | [], [] | _ :: _, [] => rfl
      | [], _ :: _ => exact absurd leads.2 not_false
      | next :: rest, place :: path =>
          obtain ⟨component, known, below⟩ := layered.exists_component dimension
          have root := holds 0 _ (by rw [arrayTree_cons known, List.getElem?_cons_zero])
          have element : (world.object ⟨first⟩).element? place =
              some (.reference (some ⟨elementNumber (next :: rest) first place⟩)) := by
            rw [Nat.add_zero] at root
            rw [object_of_getElem? root]
            simp [Object.element?, leads.1]
          have holdsBelow : world.HoldsTree (arrayTree types (next :: rest) component
              (elementNumber (next :: rest) first place))
                (elementNumber (next :: rest) first place) := by
            intro number object found
            have small : number < treeSize (next :: rest) := by
              rw [← length_arrayTree layered below]
              exact (List.getElem?_eq_some_iff.1 found).1
            have there := holds _ object
              ((getElem?_arrayTree layered dimension known leads.1 small).trans found)
            rw [← there, elementNumber]
            congr 1
            omega
          rw [World.follow, element]
          dsimp only
          rw [inductionHypothesis below holdsBelow leads.2, treeNumber, elementNumber]
          congr 2
          omega

end World
end Trees

/-! ### Allocation -/

namespace World

variable {world : World} {id component : ClassId}

/-- The world with more objects. -/
def append (world : World) (new : List Object) : World :=
  { world with objects := world.objects ++ new.toArray }

@[simp] theorem append_append (world : World) (new newer : List Object) :
    (world.append new).append newer = world.append (new ++ newer) := by
  simp [append]

@[simp] theorem size_append (world : World) (new : List Object) :
    (world.append new).objects.size = world.objects.size + new.length := by
  simp [append]

theorem runFrom_allocate (type : ClassId) (body : ObjectBody) :
    runFrom world (allocate type body) =
      (.ok ⟨world.objects.size⟩, world.append [⟨type, body⟩]) := by
  rw [append, ← Array.push_eq_append]
  rfl

theorem runFrom_allocatePrimitives {element : Primitive} {supertypes : ArraySupertypes}
    {length : Nat} (kind : (world.type id).kind = .primitiveArray element supertypes)
    (small : length < unreservable) : runFrom world (allocatePrimitives id length) =
      (.ok ⟨world.objects.size⟩, world.append [⟨id, .primitives (.zeroed element length)⟩]) := by
  rw [allocatePrimitives, runFrom_bind_ok runFrom_get]
  simp only [kind, if_pos small]
  exact runFrom_allocate id _

theorem runFrom_allocateReferences {dimension length : Nat} {supertypes : ArraySupertypes}
    (kind : (world.type id).kind = .referenceArray component dimension supertypes)
    (small : length < unreservable) : runFrom world (allocateReferences id length) =
      (.ok ⟨world.objects.size⟩,
        world.append [⟨id, .references (Array.replicate length none)⟩]) := by
  rw [allocateReferences, runFrom_bind_ok runFrom_get]
  simp only [kind, if_pos small]
  exact runFrom_allocate id _

/-- The root of a tree is filled after its elements have been made. -/
theorem setObject_append (root changed : Object) (below : List Object) :
    (world.append (root :: below)).setObject ⟨world.objects.size⟩ changed =
      world.append (changed :: below) := by
  simp [setObject, append]

/-- Elements that become blocks of objects of the same size stand at regular distances. -/
theorem runFrom_makeElements {make : WorldM ObjectId} {block : Nat → List Object} {size : Nat}
    (sizes : ∀ first, (block first).length = size)
    (makes : ∀ new, runFrom (world.append new) make =
      (.ok ⟨world.objects.size + new.length⟩,
        world.append (new ++ block (world.objects.size + new.length))))
    (count : Nat) (made : Array (Option ObjectId)) (new : List Object) :
    runFrom (world.append new) (makeElements make count made) =
      (.ok (made ++ ((List.range count).map fun place =>
          some ⟨world.objects.size + new.length + place * size⟩).toArray),
        world.append (new ++ (List.range count).flatMap fun place =>
          block (world.objects.size + new.length + place * size))) := by
  induction count generalizing made new with
  | zero => simp [makeElements]; rfl
  | succ count inductionHypothesis =>
      have numbers (place : Nat) : world.objects.size +
          (new ++ block (world.objects.size + new.length)).length + place * size =
            world.objects.size + new.length + (place + 1) * size := by
        rw [List.length_append, sizes, Nat.succ_mul]
        omega
      rw [makeElements, runFrom_bind_ok (makes new), inductionHypothesis]
      simp only [numbers, List.range_succ_eq_map]
      simp [List.flatMap_map, Function.comp_def]

theorem runFrom_allocateNested_single {length : Nat} (dimension : (world.type id).dimension = 1)
    (small : length < unreservable) : runFrom world (allocateNested [length] id) =
      (.ok ⟨world.objects.size⟩, world.append [⟨id, (world.type id).blank length⟩]) := by
  rw [allocateNested, runFrom_bind_ok runFrom_get, Class.blank]
  simp only [List.isEmpty_nil, if_true]
  cases kind : (world.type id).kind with
  | declared body =>
      rw [Class.dimension, kind] at dimension
      cases dimension
  | primitiveArray element supertypes => exact runFrom_allocatePrimitives kind small
  | referenceArray component own supertypes => exact runFrom_allocateReferences kind small

/-- An array of several dimensions is allocated as a tree. -/
theorem runFrom_allocateNested {lengths : List Nat} (layered : Layered world.type)
    (given : lengths ≠ []) (dimension : (world.type id).dimension = lengths.length)
    (small : ∀ length ∈ lengths, length < unreservable) :
    runFrom world (allocateNested lengths id) = (.ok ⟨world.objects.size⟩,
      world.append (arrayTree world.type lengths id world.objects.size)) := by
  induction lengths generalizing world id with
  | nil => exact absurd rfl given
  | cons length rest inductionHypothesis =>
      have fits := small length List.mem_cons_self
      cases rest with
      | nil => exact runFrom_allocateNested_single dimension fits
      | cons next rest =>
          obtain ⟨component, known, below⟩ := layered.exists_component dimension
          have sizes (first : Nat) : (arrayTree world.type (next :: rest) component first).length =
              treeSize (next :: rest) := length_arrayTree layered below
          have makes (new : List Object) : runFrom (world.append new)
              (allocateNested (next :: rest) component) =
                (.ok ⟨world.objects.size + new.length⟩, world.append (new ++
                  arrayTree world.type (next :: rest) component
                    (world.objects.size + new.length))) := by
            rw [← append_append, ← size_append]
            exact inductionHypothesis layered (List.cons_ne_nil next rest) below
              fun length among => small length (List.mem_cons_of_mem _ among)
          -- the elements are made after the root and before it is filled
          obtain ⟨own, supertypes, kind⟩ := Class.component?_eq_some.1 known
          rw [allocateNested, runFrom_bind_ok runFrom_get]
          simp only [kind, List.isEmpty_cons, Bool.false_eq_true, if_false]
          rw [runFrom_bind_ok (runFrom_allocateReferences kind fits),
            runFrom_bind_ok (runFrom_makeElements sizes makes length #[] _),
            runFrom_bind_ok runFrom_modify, arrayTree_cons known]
          simp only [List.singleton_append, setObject_append, Array.empty_append,
            List.length_singleton]
          rfl

/-- A tree of arrays has come in, and nothing else is changed. Each path leads to a new array of its
own, which is as it should be there. -/
structure Builds (world : World) (id : ClassId) (lengths : List Nat) (root : ObjectId)
    (later : World) : Prop where
  only : ∃ new, later = world.append new
  count : later.objects.size = world.objects.size +
    ((List.range lengths.length).map fun depth => (lengths.take depth).prod).sum
  reaches : ∀ path, IsPath lengths path → ∃ array, later.follow root path = some array ∧
    world.objects.size ≤ array.index ∧ array.index < later.objects.size ∧
      StandsAt world.type lengths id path (later.object array)
  apart : ∀ path other, IsPath lengths path → IsPath lengths other →
    later.follow root path = later.follow root other → path = other

theorem builds_append {lengths : List Nat} (layered : Layered world.type)
    (dimension : (world.type id).dimension = lengths.length) :
    world.Builds id lengths ⟨world.objects.size⟩
      (world.append (arrayTree world.type lengths id world.objects.size)) := by
  have holds : (world.append (arrayTree world.type lengths id world.objects.size)).HoldsTree
      (arrayTree world.type lengths id world.objects.size) world.objects.size := by
    intro number object found
    rw [append, Array.getElem?_append_right (Nat.le_add_right _ _), Nat.add_sub_cancel_left,
      List.getElem?_toArray, found]
  have size : (arrayTree world.type lengths id world.objects.size).length = treeSize lengths :=
    length_arrayTree layered dimension
  constructor
  · exact ⟨_, rfl⟩
  · rw [size_append, size, treeSize_eq_sum]
  · intro path leads
    obtain ⟨object, found, stands⟩ := exists_standsAt layered dimension leads
    refine ⟨_, holds.follow layered dimension leads, Nat.le_add_right _ _, ?_, ?_⟩
    · rw [size_append, size]
      exact Nat.add_lt_add_left leads.treeNumber_lt _
    · rw [object_of_getElem? (holds _ object found)]
      exact stands
  · intro path other leads leadsToo same
    rw [holds.follow layered dimension leads, holds.follow layered dimension leadsToo] at same
    apply leads.eq_of_treeNumber_eq leadsToo
    simpa using same

end World
end JavaMachine

import JavaMachine.Proofs.Initialization

/-!
# Dynamic dispatch

The table for dispatch of a linked class holds under a key the first declaration that a walk
through all types above the class meets: the class itself, then the walk of its superclass, then
those of its declared interfaces, in order. So declarations in classes come before those in
interfaces, and an interface may come before another that extends it.
-/

namespace JavaMachine

/-- A call with a receiver runs what the receiver's class selects, unless that has no body. -/
theorem FrameM.runFrom_invokeDynamic {Client : Type} {run : Runner Client}
    {frame middle later : Frame Client} {current : ClassId} {index : UInt16} {resolved : Method}
    {receiver : ObjectId} {arguments : List Value}
    (resolves : runFrom frame (methodAt current index) = (.ok resolved, middle))
    (dynamic : ¬ resolved.isStatic)
    (pops : runFrom middle (onStack (OperandStack.popArguments resolved)) =
      (.ok (.reference (some receiver) :: arguments), later)) :
    let selected := selectMethod (later.machine.world.typeOf receiver) resolved
    runFrom frame (invokeDynamic run current index) =
      if selected.isAbstract then (.error (.linkage (.abstractMethod selected.label)), later)
      else runFrom later (callWith run selected (.reference (some receiver) :: arguments)) := by
  intro selected
  rw [invokeDynamic, runFrom_bind_ok resolves, if_neg dynamic, runFrom_bind_ok pops]
  change runFrom later (if selected.isAbstract then
    throw (.linkage (.abstractMethod selected.label)) else callWith run selected _) = _
  split <;> rfl

namespace World

variable {world : World} {id supertype : ClassId} {linkage : Linkage} {key : String}
variable {method : Method}

/-! ### Declarations -/

/-- The file of a type declares a method for dispatch under the key. -/
structure DeclaresVirtual (world : World) (key : String) (id : ClassId) (method : Method) :
    Prop where
  declares : world.Declares id method
  isVirtual : method.isVirtual
  key : method.key = key

/-- The method for dispatch under a key that a type declares itself. -/
def ownVirtual (world : World) (key : String) (id : ClassId) : Option Method :=
  ((world.type id).methods.declared.find? key).filter Method.isVirtual

theorem Sound.ownVirtual_eq_some (sound : world.Sound)
    (linked : ∃ linkage, (world.type id).linkage? = some linkage) :
    world.ownVirtual key id = some method ↔ world.DeclaresVirtual key id method := by
  obtain ⟨linkage, linked⟩ := linked
  rw [ownVirtual, Option.filter_eq_some_iff, sound.find?_declared linked]
  constructor
  · rintro ⟨⟨sameKey, declares⟩, isVirtual⟩
    exact ⟨declares, isVirtual, sameKey⟩
  · rintro ⟨declares, isVirtual, sameKey⟩
    exact ⟨⟨sameKey, declares⟩, isVirtual⟩

theorem Sound.ownVirtual_eq_none (sound : world.Sound)
    (linked : ∃ linkage, (world.type id).linkage? = some linkage) :
    world.ownVirtual key id = none ↔ ∀ method, ¬ world.DeclaresVirtual key id method := by
  rw [Option.eq_none_iff_forall_ne_some]
  simp only [ne_eq, sound.ownVirtual_eq_some linked]

/-! ### The walk -/

/-- All types above a type, depth first, as far as `limit` steps lead. -/
def dispatchWithin (world : World) : (limit : Nat) → ClassId → List ClassId
  | 0, id => [id]
  | limit + 1, id => id :: (world.type id).supertypes.flatMap (dispatchWithin world limit)

/-- The type, its superclass with all above that, and its declared interfaces with all above
them. -/
def dispatchOrder (world : World) (id : ClassId) : List ClassId :=
  world.dispatchWithin (world.linkedHeight id) id

theorem reaches_of_mem_dispatchWithin {limit : Nat} {other : ClassId}
    (visited : other ∈ world.dispatchWithin limit id) : world.Reaches id other := by
  induction limit generalizing id with
  | zero =>
      cases List.mem_singleton.1 visited
      exact .refl
  | succ limit inductionHypothesis =>
      rcases List.mem_cons.1 visited with same | above
      · subst same
        exact .refl
      · obtain ⟨supertype, step, visited⟩ := List.mem_flatMap.1 above
        exact .head step (inductionHypothesis visited)

/-- The walk leaves out no type above. -/
theorem Sound.mem_dispatchWithin (sound : world.Sound) {limit : Nat} {other : ClassId}
    (linked : ∃ linkage, (world.type id).linkage? = some linkage)
    (enough : world.linkedHeight id ≤ limit) (reaches : world.Reaches id other) :
    other ∈ world.dispatchWithin limit id := by
  induction limit generalizing id with
  | zero =>
      rcases Relation.ReflTransGen.cases_head reaches with same | ⟨supertype, step, _⟩
      · exact List.mem_singleton.2 same.symm
      · obtain ⟨linkage, linked⟩ := linked
        rw [supertypes_of_linkage linked] at step
        have below := sound.linkedHeight_lt linked step
        omega
  | succ limit inductionHypothesis =>
      rcases Relation.ReflTransGen.cases_head reaches with same | ⟨supertype, step, above⟩
      · subst same
        exact List.mem_cons_self
      · refine List.mem_cons_of_mem _ (List.mem_flatMap.2 ⟨supertype, step, ?_⟩)
        obtain ⟨linkage, linked⟩ := linked
        rw [supertypes_of_linkage linked] at step
        have below := sound.linkedHeight_lt linked step
        exact inductionHypothesis (sound.supertype_linked linked step) (by omega) above

theorem Sound.mem_dispatchOrder (sound : world.Sound) {other : ClassId}
    (linked : ∃ linkage, (world.type id).linkage? = some linkage) :
    other ∈ world.dispatchOrder id ↔ world.Reaches id other :=
  ⟨reaches_of_mem_dispatchWithin, sound.mem_dispatchWithin linked (Nat.le_refl _)⟩

/-- A search along walks one after the other is a search for a walk with a result. -/
theorem findSome?_flatMap {α β γ : Type} {list : List α} {walk : α → List β} {find : β → Option γ}
    {result : α → Option γ} (walks : ∀ start ∈ list, (walk start).findSome? find = result start) :
    (list.flatMap walk).findSome? find = list.findSome? result := by
  induction list with
  | nil => rfl
  | cons start rest inductionHypothesis =>
      have first := walks start List.mem_cons_self
      have others := inductionHypothesis fun other among =>
        walks other (List.mem_cons_of_mem _ among)
      rw [List.flatMap_cons, List.findSome?_append, first, others, List.findSome?_cons]
      cases result start <;> rfl

/-- A class dispatches by its own declaration, or else as the first of its supertypes that does. -/
theorem Sound.find?_virtual_supertypes (sound : world.Sound)
    (linked : (world.type id).linkage? = some linkage) (key : String) :
    (world.type id).methods.virtual.find? key =
      (world.ownVirtual key id).or ((world.type id).supertypes.findSome? fun supertype =>
        (world.type supertype).methods.virtual.find? key) := by
  rw [sound.find?_virtual linked, supertypes_of_linkage linked, Linkage.supertypes,
    List.findSome?_append, ownVirtual]
  cases linkage.superclass with
  | none => simp [inheritedVirtual]
  | some superclass =>
      simp only [inheritedVirtual, Option.map_some, Option.getD_some, Option.toList_some,
        List.findSome?_cons, List.findSome?_nil]
      cases (world.type superclass).methods.virtual.find? key <;> rfl

theorem Sound.find?_virtual_within (sound : world.Sound) {limit : Nat}
    (linked : ∃ linkage, (world.type id).linkage? = some linkage)
    (enough : world.linkedHeight id ≤ limit) (key : String) :
    (world.type id).methods.virtual.find? key =
      (world.dispatchWithin limit id).findSome? (world.ownVirtual key) := by
  obtain ⟨linkage, linked⟩ := linked
  rw [sound.find?_virtual_supertypes linked]
  induction limit generalizing id linkage with
  | zero =>
      have none : (world.type id).supertypes = [] := by
        rw [supertypes_of_linkage linked, List.eq_nil_iff_forall_not_mem]
        intro supertype step
        have below := sound.linkedHeight_lt linked step
        omega
      rw [none, dispatchWithin, List.findSome?_cons]
      cases world.ownVirtual key id <;> rfl
  | succ limit inductionHypothesis =>
      have above : ((world.type id).supertypes.flatMap (world.dispatchWithin limit)).findSome?
          (world.ownVirtual key) = (world.type id).supertypes.findSome? fun supertype =>
            (world.type supertype).methods.virtual.find? key := by
        apply findSome?_flatMap
        intro supertype step
        rw [supertypes_of_linkage linked] at step
        have below := sound.linkedHeight_lt linked step
        obtain ⟨inherited, linkedAbove⟩ := sound.supertype_linked linked step
        rw [sound.find?_virtual_supertypes linkedAbove]
        exact (inductionHypothesis (by omega) inherited linkedAbove).symm
      rw [dispatchWithin, List.findSome?_cons, above]
      cases world.ownVirtual key id <;> rfl

/-- A linked class dispatches by the first declaration on the walk. -/
theorem Sound.find?_virtual_dispatchOrder (sound : world.Sound)
    (linked : ∃ linkage, (world.type id).linkage? = some linkage) (key : String) :
    (world.type id).methods.virtual.find? key =
      (world.dispatchOrder id).findSome? (world.ownVirtual key) :=
  sound.find?_virtual_within linked (Nat.le_refl _) key

end World

/-! ### A diamond of interfaces -/

set_option maxRecDepth 20000

namespace Diamond

/-- The file of a class all of whose methods are named `m` and have neither parameters nor result;
those differ by their flags. -/
def file (flags : UInt16) (name superclass : String) (interfaces : List String)
    (methods : List UInt16) : ClassFile where
  minorVersion := 0
  majorVersion := 52
  -- the text at place `n` has index `2 * n + 1`, and after it stands the class of that name
  pool := (name :: "m" :: "()V" :: superclass :: interfaces).zipIdx.flatMap fun (text, place) =>
    [.utf8 (Text.ModifiedUtf8.encode text), .classRef (UInt16.ofNat (2 * place + 1))]
  flags := ⟨flags⟩
  thisClass := 2
  superClass := if superclass = "" then 0 else 8
  interfaces := (List.range interfaces.length).map fun place => UInt16.ofNat (2 * place + 10)
  fields := []
  methods := methods.map fun flags => ⟨⟨flags⟩, 3, 5, []⟩
  attributes := []

/-- `I` declares the method without a body and `J`, which extends `I`, with one. `A` declares it as
well, `B` has a private one and implements `J`, and `C` implements `I`; `D` implements both. -/
def files : List (String × ClassFile) :=
  [("java/lang/Object", file 0x0021 "java/lang/Object" "" [] []),
    ("I", file 0x0601 "I" "java/lang/Object" [] [0x0401]),
    ("J", file 0x0601 "J" "java/lang/Object" ["I"] [0x0001]),
    ("A", file 0x0021 "A" "java/lang/Object" [] [0x0001]),
    ("B", file 0x0021 "B" "A" ["J"] [0x0002]),
    ("C", file 0x0021 "C" "B" ["I"] []),
    ("D", file 0x0021 "D" "java/lang/Object" ["I", "J"] [])]

/-- Loads the classes that have no subclass. -/
def program : Program Unit (Except Error (Option ClassId)) := do
  discard (Program.ask (.load .bootstrap "C"))
  Program.ask (.load .bootstrap "D")

/-- The world after that. The classes are `C`, `B`, `A`, the root class, `J`, `I` and `D`, in this
order. -/
def world : World :=
  let source := files.foldl (fun classes (name, file) => classes.insert name file) {}
  (program.runWith (fun _ _ => .done (.ok none)) 0 ⟨.initial [.memory source], ()⟩).2.world

def c : ClassId := ⟨0⟩
def b : ClassId := ⟨1⟩
def a : ClassId := ⟨2⟩
def root : ClassId := ⟨3⟩
def j : ClassId := ⟨4⟩
def i : ClassId := ⟨5⟩
def d : ClassId := ⟨6⟩

theorem reachable : world.Reachable := ⟨Unit, _, _, 0, program, _, (), rfl⟩

theorem linked : (world.type c).linkage?.isSome ∧ (world.type d).linkage?.isSome := by
  decide +kernel

theorem superclasses : (world.type c).superclass? = some b ∧ (world.type b).superclass? = some a ∧
    (world.type d).superclass? = some root ∧ (world.type root).superclass? = none := by
  decide +kernel

theorem interfaces : j ∈ (world.type b).interfaces ∧ i ∈ (world.type j).interfaces ∧
    (world.type d).interface? "J" = some j := by
  decide +kernel

theorem declarations : (world.ownVirtual "m ()V" a).isSome ∧
    world.ownVirtual "m ()V" d = none ∧ world.ownVirtual "m ()V" root = none ∧
    ((world.ownVirtual "m ()V" j).filter fun method => !method.isAbstract).isSome := by
  decide +kernel

/-- Neither `D` nor its superclass declares the method. -/
theorem not_declares {id : ClassId} {own : Method} (inherits : world.Inherits d id) :
    ¬ world.DeclaresVirtual "m ()V" id own := by
  have sound := reachable.inOrder.sound
  have linked := Option.isSome_iff_exists.1 linked.2
  have linkedAbove := sound.reaches_linked linked (World.reaches_of_inherits inherits)
  apply (sound.ownVirtual_eq_none linkedAbove).1
  obtain ⟨_, _, superclass, none⟩ := superclasses
  rcases Relation.ReflTransGen.cases_head inherits with same | ⟨type, above, inherits⟩
  · rw [← same]
    exact declarations.2.1
  · rw [superclass] at above
    cases above
    rcases Relation.ReflTransGen.cases_head inherits with same | ⟨type, above, _⟩
    · rw [← same]
      exact declarations.2.2.1
    · rw [none] at above
      cases above

end Diamond

namespace World

variable {world : World} {id supertype : ClassId} {linkage : Linkage} {key : String}
variable {method : Method}

/-! ### Classes before interfaces -/

/-- The declaration under a key in the nearest class: the class's own, or else that nearest to its
superclass. -/
inductive Nearest (world : World) (key : String) : ClassId → Method → Prop where
  | own {id : ClassId} {method : Method} (declares : world.DeclaresVirtual key id method) :
      Nearest world key id method
  | inherited {id superclass : ClassId} {method : Method}
      (none : ∀ own, ¬ world.DeclaresVirtual key id own)
      (above : (world.type id).superclass? = some superclass)
      (nearest : Nearest world key superclass method) : Nearest world key id method

theorem exists_nearest {ancestor : ClassId} {own : Method} (inherits : world.Inherits id ancestor)
    (declares : world.DeclaresVirtual key ancestor own) :
    ∃ method, world.Nearest key id method := by
  induction inherits using Relation.ReflTransGen.head_induction_on with
  | refl => exact ⟨own, .own declares⟩
  | @head id superclass above _ inductionHypothesis =>
      by_cases here : ∃ method, world.DeclaresVirtual key id method
      · obtain ⟨method, declares⟩ := here
        exact ⟨method, .own declares⟩
      · obtain ⟨method, nearest⟩ := inductionHypothesis
        exact ⟨method, .inherited (not_exists.1 here) above nearest⟩

/-- The table for dispatch holds the nearest declaration in a class, if there is one. -/
theorem Sound.find?_virtual_of_nearest (sound : world.Sound)
    (linked : ∃ linkage, (world.type id).linkage? = some linkage)
    (nearest : world.Nearest key id method) :
    (world.type id).methods.virtual.find? key = some method := by
  induction nearest with
  | own declares =>
      have here := (sound.ownVirtual_eq_some linked).2 declares
      obtain ⟨linkage, linked⟩ := linked
      rw [sound.find?_virtual_supertypes linked, here, Option.some_or]
  | inherited none above _ inductionHypothesis =>
      have nowhere := (sound.ownVirtual_eq_none linked).2 none
      have step := Class.mem_supertypes_of_superclass above
      have entry := inductionHypothesis (sound.reaches_linked linked (.single step))
      obtain ⟨linkage, linked⟩ := linked
      rw [sound.find?_virtual_supertypes linked, nowhere, Option.none_or, Class.supertypes, above,
        List.findSome?_append, Option.toList_some, List.findSome?_cons, entry, Option.some_or]

/-- What a call runs if the receiver's class has an entry for it. -/
theorem selectMethod_of_entry {receiver : Class} {resolved : Method}
    (entry : receiver.methods.virtual.find? resolved.key = some method)
    (accessible : ¬ resolved.isPrivate) : selectMethod receiver resolved = method := by
  rw [selectMethod, if_neg accessible, Class.virtualMethod?, ← Method.key, entry, Option.getD_some]

/-- Dispatch picks the nearest declaration in a class, whatever interfaces declare and whatever
private or static methods stand between. -/
theorem dispatch_nearest (reachable : world.Reachable) (linked : (world.type id).linkage?.isSome)
    {ancestor : ClassId} {own : Method} (inherits : world.Inherits id ancestor)
    (declares : world.DeclaresVirtual key ancestor own) :
    ∃ method, world.Nearest key id method ∧ (∀ other, world.Nearest key id other → other = method) ∧
      (world.type id).methods.virtual.find? key = some method ∧
      ∀ resolved : Method, ¬ resolved.isPrivate → resolved.key = key →
        selectMethod (world.type id) resolved = method := by
  have sound := reachable.inOrder.sound
  have linked := Option.isSome_iff_exists.1 linked
  obtain ⟨method, nearest⟩ := exists_nearest inherits declares
  have entry := sound.find?_virtual_of_nearest linked nearest
  refine ⟨method, nearest, ?_, entry, ?_⟩
  · intro other nearestToo
    have entryToo := sound.find?_virtual_of_nearest linked nearestToo
    rw [entry] at entryToo
    exact (Option.some_inj.1 entryToo).symm
  · intro resolved accessible sameKey
    exact selectMethod_of_entry (sameKey ▸ entry) accessible

/-- The private method of `B` does not stand in the way of that of `A`. -/
theorem dispatch_nearest_diamond :
    Diamond.world.Reachable ∧ (Diamond.world.type Diamond.c).linkage?.isSome ∧
      Diamond.world.Inherits Diamond.c Diamond.a ∧
      ∃ own, Diamond.world.DeclaresVirtual "m ()V" Diamond.a own ∧
        ∃ method, Diamond.world.Nearest "m ()V" Diamond.c method ∧
          (Diamond.world.type Diamond.c).methods.virtual.find? "m ()V" = some method := by
  have sound := Diamond.reachable.inOrder.sound
  have linked := Diamond.linked.1
  have inherits : Diamond.world.Inherits Diamond.c Diamond.a :=
    .head Diamond.superclasses.1 (.single Diamond.superclasses.2.1)
  have linkedAbove := sound.reaches_linked (Option.isSome_iff_exists.1 linked)
    (reaches_of_inherits inherits)
  obtain ⟨own, here⟩ := Option.isSome_iff_exists.1 Diamond.declarations.1
  have declares := (sound.ownVirtual_eq_some linkedAbove).1 here
  obtain ⟨method, nearest, _, entry, _⟩ :=
    dispatch_nearest Diamond.reachable linked inherits declares
  exact ⟨Diamond.reachable, linked, inherits, own, declares, method, nearest, entry⟩

/-! ### Types above -/

/-- What a type above dispatches a class dispatches as well. -/
theorem Sound.isSome_virtual_of_reaches (sound : world.Sound)
    (linked : ∃ linkage, (world.type id).linkage? = some linkage)
    (reaches : world.Reaches id supertype)
    (entry : ((world.type supertype).methods.virtual.find? key).isSome) :
    ((world.type id).methods.virtual.find? key).isSome := by
  have linkedAbove := sound.reaches_linked linked reaches
  rw [sound.find?_virtual_dispatchOrder linkedAbove, List.findSome?_isSome_iff] at entry
  rw [sound.find?_virtual_dispatchOrder linked, List.findSome?_isSome_iff]
  obtain ⟨type, visited, declares⟩ := entry
  refine ⟨type, ?_, declares⟩
  rw [sound.mem_dispatchOrder linkedAbove] at visited
  exact (sound.mem_dispatchOrder linked).2 (reaches.trans visited)

/-- A declaration in a type above has an entry. -/
theorem Sound.isSome_virtual_of_declares (sound : world.Sound)
    (linked : ∃ linkage, (world.type id).linkage? = some linkage)
    (reaches : world.Reaches id supertype) (declares : world.DeclaresVirtual key supertype method) :
    ((world.type id).methods.virtual.find? key).isSome := by
  rw [sound.find?_virtual_dispatchOrder linked, List.findSome?_isSome_iff]
  refine ⟨supertype, (sound.mem_dispatchOrder linked).2 reaches, ?_⟩
  rw [(sound.ownVirtual_eq_some (sound.reaches_linked linked reaches)).2 declares]
  rfl

/-- The first type on the walk that declares a method for dispatch under the key, and its method. -/
def FirstDeclares (world : World) (key : String) (id first : ClassId) (method : Method) : Prop :=
  world.DeclaresVirtual key first method ∧ ∃ before after,
    world.dispatchOrder id = before ++ first :: after ∧
      ∀ type ∈ before, ∀ other, ¬ world.DeclaresVirtual key type other

/-- An entry is the first declaration on the walk. -/
theorem Sound.firstDeclares (sound : world.Sound)
    (linked : ∃ linkage, (world.type id).linkage? = some linkage)
    (entry : (world.type id).methods.virtual.find? key = some method) :
    ∃ first, world.Reaches id first ∧ world.FirstDeclares key id first method := by
  rw [sound.find?_virtual_dispatchOrder linked, List.findSome?_eq_some_iff] at entry
  obtain ⟨before, first, after, order, own, none⟩ := entry
  have above {type : ClassId} (visited : type ∈ before ++ first :: after) :
      world.Reaches id type := by
    rw [← order] at visited
    exact (sound.mem_dispatchOrder linked).1 visited
  have reaches := above (List.mem_append_right _ List.mem_cons_self)
  have declares := (sound.ownVirtual_eq_some (sound.reaches_linked linked reaches)).1 own
  refine ⟨first, reaches, declares, before, after, order, ?_⟩
  intro type earlier
  have linkedType := sound.reaches_linked linked (above (List.mem_append_left _ earlier))
  exact (sound.ownVirtual_eq_none linkedType).1 (none type earlier)

/-- A type declares one method for dispatch under a key. -/
theorem Sound.declaresVirtual_unique (sound : world.Sound)
    (linked : ∃ linkage, (world.type id).linkage? = some linkage) {other : Method}
    (declares : world.DeclaresVirtual key id method)
    (declaresToo : world.DeclaresVirtual key id other) : other = method := by
  have own := (sound.ownVirtual_eq_some linked).2 declares
  rw [(sound.ownVirtual_eq_some linked).2 declaresToo] at own
  exact Option.some_inj.1 own

/-- What is found by a name and a descriptor is declared by a type above. -/
theorem Sound.declares_of_findMethod (sound : world.Sound)
    (linked : ∃ linkage, (world.type id).linkage? = some linkage) {name descriptor : String}
    (found : world.findMethod id name descriptor = some method) :
    ∃ type, world.Reaches id type ∧ method.key = methodKey name descriptor ∧
      world.Declares type method := by
  obtain ⟨type, visited, declared⟩ := List.exists_of_findSome?_eq_some found
  have reaches := reaches_of_mem_methodOrder visited
  obtain ⟨linkage, linkedAbove⟩ := sound.reaches_linked linked reaches
  exact ⟨type, reaches, (sound.find?_declared linkedAbove _ _).1 declared⟩

/-- The tables for dispatch are complete and sound along the hierarchy: what a type above
dispatches has an entry, every entry is declared by the class or a type above, and what is found
from a type above is dispatched by its entry. -/
theorem dispatch_complete (reachable : world.Reachable)
    (linked : (world.type id).linkage?.isSome) :
    (∀ supertype key, world.Reaches id supertype →
      ((world.type supertype).methods.virtual.find? key).isSome →
        ((world.type id).methods.virtual.find? key).isSome) ∧
      (∀ key method, (world.type id).methods.virtual.find? key = some method →
        ∃ type, world.Reaches id type ∧ world.DeclaresVirtual key type method) ∧
      ∀ start name descriptor resolved, world.Reaches id start →
        world.findMethod start name descriptor = some resolved → resolved.isVirtual →
          ∃ selected, (world.type id).virtualMethod? resolved.name resolved.descriptor =
            some selected ∧ selectMethod (world.type id) resolved = selected := by
  have sound := reachable.inOrder.sound
  have linked := Option.isSome_iff_exists.1 linked
  refine ⟨?_, ?_, ?_⟩
  · intro supertype key reaches entry
    exact sound.isSome_virtual_of_reaches linked reaches entry
  · intro key method entry
    obtain ⟨type, reaches, declares, _⟩ := sound.firstDeclares linked entry
    exact ⟨type, reaches, declares⟩
  · intro start name descriptor resolved reaches found isVirtual
    have linkedStart := sound.reaches_linked linked reaches
    obtain ⟨type, above, _, declares⟩ := sound.declares_of_findMethod linkedStart found
    have dispatched := sound.isSome_virtual_of_declares linked (reaches.trans above)
      (⟨declares, isVirtual, rfl⟩ : world.DeclaresVirtual resolved.key type resolved)
    obtain ⟨selected, entry⟩ := Option.isSome_iff_exists.1 dispatched
    refine ⟨selected, entry, selectMethod_of_entry entry ?_⟩
    intro isPrivate
    simp [Method.isVirtual, isPrivate] at isVirtual

/-- What is found from `J` is dispatched to by `C`. -/
theorem dispatch_complete_diamond :
    Diamond.world.Reachable ∧ (Diamond.world.type Diamond.c).linkage?.isSome ∧
      Diamond.world.Reaches Diamond.c Diamond.j ∧ ∃ resolved selected,
        Diamond.world.findMethod Diamond.j "m" "()V" = some resolved ∧ resolved.isVirtual ∧
          (Diamond.world.type Diamond.c).virtualMethod? resolved.name resolved.descriptor =
            some selected ∧
          selectMethod (Diamond.world.type Diamond.c) resolved = selected := by
  have linked := Diamond.linked.1
  have reaches : Diamond.world.Reaches Diamond.c Diamond.j :=
    .head (Class.mem_supertypes_of_superclass Diamond.superclasses.1)
      (.single (Class.mem_supertypes_of_interface Diamond.interfaces.1))
  have found : ((Diamond.world.findMethod Diamond.j "m" "()V").filter Method.isVirtual).isSome := by
    decide +kernel
  obtain ⟨resolved, found⟩ := Option.isSome_iff_exists.1 found
  obtain ⟨found, isVirtual⟩ := Option.filter_eq_some_iff.1 found
  obtain ⟨_, _, finds⟩ := dispatch_complete Diamond.reachable linked
  obtain ⟨selected, entry, selects⟩ := finds Diamond.j "m" "()V" resolved reaches found isVirtual
  exact ⟨Diamond.reachable, linked, reaches, resolved, selected, found, isVirtual, entry, selects⟩

/-! ### Interfaces -/

/-- Among the methods of interfaces dispatch picks the first on the walk, which need not be that of
the most specific interface. If all types that declare a method under the key are above one
interface, the one picked is declared by that interface or by one above it; a call raises an error
exactly if what is picked has no body. -/
theorem dispatch_first (reachable : world.Reachable) (linked : (world.type id).linkage?.isSome)
    {interface : ClassId} (known : ∃ name, (world.type id).interface? name = some interface)
    (declares : world.DeclaresVirtual key interface method) :
    ∃ first selected, world.FirstDeclares key id first selected ∧
      (world.type id).methods.virtual.find? key = some selected ∧
      (selected = method ↔ first = interface) ∧
      ((∀ type other, world.Reaches id type → world.DeclaresVirtual key type other →
        world.Reaches interface type) → world.Reaches interface first) ∧
      ∀ (Client : Type) (run : Runner Client) (frame middle later : Frame Client)
        (current : ClassId) (index : UInt16) (resolved : Method) (receiver : ObjectId)
        (arguments : List Value),
        runFrom frame (FrameM.methodAt current index) = (.ok resolved, middle) →
        ¬ resolved.isStatic → ¬ resolved.isPrivate → resolved.key = key →
        runFrom middle (FrameM.onStack (OperandStack.popArguments resolved)) =
          (.ok (.reference (some receiver) :: arguments), later) →
        later.machine.world.typeOf receiver = world.type id →
        runFrom frame (FrameM.invokeDynamic run current index) =
          if selected.isAbstract then (.error (.linkage (.abstractMethod selected.label)), later)
          else runFrom later
            (FrameM.callWith run selected (.reference (some receiver) :: arguments)) := by
  have sound := reachable.inOrder.sound
  have linked := Option.isSome_iff_exists.1 linked
  obtain ⟨name, known⟩ := known
  have reaches := sound.reaches_of_interface? known
  obtain ⟨selected, entry⟩ := Option.isSome_iff_exists.1
    (sound.isSome_virtual_of_declares linked reaches declares)
  obtain ⟨first, reachesFirst, firstDeclares⟩ := sound.firstDeclares linked entry
  refine ⟨first, selected, firstDeclares, entry, ?_, ?_, ?_⟩
  · constructor
    · intro same
      rw [← firstDeclares.1.declares.owner, same, declares.declares.owner]
    · intro same
      subst same
      exact sound.declaresVirtual_unique (sound.reaches_linked linked reaches) declares
        firstDeclares.1
  · intro above
    exact above first selected reachesFirst firstDeclares.1
  · intro Client run frame middle later current index resolved receiver arguments resolves dynamic
      accessible sameKey pops receiverType
    rw [FrameM.runFrom_invokeDynamic resolves dynamic pops, receiverType,
      selectMethod_of_entry (sameKey ▸ entry) accessible]

/-- What `D` has is the method of `J` only if `J` comes first. -/
theorem dispatch_first_diamond :
    Diamond.world.Reachable ∧ (Diamond.world.type Diamond.d).linkage?.isSome ∧
      (Diamond.world.type Diamond.d).interface? "J" = some Diamond.j ∧
      ∃ method, Diamond.world.DeclaresVirtual "m ()V" Diamond.j method ∧ ∃ first selected,
        Diamond.world.FirstDeclares "m ()V" Diamond.d first selected ∧
          (Diamond.world.type Diamond.d).methods.virtual.find? "m ()V" = some selected ∧
          (selected = method ↔ first = Diamond.j) := by
  have sound := Diamond.reachable.inOrder.sound
  have linked := Diamond.linked.2
  have known := Diamond.interfaces.2.2
  have linkedAbove := sound.reaches_linked (Option.isSome_iff_exists.1 linked)
    (sound.reaches_of_interface? known)
  obtain ⟨method, found⟩ := Option.isSome_iff_exists.1 Diamond.declarations.2.2.2
  have declares := (sound.ownVirtual_eq_some linkedAbove).1 (Option.filter_eq_some_iff.1 found).1
  obtain ⟨first, selected, firstDeclares, entry, same, _⟩ :=
    dispatch_first Diamond.reachable linked ⟨"J", known⟩ declares
  exact ⟨Diamond.reachable, linked, known, method, declares, first, selected, firstDeclares, entry,
    same⟩

/-- The most specific interface does not win by itself. `D` implements `I` and `J`, which extends
`I` and gives the method a body; dispatch picks that of `I`, which has none. -/
theorem specific_not_dispatched :
    Diamond.world.Reachable ∧ (Diamond.world.type Diamond.d).linkage?.isSome ∧
      (∀ ancestor own, Diamond.world.Inherits Diamond.d ancestor →
        ¬ Diamond.world.DeclaresVirtual "m ()V" ancestor own) ∧
      (Diamond.world.type Diamond.d).interface? "J" = some Diamond.j ∧
      (∀ name other own, (Diamond.world.type Diamond.d).interface? name = some other →
        Diamond.world.DeclaresVirtual "m ()V" other own →
          Diamond.world.Reaches Diamond.j other) ∧
      ∃ method selected, Diamond.world.DeclaresVirtual "m ()V" Diamond.j method ∧
        ¬ method.isAbstract ∧
          (Diamond.world.type Diamond.d).methods.virtual.find? "m ()V" = some selected ∧
            selected.isAbstract := by
  have sound := Diamond.reachable.inOrder.sound
  have linked := Option.isSome_iff_exists.1 Diamond.linked.2
  have known := Diamond.interfaces.2.2
  have visits : ∀ type ∈ Diamond.world.dispatchOrder Diamond.d,
      type = Diamond.d ∨ type = Diamond.root ∨ type = Diamond.i ∨ type = Diamond.j := by
    decide +kernel
  refine ⟨Diamond.reachable, Diamond.linked.2, fun _ _ => Diamond.not_declares, known, ?_, ?_⟩
  · intro name other own listed declares
    have visited := (sound.mem_dispatchOrder linked).2 (sound.reaches_of_interface? listed)
    rcases visits other visited with same | same | same | same
    all_goals rw [same] at declares ⊢
    · exact absurd declares (Diamond.not_declares .refl)
    · exact absurd declares (Diamond.not_declares (.single Diamond.superclasses.2.2.1))
    · exact .single (Class.mem_supertypes_of_interface Diamond.interfaces.2.1)
    · exact .refl
  · have bodiless : (((Diamond.world.type Diamond.d).methods.virtual.find? "m ()V").filter
        Method.isAbstract).isSome := by decide +kernel
    obtain ⟨method, found⟩ := Option.isSome_iff_exists.1 Diamond.declarations.2.2.2
    obtain ⟨own, body⟩ := Option.filter_eq_some_iff.1 found
    obtain ⟨selected, found⟩ := Option.isSome_iff_exists.1 bodiless
    obtain ⟨entry, isAbstract⟩ := Option.filter_eq_some_iff.1 found
    have linkedAbove := sound.reaches_linked linked (sound.reaches_of_interface? known)
    have declares := (sound.ownVirtual_eq_some linkedAbove).1 own
    exact ⟨method, selected, declares, by simpa using body, entry, isAbstract⟩

end World
end JavaMachine

import JavaMachine.Proofs.Attributes
import JavaMachine.Proofs.Finality
import JavaMachine.Proofs.Renaming

/-!
# Linking and the contents of attributes

Linking a class reads the attributes of its methods and its own. An attribute with a content that
linking understands makes no difference to whether that succeeds, and afterwards the content is
there as it was written; with a content that is cut linking fails, if not for another reason then
because the attribute is damaged. Everything else that linking does depends on the rest of the file
only.
-/

namespace JavaMachine

/-! ### Places of attributes -/

/-- A place in a class file, where an attribute may stand between others: in a method, or in the
file itself. -/
inductive AttributePlace : AttributeHolder → Type where
  | ofMethod (file : ClassFile) (earlier : List (Member MethodFlags)) (member : Member MethodFlags)
      (later : List (Member MethodFlags)) (front back : List Attribute) : AttributePlace .method
  | ofType (file : ClassFile) (front back : List Attribute) : AttributePlace .type

/-- The file with other methods and other attributes. -/
def ClassFile.declaring (file : ClassFile) (methods : List (Member MethodFlags))
    (attributes : List Attribute) : ClassFile :=
  { file with methods, attributes }

namespace AttributePlace

variable {holder : AttributeHolder}

/-- The attributes before the place. -/
def front : AttributePlace holder → List Attribute
  | ofMethod _ _ _ _ front _ => front
  | ofType _ front _ => front

/-- The attributes after the place. -/
def back : AttributePlace holder → List Attribute
  | ofMethod _ _ _ _ _ back => back
  | ofType _ _ back => back

/-- The file with some attributes at the place. -/
def fill : AttributePlace holder → List Attribute → ClassFile
  | ofMethod file earlier member later front back, blocks =>
      { file with
        methods := earlier ++ { member with attributes := front ++ (blocks ++ back) } :: later }
  | ofType file front back, blocks => { file with attributes := front ++ (blocks ++ back) }

/-- No attribute after the place has this name. -/
def IsLast (place : AttributePlace holder) (name : String) : Prop :=
  ∀ block ∈ place.back, (place.fill []).text? block.name ≠ some name

theorem fill_eq (place : AttributePlace holder) (blocks : List Attribute) :
    place.fill blocks =
      (place.fill []).declaring (place.fill blocks).methods (place.fill blocks).attributes := by
  cases place <;> rfl

end AttributePlace

/-! ### The rest of the file -/

section Rest

variable (file : ClassFile) (methods : List (Member MethodFlags)) (attributes : List Attribute)
  (load : Load)

namespace Method

theorem codeIn_declaring (blocks : List Attribute) (found : Option Code) :
    codeIn (file.declaring methods attributes) blocks found = codeIn file blocks found := by
  induction blocks generalizing found with
  | nil => rfl
  | cons block rest inductionHypothesis =>
      simp only [codeIn, inductionHypothesis]
      rfl

theorem ofMember_declaring (owner : ClassId) (ownerName : String) (member : Member MethodFlags) :
    ofMember (file.declaring methods attributes) owner ownerName member =
      ofMember file owner ownerName member := by
  simp only [ofMember, codeIn_declaring]
  rfl

end Method

theorem MethodTables.enterAll_declaring (owner : ClassId) (className : String)
    (members : List (Member MethodFlags)) (tables : MethodTables) :
    enterAll (file.declaring methods attributes) owner className members tables =
      enterAll file owner className members tables := by
  induction members generalizing tables with
  | nil => rfl
  | cons member rest inductionHypothesis =>
      simp only [enterAll, Method.ofMember_declaring, inductionHypothesis]

namespace Field

theorem constantIn_declaring (blocks : List Attribute) (found : Option UInt16) :
    constantIn (file.declaring methods attributes) blocks found = constantIn file blocks found := by
  induction blocks generalizing found with
  | nil => rfl
  | cons block rest inductionHypothesis =>
      simp only [constantIn, inductionHypothesis]
      rfl

theorem ofMember_declaring (owner : ClassId) (ownerName : String) (member : Member FieldFlags) :
    ofMember (file.declaring methods attributes) owner ownerName member =
      ofMember file owner ownerName member := by
  simp only [ofMember, constantIn_declaring]
  rfl

end Field

namespace World

theorem linkInterfaces_declaring (loader : LoaderId) (name : String) (indices : List UInt16)
    (known : Table String ClassId) :
    linkInterfaces load loader name (file.declaring methods attributes) indices known =
      linkInterfaces load loader name file indices known := by
  induction indices generalizing known with
  | nil => rfl
  | cons index rest inductionHypothesis =>
      simp only [linkInterfaces, inductionHypothesis]
      rfl

theorem linkFields_declaring (owner : ClassId) (name : String) (members : List (Member FieldFlags))
    (layout : FieldLayout) (static : Array Value) :
    linkFields load (file.declaring methods attributes) owner name members layout static =
      linkFields load file owner name members layout static := by
  induction members generalizing layout static with
  | nil => rfl
  | cons member rest inductionHypothesis =>
      simp only [linkFields, Field.ofMember_declaring, inductionHypothesis]
      rfl

end World

end Rest

/-! ### Tables of methods that differ in their code -/

/-- The method without its code. -/
def Method.withoutCode (method : Method) : Method := { method with code := none }

section Methods

variable {file : ClassFile} {owner : ClassId} {className : String} {member : Member MethodFlags}
  {more fewer : List Attribute} {causes : LinkageError → Prop}

namespace Method

/-- Attributes that are read like others leave the method readable like them. -/
theorem ofMember_endsLike
    (reads : Except.EndsLike (codeIn file more none) (codeIn file fewer none) causes) :
    Except.EndsLike (ofMember file owner className { member with attributes := more })
      (ofMember file owner className { member with attributes := fewer }) causes := by
  refine .bindSame fun name => .bindSame fun descriptor => ?_
  split
  · exact .inl rfl
  · exact reads.bind fun _ _ _ _ => .inl rfl

theorem withoutCode_of_ofMember {method other : Method}
    (read : ofMember file owner className { member with attributes := more } = .ok method)
    (readToo : ofMember file owner className { member with attributes := fewer } = .ok other) :
    method.withoutCode = other.withoutCode := by
  obtain ⟨name, named, read⟩ := Except.bind_ok read
  obtain ⟨nameToo, namedToo, readToo⟩ := Except.bind_ok readToo
  cases named.symm.trans namedToo
  obtain ⟨descriptor, described, read⟩ := Except.bind_ok read
  obtain ⟨descriptorToo, describedToo, readToo⟩ := Except.bind_ok readToo
  cases described.symm.trans describedToo
  split at read
  · cases read
  next type known =>
    rw [known] at readToo
    obtain ⟨_, _, read⟩ := Except.bind_ok read
    obtain ⟨_, _, readToo⟩ := Except.bind_ok readToo
    cases read
    cases readToo
    rfl

end Method

namespace MethodTables

variable {tables other : MethodTables} {method methodToo : Method}

theorem ignore_withoutCode : Ignore Method.withoutCode :=
  ⟨fun _ => rfl, fun _ => rfl, fun _ => rfl, fun _ => rfl⟩

/-- Methods that differ in their code are entered alike. -/
theorem enter_alike (className : String)
    (same : tables.mapMethods .withoutCode = other.mapMethods .withoutCode)
    (alike : method.withoutCode = methodToo.withoutCode) :
    (tables.enter className method).map (mapMethods .withoutCode) =
      (other.enter className methodToo).map (mapMethods .withoutCode) := by
  rw [← enter_mapMethods ignore_withoutCode, ← enter_mapMethods ignore_withoutCode, same, alike]

theorem ending_enterAll (members : List (Member MethodFlags))
    (same : tables.mapMethods .withoutCode = other.mapMethods .withoutCode) :
    Except.ending (enterAll file owner className members tables) =
      Except.ending (enterAll file owner className members other) := by
  induction members generalizing tables other with
  | nil => rfl
  | cons member rest inductionHypothesis =>
      refine Except.ending_bind fun method => ?_
      rcases Except.cases_of_map_eq (enter_alike className same rfl) with
        ⟨cause, fails, failsToo⟩ | ⟨later, laterToo, entered, enteredToo, sameLater⟩
      · rw [fails, failsToo]
      · rw [entered, enteredToo]
        exact inductionHypothesis sameLater

theorem enterAll_append (front back : List (Member MethodFlags)) (tables : MethodTables) :
    enterAll file owner className (front ++ back) tables =
      enterAll file owner className front tables >>= enterAll file owner className back := by
  induction front generalizing tables with
  | nil => rfl
  | cons member rest inductionHypothesis =>
      simp only [List.cons_append, enterAll, inductionHypothesis, bind_assoc]

/-- Attributes of one method that are read like others leave the tables to be built like those. -/
theorem enterAll_endsLike (earlier later : List (Member MethodFlags)) (tables : MethodTables)
    (reads :
      Except.EndsLike (Method.codeIn file more none) (Method.codeIn file fewer none) causes) :
    Except.EndsLike
      (enterAll file owner className
        (earlier ++ { member with attributes := more } :: later) tables)
      (enterAll file owner className
        (earlier ++ { member with attributes := fewer } :: later) tables) causes := by
  rw [enterAll_append, enterAll_append]
  refine .bindSame fun middle => ?_
  refine (Method.ofMember_endsLike reads).bind fun method methodToo read readToo => .inl ?_
  have alike : (middle.enter className method).map (mapMethods .withoutCode) =
      (middle.enter className methodToo).map (mapMethods .withoutCode) :=
    enter_alike className rfl (Method.withoutCode_of_ofMember read readToo)
  rcases Except.cases_of_map_eq alike with
    ⟨cause, fails, failsToo⟩ | ⟨_, _, entered, enteredToo, same⟩
  · rw [fails, failsToo]
  · rw [entered, enteredToo]
    exact ending_enterAll later same

end MethodTables

end Methods

/-! ### Reading a file with one more attribute -/

namespace AttributePlace

variable {holder : AttributeHolder} {place : AttributePlace holder} {block : Attribute}
  {causes : LinkageError → Prop}

section Reads

variable (reads : Except.EndsLike
  (holder.keepAll (place.fill []) (place.front ++ block :: place.back))
  (holder.keepAll (place.fill []) (place.front ++ place.back)) causes)
include reads

theorem build_endsLike (owner : ClassId) (className : String) (inherited : Table String Method)
    (interfaces : List (Table String Method)) : Except.EndsLike
      (MethodTables.build (place.fill [block]) owner className inherited interfaces)
      (MethodTables.build (place.fill []) owner className inherited interfaces) causes := by
  rw [place.fill_eq [block], MethodTables.build, MethodTables.build,
    MethodTables.enterAll_declaring]
  refine .bind ?_ fun _ _ _ _ => .inl rfl
  cases place with
  | ofMethod file earlier member later front back =>
      refine MethodTables.enterAll_endsLike earlier later _ ?_
      rw [AttributeHolder.codeIn_eq_keepAll, AttributeHolder.codeIn_eq_keepAll]
      exact reads
  | ofType file front back => exact .inl rfl

theorem ofFile_endsLike : Except.EndsLike (ClassAttributes.ofFile (place.fill [block]))
    (ClassAttributes.ofFile (place.fill [])) causes := by
  cases place with
  | ofMethod file earlier member later front back => exact .inl rfl
  | ofType file front back => exact reads

end Reads
end AttributePlace

/-! ### Computing a linkage -/

namespace World

variable {α β : Type} {world start later : World} {id : ClassId} {load : Load} {file : ClassFile}
  {causes : LinkageError → Prop}

/-- From this world one computation ends like the other, unless it fails for one of some causes. -/
def EndsLike (world : World) (action other : WorldM α) (causes : LinkageError → Prop) : Prop :=
  Except.EndsLike (runFrom world action).1 (runFrom world other).1 fun error =>
    ∃ cause, causes cause ∧ error = .linkage cause

namespace EndsLike

variable {action : WorldM α} {next other : α → WorldM β}

theorem bindSame
    (rest : ∀ result (later : World), later.EndsLike (next result) (other result) causes) :
    world.EndsLike (action >>= next) (action >>= other) causes := by
  rcases ends : runFrom world action with ⟨error | result, later⟩
  · rw [EndsLike, runFrom_bind_error ends, runFrom_bind_error ends]
    exact .inl rfl
  · rw [EndsLike, runFrom_bind_ok ends, runFrom_bind_ok ends]
    exact rest result later

theorem bindLinking {outcome outcomeToo : Except LinkageError α}
    (first : Except.EndsLike outcome outcomeToo causes)
    (rest : ∀ result resultToo, world.EndsLike (next result) (other resultToo) causes) :
    world.EndsLike (WorldM.ofLinking outcome >>= next) (WorldM.ofLinking outcomeToo >>= other)
      causes := by
  rcases first with same | ⟨cause, isCause, rfl⟩
  · rcases Except.cases_of_map_eq same with
      ⟨cause, rfl, rfl⟩ | ⟨result, resultToo, rfl, rfl, _⟩
    · exact .inl rfl
    · exact rest result resultToo
  · exact .inr ⟨_, ⟨cause, isCause, rfl⟩, rfl⟩

end EndsLike

/-- Whether a linkage can be computed from a file with other methods and attributes depends on
whether these can be read. -/
theorem linkDeclared_endsLike {methods : List (Member MethodFlags)} {attributes : List Attribute}
    {name : String} (world : World) (load : Load) (loader : LoaderId)
    (builds : ∀ inherited interfaces, Except.EndsLike
      (MethodTables.build (file.declaring methods attributes) id name inherited interfaces)
      (MethodTables.build file id name inherited interfaces) causes)
    (reads : Except.EndsLike (ClassAttributes.ofFile (file.declaring methods attributes))
      (ClassAttributes.ofFile file) causes) :
    world.EndsLike (linkDeclared load id loader name (file.declaring methods attributes))
      (linkDeclared load id loader name file) causes := by
  refine .bindSame fun superclass above => .bindSame fun _ _ => ?_
  dsimp only
  rw [linkInterfaces_declaring]
  refine .bindSame fun (interfaces, allInterfaces) beside => .bindSame fun _ _ => ?_
  refine .bindLinking (builds _ _) fun tables tablesToo => ?_
  dsimp only
  rw [linkFields_declaring]
  refine .bindSame fun (fields, static) filled => ?_
  exact .bindLinking reads fun _ _ => .inl rfl

/-- How the computation of a linkage for a class ends, if it goes by this file. -/
def endOfLinking (world : World) (load : Load) (id : ClassId) (file : ClassFile) :
    Except Error Unit :=
  Except.ending (runFrom world
    (linkDeclared load id (world.type id).loader (world.type id).name file)).1

/-- The class is there with its file and waits for being linked. -/
structure AwaitsLinking (world : World) (id : ClassId) (file : ClassFile) : Prop where
  declared : (world.type id).declared? = some { file }
  state : (world.type id).state = .allocated

/-- Linking a class ends as the computation of its linkage does. -/
theorem AwaitsLinking.linkWith_eq (awaits : world.AwaitsLinking id file) (finds : load.Finds)
    (sound : world.Sound) :
    (runFrom world (linkWith load id)).1 = world.endOfLinking load id file := by
  obtain ⟨declared, state⟩ := awaits
  rcases linkWith_cases finds sound declared state with
    ⟨error, later, _, fails, ends⟩ | ⟨linkage, static, later, _, _, ends⟩
  · rw [ends, endOfLinking, fails]
    rfl
  · rcases computes : runFrom world
        (linkDeclared load id (world.type id).loader (world.type id).name file) with
      ⟨error | computed, middle⟩
    · rw [runFrom_linkWith_error declared state computes] at ends
      cases ends
    · rw [ends, endOfLinking, computes]
      rfl

/-- A class that has been linked has a linkage that fits its file. -/
theorem AwaitsLinking.linked (awaits : world.AwaitsLinking id file) (finds : load.Finds)
    (sound : world.Sound)
    (ends : runFrom world (linkWith load id) = (.ok (), later)) : ∃ linkage,
      (later.type id).linkage? = some linkage ∧
        ∃ (above : World) (name : String), above.Fits id name file linkage := by
  obtain ⟨declared, state⟩ := awaits
  rcases linkWith_cases finds sound declared state with
    ⟨error, _, _, _, fails⟩ | ⟨linkage, static, middle, evolves, linked, endsToo⟩
  · cases ends.symm.trans fails
  · obtain ⟨_, rfl⟩ := Prod.mk.inj (ends.symm.trans endsToo)
    have present : id.index < world.classes.size := present_of_state (by simp [state])
    have presentStill := Nat.lt_of_lt_of_le present evolves.grows.size
    have kind := Class.declared?_eq_some.1 declared
    obtain ⟨own, ownKind, _⟩ := Class.declared_of_lasting (evolves.grows.lasting id present) kind
    exact ⟨linkage, linkage?_attached presentStill ownKind, _, _, linked.fits⟩

end World

/-! ### Payloads of linked classes -/

theorem Method.codeIn_of_ofMember {file : ClassFile} {owner : ClassId} {ownerName : String}
    {member : Member MethodFlags} {method : Method}
    (read : ofMember file owner ownerName member = .ok method) :
    codeIn file member.attributes none = .ok method.code := by
  obtain ⟨name, _, read⟩ := Except.bind_ok read
  obtain ⟨descriptor, _, read⟩ := Except.bind_ok read
  split at read
  · cases read
  · obtain ⟨code, reads, read⟩ := Except.bind_ok read
    cases read
    exact reads

namespace Payload

variable {holder : AttributeHolder}

/-- A class shows the content that stands at a place of its file: in the method that the file
declares there, or among the attributes that it keeps. -/
def ShownBy : Payload holder → AttributePlace holder → Class → Prop
  | code body _, .ofMethod file _ member _ _ _, type => ∃ name descriptor method,
      file.text? member.name = some name ∧ file.text? member.descriptor = some descriptor ∧
        type.declaredMethod? name descriptor = some method ∧ method.code = some body
  | innerClasses items, _, type => ∃ linkage, type.linkage? = some linkage ∧
      linkage.attributes.innerClasses = items
  | bootstrapMethods items, _, type => ∃ linkage, type.linkage? = some linkage ∧
      linkage.attributes.bootstrapMethods = items

variable {payload : Payload holder} {place : AttributePlace holder} {index : UInt16}
  {world later : World} {id : ClassId} {name : String} {linkage : Linkage}

/-- A method of a class that is linked has been entered with the code that its attributes give. -/
theorem exists_method {file : ClassFile} {earlier after : List (Member MethodFlags)}
    {member : Member MethodFlags} {front back : List Attribute} {block : Attribute}
    (fitsTo : world.Fits id name
      ((AttributePlace.ofMethod file earlier member after front back).fill [block]) linkage) :
    ∃ method, linkage.methods.declared.find? method.key = some method ∧
      file.text? member.name = some method.name ∧
      file.text? member.descriptor = some method.descriptor ∧
      AttributeHolder.method.keepAll file (front ++ block :: back) = .ok method.code := by
  let own : Member MethodFlags := { member with attributes := front ++ block :: back }
  have listed : own ∈ earlier ++ own :: after := by simp
  obtain ⟨method, read⟩ := MethodTables.exists_ofMember_of_build fitsTo.methods own listed
  obtain ⟨named, described, _⟩ := Method.ofMember_ok read
  have reads := Method.codeIn_of_ofMember read
  rw [AttributeHolder.codeIn_eq_keepAll] at reads
  exact ⟨method, (MethodTables.find?_declared_build fitsTo.methods _).2 ⟨rfl, own, listed, read⟩,
    ClassFile.requireText_eq_ok.1 named, ClassFile.requireText_eq_ok.1 described, reads⟩

theorem shownBy_of_fits (fits : payload.Fits)
    (named : (place.fill []).text? index = some payload.name) (last : place.IsLast payload.name)
    {trailing : List UInt8}
    (fitsTo : world.Fits id name (place.fill [⟨index, payload.write ++ trailing⟩]) linkage)
    (linked : (later.type id).linkage? = some linkage) :
    payload.ShownBy place (later.type id) := by
  cases place with
  | ofMethod file earlier member after front back =>
      obtain ⟨method, declared, methodNamed, described, keeps⟩ := exists_method fitsTo
      cases payload with
      | code body nested =>
          refine ⟨_, _, method, methodNamed, described, ?_, isKept_of_keepAll fits named last keeps⟩
          rw [Class.declaredMethod?, World.methods_of_linkage linked]
          exact declared
  | ofType file front back =>
      have isKept := isKept_of_keepAll fits named last fitsTo.attributes
      cases payload with
      | innerClasses items => exact ⟨linkage, linked, isKept⟩
      | bootstrapMethods items => exact ⟨linkage, linked, isKept⟩

/-- With a content that is cut no linkage fits the file. -/
theorem not_fits_part (fits : payload.Fits)
    (named : (place.fill []).text? index = some payload.name) {part : List UInt8}
    (within : part <+: payload.write) (proper : part ≠ payload.write) :
    ¬ world.Fits id name (place.fill [⟨index, part⟩]) linkage := by
  intro fitsTo
  have unreadable : ∀ kept,
      holder.keepAll (place.fill []) (place.front ++ ⟨index, part⟩ :: place.back) ≠ .ok kept :=
    (keepAll_part fits named within proper).1
  cases place with
  | ofMethod file earlier member after front back =>
      obtain ⟨method, _, _, _, keeps⟩ := exists_method fitsTo
      exact unreadable _ keeps
  | ofType file front back => exact unreadable _ fitsTo.attributes

/-- What an attribute has to do with how the computation of a linkage ends is whether it can be
read. -/
theorem endOfLinking_eq_or {block : Attribute} {causes : LinkageError → Prop} (load : Load)
    (reads : Except.EndsLike
      (holder.keepAll (place.fill []) (place.front ++ block :: place.back))
      (holder.keepAll (place.fill []) (place.front ++ place.back)) causes) :
    world.endOfLinking load id (place.fill [block]) = world.endOfLinking load id (place.fill []) ∨
      ∃ cause, causes cause ∧
        world.endOfLinking load id (place.fill [block]) = .error (.linkage cause) := by
  have builds := AttributePlace.build_endsLike reads id (world.type id).name
  have readsFile := AttributePlace.ofFile_endsLike reads
  rw [place.fill_eq [block]] at builds readsFile ⊢
  rcases World.linkDeclared_endsLike world load (world.type id).loader builds readsFile with
    same | ⟨_, ⟨cause, isCause, rfl⟩, fails⟩
  · exact .inl same
  · refine .inr ⟨cause, isCause, ?_⟩
    rw [World.endOfLinking, fails]
    rfl

/-- A content with any bytes after it makes no difference to whether linking succeeds, and then it
is what the linked class shows. With a content that is cut linking fails and leaves the class
behind: the file has a damaged format, unless linking fails like that without the attribute. So in
all worlds that are met linked classes show the last content of its name, and none with one that is
cut is ever published. -/
theorem linked_exactly (payload : Payload holder) (place : AttributePlace holder) (index : UInt16)
    (fits : payload.Fits) (named : (place.fill []).text? index = some payload.name) :
    (∀ load start id trailing, Load.Finds load → start.Sound →
      start.AwaitsLinking id (place.fill [⟨index, payload.write ++ trailing⟩]) →
        (runFrom start (World.linkWith load id)).1 = start.endOfLinking load id (place.fill []) ∧
        (place.IsLast payload.name → ∀ later,
          runFrom start (World.linkWith load id) = (.ok (), later) →
            payload.ShownBy place (later.type id))) ∧
    (∀ load start id part, Load.Finds load → start.Sound → start.Vetted →
      part <+: payload.write → part ≠ payload.write →
        start.AwaitsLinking id (place.fill [⟨index, part⟩]) → ∃ error later,
          runFrom start (World.linkWith load id) = (.error error, later) ∧ later.LeftBehind id ∧
            (error.throwable? = some "java/lang/ClassFormatError" ∨
              start.endOfLinking load id (place.fill []) = .error error)) ∧
    ∀ world id, World.Met world →
      (∀ trailing,
        (world.type id).file? = some (place.fill [⟨index, payload.write ++ trailing⟩]) →
          place.IsLast payload.name → (world.type id).linkage?.isSome →
            payload.ShownBy place (world.type id)) ∧
      ∀ part, part <+: payload.write → part ≠ payload.write →
        (world.type id).file? = some (place.fill [⟨index, part⟩]) → world.LeftBehind id := by
  refine ⟨fun load start id trailing finds sound awaits => ⟨?same, fun last later ends => ?shown⟩,
    fun load start id part finds sound vetted within proper awaits => ?cut,
    fun world id met => ⟨fun trailing isFile last linked => ?linked,
      fun part within proper isFile => ?behind⟩⟩
  case same =>
    rw [awaits.linkWith_eq finds sound]
    rcases endOfLinking_eq_or load (keepAll_write fits named trailing) with same | ⟨_, none, _⟩
    · exact same
    · exact none.elim
  case shown =>
    obtain ⟨linkage, linked, _, _, fitsTo⟩ := awaits.linked finds sound ends
    exact shownBy_of_fits fits named last fitsTo linked
  case cut =>
    have ending := awaits.linkWith_eq finds sound
    rcases ends : runFrom start (World.linkWith load id) with ⟨error | _, later⟩
    · have behind := vetted.linkWith_failed finds sound awaits.declared awaits.state ends
      refine ⟨error, later, rfl, behind, ?_⟩
      rw [ends] at ending
      rcases endOfLinking_eq_or load (keepAll_part fits named within proper).2 with
        same | ⟨_, ⟨damage, rfl⟩, fails⟩
      · exact .inr (same ▸ ending.symm)
      · cases ending.trans fails
        exact .inl rfl
    · obtain ⟨linkage, linked, _, _, fitsTo⟩ := awaits.linked finds sound ends
      exact absurd fitsTo (not_fits_part fits named within proper)
  case linked =>
    obtain ⟨linkage, linked⟩ := Option.isSome_iff_exists.1 linked
    obtain ⟨file, isFileToo, fitsTo⟩ := met.clean.sound.fits linked
    cases isFile.symm.trans isFileToo
    exact shownBy_of_fits fits named last fitsTo linked
  case behind =>
    refine met.clean.leftBehind fun usable => ?_
    obtain ⟨body, declared, _⟩ := Option.map_eq_some_iff.1 isFile
    have linked : (world.type id).linkage?.isSome := by
      simpa [Class.isUsable, Class.isArray, declared] using usable
    obtain ⟨linkage, linked⟩ := Option.isSome_iff_exists.1 linked
    obtain ⟨file, isFileToo, fitsTo⟩ := met.clean.sound.fits linked
    cases isFile.symm.trans isFileToo
    exact not_fits_part fits named within proper fitsTo

end Payload

/-! ### Code that is written, and code that is cut -/

set_option maxRecDepth 20000

namespace Written

/-- The place for the code of the only method of a class. -/
def place (name : String) : AttributePlace .method :=
  let file := Diamond.file 0x0021 name "java/lang/Object" [] []
  .ofMethod { file with pool := file.pool ++ [.utf8 (Text.ModifiedUtf8.encode "Code")] } []
    ⟨⟨0x0001⟩, 3, 5, []⟩ [] [] []

/-- Code with a handler and with an attribute of its own. -/
def payload : Payload .method := .code ⟨2, 1, [0x2a, 0xb1], [⟨0, 1, 1, 0⟩]⟩ [⟨3, [7, 7, 7]⟩]

/-- The code without its last byte. -/
def cut : List UInt8 := payload.write.dropLast

/-- The code with two more bytes after it. -/
def long : List UInt8 := payload.write ++ [1, 2]

def whole : ClassFile := (place "Whole").fill [⟨9, long⟩]
def damaged : ClassFile := (place "Damaged").fill [⟨9, cut⟩]

def files : List (String × ClassFile) :=
  [("java/lang/Object", Diamond.file 0x0021 "java/lang/Object" "" [] []), ("Whole", whole),
    ("Damaged", damaged)]

def operations : List Operation := [.load .bootstrap "Whole", .load .bootstrap "Damaged"]

/-- The world after both. -/
def world : World := (World.initial [.holding files]).after operations

theorem met : world.Met :=
  ⟨.inOrder [.holding files] operations,
    Session.after_mem_worlds (by simp [operations, Operation.runsMethods])⟩

theorem loaded : (world.type ⟨0⟩).file? = some whole ∧ (world.type ⟨0⟩).linkage?.isSome ∧
    (world.type ⟨2⟩).file? = some damaged := by
  decide +kernel

theorem fits : payload.Fits := ⟨by decide, by decide, by decide, by decide⟩

theorem cut_proper : cut <+: payload.write ∧ cut ≠ payload.write :=
  ⟨List.dropLast_prefix _, by decide⟩

/-- One more class, with this content at the place for its code. -/
def other (content : List UInt8) : Class where
  name := "Other"
  flags := ⟨0x0021⟩
  loader := .bootstrap
  state := .allocated
  kind := .declared { file := (place "Other").fill [⟨9, content⟩] }

/-- The world to which that has been added. -/
def start (content : List UInt8) : World := (world.addType (other content)).2

theorem start_sound (content : List UInt8) : (start content).Sound ∧ (start content).Vetted ∧
    (start content).AwaitsLinking world.nextId ((place "Other").fill [⟨9, content⟩]) := by
  have added : (start content).type world.nextId = other content :=
    World.type_nextId_addType world _
  have named : ((place "Other").fill []).name? = some "Other" := by decide +kernel
  refine ⟨met.clean.sound.addDeclared rfl met.clean.sound.bootstrap fun file declared => ?_,
    met.clean.vetted.addType (World.vets_allocated rfl rfl rfl), ?_, ?_⟩
  · cases declared
    exact ⟨named, rfl⟩
  · rw [added]
    rfl
  · rw [added]
    rfl

theorem bare_links :
    ((start long).endOfLinking World.load world.nextId ((place "Other").fill [])).isOk ∧
      ((start cut).endOfLinking World.load world.nextId ((place "Other").fill [])).isOk := by
  decide +kernel

end Written

/-- `Whole` shows its code and `Damaged` is left behind. One more class with such a content is
linked, or fails because its file is damaged. -/
theorem Payload.linked_exactly_written :
    Written.world.Met ∧ Written.payload.ShownBy (Written.place "Whole") (Written.world.type ⟨0⟩) ∧
      Written.world.LeftBehind ⟨2⟩ ∧
      (runFrom (Written.start Written.long) (World.link Written.world.nextId)).1.isOk ∧
      ∃ error later,
        runFrom (Written.start Written.cut) (World.link Written.world.nextId) =
          (.error error, later) ∧ later.LeftBehind Written.world.nextId ∧
            error.throwable? = some "java/lang/ClassFormatError" := by
  obtain ⟨isWhole, linked, isDamaged⟩ := Written.loaded
  obtain ⟨within, proper⟩ := Written.cut_proper
  obtain ⟨linksLong, linksCut⟩ := Written.bare_links
  have shown := linked_exactly Written.payload (Written.place "Whole") 9 Written.fits
    (by decide +kernel)
  have behind := linked_exactly Written.payload (Written.place "Damaged") 9 Written.fits
    (by decide +kernel)
  obtain ⟨succeeds, fails, _⟩ := linked_exactly Written.payload (Written.place "Other") 9
    Written.fits (by decide +kernel)
  refine ⟨Written.met, (shown.2.2 _ _ Written.met).1 _ isWhole nofun linked,
    (behind.2.2 _ _ Written.met).2 _ within proper isDamaged, ?_, ?_⟩
  · obtain ⟨sound, _, awaits⟩ := Written.start_sound Written.long
    rw [World.link, (succeeds _ _ _ _ World.load_finds sound awaits).1]
    exact linksLong
  · obtain ⟨sound, vetted, awaits⟩ := Written.start_sound Written.cut
    obtain ⟨error, later, ends, behind, cause⟩ :=
      fails _ _ _ _ World.load_finds sound vetted within proper awaits
    refine ⟨error, later, ends, behind, cause.resolve_right fun same => ?_⟩
    rw [same] at linksCut
    cases linksCut

end JavaMachine

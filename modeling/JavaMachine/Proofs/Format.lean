import JavaMachine.ClassFile.Format
import JavaMachine.Proofs.Bytes

/-!
# Reading and writing class files

What the reader of class files accepts is what the writer makes, with a count that may say one of
two other things than the writer's: zero for a pool without slots, and one less where the last
constant takes two slots.
-/

namespace JavaMachine

open Reader

variable {input rest : List UInt8}

/-! ### Constants -/

theorem ConstantTag.ofByte?_eq_some {byte : UInt8} {tag : ConstantTag} :
    ofByte? byte = some tag ↔ tag ≠ .empty ∧ byte = tag.byte := by
  constructor
  · intro announced
    unfold ofByte? at announced
    split at announced <;> cases announced <;> exact ⟨nofun, UInt8.toNat_inj.1 ‹_›⟩
  · rintro ⟨present, rfl⟩
    cases tag <;> first | rfl | contradiction

namespace Constant

/-- A text fits its length, a number of two bytes. -/
def Fits : Constant → Prop
  | utf8 bytes => bytes.length < UInt16.size
  | _ => True

@[simp] theorem fits_empty : Fits .empty := trivial

theorem readTag_eq_ok {tag : ConstantTag} :
    readTag input = .ok (tag, rest) ↔ tag ≠ .empty ∧ input = tag.byte :: rest := by
  cases input with
  | nil => simp [readTag]
  | cons byte input =>
      rw [List.cons.injEq, ← and_assoc, ← ConstantTag.ofByte?_eq_some, readTag]
      cases ConstantTag.ofByte? byte with
      | none => simp
      | some announced => simp

theorem readBody_eq_ok {tag : ConstantTag} {constant : Constant} :
    readBody tag input = .ok (constant, rest) ↔
      constant.tag = tag ∧ constant.Fits ∧ input = constant.writeBody ++ rest := by
  constructor
  · intro taken
    cases tag <;>
      simp only [readBody, bind_eq_ok, pure_eq_ok, u1_eq_ok, u2_eq_ok, u4_eq_ok,
        block_eq_ok] at taken
    case utf8 =>
      obtain ⟨size, _, rfl, bytes, _, ⟨long, rfl⟩, rfl, rfl⟩ := taken
      exact ⟨rfl, long.trans_lt size.toNat_lt, by simp [writeBody, long]⟩
    all_goals grind [Constant.tag, Fits, writeBody, UInt32.toUInt32_toInt32]
  · rintro ⟨rfl, fits, rfl⟩
    cases constant <;>
      simp only [Constant.tag, readBody, bind_eq_ok, pure_eq_ok, u1_eq_ok, u2_eq_ok, u4_eq_ok,
        block_eq_ok, writeBody]
    case utf8 bytes =>
      have same : (UInt16.ofNat bytes.length).toNat = bytes.length := by
        rw [UInt16.toNat_ofNat', Nat.mod_eq_of_lt fits]
      exact ⟨_, _, List.append_assoc .., bytes, rest, ⟨same.symm, rfl⟩, rfl, rfl⟩
    case integer value => exact ⟨_, _, rfl, rfl, rfl⟩
    all_goals simp

/-- Empty slots are not read, they come with the wide constants before them. -/
theorem inverts_read : Inverts read write fun constant => constant.Fits ∧ constant ≠ .empty := by
  refine ⟨fun {input constant rest} => ?_⟩
  simp only [read, bind_eq_ok, readTag_eq_ok, readBody_eq_ok]
  constructor
  · rintro ⟨_, _, ⟨present, rfl⟩, rfl, fits, rfl⟩
    cases constant <;> first | exact ⟨⟨fits, nofun⟩, rfl⟩ | exact absurd rfl present
  · rintro ⟨⟨fits, present⟩, rfl⟩
    refine ⟨constant.tag, constant.writeBody ++ rest, ⟨?_, ?_⟩, rfl, fits, rfl⟩ <;>
      cases constant <;> first | rfl | contradiction | nofun

/-! ### Pools -/

/-- The slot after a wide constant. -/
def FollowsWide (pool : List Constant) (slot : Nat) : Prop :=
  ∃ before, slot = before + 1 ∧ ∃ constant, pool[before]? = some constant ∧ constant.isWide

/-- The empty slots are those after wide constants, each of which has one. -/
def Paired (pool : List Constant) : Prop :=
  ∀ slot, pool[slot]? = some .empty ↔ FollowsWide pool slot

/-- The constants fill as many slots, or one more if a wide constant begins in the last of them. -/
def Fills (slots : Nat) (pool : List Constant) : Prop :=
  pool.length = slots ∨ pool.length = slots + 1 ∧ pool.getLast? = some .empty

variable {constant : Constant} {pool : List Constant} {slots : Nat}

@[simp] theorem not_followsWide_nil (slot : Nat) : ¬ FollowsWide [] slot := by simp [FollowsWide]

@[simp] theorem not_followsWide_zero : ¬ FollowsWide pool 0 := by simp [FollowsWide]

@[simp] theorem followsWide_succ {slot : Nat} : FollowsWide (constant :: pool) (slot + 1) ↔
    slot = 0 ∧ constant.isWide ∨ FollowsWide pool slot := by
  cases slot with
  | zero => simp [FollowsWide]
  | succ slot => simp [FollowsWide]

theorem paired_nil : Paired [] := by simp [Paired]

theorem paired_cons : Paired (constant :: pool) ↔ constant ≠ .empty ∧ ∀ slot,
    pool[slot]? = some .empty ↔ slot = 0 ∧ constant.isWide ∨ FollowsWide pool slot := by
  rw [Paired, ← Nat.and_forall_add_one]
  simp

theorem paired_cons_narrow (narrow : ¬ constant.isWide) (present : constant ≠ .empty) :
    Paired (constant :: pool) ↔ Paired pool := by
  rw [paired_cons]
  simp [present, narrow, Paired]

theorem paired_cons_wide (wide : constant.isWide) :
    Paired (constant :: pool) ↔ ∃ others, pool = .empty :: others ∧ Paired others := by
  have present : constant ≠ .empty := by
    rintro rfl
    cases wide
  rw [paired_cons, ← Nat.and_forall_add_one]
  cases pool with
  | nil => simp [wide]
  | cons second others =>
      by_cases empty : second = .empty
      · simp [present, wide, empty, Paired, show Constant.empty.isWide = false from rfl]
      · simp [wide, empty]

theorem fills_zero : Fills 0 pool ↔ pool = [] ∨ pool = [.empty] := by
  match pool with
  | [] => simp [Fills]
  | [only] => simp [Fills]
  | _ :: _ :: _ => simp [Fills]

theorem fills_cons : Fills (slots + 1) (constant :: pool) ↔ Fills slots pool := by
  cases pool with
  | nil => simp [Fills, eq_comm]
  | cons second others => simp [Fills, List.getLast?_cons_cons]

/-- A pool that is read begins with a constant. -/
theorem exists_of_readPool (taken : readPool (slots + 1) input = .ok (pool, rest)) :
    ∃ constant middle, constant.Fits ∧ constant ≠ .empty ∧ input = write constant ++ middle := by
  rw [readPool, bind_eq_ok] at taken
  obtain ⟨constant, middle, first, _⟩ := taken
  obtain ⟨⟨fits, present⟩, rfl⟩ := inverts_read.eq_ok.1 first
  exact ⟨constant, middle, fits, present, rfl⟩

/-! How a pool goes on after its first constant. -/

section Reading

variable {middle : List UInt8} (fits : constant.Fits) (present : constant ≠ .empty)
include fits present

theorem readPool_narrow (narrow : ¬ constant.isWide) :
    readPool (slots + 1) (write constant ++ middle) = .ok (pool, rest) ↔
      ∃ others, readPool slots middle = .ok (others, rest) ∧ pool = constant :: others := by
  rw [readPool, bind_of_ok (inverts_read.eq_ok.2 ⟨⟨fits, present⟩, rfl⟩), if_neg narrow, bind_eq_ok]
  simp only [pure_eq_ok]
  grind

theorem readPool_wide (wide : constant.isWide) :
    readPool (slots + 2) (write constant ++ middle) = .ok (pool, rest) ↔
      ∃ others, readPool slots middle = .ok (others, rest) ∧
        pool = constant :: .empty :: others := by
  rw [readPool, bind_of_ok (inverts_read.eq_ok.2 ⟨⟨fits, present⟩, rfl⟩), if_pos wide]
  simp only [bind_eq_ok, pure_eq_ok]
  grind

/-- The second slot of a wide constant in the last slot comes along. -/
theorem readPool_last (wide : constant.isWide) :
    readPool 1 (write constant ++ middle) = .ok (pool, rest) ↔
      pool = [constant, .empty] ∧ middle = rest := by
  rw [readPool, bind_of_ok (inverts_read.eq_ok.2 ⟨⟨fits, present⟩, rfl⟩), if_pos wide]
  exact pure_eq_ok

end Reading

/-- Induction on the slots that are left: a narrow constant takes one, a wide one takes two, of
which the second may lie past the last. -/
theorem readPool_eq_ok :
    readPool slots input = .ok (pool, rest) ↔ Paired pool ∧ Fills slots pool ∧
      (∀ constant ∈ pool, constant.Fits) ∧ input = pool.flatMap write ++ rest := by
  induction slots using Nat.strong_induction_on generalizing input pool rest with
  | _ slots inductionHypothesis =>
    cases slots with
    | zero =>
        rw [readPool, pure_eq_ok, fills_zero]
        constructor
        · rintro ⟨rfl, rfl⟩
          exact ⟨paired_nil, .inl rfl, by simp, rfl⟩
        · rintro ⟨paired, rfl | rfl, _, rfl⟩
          · exact ⟨rfl, rfl⟩
          · exact absurd rfl (paired_cons.1 paired).1
    | succ slots =>
        constructor
        case mp =>
          intro taken
          obtain ⟨constant, middle, fits, present, rfl⟩ := exists_of_readPool taken
          by_cases wide : constant.isWide
          · cases slots with
            | zero =>
                obtain ⟨rfl, rfl⟩ := (readPool_last fits present wide).1 taken
                exact ⟨(paired_cons_wide wide).2 ⟨[], rfl, paired_nil⟩,
                  fills_cons.2 (fills_zero.2 (.inr rfl)), by simp [fits], by simp [write]⟩
            | succ slots =>
                obtain ⟨others, more, rfl⟩ := (readPool_wide fits present wide).1 taken
                obtain ⟨paired, fills, all, rfl⟩ := (inductionHypothesis slots (by omega)).1 more
                exact ⟨(paired_cons_wide wide).2 ⟨others, rfl, paired⟩,
                  fills_cons.2 (fills_cons.2 fills), by simpa [fits] using all, by simp [write]⟩
          · obtain ⟨others, more, rfl⟩ := (readPool_narrow fits present wide).1 taken
            obtain ⟨paired, fills, all, rfl⟩ := (inductionHypothesis slots (by omega)).1 more
            exact ⟨(paired_cons_narrow wide present).2 paired, fills_cons.2 fills,
              by simpa [fits] using all, by simp⟩
        case mpr =>
          rintro ⟨paired, fills, all, rfl⟩
          cases pool with
          | nil => simp [Fills] at fills
          | cons constant others =>
              obtain ⟨fitsFirst, all⟩ := List.forall_mem_cons.1 all
              have present := (paired_cons.1 paired).1
              have fills := fills_cons.1 fills
              rw [List.flatMap_cons, List.append_assoc]
              by_cases wide : constant.isWide
              · obtain ⟨rear, rfl, follow⟩ := (paired_cons_wide wide).1 paired
                cases slots with
                | zero =>
                    obtain rfl : rear = [] := by simpa using fills_zero.1 fills
                    exact (readPool_last fitsFirst present wide).2 ⟨rfl, rfl⟩
                | succ slots =>
                    have more : readPool slots (rear.flatMap write ++ rest) = .ok (rear, rest) :=
                      (inductionHypothesis slots (by omega)).2
                        ⟨follow, fills_cons.1 fills, (List.forall_mem_cons.1 all).2, rfl⟩
                    exact (readPool_wide fitsFirst present wide).2 ⟨rear, more, rfl⟩
              · have more : readPool slots (others.flatMap write ++ rest) = .ok (others, rest) :=
                  (inductionHypothesis slots (by omega)).2
                    ⟨(paired_cons_narrow wide present).1 paired, fills, all, rfl⟩
                exact (readPool_narrow fitsFirst present wide).2 ⟨others, more, rfl⟩

end Constant

/-! ### Attributes and members -/

/-- The content fits its length, a number of four bytes. -/
def Attribute.Fits (block : Attribute) : Prop := block.content.length < UInt32.size

theorem Attribute.inverts_read : Inverts read write Fits := by
  refine ⟨fun {input block rest} => ?_⟩
  simp only [read, bind_eq_ok, u2_eq_ok, u4_eq_ok, block_eq_ok, pure_eq_ok]
  constructor
  · rintro ⟨name, _, rfl, size, _, rfl, content, _, ⟨long, rfl⟩, rfl, rfl⟩
    exact ⟨long.trans_lt size.toNat_lt, by simp [write, long]⟩
  · rintro ⟨fits, rfl⟩
    have same : (UInt32.ofNat block.content.length).toNat = block.content.length := by
      rw [UInt32.toNat_ofNat', Nat.mod_eq_of_lt fits]
    exact ⟨block.name, _, by simp [write], _, _, rfl, block.content, rest, ⟨same.symm, rfl⟩, rfl, rfl⟩

namespace Member

/-- The attributes fit their number, of two bytes, and each of them its own length. -/
def Fits {Flags : Type} (member : Member Flags) : Prop :=
  member.attributes.length < UInt16.size ∧ ∀ block ∈ member.attributes, block.Fits

theorem inverts_read {Flags : Type} {flagged : UInt16 → Flags} {bits : Flags → UInt16}
    (bits_flagged : ∀ number, bits (flagged number) = number)
    (flagged_bits : ∀ flags, flagged (bits flags) = flags) :
    Inverts (read flagged) (write bits) Fits := by
  refine ⟨fun {input member rest} => ?_⟩
  simp only [read, bind_eq_ok, u2_eq_ok, Attribute.inverts_read.counted.eq_ok, pure_eq_ok]
  constructor
  · rintro ⟨flags, _, rfl, name, _, rfl, descriptor, _, rfl, attributes, _, ⟨fit, rfl⟩, rfl, rfl⟩
    exact ⟨fit, by simp [write, bits_flagged]⟩
  · rintro ⟨fits, rfl⟩
    exact ⟨bits member.flags, _, by simp [write], member.name, _, rfl, member.descriptor, _, rfl,
      member.attributes, rest, ⟨fits, rfl⟩, by rw [flagged_bits], rfl⟩

end Member

namespace ClassFile

variable {file : ClassFile} {bytes : List UInt8} {count : UInt16}

/-! ### Class files -/

/-- A class file whose pool has empty slots where they belong and whose texts, lists and contents
fit their lengths. -/
structure Writable (file : ClassFile) : Prop where
  paired : Constant.Paired file.pool
  constants : ∀ constant ∈ file.pool, constant.Fits
  interfaces : file.interfaces.length < UInt16.size
  fields : file.fields.length < UInt16.size ∧ ∀ field ∈ file.fields, field.Fits
  methods : file.methods.length < UInt16.size ∧ ∀ method ∈ file.methods, method.Fits
  attributes : file.attributes.length < UInt16.size ∧ ∀ block ∈ file.attributes, block.Fits

/-- A count that is accepted with a pool. It is one more than the number of slots, but it may be
zero if there are none, and one less if the last constant takes two. -/
def Counts (count : UInt16) (pool : List Constant) : Prop :=
  count.toNat = pool.length + 1 ∨ count = 0 ∧ pool = [] ∨
    count.toNat = pool.length ∧ pool.getLast? = some .empty

theorem counts_iff {pool : List Constant} (paired : Constant.Paired pool) :
    Counts count pool ↔ Constant.Fills (count.toNat - 1) pool := by
  have zero : count = 0 ↔ count.toNat = 0 := UInt16.toNat_inj.symm
  rw [Counts, Constant.Fills, zero]
  match pool with
  | [] => grind
  | [only] =>
      have present : only ≠ .empty := (Constant.paired_cons.1 paired).1
      grind
  | _ :: _ :: _ => grind

theorem readPool_eq_ok {pool : List Constant} :
    readPool input = .ok (pool, rest) ↔ ∃ count, Counts count pool ∧ Constant.Paired pool ∧
      (∀ constant ∈ pool, constant.Fits) ∧
        input = Bytes.u2 count ++ (pool.flatMap Constant.write ++ rest) := by
  simp only [readPool, bind_eq_ok, u2_eq_ok, Constant.readPool_eq_ok]
  constructor
  · rintro ⟨count, _, rfl, paired, fills, fit, rfl⟩
    exact ⟨count, (counts_iff paired).2 fills, paired, fit, rfl⟩
  · rintro ⟨count, counts, paired, fit, rfl⟩
    exact ⟨count, _, rfl, paired, (counts_iff paired).1 counts, fit, rfl⟩

theorem readMagic_eq_ok {mark : Unit} :
    readMagic input = .ok (mark, rest) ↔ input = magic ++ rest := by
  unfold readMagic
  split
  · simp [magic, eq_comm]
  · rename_i other
    refine iff_of_false nofun fun same => ?_
    exact other rest same

theorem finished_eq_ok {mark : Unit} : finished input = .ok (mark, rest) ↔ input = [] ∧ rest = [] := by
  cases input <;> simp [finished, eq_comm]

theorem inverts_readField :
    Inverts (Member.read FieldFlags.mk) (Member.write FieldFlags.bits) Member.Fits :=
  Member.inverts_read (fun _ => rfl) fun _ => rfl

theorem inverts_readMethod :
    Inverts (Member.read MethodFlags.mk) (Member.write MethodFlags.bits) Member.Fits :=
  Member.inverts_read (fun _ => rfl) fun _ => rfl

/-- What stands between the opening bytes and the end. -/
def readContent : Reader ClassFile := do
  let minorVersion ← u2
  let majorVersion ← u2
  let pool ← readPool
  let flags ← u2
  let thisClass ← u2
  let superClass ← u2
  let interfaces ← Reader.counted u2
  let fields ← Reader.counted (Member.read FieldFlags.mk)
  let methods ← Reader.counted (Member.read MethodFlags.mk)
  let attributes ← Reader.counted Attribute.read
  return {
    minorVersion, majorVersion, pool, flags := ⟨flags⟩, thisClass, superClass, interfaces
    fields, methods, attributes }

theorem read_eq : read = do
    readMagic
    let file ← readContent
    finished
    return file := by
  simp [read, readContent]

theorem readContent_eq_ok : readContent input = .ok (file, rest) ↔ ∃ count,
    Counts count file.pool ∧ file.Writable ∧ magic ++ input = file.writeCounting count ++ rest := by
  simp only [readContent, bind_eq_ok, u2_eq_ok, readPool_eq_ok, inverts_u2.counted.eq_ok,
    Attribute.inverts_read.counted.eq_ok, inverts_readField.counted.eq_ok,
    inverts_readMethod.counted.eq_ok, pure_eq_ok]
  constructor
  · rintro ⟨minor, _, rfl, major, _, rfl, pool, _, ⟨count, counts, paired, constants, rfl⟩,
      flags, _, rfl, own, _, rfl, super, _, rfl, interfaces, _, ⟨⟨interfacesFit, _⟩, rfl⟩,
      fields, _, ⟨fieldsFit, rfl⟩, methods, _, ⟨methodsFit, rfl⟩, attributes, _,
      ⟨attributesFit, rfl⟩, rfl, rfl⟩
    exact ⟨count, counts,
      ⟨paired, constants, interfacesFit, fieldsFit, methodsFit, attributesFit⟩,
      by simp [writeCounting]⟩
  · rintro ⟨count, counts, fits, same⟩
    simp only [writeCounting, List.append_assoc, List.append_cancel_left_eq] at same
    exact ⟨file.minorVersion, _, same, file.majorVersion, _, rfl, file.pool, _,
      ⟨count, counts, fits.paired, fits.constants, rfl⟩, file.flags.bits, _, rfl, file.thisClass, _,
      rfl, file.superClass, _, rfl, file.interfaces, _, ⟨⟨fits.interfaces, by simp⟩, rfl⟩,
      file.fields, _, ⟨fits.fields, rfl⟩, file.methods, _, ⟨fits.methods, rfl⟩, file.attributes, _,
      ⟨fits.attributes, rfl⟩, rfl, rfl⟩

theorem parse_eq_ok_iff_read : parse bytes = .ok file ↔ ∃ rest, read bytes = .ok (file, rest) := by
  change (Prod.fst <$> read bytes) = _ ↔ _
  cases read bytes with
  | error damage => simp [Functor.map, Except.map]
  | ok taken =>
      obtain ⟨made, rest⟩ := taken
      simp [Functor.map, Except.map]

theorem parse_eq_ok_iff_readContent : parse bytes = .ok file ↔
    ∃ content, bytes = magic ++ content ∧ readContent content = .ok (file, []) := by
  simp only [parse_eq_ok_iff_read, read_eq, bind_eq_ok, readMagic_eq_ok, finished_eq_ok, pure_eq_ok]
  constructor
  · rintro ⟨rest, _, content, rfl, _, _, taken, _, _, ⟨rfl, rfl⟩, rfl, rfl⟩
    exact ⟨content, rfl, taken⟩
  · rintro ⟨content, rfl, taken⟩
    exact ⟨[], (), content, rfl, file, [], taken, (), [], ⟨rfl, rfl⟩, rfl, rfl⟩

/-- Only the count of the pool distinguishes two writings of a class file. -/
theorem writeCounting_eq (file : ClassFile) : ∃ versions content, versions.length = 4 ∧ ∀ count,
    file.writeCounting count = magic ++ (versions ++ Bytes.u2 count ++ content) :=
  ⟨Bytes.u2 file.minorVersion ++ Bytes.u2 file.majorVersion,
    file.pool.flatMap Constant.write ++ Bytes.u2 file.flags.bits ++ Bytes.u2 file.thisClass ++
      Bytes.u2 file.superClass ++ Bytes.counted Bytes.u2 file.interfaces ++
      Bytes.counted (Member.write FieldFlags.bits) file.fields ++
      Bytes.counted (Member.write MethodFlags.bits) file.methods ++
      Bytes.counted Attribute.write file.attributes, rfl, fun count => by simp [writeCounting]⟩

theorem parse_eq_ok : parse bytes = .ok file ↔
    ∃ count, Counts count file.pool ∧ file.Writable ∧ bytes = file.writeCounting count := by
  simp only [parse_eq_ok_iff_readContent, readContent_eq_ok, List.append_nil]
  constructor
  · rintro ⟨content, rfl, count, counts, writable, same⟩
    exact ⟨count, counts, writable, same⟩
  · rintro ⟨count, counts, writable, rfl⟩
    obtain ⟨versions, content, _, written⟩ := file.writeCounting_eq
    exact ⟨_, written count, count, counts, writable, (written count).symm⟩

theorem Counts.length_lt {pool : List Constant} (counts : Counts count pool) :
    pool.length < UInt16.size := by
  have small := count.toNat_lt_size
  rcases counts with same | ⟨_, rfl⟩ | ⟨same, _⟩
  · omega
  · decide
  · omega

/-- The index of a slot is one more, which two bytes hold for every slot of an accepted pool. -/
theorem constant?_of_counts (counts : Counts count file.pool) {slot : Nat}
    (inside : slot < file.pool.length) :
    file.constant? (UInt16.ofNat (slot + 1)) = file.pool[slot]? := by
  have small := counts.length_lt
  have same : (UInt16.ofNat (slot + 1)).toNat = slot + 1 := by
    have fits : slot + 1 < UInt16.size := by omega
    rw [UInt16.toNat_ofNat', Nat.mod_eq_of_lt fits]
  rw [constant?, same]

/-- The reader of class files accepts what the writer makes of a class file with an accepted count,
and reads that class file. So it reads back what is written within the limits, and writing again
what it has accepted changes nothing but the count of the pool, if that is not the writer's. In an
accepted file each slot is found under the index after its own. -/
theorem parse_inverts_write :
    (∀ bytes file, parse bytes = .ok file ↔
      ∃ count, Counts count file.pool ∧ file.Writable ∧ bytes = file.writeCounting count) ∧
    (∀ file : ClassFile, file.Writable → file.pool.length + 1 < UInt16.size →
      parse file.write = .ok file) ∧
    ∀ bytes file, parse bytes = .ok file →
      (∃ versions count content, Counts count file.pool ∧ versions.length = 4 ∧
        bytes = magic ++ (versions ++ Bytes.u2 count ++ content) ∧ file.write =
          magic ++ (versions ++ Bytes.u2 (UInt16.ofNat (file.pool.length + 1)) ++ content)) ∧
      ∀ slot < file.pool.length,
        file.constant? (UInt16.ofNat (slot + 1)) = file.pool[slot]? := by
  refine ⟨fun bytes file => parse_eq_ok, fun file writable small => ?_,
    fun bytes file accepted => ?_⟩
  · have same : (UInt16.ofNat (file.pool.length + 1)).toNat = file.pool.length + 1 := by
      rw [UInt16.toNat_ofNat', Nat.mod_eq_of_lt small]
    exact parse_eq_ok.2 ⟨_, .inl same, writable, rfl⟩
  · obtain ⟨count, counts, writable, rfl⟩ := parse_eq_ok.1 accepted
    obtain ⟨versions, content, long, written⟩ := file.writeCounting_eq
    exact ⟨⟨versions, count, content, counts, long, written count, written _⟩,
      fun slot inside => constant?_of_counts counts inside⟩

/-- A class that declares nothing, with a long as the last constant of its pool. -/
def plain : ClassFile where
  minorVersion := 0
  majorVersion := 61
  pool := [.utf8 [0x41], .classRef 1, .long 1 2, .empty]
  flags := ⟨0x21⟩
  thisClass := 2
  superClass := 0
  interfaces := []
  fields := []
  methods := []
  attributes := []

theorem plain_writable : plain.Writable where
  paired := by
    have long : Constant.Paired [.long 1 2, .empty] :=
      (Constant.paired_cons_wide rfl).2 ⟨[], rfl, Constant.paired_nil⟩
    have named : Constant.Paired [.classRef 1, .long 1 2, .empty] :=
      (Constant.paired_cons_narrow (by decide) (by decide)).2 long
    exact (Constant.paired_cons_narrow (by decide) (by decide)).2 named
  constants := by simp [plain, Constant.Fits, UInt16.size]
  interfaces := by decide
  fields := by simp [plain]
  methods := by simp [plain]
  attributes := by simp [plain]

theorem parse_inverts_write_plain : plain.Writable ∧ parse plain.write = .ok plain ∧
    Counts 4 plain.pool ∧ parse (plain.writeCounting 4) = .ok plain :=
  have counts : Counts 4 plain.pool := .inr (.inr ⟨rfl, rfl⟩)
  ⟨plain_writable, parse_inverts_write.2.1 plain plain_writable (by decide), counts,
    (parse_inverts_write.1 _ plain).2 ⟨4, counts, plain_writable, rfl⟩⟩

end ClassFile
end JavaMachine

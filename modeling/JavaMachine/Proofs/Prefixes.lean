import JavaMachine.Proofs.Format

/-!
# Class files that are cut

A class file is accepted as a whole only. If bytes follow it, they are reported as what is left; if
it ends too early the damage is a misplaced end or a truncation, unless already the opening bytes
are missing.
-/

namespace JavaMachine

open Reader

/-- The damage of an input of so many bytes that ends too early. -/
def Damage.Early (size : Nat) : Damage → Prop
  | misplacedEnd left => left ≤ size
  | truncated => True
  | unknownMark _ => False

theorem Damage.Early.mono {size larger : Nat} {damage : Damage} (early : damage.Early size)
    (within : size ≤ larger) : damage.Early larger := by
  cases damage with
  | misplacedEnd left => exact Nat.le_trans early within
  | truncated => trivial
  | unknownMark left => exact early

namespace Reader

variable {α β : Type} {reader : Reader α} {front : List UInt8} {value : α}

/-- The reader takes these bytes for the value, whatever follows them, and misses each of them. -/
structure Takes (reader : Reader α) (front : List UInt8) (value : α) : Prop where
  takes (rest : List UInt8) : reader (front ++ rest) = .ok (value, rest)
  misses (part : List UInt8) (within : part <+: front) (proper : part ≠ front) :
    ∃ damage, reader part = .error damage ∧ damage.Early part.length

/-- What the reader reads it takes from the front of its input. -/
structure Frugal (reader : Reader α) : Prop where
  front {input value rest} (taken : reader input = .ok (value, rest)) :
    ∃ front, input = front ++ rest ∧ reader.Takes front value

theorem frugal_pure (value : α) : Frugal (pure value : Reader α) := by
  refine ⟨fun {input made rest} taken => ?_⟩
  obtain ⟨rfl, rfl⟩ := pure_eq_ok.1 taken
  exact ⟨[], rfl, fun rest => rfl, fun part within proper =>
    absurd (List.prefix_nil.1 within) proper⟩

/-- An input that ends too early for two readers ends too early for the first, or it ends too early
for the second one after what the first has taken. -/
theorem Takes.bind {next : α → Reader β} {back : List UInt8} {result : β}
    (first : reader.Takes front value) (second : (next value).Takes back result) :
    (reader >>= next).Takes (front ++ back) result where
  takes rest := by
    rw [List.append_assoc, bind_of_ok (first.takes _)]
    exact second.takes rest
  misses part within proper := by
    by_cases reaches : front <+: part
    · obtain ⟨more, rfl⟩ := reaches
      obtain ⟨damage, fails, early⟩ := second.misses more
        ((List.prefix_append_right_inj front).1 within) fun same => proper (same ▸ rfl)
      refine ⟨damage, ?_, early.mono (by simp)⟩
      rw [bind_of_ok (first.takes more), fails]
    · have short := (List.prefix_or_prefix_of_prefix within
        (List.prefix_append front back)).resolve_right reaches
      obtain ⟨damage, fails, early⟩ := first.misses part short fun same =>
        reaches (same ▸ List.prefix_rfl)
      exact ⟨damage, bind_of_error fails, early⟩

theorem Frugal.bind {next : α → Reader β} (frugal : reader.Frugal)
    (frugalNext : ∀ value, (next value).Frugal) : (reader >>= next).Frugal := by
  refine ⟨fun {input result rest} taken => ?_⟩
  obtain ⟨value, middle, first, second⟩ := bind_eq_ok.1 taken
  obtain ⟨front, rfl, takesFront⟩ := frugal.front first
  obtain ⟨back, rfl, takesBack⟩ := (frugalNext value).front second
  exact ⟨front ++ back, (List.append_assoc ..).symm, takesFront.bind takesBack⟩

/-! ### The readers of this library -/

/-- A reader that takes as many bytes as these and misses them in every shorter input. -/
theorem takes_of_length (takes : ∀ rest, reader (front ++ rest) = .ok (value, rest))
    (misses : ∀ part : List UInt8, part.length < front.length →
      ∃ damage, reader part = .error damage ∧ damage.Early part.length) :
    reader.Takes front value where
  takes := takes
  misses part within proper :=
    misses part (Nat.lt_of_le_of_ne within.length_le fun same => proper (within.eq_of_length same))

theorem frugal_u1 : Frugal u1 := by
  refine ⟨fun {input byte rest} taken => ?_⟩
  refine ⟨[byte], u1_eq_ok.1 taken, takes_of_length (fun rest => rfl) fun part short => ?_⟩
  match part with
  | [] => exact ⟨_, rfl, Nat.le_refl 0⟩

theorem frugal_u2 : Frugal u2 := by
  refine ⟨fun {input number rest} taken => ?_⟩
  refine ⟨_, u2_eq_ok.1 taken, takes_of_length (fun rest => u2_append number) fun part short => ?_⟩
  match part with
  | [] | [_] => exact ⟨_, rfl, Nat.le_refl _⟩

theorem frugal_u4 : Frugal u4 := by
  refine ⟨fun {input number rest} taken => ?_⟩
  refine ⟨_, u4_eq_ok.1 taken, takes_of_length (fun rest => u4_append number) fun part short => ?_⟩
  match part with
  | [] | [_] | [_, _] | [_, _, _] => exact ⟨_, rfl, Nat.le_refl _⟩

theorem frugal_block (size : Nat) : Frugal (block size) := by
  refine ⟨fun {input content rest} taken => ?_⟩
  obtain ⟨rfl, rfl⟩ := block_eq_ok.1 taken
  refine ⟨content, rfl, takes_of_length (fun rest => block_eq_ok.2 ⟨rfl, rfl⟩) fun part short => ?_⟩
  exact ⟨.truncated, by rw [block, splitExactly_eq_none.2 short], trivial⟩

theorem Frugal.times (frugal : reader.Frugal) (count : Nat) : Frugal (times reader count) := by
  induction count with
  | zero => exact frugal_pure []
  | succ count ih => exact frugal.bind fun _ => ih.bind fun _ => frugal_pure _

theorem Frugal.counted (frugal : reader.Frugal) : Frugal (counted reader) :=
  frugal_u2.bind fun _ => frugal.times _

end Reader

namespace Constant

theorem frugal_readTag : Frugal readTag := by
  refine ⟨fun {input tag rest} taken => ?_⟩
  obtain ⟨present, rfl⟩ := readTag_eq_ok.1 taken
  refine ⟨[tag.byte], rfl, takes_of_length (fun rest => readTag_eq_ok.2 ⟨present, rfl⟩)
    fun part short => ?_⟩
  match part with
  | [] => exact ⟨_, rfl, Nat.le_refl 0⟩

theorem frugal_readBody (tag : ConstantTag) : Frugal (readBody tag) := by
  have one {make : UInt16 → Constant} : Frugal (return make (← u2)) :=
    frugal_u2.bind fun _ => frugal_pure _
  have pair {make : UInt16 → UInt16 → Constant} : Frugal (return make (← u2) (← u2)) :=
    frugal_u2.bind fun _ => frugal_u2.bind fun _ => frugal_pure _
  have single {make : UInt32 → Constant} : Frugal (return make (← u4)) :=
    frugal_u4.bind fun _ => frugal_pure _
  have double {make : UInt32 → UInt32 → Constant} : Frugal (return make (← u4) (← u4)) :=
    frugal_u4.bind fun _ => frugal_u4.bind fun _ => frugal_pure _
  cases tag with
  | utf8 => exact frugal_u2.bind fun _ => (frugal_block _).bind fun _ => frugal_pure _
  | integer | float => exact single
  | long | double => exact double
  | classRef | string | methodType | moduleRef | packageRef => exact one
  | fieldRef | methodRef | interfaceMethodRef | nameAndType | dynamic | invokeDynamic => exact pair
  | methodHandle => exact frugal_u1.bind fun _ => frugal_u2.bind fun _ => frugal_pure _
  | empty => exact frugal_pure _

theorem frugal_read : Frugal read := frugal_readTag.bind frugal_readBody

theorem frugal_readPool (slots : Nat) : Frugal (readPool slots) := by
  -- a constant that takes two slots leaves the rest for a pool that is shorter by two
  induction slots using Nat.strong_induction_on with
  | _ slots inductionHypothesis =>
    cases slots with
    | zero => exact frugal_pure []
    | succ slots =>
        have shorter := inductionHypothesis slots (Nat.lt_succ_self slots)
        rw [readPool]
        refine frugal_read.bind fun constant => ?_
        split
        · cases slots with
          | zero => exact frugal_pure _
          | succ slots =>
              have shortest := inductionHypothesis slots (by omega)
              exact shortest.bind fun _ => frugal_pure _
        · exact shorter.bind fun _ => frugal_pure _

end Constant

theorem Attribute.frugal_read : Frugal read :=
  frugal_u2.bind fun _ => frugal_u4.bind fun _ => (frugal_block _).bind fun _ => frugal_pure _

theorem Member.frugal_read {Flags : Type} (flagged : UInt16 → Flags) : Frugal (read flagged) :=
  frugal_u2.bind fun _ => frugal_u2.bind fun _ => frugal_u2.bind fun _ =>
    Attribute.frugal_read.counted.bind fun _ => frugal_pure _

namespace ClassFile

variable {file : ClassFile} {bytes : List UInt8}

theorem frugal_readContent : Frugal readContent :=
  have frugal_readPool : Frugal readPool := frugal_u2.bind fun _ => Constant.frugal_readPool _
  frugal_u2.bind fun _ => frugal_u2.bind fun _ => frugal_readPool.bind fun _ =>
    frugal_u2.bind fun _ => frugal_u2.bind fun _ => frugal_u2.bind fun _ =>
    frugal_u2.counted.bind fun _ => (Member.frugal_read _).counted.bind fun _ =>
    (Member.frugal_read _).counted.bind fun _ => Attribute.frugal_read.counted.bind fun _ =>
    frugal_pure _

theorem parse_of_error {damage : Damage} (fails : read bytes = .error damage) :
    parse bytes = .error damage := by
  change (Prod.fst <$> read bytes) = _
  rw [fails]
  rfl

theorem parse_of_short (short : bytes.length < 4) :
    parse bytes = .error (.unknownMark bytes.length) := by
  have unopened : readMagic bytes = .error (.unknownMark bytes.length) := by
    unfold readMagic
    split
    · simp only [List.length_cons] at short
      omega
    · rfl
  exact parse_of_error (by rw [read_eq, bind_of_error unopened])

theorem parse_magic_of_error {content : List UInt8} {damage : Damage}
    (fails : readContent content = .error damage) : parse (magic ++ content) = .error damage := by
  have opened : readMagic (magic ++ content) = .ok ((), content) := readMagic_eq_ok.2 rfl
  apply parse_of_error
  rw [read_eq, bind_of_ok opened, bind_of_error fails]

theorem parse_magic_of_ok {content rest : List UInt8} (more : rest ≠ [])
    (taken : readContent content = .ok (file, rest)) :
    parse (magic ++ content) = .error (.misplacedEnd rest.length) := by
  have opened : readMagic (magic ++ content) = .ok ((), content) := readMagic_eq_ok.2 rfl
  have unfinished : finished rest = .error (.misplacedEnd rest.length) := by
    cases rest with
    | nil => contradiction
    | cons byte rest => rfl
  apply parse_of_error
  rw [read_eq, bind_of_ok opened, bind_of_ok taken, bind_of_error unfinished]

/-- An accepted class file is accepted as a whole only. What follows it is what is left at the
misplaced end. If it is cut within its opening bytes they are not recognised, and if it is cut
later the damage is a misplaced end within the rest or a truncated block. -/
theorem parse_only_whole (accepted : parse bytes = .ok file) :
    (∀ more, more ≠ [] → parse (bytes ++ more) = .error (.misplacedEnd more.length)) ∧
    ∀ part, part <+: bytes → part ≠ bytes →
      (part.length < 4 → parse part = .error (.unknownMark part.length)) ∧
      (4 ≤ part.length → parse part = .error .truncated ∨
        ∃ left ≤ part.length, parse part = .error (.misplacedEnd left)) := by
  obtain ⟨content, rfl, taken⟩ := parse_eq_ok_iff_readContent.1 accepted
  obtain ⟨front, same, takes⟩ := frugal_readContent.front taken
  obtain rfl : content = front := by simpa using same
  refine ⟨fun more present => ?_, fun part within proper => ⟨parse_of_short, fun long => ?_⟩⟩
  · rw [List.append_assoc]
    exact parse_magic_of_ok present (takes.takes more)
  · have opens : magic <+: part :=
      List.prefix_of_prefix_length_le (List.prefix_append ..) within long
    obtain ⟨rest, rfl⟩ := opens
    obtain ⟨damage, fails, early⟩ := takes.misses rest
      ((List.prefix_append_right_inj magic).1 within) fun same => proper (same ▸ rfl)
    rw [parse_magic_of_error fails]
    cases damage with
    | misplacedEnd left => exact .inr ⟨left, early.trans (by simp), rfl⟩
    | truncated => exact .inl rfl
    | unknownMark left => exact early.elim

theorem parse_only_whole_plain : parse plain.write = .ok plain ∧
    parse (plain.write ++ [0]) = .error (.misplacedEnd 1) ∧
    plain.write.take 3 ≠ plain.write ∧ parse (plain.write.take 3) = .error (.unknownMark 3) := by
  have accepted : parse plain.write = .ok plain := by decide +kernel
  have cut : plain.write.take 3 ≠ plain.write := by decide
  exact ⟨accepted, (parse_only_whole accepted).1 [0] (by decide), cut,
    ((parse_only_whole accepted).2 _ (List.take_prefix 3 _) cut).1 (by decide)⟩

end ClassFile
end JavaMachine

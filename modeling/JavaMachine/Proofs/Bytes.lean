import JavaMachine.Bytes
import Mathlib.Data.List.Infix

/-!
# Readers and what they take

A reader that is done has taken a front part of its input. What it has taken are the bytes that the
writers of the same thing make, and whatever follows is left to the next reader.
-/

namespace JavaMachine

namespace Reader

variable {α β : Type} {input rest : List UInt8}

/-! ### Readers one after the other -/

theorem bind_eq_ok {reader : Reader α} {next : α → Reader β} {value : β} :
    (reader >>= next) input = .ok (value, rest) ↔ ∃ first middle,
      reader input = .ok (first, middle) ∧ next first middle = .ok (value, rest) := by
  change (reader input >>= fun taken => next taken.1 taken.2) = _ ↔ _
  cases reader input with
  | error damage => simp [bind, Except.bind]
  | ok taken =>
      obtain ⟨first, middle⟩ := taken
      simp [bind, Except.bind]

theorem bind_of_error {reader : Reader α} {next : α → Reader β} {damage : Damage}
    (fails : reader input = .error damage) : (reader >>= next) input = .error damage := by
  change (reader input >>= fun taken => next taken.1 taken.2) = _
  rw [fails]
  rfl

theorem bind_of_ok {reader : Reader α} {next : α → Reader β} {value : α}
    (taken : reader input = .ok (value, rest)) : (reader >>= next) input = next value rest := by
  change (reader input >>= fun taken => next taken.1 taken.2) = _
  rw [taken]
  rfl

theorem pure_eq_ok {value made : α} :
    (pure made : Reader α) input = .ok (value, rest) ↔ value = made ∧ input = rest := by
  change Except.ok (made, input) = _ ↔ _
  simp [eq_comm]

/-! ### Numbers -/

theorem u1_eq_ok {byte : UInt8} : u1 input = .ok (byte, rest) ↔ input = byte :: rest := by
  cases input <;> simp [u1]

theorem u2_append (number : UInt16) : u2 (Bytes.u2 number ++ rest) = .ok (number, rest) := by
  have small := number.toNat_lt
  have same : UInt16.ofNat ((UInt8.ofNat (number.toNat / 0x100)).toNat * 0x100 +
      (UInt8.ofNat number.toNat).toNat) = number := by
    apply UInt16.toNat_inj.1
    simp only [UInt16.toNat_ofNat', UInt8.toNat_ofNat']
    omega
  exact congrArg (fun number => Except.ok (number, rest)) same

theorem u2_eq_ok {number : UInt16} :
    u2 input = .ok (number, rest) ↔ input = Bytes.u2 number ++ rest := by
  refine ⟨fun taken => ?_, fun written => written ▸ u2_append number⟩
  match input, taken with
  | high :: low :: _, rfl =>
      have highSmall := high.toNat_lt
      have lowSmall := low.toNat_lt
      have highSame : UInt8.ofNat ((UInt16.ofNat (high.toNat * 0x100 + low.toNat)).toNat / 0x100) =
          high := by
        apply UInt8.toNat_inj.1
        simp only [UInt16.toNat_ofNat', UInt8.toNat_ofNat']
        omega
      have lowSame : UInt8.ofNat (UInt16.ofNat (high.toNat * 0x100 + low.toNat)).toNat = low := by
        apply UInt8.toNat_inj.1
        simp only [UInt16.toNat_ofNat', UInt8.toNat_ofNat']
        omega
      simp only [Bytes.u2, highSame, lowSame, List.cons_append, List.nil_append]

theorem u4_append (number : UInt32) : u4 (Bytes.u4 number ++ rest) = .ok (number, rest) := by
  have small := number.toNat_lt
  have same : UInt32.ofNat ((((UInt8.ofNat (number.toNat / 0x1000000)).toNat * 0x100 +
      (UInt8.ofNat (number.toNat / 0x10000)).toNat) * 0x100 +
      (UInt8.ofNat (number.toNat / 0x100)).toNat) * 0x100 +
      (UInt8.ofNat number.toNat).toNat) = number := by
    apply UInt32.toNat_inj.1
    simp only [UInt32.toNat_ofNat', UInt8.toNat_ofNat']
    omega
  exact congrArg (fun number => Except.ok (number, rest)) same

theorem u4_eq_ok {number : UInt32} :
    u4 input = .ok (number, rest) ↔ input = Bytes.u4 number ++ rest := by
  refine ⟨fun taken => ?_, fun written => written ▸ u4_append number⟩
  match input, taken with
  | first :: second :: third :: fourth :: _, rfl =>
      have firstSmall := first.toNat_lt
      have secondSmall := second.toNat_lt
      have thirdSmall := third.toNat_lt
      have fourthSmall := fourth.toNat_lt
      have number : (UInt32.ofNat (((first.toNat * 0x100 + second.toNat) * 0x100 + third.toNat) *
          0x100 + fourth.toNat)).toNat =
            ((first.toNat * 0x100 + second.toNat) * 0x100 + third.toNat) * 0x100 +
              fourth.toNat := by
        rw [UInt32.toNat_ofNat']
        omega
      have digit (quotient : Nat) (byte : UInt8) (same : quotient % 256 = byte.toNat) :
          UInt8.ofNat quotient = byte := by
        apply UInt8.toNat_inj.1
        rwa [UInt8.toNat_ofNat']
      simp only [Bytes.u4, number, List.cons_append, List.nil_append, List.cons.injEq, and_true]
      refine ⟨(digit _ _ ?_).symm, (digit _ _ ?_).symm, (digit _ _ ?_).symm,
        (digit _ _ ?_).symm⟩ <;> omega

/-! ### Blocks and lists -/

theorem splitExactly_eq_some {size : Nat} {items front back : List α} :
    splitExactly size items = some (front, back) ↔ front.length = size ∧ items = front ++ back := by
  induction size generalizing items front back with
  | zero => cases front <;> simp [splitExactly, eq_comm]
  | succ size ih =>
      cases items with
      | nil => cases front <;> simp [splitExactly]
      | cons head items =>
          cases front with
          | nil => simp [splitExactly]
          | cons first front =>
              simp only [splitExactly, Option.map_eq_some_iff, Prod.exists, ih, Prod.mk.injEq,
                List.cons.injEq, List.length_cons, Nat.add_right_cancel_iff, List.cons_append]
              constructor
              · rintro ⟨_, _, ⟨long, rfl⟩, ⟨rfl, rfl⟩, rfl⟩
                exact ⟨long, rfl, rfl⟩
              · rintro ⟨long, rfl, rfl⟩
                exact ⟨_, _, ⟨long, rfl⟩, ⟨rfl, rfl⟩, rfl⟩

theorem splitExactly_eq_none {size : Nat} {items : List α} :
    splitExactly size items = none ↔ items.length < size := by
  induction size generalizing items with
  | zero => simp [splitExactly]
  | succ size ih => cases items <;> simp [splitExactly, ih]

theorem block_eq_ok {size : Nat} {content : List UInt8} :
    block size input = .ok (content, rest) ↔ content.length = size ∧ input = content ++ rest := by
  rw [← splitExactly_eq_some, block]
  cases splitExactly size input with
  | none => simp
  | some parts => simp

/-- A reader takes what `write` makes of the values that are `within` its reach, and nothing else. -/
structure Inverts (reader : Reader α) (write : α → List UInt8) (within : α → Prop) : Prop where
  eq_ok {input value rest} : reader input = .ok (value, rest) ↔
    within value ∧ input = write value ++ rest

variable {reader : Reader α} {write : α → List UInt8} {within : α → Prop}

theorem Inverts.times (inverts : Inverts reader write within) {count : Nat} {values : List α} :
    times reader count input = .ok (values, rest) ↔
      values.length = count ∧ (∀ value ∈ values, within value) ∧
        input = values.flatMap write ++ rest := by
  induction count generalizing input values rest with
  | zero => cases values <;> simp [Reader.times, pure_eq_ok]
  | succ count ih =>
      simp only [Reader.times, bind_eq_ok, pure_eq_ok, ih, inverts.eq_ok]
      cases values with
      | nil => simp
      | cons head values =>
          constructor
          · rintro ⟨_, _, ⟨reached, rfl⟩, _, _, ⟨long, all, rfl⟩, same, rfl⟩
            cases same
            simpa [long, reached] using all
          · rintro ⟨long, all, rfl⟩
            obtain ⟨reached, all⟩ := List.forall_mem_cons.1 all
            exact ⟨head, values.flatMap write ++ rest, ⟨reached, by simp⟩, values, rest,
              ⟨by simpa using long, all, rfl⟩, rfl, rfl⟩

/-- A list fits its length, a number of two bytes, if it is not longer than that number can be. -/
theorem Inverts.counted (inverts : Inverts reader write within) :
    Inverts (counted reader) (Bytes.counted write) fun values =>
      values.length < UInt16.size ∧ ∀ value ∈ values, within value := by
  refine ⟨fun {input values rest} => ?_⟩
  simp only [Reader.counted, bind_eq_ok, u2_eq_ok, inverts.times, Bytes.counted]
  constructor
  · rintro ⟨count, _, rfl, long, all, rfl⟩
    exact ⟨⟨long ▸ count.toNat_lt_size, all⟩, by simp [long]⟩
  · rintro ⟨⟨small, all⟩, rfl⟩
    have same : (UInt16.ofNat values.length).toNat = values.length := by
      rw [UInt16.toNat_ofNat', Nat.mod_eq_of_lt small]
    exact ⟨_, _, by simp, same.symm, all, rfl⟩

theorem inverts_u2 : Inverts u2 Bytes.u2 fun _ => True := ⟨by simp [u2_eq_ok]⟩

end Reader
end JavaMachine

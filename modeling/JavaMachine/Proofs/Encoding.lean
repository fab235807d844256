import JavaMachine.Text.ModifiedUtf8
import Mathlib.Data.List.Basic

/-!
# Modified UTF-8 is read as it is written

The class file format gives each character a form, from which its code can be read. Texts are
spelled in one way and bytes spell one text at most, so with any codec that keeps to the forms every
text can be read back from its bytes, and from no others. The bytes of a character are those of UTF-8
unless it is NUL or a supplementary character; of these UTF-8 makes a byte that no form has. The
codec in use keeps to the forms.
-/

namespace JavaMachine.Text.ModifiedUtf8

variable {char : Char} {bytes : List UInt8} {first second third : UInt8} {unit : Nat}

/-! ### Codes and bytes -/

/-- A code lies below the surrogates, or above them and within the range of Unicode. -/
theorem toNat_valid (char : Char) :
    char.toNat < 0xD800 ∨ 0xE000 ≤ char.toNat ∧ char.toNat < 0x110000 := by
  rcases char.valid with below | ⟨above, within⟩
  · exact .inl below
  · exact .inr ⟨above, within⟩

theorem toNat_charOfNat (code : Nat) (valid : code.isValidChar) :
    (Char.ofNat code).toNat = code := by
  rw [Char.ofNat, dif_pos valid]
  rfl

/-- The bound is a number here, as arithmetic finds it. -/
theorem toNat_ofNat_of_lt (code : Nat) (small : code < 0x100) :
    (UInt8.ofNat code).toNat = code :=
  UInt8.toNat_ofNat_of_lt' small

theorem continuation?_eq_some {byte : UInt8} {bits : Nat} :
    continuation? byte = some bits ↔ bits < 0x40 ∧ byte = UInt8.ofNat (0x80 + bits) := by
  constructor
  · intro continues
    rw [continuation?] at continues
    split at continues
    next within =>
      have low : 0x80 ≤ byte.toNat := by simpa [UInt8.le_iff_toNat_le] using within.1
      have high : byte.toNat < 0xC0 := by simpa [UInt8.lt_iff_toNat_lt] using within.2
      obtain rfl : byte.toNat - 0x80 = bits := Option.some.inj continues
      exact ⟨by omega, by rw [Nat.add_sub_cancel' low, UInt8.ofNat_toNat]⟩
    next => cases continues
  · rintro ⟨small, rfl⟩
    have same := toNat_ofNat_of_lt (0x80 + bits) (by omega)
    have within : (0x80 : UInt8) ≤ UInt8.ofNat (0x80 + bits) ∧
        UInt8.ofNat (0x80 + bits) < (0xC0 : UInt8) := by
      rw [UInt8.le_iff_toNat_le, UInt8.lt_iff_toNat_lt, same]
      exact ⟨Nat.le_add_right _ _, by simp; omega⟩
    rw [continuation?, if_pos within, same, Nat.add_sub_cancel_left]

/-! ### Reading the parts of a character -/

theorem twoByteChar?_eq_some (low : 0xC0 ≤ first.toNat) :
    twoByteChar? first second = some char ↔ ∃ code, (code = 0 ∨ 0x80 ≤ code) ∧
      first.toNat = 0xC0 + code / 0x40 ∧ second = UInt8.ofNat (0x80 + code % 0x40) ∧
        char = Char.ofNat code := by
  have shape : twoByteChar? first second = some char ↔ ∃ bits, continuation? second = some bits ∧
      ((first.toNat - 0xC0) * 0x40 + bits = 0 ∨ 0x80 ≤ (first.toNat - 0xC0) * 0x40 + bits) ∧
        Char.ofNat ((first.toNat - 0xC0) * 0x40 + bits) = char := by
    simp [twoByteChar?, Option.bind_eq_some_iff]
  rw [shape]
  simp only [continuation?_eq_some]
  constructor
  · rintro ⟨bits, ⟨small, rfl⟩, fits, rfl⟩
    refine ⟨_, fits, by omega, ?_, rfl⟩
    congr 2
    omega
  · rintro ⟨code, fits, front, rfl, rfl⟩
    have same : (first.toNat - 0xC0) * 0x40 + code % 0x40 = code := by omega
    exact ⟨code % 0x40, ⟨Nat.mod_lt _ (by decide), rfl⟩, by rwa [same], by rw [same]⟩

theorem threeByteUnit?_eq_some : threeByteUnit? first second third = some unit ↔
    0x800 ≤ unit ∧ unit < 0x10000 ∧ [first, second, third] = threeBytes unit := by
  have shape : threeByteUnit? first second third = some unit ↔
      (0xE0 ≤ first.toNat ∧ first.toNat < 0xF0) ∧ ∃ middle, continuation? second = some middle ∧
        ∃ low, continuation? third = some low ∧
          0x800 ≤ (first.toNat - 0xE0) * 0x1000 + middle * 0x40 + low ∧
            (first.toNat - 0xE0) * 0x1000 + middle * 0x40 + low = unit := by
    simp [threeByteUnit?, Option.bind_eq_some_iff, UInt8.lt_iff_toNat_lt, UInt8.le_iff_toNat_le]
  rw [shape]
  simp only [continuation?_eq_some, threeBytes, List.cons.injEq, and_true]
  constructor
  · rintro ⟨⟨least, most⟩, middle, ⟨middleSmall, rfl⟩, low, ⟨lowSmall, rfl⟩, fits, rfl⟩
    obtain ⟨front, same⟩ := Nat.exists_eq_add_of_le least
    obtain rfl : first = UInt8.ofNat (0xE0 + front) := by rw [← same, UInt8.ofNat_toNat]
    rw [same, Nat.add_sub_cancel_left] at fits ⊢
    refine ⟨fits, by omega, ?_, ?_, ?_⟩ <;> congr 2 <;> omega
  · rintro ⟨long, short, rfl, rfl, rfl⟩
    have front := toNat_ofNat_of_lt (0xE0 + unit / 0x1000) (by omega)
    rw [front]
    exact ⟨by omega, unit / 0x40 % 0x40, ⟨by omega, rfl⟩, unit % 0x40, ⟨by omega, rfl⟩, by omega,
      by omega⟩

theorem threeByteUnit?_threeBytes (long : 0x800 ≤ unit) (short : unit < 0x10000) :
    threeByteUnit? (UInt8.ofNat (0xE0 + unit / 0x1000)) (UInt8.ofNat (0x80 + unit / 0x40 % 0x40))
      (UInt8.ofNat (0x80 + unit % 0x40)) = some unit :=
  threeByteUnit?_eq_some.2 ⟨long, short, rfl⟩

/-- No shorter form begins like one of three bytes. -/
theorem not_shorter (read : threeByteUnit? first second third = some unit) :
    first ≠ 0 ∧ ¬ first < 0x80 ∧ ¬ first < 0xC0 ∧ ¬ first < 0xE0 := by
  obtain ⟨_, short, bytes⟩ := threeByteUnit?_eq_some.1 read
  have front : first.toNat = 0xE0 + unit / 0x1000 := by
    rw [(List.cons.inj bytes).1, toNat_ofNat_of_lt _ (by omega)]
  have above {bound : UInt8} (low : bound.toNat ≤ 0xE0) : ¬ first < bound := by
    rw [UInt8.lt_iff_toNat_lt]
    omega
  refine ⟨?_, above (by decide), above (by decide), above (by decide)⟩
  rintro rfl
  simp at front
  omega

/-! ### Reading a character off the front -/

theorem decodeChars_ascii (rest : List UInt8) (nonzero : first ≠ 0) (ascii : first.toNat < 0x80) :
    decodeChars (first :: rest) = (decodeChars rest).map (Char.ofNat first.toNat :: ·) := by
  have below : first < 0x80 := by simpa [UInt8.lt_iff_toNat_lt] using ascii
  rw [decodeChars.eq_def]
  dsimp only
  rw [if_neg nonzero, if_pos below]

theorem decodeChars_two (rest : List UInt8) (low : 0xC0 ≤ first.toNat) (high : first.toNat < 0xE0)
    (read : twoByteChar? first second = some char) :
    decodeChars (first :: second :: rest) = (decodeChars rest).map (char :: ·) := by
  have nonzero : first ≠ 0 := by
    rintro rfl
    simp at low
  have notOne : ¬ first < 0x80 := by
    rw [UInt8.lt_iff_toNat_lt]
    simp
    omega
  have notLead : ¬ first < 0xC0 := by simpa [UInt8.lt_iff_toNat_lt] using low
  have below : first < 0xE0 := by simpa [UInt8.lt_iff_toNat_lt] using high
  rw [decodeChars.eq_def]
  dsimp only
  rw [if_neg nonzero, if_neg notOne, if_neg notLead, if_pos below, read]
  rfl

theorem decodeChars_three (rest : List UInt8)
    (read : threeByteUnit? first second third = some unit)
    (scalar : unit < 0xD800 ∨ 0xE000 ≤ unit) :
    decodeChars (first :: second :: third :: rest) =
      (decodeChars rest).map (Char.ofNat unit :: ·) := by
  obtain ⟨nonzero, notOne, notLead, notTwo⟩ := not_shorter read
  rw [decodeChars.eq_def]
  dsimp only
  rw [if_neg nonzero, if_neg notOne, if_neg notLead, if_neg notTwo, read]
  exact if_pos scalar

section Pairs

variable {fourth fifth sixth : UInt8} {low : Nat}
variable (read : threeByteUnit? first second third = some unit)
variable (isHigh : 0xD800 ≤ unit ∧ unit < 0xDC00)
variable (readLow : threeByteUnit? fourth fifth sixth = some low)
variable (isLow : 0xDC00 ≤ low ∧ low < 0xE000)
include read isHigh readLow isLow

theorem decodeChars_pair (rest : List UInt8) :
    decodeChars (first :: second :: third :: fourth :: fifth :: sixth :: rest) =
      (decodeChars rest).map
        (Char.ofNat (0x10000 + (unit - 0xD800) * 0x400 + (low - 0xDC00)) :: ·) := by
  obtain ⟨nonzero, notOne, notLead, notTwo⟩ := not_shorter read
  rw [decodeChars.eq_def]
  dsimp only
  rw [if_neg nonzero, if_neg notOne, if_neg notLead, if_neg notTwo, read]
  simp only [Option.bind_eq_bind, Option.bind_some]
  rw [if_neg (by omega), if_neg (by omega), readLow]
  simp only [Option.bind_some]
  rw [if_neg (by omega)]

end Pairs

/-! ### The five forms -/

theorem form_cases (char : Char) : char.toNat = 0 ∨ (char.toNat ≠ 0 ∧ char.toNat < 0x80) ∨
    (0x80 ≤ char.toNat ∧ char.toNat < 0x800) ∨ (0x800 ≤ char.toNat ∧ char.toNat < 0x10000) ∨
      0x10000 ≤ char.toNat := by
  omega

theorem encodeChar_nul (nul : char.toNat = 0) : encodeChar char = [0xC0, 0x80] := by
  rw [encodeChar, if_pos nul]

theorem encodeChar_ascii (present : char.toNat ≠ 0) (ascii : char.toNat < 0x80) :
    encodeChar char = [UInt8.ofNat char.toNat] := by
  rw [encodeChar, if_neg present, if_pos ascii]

theorem encodeChar_two (long : 0x80 ≤ char.toNat) (short : char.toNat < 0x800) :
    encodeChar char =
      [UInt8.ofNat (0xC0 + char.toNat / 0x40), UInt8.ofNat (0x80 + char.toNat % 0x40)] := by
  rw [encodeChar, if_neg (by omega), if_neg (by omega), if_pos short]

theorem encodeChar_three (long : 0x800 ≤ char.toNat) (short : char.toNat < 0x10000) :
    encodeChar char = threeBytes char.toNat := by
  rw [encodeChar, if_neg (by omega), if_neg (by omega), if_neg (by omega), if_pos short]

theorem encodeChar_pair (supplementary : 0x10000 ≤ char.toNat) :
    encodeChar char = threeBytes (0xD800 + (char.toNat - 0x10000) / 0x400) ++
      threeBytes (0xDC00 + (char.toNat - 0x10000) % 0x400) := by
  rw [encodeChar, if_neg (by omega), if_neg (by omega), if_neg (by omega), if_neg (by omega)]

/-! ### What is written is read -/

/-- A written character is read whatever follows it. -/
theorem decodeChars_encodeChar (char : Char) (rest : List UInt8) :
    decodeChars (encodeChar char ++ rest) = (decodeChars rest).map (char :: ·) := by
  have valid := toNat_valid char
  have self := Char.ofNat_toNat char
  rcases form_cases char with nul | ⟨present, ascii⟩ | ⟨long, short⟩ | ⟨long, short⟩ | above
  · rw [encodeChar_nul nul]
    refine decodeChars_two rest (by decide) (by decide) ((twoByteChar?_eq_some (by decide)).2 ?_)
    exact ⟨0, .inl rfl, by decide, by decide, nul ▸ self.symm⟩
  · have same := toNat_ofNat_of_lt char.toNat (by omega)
    have nonzero : UInt8.ofNat char.toNat ≠ 0 := by
      intro zero
      rw [zero] at same
      exact present same.symm
    have step := decodeChars_ascii rest nonzero (by omega)
    rw [same, self] at step
    rw [encodeChar_ascii present ascii]
    exact step
  · have front := toNat_ofNat_of_lt (0xC0 + char.toNat / 0x40) (by omega)
    rw [encodeChar_two long short]
    refine decodeChars_two rest (by omega) (by omega) ((twoByteChar?_eq_some (by omega)).2 ?_)
    exact ⟨char.toNat, by omega, front, rfl, self.symm⟩
  · have step := decodeChars_three rest (threeByteUnit?_threeBytes long short) (by omega)
    rw [self] at step
    rw [encodeChar_three long short]
    exact step
  · have high := threeByteUnit?_threeBytes
      (by omega : 0x800 ≤ 0xD800 + (char.toNat - 0x10000) / 0x400) (by omega)
    have low := threeByteUnit?_threeBytes
      (by omega : 0x800 ≤ 0xDC00 + (char.toNat - 0x10000) % 0x400) (by omega)
    have code : 0x10000 + (0xD800 + (char.toNat - 0x10000) / 0x400 - 0xD800) * 0x400 +
        (0xDC00 + (char.toNat - 0x10000) % 0x400 - 0xDC00) = char.toNat := by omega
    have step := decodeChars_pair high (by omega) low (by omega) rest
    rw [code, self] at step
    rw [encodeChar_pair above]
    exact step

theorem decodeChars_flatMap (chars : List Char) :
    decodeChars (chars.flatMap encodeChar) = some chars := by
  induction chars with
  | nil => rfl
  | cons char rest inductionHypothesis =>
      rw [List.flatMap_cons, decodeChars_encodeChar, inductionHypothesis, Option.map_some]

/-! ### What is read is written -/

theorem encodeChar_of_ascii (present : first ≠ 0) (ascii : first.toNat < 0x80) :
    encodeChar (Char.ofNat first.toNat) = [first] := by
  have same := toNat_charOfNat first.toNat (.inl (by omega))
  have nonzero : first.toNat ≠ 0 := fun zero => present (UInt8.toNat_inj.1 zero)
  rw [encodeChar_ascii (by rwa [same]) (by rwa [same]), same, UInt8.ofNat_toNat]

theorem encodeChar_of_two (low : 0xC0 ≤ first.toNat) (high : first.toNat < 0xE0)
    (read : twoByteChar? first second = some char) : encodeChar char = [first, second] := by
  obtain ⟨code, nulOrLong, front, rfl, rfl⟩ := (twoByteChar?_eq_some low).1 read
  have same := toNat_charOfNat code (.inl (by omega))
  have firstSame : first = UInt8.ofNat (0xC0 + code / 0x40) := by rw [← front, UInt8.ofNat_toNat]
  rcases nulOrLong with rfl | long
  · rw [encodeChar_nul same, firstSame]
    decide
  · rw [encodeChar_two (by omega) (by omega), same, firstSame]

theorem encodeChar_of_three (read : threeByteUnit? first second third = some unit)
    (scalar : unit < 0xD800 ∨ 0xE000 ≤ unit) :
    encodeChar (Char.ofNat unit) = [first, second, third] := by
  obtain ⟨long, short, bytes⟩ := threeByteUnit?_eq_some.1 read
  have same := toNat_charOfNat unit (scalar.imp_right fun above => ⟨by omega, by omega⟩)
  rw [encodeChar_three (by omega) (by omega), same, bytes]

section Pairs

variable {fourth fifth sixth : UInt8} {low : Nat}
variable (read : threeByteUnit? first second third = some unit)
variable (isHigh : 0xD800 ≤ unit ∧ unit < 0xDC00)
variable (readLow : threeByteUnit? fourth fifth sixth = some low)
variable (isLow : 0xDC00 ≤ low ∧ low < 0xE000)
include read isHigh readLow isLow

theorem encodeChar_of_pair :
    encodeChar (Char.ofNat (0x10000 + (unit - 0xD800) * 0x400 + (low - 0xDC00))) =
      [first, second, third] ++ [fourth, fifth, sixth] := by
  obtain ⟨_, _, bytes⟩ := threeByteUnit?_eq_some.1 read
  obtain ⟨_, _, bytesLow⟩ := threeByteUnit?_eq_some.1 readLow
  obtain ⟨high, rfl⟩ := Nat.exists_eq_add_of_le isHigh.1
  obtain ⟨rear, rfl⟩ := Nat.exists_eq_add_of_le isLow.1
  rw [Nat.add_sub_cancel_left, Nat.add_sub_cancel_left]
  have same := toNat_charOfNat (0x10000 + high * 0x400 + rear)
    (.inr ⟨by omega, by omega⟩)
  have highSame : (0x10000 + high * 0x400 + rear - 0x10000) / 0x400 = high := by omega
  have rearSame : (0x10000 + high * 0x400 + rear - 0x10000) % 0x400 = rear := by omega
  rw [encodeChar_pair (by omega), same, highSame, rearSame, bytes, bytesLow]

end Pairs

/-- Induction along the reader: each case takes the bytes of one character off the front. -/
theorem eq_flatMap_of_decodeChars {chars : List Char} (read : decodeChars bytes = some chars) :
    bytes = chars.flatMap encodeChar := by
  fun_induction decodeChars bytes generalizing chars with
  | case1 =>
      cases read
      rfl
  | case2 | case4 | case5 | case7 => cases read
  | case3 first rest nonzero ascii inductionHypothesis =>
      obtain ⟨others, readRest, rfl⟩ := Option.map_eq_some_iff.1 read
      have written := encodeChar_of_ascii nonzero (by simpa [UInt8.lt_iff_toNat_lt] using ascii)
      rw [List.flatMap_cons, ← inductionHypothesis readRest, written]
      rfl
  | case6 first nonzero notOne second rest low high inductionHypothesis =>
      obtain ⟨char, readChar, read⟩ := Option.bind_eq_some_iff.1 read
      obtain ⟨others, readRest, rfl⟩ := Option.map_eq_some_iff.1 read
      have written := encodeChar_of_two (by simpa [UInt8.lt_iff_toNat_lt] using low)
        (by simpa [UInt8.lt_iff_toNat_lt] using high) readChar
      rw [List.flatMap_cons, ← inductionHypothesis readRest, written]
      rfl
  | case8 first nonzero notOne second notLead notTwo third rest inductionHypothesis
      pairHypothesis =>
      obtain ⟨unit, readUnit, read⟩ := Option.bind_eq_some_iff.1 read
      split at read
      next scalar =>
        obtain ⟨others, readRest, rfl⟩ := Option.map_eq_some_iff.1 read
        rw [List.flatMap_cons, ← inductionHypothesis readRest, encodeChar_of_three readUnit scalar]
        rfl
      next surrogate =>
        split at read
        · cases read
        next high =>
          split at read
          next fourth fifth sixth rest =>
            obtain ⟨low, readLow, read⟩ := Option.bind_eq_some_iff.1 read
            dsimp only at read
            split at read
            · cases read
            next isLow =>
              obtain ⟨others, readRest, rfl⟩ := Option.map_eq_some_iff.1 read
              have written := encodeChar_of_pair readUnit (by omega) readLow (by omega)
              rw [List.flatMap_cons, ← pairHypothesis readRest, written]
              rfl
          next => cases read

/-! ### The forms of the format -/

/-- The form of a code unit from U+0800 on: `1110` with the upper four bits, and twice `10` with six
bits. -/
inductive UnitForm : Nat → List UInt8 → Prop where
  | three {upper middle low : Nat} (four : upper < 0x10) (six : middle < 0x40) (rest : low < 0x40)
      (least : 0x800 ≤ upper * 0x1000 + middle * 0x40 + low) :
      UnitForm (upper * 0x1000 + middle * 0x40 + low)
        [UInt8.ofNat (0xE0 + upper), UInt8.ofNat (0x80 + middle), UInt8.ofNat (0x80 + low)]

/-- The form of a character with a code. -/
inductive Form : Nat → List UInt8 → Prop where
  /-- From U+0001 to U+007F: the code itself. -/
  | one {code : Nat} (present : 0 < code) (seven : code < 0x80) : Form code [UInt8.ofNat code]
  /-- NUL, and from U+0080 to U+07FF: `110` with the upper five bits, and `10` with six bits. -/
  | two {upper low : Nat} (five : upper < 0x20) (six : low < 0x40)
      (least : upper * 0x40 + low = 0 ∨ 0x80 ≤ upper * 0x40 + low) :
      Form (upper * 0x40 + low) [UInt8.ofNat (0xC0 + upper), UInt8.ofNat (0x80 + low)]
  /-- From U+0800 to U+FFFF: the form of the code unit. -/
  | three {code : Nat} {bytes : List UInt8} (form : UnitForm code bytes) : Form code bytes
  /-- From U+10000 on: the forms of the two surrogates. -/
  | pair {high low : Nat} {front back : List UInt8} (isHigh : 0xD800 ≤ high ∧ high < 0xDC00)
      (isLow : 0xDC00 ≤ low ∧ low < 0xE000) (form : UnitForm high front)
      (formLow : UnitForm low back) :
      Form (0x10000 + (high - 0xD800) * 0x400 + (low - 0xDC00)) (front ++ back)

/-- The bytes are the forms of the characters one after the other. -/
inductive Spells : List Char → List UInt8 → Prop where
  | nil : Spells [] []
  | cons {char : Char} {chars : List Char} {front back : List UInt8}
      (form : Form char.toNat front) (rest : Spells chars back) :
      Spells (char :: chars) (front ++ back)

theorem unitForm_iff : UnitForm unit bytes ↔
    0x800 ≤ unit ∧ unit < 0x10000 ∧ bytes = threeBytes unit := by
  constructor
  · rintro ⟨four, six, rest, least⟩
    refine ⟨least, by omega, ?_⟩
    simp only [threeBytes, List.cons.injEq, and_true]
    refine ⟨?_, ?_, ?_⟩ <;> congr 2 <;> omega
  · rintro ⟨long, short, rfl⟩
    have same : unit / 0x1000 * 0x1000 + unit / 0x40 % 0x40 * 0x40 + unit % 0x40 = unit := by omega
    have form : UnitForm (unit / 0x1000 * 0x1000 + unit / 0x40 % 0x40 * 0x40 + unit % 0x40)
        (threeBytes unit) := .three (by omega) (by omega) (by omega) (by omega)
    rwa [same] at form

theorem Form.eq_encodeChar {code : Nat} (form : Form code bytes) (same : char.toNat = code) :
    bytes = encodeChar char := by
  cases form with
  | one present seven => rw [encodeChar_ascii (by omega) (by omega), same]
  | @two upper low five six least =>
      rcases least with nul | long
      · obtain ⟨rfl, rfl⟩ : upper = 0 ∧ low = 0 := by omega
        rw [encodeChar_nul same]
        decide
      · rw [encodeChar_two (by omega) (by omega), same]
        simp only [List.cons.injEq, and_true]
        refine ⟨?_, ?_⟩ <;> congr 2 <;> omega
  | three form =>
      obtain ⟨long, short, rfl⟩ := unitForm_iff.1 form
      rw [encodeChar_three (by omega) (by omega), same]
  | @pair high low _ _ isHigh isLow form formLow =>
      obtain ⟨_, _, rfl⟩ := unitForm_iff.1 form
      obtain ⟨_, _, rfl⟩ := unitForm_iff.1 formLow
      have highSame : 0xD800 + (char.toNat - 0x10000) / 0x400 = high := by omega
      have lowSame : 0xDC00 + (char.toNat - 0x10000) % 0x400 = low := by omega
      rw [encodeChar_pair (by omega), highSame, lowSame]

theorem form_encodeChar (char : Char) : Form char.toNat (encodeChar char) := by
  have valid := toNat_valid char
  rcases form_cases char with nul | ⟨present, ascii⟩ | ⟨long, short⟩ | ⟨long, short⟩ | above
  · rw [encodeChar_nul nul, nul]
    exact .two (by decide : 0 < 0x20) (by decide : 0 < 0x40) (.inl rfl)
  · rw [encodeChar_ascii present ascii]
    exact .one (by omega) ascii
  · have same : char.toNat / 0x40 * 0x40 + char.toNat % 0x40 = char.toNat := by omega
    have form : Form (char.toNat / 0x40 * 0x40 + char.toNat % 0x40)
        [UInt8.ofNat (0xC0 + char.toNat / 0x40), UInt8.ofNat (0x80 + char.toNat % 0x40)] :=
      .two (by omega) (by omega) (by omega)
    rwa [same, ← encodeChar_two long short] at form
  · rw [encodeChar_three long short]
    exact .three (unitForm_iff.2 ⟨long, short, rfl⟩)
  · have high : UnitForm (0xD800 + (char.toNat - 0x10000) / 0x400) _ :=
      unitForm_iff.2 ⟨by omega, by omega, rfl⟩
    have low : UnitForm (0xDC00 + (char.toNat - 0x10000) % 0x400) _ :=
      unitForm_iff.2 ⟨by omega, by omega, rfl⟩
    have form := Form.pair (by omega) (by omega) high low
    rw [← encodeChar_pair above] at form
    convert form using 1
    omega

/-- Characters are spelled in one way. -/
theorem spells_iff {chars : List Char} :
    Spells chars bytes ↔ bytes = chars.flatMap encodeChar := by
  constructor
  · intro spells
    induction spells with
    | nil => rfl
    | cons form _ inductionHypothesis =>
        rw [List.flatMap_cons, form.eq_encodeChar rfl, inductionHypothesis]
  · rintro rfl
    induction chars with
    | nil => exact .nil
    | cons char rest inductionHypothesis => exact .cons (form_encodeChar char) inductionHypothesis

/-- Bytes spell one text at most. -/
theorem Spells.unique {chars others : List Char} (spells : Spells chars bytes)
    (spellsToo : Spells others bytes) : others = chars := by
  have read : decodeChars (chars.flatMap encodeChar) = some others := by
    rw [← spells_iff.1 spells, spells_iff.1 spellsToo, decodeChars_flatMap]
  rw [decodeChars_flatMap] at read
  exact (Option.some_inj.1 read).symm

/-! ### Codecs that keep to the forms -/

namespace Codec

/-- The codec keeps to the forms of the format. -/
structure Lawful (codec : Codec) : Prop where
  /-- Bytes that spell a text pass the check. -/
  accepts : ∀ chars bytes, Spells chars bytes → (codec.check bytes).isSome
  /-- Bytes that pass the check are turned into a text that they spell. -/
  reads : ∀ bytes checked, codec.check bytes = some checked →
    Spells (codec.text checked).toList bytes
  /-- A text is turned into bytes that spell it. -/
  writes : ∀ text, Spells text.toList (codec.bytes (codec.ofText text))

variable {codec : Codec} {text : String}

theorem Lawful.encode_eq (lawful : codec.Lawful) (text : String) :
    codec.encode text = text.toList.flatMap encodeChar :=
  spells_iff.1 (lawful.writes text)

/-- A text is read from the bytes that spell it and from no others. -/
theorem Lawful.decode_eq_some (lawful : codec.Lawful) :
    codec.decode bytes = some text ↔ Spells text.toList bytes := by
  rw [decode, Option.map_eq_some_iff]
  constructor
  · rintro ⟨checked, passes, rfl⟩
    exact lawful.reads bytes checked passes
  · intro spells
    obtain ⟨checked, passes⟩ := Option.isSome_iff_exists.1 (lawful.accepts _ _ spells)
    have same := spells.unique (lawful.reads bytes checked passes)
    exact ⟨checked, passes, String.toList_inj.1 same⟩

end Codec

theorem codec_lawful : codec.Lawful where
  accepts chars bytes spells := by
    rw [spells_iff.1 spells]
    exact Option.isSome_of_eq_some (decodeChars_flatMap chars)
  reads bytes chars read := by
    have same : (codec.text chars).toList = chars := String.toList_ofList
    rw [same]
    exact spells_iff.2 (eq_flatMap_of_decodeChars read)
  writes text := spells_iff.2 rfl

/-! ### Which bytes are written -/

theorem bounds_of_mem_threeBytes {byte : UInt8} (short : unit < 0x10000)
    (among : byte ∈ threeBytes unit) : 0 < byte.toNat ∧ byte.toNat < 0xF0 := by
  simp only [threeBytes, List.mem_cons, List.not_mem_nil, or_false] at among
  rcases among with rfl | rfl | rfl <;> rw [toNat_ofNat_of_lt _ (by omega)] <;> omega

theorem bounds_of_mem_encodeChar {byte : UInt8} (among : byte ∈ encodeChar char) :
    0 < byte.toNat ∧ byte.toNat < 0xF0 := by
  have valid := toNat_valid char
  rcases form_cases char with nul | ⟨present, ascii⟩ | ⟨long, short⟩ | ⟨long, short⟩ | above
  · simp only [encodeChar_nul nul, List.mem_cons, List.not_mem_nil, or_false] at among
    rcases among with rfl | rfl <;> decide
  · rw [encodeChar_ascii present ascii, List.mem_singleton] at among
    rw [among, toNat_ofNat_of_lt _ (by omega)]
    omega
  · simp only [encodeChar_two long short, List.mem_cons, List.not_mem_nil, or_false] at among
    rcases among with rfl | rfl <;> rw [toNat_ofNat_of_lt _ (by omega)] <;> omega
  · rw [encodeChar_three long short] at among
    exact bounds_of_mem_threeBytes short among
  · rw [encodeChar_pair above, List.mem_append] at among
    rcases among with high | low
    · exact bounds_of_mem_threeBytes (by omega) high
    · exact bounds_of_mem_threeBytes (by omega) low

/-! ### What is shared with UTF-8 -/

/-- The character is neither NUL nor a supplementary character. -/
def IsCommon (char : Char) : Prop := char ≠ '\x00' ∧ char.toNat < 0x10000

/-- Common characters have the same bytes in UTF-8. -/
theorem IsCommon.encodeChar_eq (common : IsCommon char) :
    encodeChar char = String.utf8EncodeChar char := by
  obtain ⟨notNul, small⟩ := common
  rw [String.utf8EncodeChar, Char.toNat_val]
  rcases form_cases char with nul | ⟨present, ascii⟩ | ⟨long, short⟩ | ⟨long, short⟩ | above
  · exact absurd (Char.toNat_inj.1 nul) notNul
  · rw [encodeChar_ascii present ascii, if_pos (by omega)]
  · rw [encodeChar_two long short, if_neg (by omega), if_pos (by omega)]
    simp only [List.cons.injEq, and_true]
    refine ⟨?_, ?_⟩ <;> congr 1 <;> omega
  · rw [encodeChar_three long short, if_neg (by omega), if_neg (by omega), if_pos (by omega),
      threeBytes]
    simp only [List.cons.injEq, and_true]
    refine ⟨?_, ?_, ?_⟩ <;> congr 1 <;> omega
  · omega

/-- Others have a byte in UTF-8 that modified UTF-8 does not write. -/
theorem exists_byte_of_not_isCommon (special : ¬ IsCommon char) :
    ∃ byte ∈ String.utf8EncodeChar char, byte.toNat = 0 ∨ 0xF0 ≤ byte.toNat := by
  have valid := toNat_valid char
  rw [IsCommon, not_and_or, not_not, Nat.not_lt] at special
  rcases special with rfl | above
  · exact ⟨0, by decide, .inl (by decide)⟩
  · rw [String.utf8EncodeChar, Char.toNat_val]
    rw [if_neg (by omega), if_neg (by omega), if_neg (by omega)]
    refine ⟨_, List.mem_cons_self, .inr ?_⟩
    rw [toNat_ofNat_of_lt _ (by omega)]
    omega

theorem toByteArray_eq_iff {text : String} :
    (text.toList.flatMap encodeChar).toByteArray = text.toUTF8 ↔
      ∀ char ∈ text.toList, IsCommon char := by
  have utf8 : text.toUTF8 = (text.toList.flatMap String.utf8EncodeChar).toByteArray :=
    String.utf8Encode_toList.symm
  rw [utf8, List.toByteArray_inj]
  constructor
  · intro same char among
    by_contra special
    obtain ⟨byte, written, outside⟩ := exists_byte_of_not_isCommon special
    have inside : byte ∈ text.toList.flatMap encodeChar :=
      same ▸ List.mem_flatMap.2 ⟨char, among, written⟩
    obtain ⟨other, _, writtenToo⟩ := List.mem_flatMap.1 inside
    have bounds := bounds_of_mem_encodeChar writtenToo
    omega
  · intro common
    exact List.flatMap_congr fun char among => (common char among).encodeChar_eq

/-- With a codec that keeps to the forms every text is read back from its bytes, and from no others,
so different texts have different bytes. None of the bytes is zero and none is `F0` or above, and
they are those of UTF-8 exactly if the text has neither NUL nor supplementary characters. -/
theorem decode_inverts_encode {codec : Codec} (lawful : codec.Lawful) :
    (∀ text, codec.decode (codec.encode text) = some text) ∧
    (∀ bytes text, codec.decode bytes = some text → bytes = codec.encode text) ∧
    (∀ text, ∀ byte ∈ codec.encode text, byte ≠ 0 ∧ byte < 0xF0) ∧
    (∀ text : String, (codec.encode text).toByteArray = text.toUTF8 ↔
      ∀ char ∈ text.toList, char ≠ '\x00' ∧ char.toNat < 0x10000) ∧
    Function.Injective codec.encode := by
  have reads (bytes : List UInt8) (text : String) :
      codec.decode bytes = some text ↔ bytes = codec.encode text := by
    rw [lawful.decode_eq_some, spells_iff, lawful.encode_eq]
  refine ⟨fun text => (reads _ _).2 rfl, fun bytes text => (reads _ _).1,
    fun text byte among => ?bounds, fun text => ?utf8, fun first second same => ?injective⟩
  case bounds =>
    rw [lawful.encode_eq] at among
    obtain ⟨char, _, written⟩ := List.mem_flatMap.1 among
    obtain ⟨present, short⟩ := bounds_of_mem_encodeChar written
    refine ⟨?_, by simpa [UInt8.lt_iff_toNat_lt] using short⟩
    rintro rfl
    exact Nat.lt_irrefl 0 present
  case utf8 =>
    rw [lawful.encode_eq]
    exact toByteArray_eq_iff
  case injective =>
    have read : codec.decode (codec.encode second) = some first := (reads _ _).2 same.symm
    exact Option.some_inj.1 (read.symm.trans ((reads _ _).2 rfl))

/-- The codec in use reads a text with a NUL and a supplementary character back from its bytes, which
are not those of UTF-8. -/
theorem decode_inverts_encode_grin : codec.Lawful ∧
    encode "a\x00😀" = [0x61, 0xC0, 0x80, 0xED, 0xA0, 0xBD, 0xED, 0xB8, 0x80] ∧
    decode [0x61, 0xC0, 0x80, 0xED, 0xA0, 0xBD, 0xED, 0xB8, 0x80] = some "a\x00😀" ∧
    (encode "a\x00😀").toByteArray ≠ "a\x00😀".toUTF8 := by
  have bytes : encode "a\x00😀" = [0x61, 0xC0, 0x80, 0xED, 0xA0, 0xBD, 0xED, 0xB8, 0x80] := by
    decide +kernel
  obtain ⟨inverts, _, _, common, _⟩ := decode_inverts_encode codec_lawful
  refine ⟨codec_lawful, bytes, bytes ▸ inverts _, fun same => ?_⟩
  have notNul := ((common "a\x00😀").1 same '\x00' (by decide +kernel)).1
  exact notNul rfl

end JavaMachine.Text.ModifiedUtf8

import CheatCode.Proofs.Hex.Reading
import CheatCode.Proofs.Text.Trim
import CheatCode.Text.Numeral

/-!
# Numbers written and read

The digits of a number are read as the number they were written for, as long as it is
below the limit.
-/

namespace CheatCode.Text

/-- Digits are read from the left, what stands before being part of what follows. -/
theorem digitsFrom_append (base high : Nat) (t u : Text) :
    digitsFrom base high (t ++ u) =
      (digitsFrom base high t).bind fun n => digitsFrom base n u := by
  induction t generalizing high with
  | nil => rfl
  | cons c t ih =>
    rw [List.cons_append, digitsFrom, digitsFrom, Option.bind_assoc]
    exact congrArg _ (funext fun d => ih _)

/-- One more digit makes a number sixteen times as large and adds the digit. -/
theorem digitsFrom_digit (high : Nat) {d : Nat} (h : d < 16) :
    digitsFrom 16 high [Hex.digit d] = some (16 * high + d) := by
  simp [digitsFrom, digitIn?, Hex.value?_digit h, Option.filter, h]

/-- A numeral of fixed width is read as the low digits of its number. -/
theorem digitsFrom_fixed (high width n : Nat) :
    digitsFrom 16 high (Hex.fixed width n) = some (16 ^ width * high + n % 16 ^ width) := by
  induction width generalizing n with
  | zero => simp [digitsFrom, Nat.mod_one]
  | succ width ih =>
    have low : n % 16 ^ (width + 1) = n % 16 + 16 * (n / 16 % 16 ^ width) := by
      rw [Nat.pow_succ', Nat.mod_mul]
    rw [Hex.fixed_succ, digitsFrom_append, ih, Option.bind_some,
      digitsFrom_digit _ (Nat.mod_lt n (by decide)), low, Nat.pow_succ', Nat.mul_assoc]
    exact congrArg some (by omega)

theorem readDigits?_fixed {width n limit : Nat} (pos : 0 < width)
    (h : n % 16 ^ width < limit) :
    readDigits? 16 limit (Hex.fixed width n) = some (n % 16 ^ width) := by
  have nonempty : Hex.fixed width n ≠ [] := by
    apply List.ne_nil_of_length_pos
    rwa [Hex.length_fixed]
  rw [readDigits?, if_neg nonempty, digitsFrom_fixed]
  simp [Option.filter, h]

/-- Hexadecimal digits denote a number that is no longer than they are. -/
theorem exists_digitsFrom (high : Nat) {t : Text} (h : ∀ c ∈ t, Hex.isDigit c = true) :
    ∃ n < (high + 1) * 16 ^ t.length, digitsFrom 16 high t = some n := by
  induction t generalizing high with
  | nil => exact ⟨high, by simp, rfl⟩
  | cons c t ih =>
    obtain ⟨hc, ht⟩ := List.forall_mem_cons.mp h
    obtain ⟨v, small, value⟩ := Hex.exists_value?_of_isDigit hc
    obtain ⟨n, hn, read⟩ := ih (16 * high + v) ht
    refine ⟨n, ?_, ?_⟩
    · calc
        n < (16 * high + v + 1) * 16 ^ t.length := hn
        _ ≤ (high + 1) * 16 * 16 ^ t.length := Nat.mul_le_mul_right _ (by omega)
        _ = (high + 1) * 16 ^ (c :: t).length := by
          rw [Nat.mul_assoc, List.length_cons, Nat.pow_succ']
    · have place : digitIn? 16 c = some v := by simp [digitIn?, value, Option.filter, small]
      rw [digitsFrom, place, Option.bind_some, read]

/-- Digits are read if there is room for every number of their length. -/
theorem exists_readDigits? {t : Text} {limit : Nat} (nonempty : t ≠ [])
    (digits : ∀ c ∈ t, Hex.isDigit c = true) (room : 16 ^ t.length ≤ limit) :
    ∃ n, readDigits? 16 limit t = some n := by
  obtain ⟨n, hn, read⟩ := exists_digitsFrom 0 digits
  have below : n < limit := by omega
  exact ⟨n, by simp [readDigits?, nonempty, read, Option.filter, below]⟩

/-- What is read is digits, and they are the low digits of the number in upper case. -/
theorem fixed_of_digitsFrom {high n : Nat} {t : Text} (h : digitsFrom 16 high t = some n) :
    (∀ c ∈ t, Hex.isDigit c = true) ∧ Hex.fixed t.length n = t.map Char.toUpper := by
  induction t using List.reverseRecOn generalizing n with
  | nil => simp
  | append_singleton t c ih =>
    rw [digitsFrom_append] at h
    obtain ⟨m, front, last⟩ := Option.bind_eq_some_iff.mp h
    obtain ⟨d, place, value⟩ := Option.bind_eq_some_iff.mp last
    obtain ⟨digit, -⟩ := Option.filter_eq_some_iff.mp place
    obtain ⟨small, written⟩ := Hex.digit_of_value? digit
    obtain ⟨digits, fixed⟩ := ih front
    have whole : n = 16 * m + d := (Option.some.inj value).symm
    refine ⟨?_, ?_⟩
    · intro e he
      obtain he | rfl := List.mem_append.mp he |>.imp_right List.mem_singleton.mp
      · exact digits e he
      · rw [Hex.isDigit, digit]
        rfl
    · rw [List.length_append, List.length_singleton, Hex.fixed_succ, whole,
        show (16 * m + d) / 16 = m by omega, show (16 * m + d) % 16 = d by omega, fixed, written,
        List.map_append, List.map_singleton]

theorem isDigit_of_mem_fixed {width n : Nat} {c : Char} (h : c ∈ Hex.fixed width n) :
    Hex.isDigit c = true :=
  (fixed_of_digitsFrom (digitsFrom_fixed 0 width n)).1 c h

/-- What is read is digits of a number that is no longer than they are. -/
theorem of_readDigits?_eq_some {t : Text} {limit n : Nat} (h : readDigits? 16 limit t = some n) :
    (∀ c ∈ t, Hex.isDigit c = true) ∧ n < 16 ^ t.length ∧
      Hex.fixed t.length n = t.map Char.toUpper := by
  rw [readDigits?] at h
  split at h
  · cases h
  · obtain ⟨read, -⟩ := Option.filter_eq_some_iff.mp h
    obtain ⟨digits, fixed⟩ := fixed_of_digitsFrom read
    obtain ⟨m, small, again⟩ := exists_digitsFrom 0 digits
    rw [read] at again
    cases again
    exact ⟨digits, by simpa using small, fixed⟩

/-- A text without a plus sign is read as its digits. -/
theorem readUnsigned?_of_no_sign {t : Text} (h : '+' ∉ t) (base limit : Nat) :
    readUnsigned? base limit t = readDigits? base limit t := by
  rw [readUnsigned?.eq_def]
  split
  · simp at h
  · rfl

/-- A decimal digit has its place among the digits as its value. -/
theorem digitIn?_of_isDigit {c : Char} (h : c.isDigit = true) :
    digitIn? 10 c = some (c.toNat - '0'.toNat) := by
  obtain ⟨low, high⟩ := Bool.and_eq_true_iff.mp h
  have bounds : '0' ≤ c ∧ c ≤ '9' := ⟨of_decide_eq_true low, of_decide_eq_true high⟩
  have top : c.toNat ≤ 57 := UInt32.le_iff_toNat_le.mp bounds.2
  have small : c.toNat - 48 < 10 := by omega
  rw [digitIn?, Hex.value?, if_pos bounds, Option.filter, if_pos (decide_eq_true small)]
  rfl

theorem digitsFrom_of_isDigit (high : Nat) {t : Text} (h : ∀ c ∈ t, c.isDigit = true) :
    digitsFrom 10 high t = some (Nat.ofDigitChars 10 t high) := by
  induction t generalizing high with
  | nil => rfl
  | cons c t ih =>
    obtain ⟨hc, ht⟩ := List.forall_mem_cons.mp h
    rw [digitsFrom, digitIn?_of_isDigit hc, Option.bind_some, ih _ ht, Nat.ofDigitChars_cons]

theorem isDigit_of_mem_decimal {n : Nat} {c : Char} (h : c ∈ decimal n) : c.isDigit = true :=
  Nat.isDigit_of_mem_toDigits (by decide) (by decide) h

theorem isBlank_of_isDecimal {c : Char} (h : c.isDigit = true) : isBlank c = false := by
  apply Hex.isBlank_of_isDigit
  have found := digitIn?_of_isDigit h
  rw [Hex.isDigit, Option.isSome_iff_exists]
  exact ⟨_, (Option.filter_eq_some_iff.mp found).1⟩

/-- There is nothing to trim around a number. -/
theorem trim_decimal (n : Nat) : trim (decimal n) = decimal n := by
  have ink : ∀ c ∈ decimal n, isBlank c = false :=
    fun c hc => isBlank_of_isDecimal (isDigit_of_mem_decimal hc)
  exact trim_eq_self (.of_isBlank ink)

/-- The digits of a number are read as the number. -/
theorem readDigits?_decimal {n limit : Nat} (h : n < limit) :
    readDigits? 10 limit (decimal n) = some n := by
  have digits : ∀ c ∈ decimal n, c.isDigit = true := fun _ => isDigit_of_mem_decimal
  have nonempty : decimal n ≠ [] := Nat.toDigits_ne_nil
  rw [readDigits?, if_neg nonempty, digitsFrom_of_isDigit 0 digits, decimal,
    Nat.ofDigitChars_toDigits (by decide) (by decide)]
  simp [Option.filter, h]

/-- A number is read as it was written. -/
theorem readUnsigned?_decimal {n limit : Nat} (h : n < limit) :
    readUnsigned? 10 limit (decimal n) = some n := by
  have unsigned : '+' ∉ decimal n :=
    fun plus => absurd (isDigit_of_mem_decimal plus) (by decide)
  rw [readUnsigned?_of_no_sign unsigned, readDigits?_decimal h]

end CheatCode.Text

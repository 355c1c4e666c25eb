import CheatCode.Proofs.Listing.Characters
import Mathlib.Algebra.Group.Int.Defs

/-!
# Immediates keep their values

Writing operands changes no operand but the numbers behind the first one. A decimal number
becomes a numeral of the value that it has under the signedness of the instruction, and
what follows it stays. A number that is too large to be read, and everything that is no
decimal number, stays as it is.
-/

namespace CheatCode.Listing

/-! ### Numbers as they are read and written -/

/-- A decimal number with an optional minus sign, and its value. -/
inductive IsDecimal : Text → Int → Prop where
  /-- Digits. -/
  | plain {digits : Text} (nonempty : digits ≠ []) (all : ∀ c ∈ digits, c.isDigit = true) :
      IsDecimal digits (Nat.ofDigitChars 10 digits 0)
  /-- Digits behind a minus sign. -/
  | minus {digits : Text} (nonempty : digits ≠ []) (all : ∀ c ∈ digits, c.isDigit = true) :
      IsDecimal ('-' :: digits) (-Nat.ofDigitChars 10 digits 0)

/-- Digits in upper case, and the number that they stand for. -/
structure IsUpper (digits : Text) (n : Nat) : Prop where
  /-- There is a digit. -/
  nonempty : digits ≠ []
  /-- All digits are in upper case. -/
  upper : ∀ c ∈ digits, c ∈ "0123456789ABCDEF".toList
  /-- They stand for the number. -/
  value : Text.digitsFrom 16 0 digits = some n

/-- A number as it is written, and its value. -/
inductive Denotes : Text → Int → Prop where
  /-- A zero by itself. -/
  | zero : Denotes ['0'] 0
  /-- Hexadecimal digits. -/
  | plain {digits : Text} {n : Nat} (h : IsUpper digits n) : Denotes ('0' :: 'x' :: digits) n
  /-- Hexadecimal digits behind a minus sign. -/
  | minus {digits : Text} {n : Nat} (h : IsUpper digits n) :
      Denotes ('-' :: '0' :: 'x' :: digits) (-n)

theorem isUpper_numeral (n : Nat) : IsUpper (Hex.numeral n) n where
  nonempty := Hex.numeral_ne_nil n
  upper := by
    have digit : ∀ d < 16, Hex.digit d ∈ "0123456789ABCDEF".toList := by decide
    induction n using Hex.numeral.induct with
    | case1 n small =>
      rw [Hex.numeral, if_pos small]
      exact List.forall_mem_singleton.mpr (digit n small)
    | case2 n large ih =>
      rw [Hex.numeral, if_neg large]
      exact List.forall_mem_append.mpr
        ⟨ih, List.forall_mem_singleton.mpr (digit _ (Nat.mod_lt n (by decide)))⟩
  value := Hex.digitsFrom_numeral n

theorem denotes_signedNumeral (value : Int) : Denotes (signedNumeral value) value := by
  have digits := isUpper_numeral value.natAbs
  rw [signedNumeral]
  split
  · next negative =>
    have same : value = -(value.natAbs : Int) := by omega
    have written := Denotes.minus digits
    rwa [← same] at written
  · next positive =>
    have same : (value.natAbs : Int) = value := by omega
    have written := Denotes.plain digits
    rwa [same] at written

/-- A decimal number that fits into 64 bits is read as its value. -/
theorem IsDecimal.readSigned64? {number : Text} {v : Int} (h : IsDecimal number v)
    (low : -2 ^ 63 ≤ v) (high : v < 2 ^ 63) : Text.readSigned64? number = some v := by
  have read {digits : Text} {limit : Nat} (nonempty : digits ≠ [])
      (all : ∀ c ∈ digits, c.isDigit = true) (below : Nat.ofDigitChars 10 digits 0 < limit) :
      Text.readDigits? 10 limit digits = some (Nat.ofDigitChars 10 digits 0) := by
    rw [Text.readDigits?, if_neg nonempty, Text.digitsFrom_of_isDigit 0 all]
    simp [Option.filter, below]
  have limit : Text.limit 63 = 2 ^ 63 := by decide
  cases h with
  | plain nonempty all =>
    have unsigned (sign : Char) (mark : sign.isDigit = false) (rest : Text) :
        number ≠ sign :: rest := by
      rintro rfl
      have digit := all sign (by simp)
      rw [mark] at digit
      cases digit
    rw [Text.readSigned64?.eq_3 number (unsigned '-' (by decide)) (unsigned '+' (by decide)),
      read nonempty all (by omega)]
    rfl
  | minus nonempty all =>
    rw [Text.readSigned64?, read nonempty all (by omega)]
    rfl

theorem IsDecimal.chars {number : Text} {v : Int} (h : IsDecimal number v) :
    ∀ c ∈ number, isDecimalChar c = true := by
  have digit {c : Char} (h : c.isDigit = true) : isDecimalChar c = true := by
    rw [isDecimalChar, h, Bool.true_or]
  cases h with
  | plain _ all => exact fun c hc => digit (all c hc)
  | minus _ all => exact List.forall_mem_cons.mpr ⟨by decide, fun c hc => digit (all c hc)⟩

/-! ### One operand -/

/-- The value that is written for an immediate of value `v`, before what follows it. -/
structure Keeps (traits : Traits) (tail : Text) (v value : Int) : Prop where
  /-- Without a sign a negative number stands for what it is in 16 bits. -/
  unsigned : traits.unsigned = true → value = if v < 0 then v + 0x10000 else v
  /-- So the value is the one that the lowest 16 bits have, where they are enough. -/
  half : traits.unsigned = true → -0x10000 ≤ v → v ≤ 0xFFFF →
    0 ≤ value ∧ value ≤ 0xFFFF ∧ value = v % 2 ^ 16
  /-- The offset of a paired-single access is the number in its lowest 12 bits. -/
  paired : traits.unsigned = false → traits.pairedSingle = true → tail ≠ [] →
    ∀ w, value = w ↔ -2048 ≤ w ∧ w ≤ 2047 ∧ w % 2 ^ 12 = v % 2 ^ 12
  /-- Every other number has its own value. -/
  plain : traits.unsigned = false → ¬(traits.pairedSingle = true ∧ tail ≠ []) → value = v

theorem signed_pairedOffset (v : Int) :
    Field.pairedOffset.signed (BitVec.ofInt 32 v) = Int.bmod v (2 ^ 12) := by
  rw [Field.signed, Field.width, BitVec.toInt_eq_toNat_bmod, BitVec.toNat_setWidth,
    BitVec.toNat_ofInt]
  simp only [Int.bmod_def]
  omega

theorem keeps_immediateValue {traits : Traits} {memory : Bool} {tail : Text}
    (h : memory = true ↔ tail ≠ []) (v : Int) :
    Keeps traits tail v (immediateValue traits memory v) where
  unsigned := by
    intro unsigned
    rw [immediateValue, if_pos unsigned]
    split <;> omega
  half := by
    intro unsigned low high
    rw [immediateValue, if_pos unsigned]
    split <;> omega
  paired := by
    intro signed paired behind w
    have value : immediateValue traits memory v = Int.bmod v (2 ^ 12) := by
      rw [immediateValue, signed, paired, h.mpr behind, ← signed_pairedOffset]
      rfl
    rw [value, Int.bmod_def]
    omega
  plain := by
    intro signed other
    have outside : (memory && traits.pairedSingle) = false := by
      rw [Bool.and_comm, Bool.eq_false_iff, ne_eq, Bool.and_eq_true, h]
      exact other
    rw [immediateValue, signed, outside]
    rfl

/-- A number in hexadecimal, with whatever follows it. -/
def IsHexLiteral (t : Text) : Prop := ∃ rest, t = '0' :: 'x' :: rest ∨ t = '-' :: '0' :: 'x' :: rest

/-- How an operand behind the first is written. -/
structure Converts (traits : Traits) (operand shown : Text) : Prop where
  /-- A decimal number of 64 bits at the end or before a parenthesis gives way to a numeral. -/
  decimal : ∀ number tail v, operand = number ++ tail → IsDecimal number v →
    -2 ^ 63 ≤ v → v < 2 ^ 63 → (tail = [] ∨ ∃ rest, tail = '(' :: rest) →
    ∃ numeral value, shown = numeral ++ tail ∧ Denotes numeral value ∧ Keeps traits tail v value
  /-- What does not start like a number stays. -/
  other : (∀ c ∈ operand.head?, c.isDigit = false ∧ c ≠ '-') → shown = operand
  /-- A number in hexadecimal stays. -/
  hex : IsHexLiteral operand → shown = operand

theorem convertOperand_of_isDecimal (traits : Traits) {number tail : Text} {v : Int}
    (h : IsDecimal number v) (low : -2 ^ 63 ≤ v) (high : v < 2 ^ 63)
    (ends : tail = [] ∨ ∃ rest, tail = '(' :: rest) :
    ∃ numeral value, convertOperand traits (number ++ tail) = numeral ++ tail ∧
      Denotes numeral value ∧ Keeps traits tail v value := by
  have run : Text.Run isDecimalChar number tail := by
    refine ⟨h.chars, ?_⟩
    obtain rfl | ⟨rest, rfl⟩ := ends
    · simp
    · rintro _ ⟨⟩
      decide
  have written (memory : Bool) (behind : memory = true ↔ tail ≠ []) :
      Denotes (signedNumeral (immediateValue traits memory v)) (immediateValue traits memory v) ∧
        Keeps traits tail v (immediateValue traits memory v) :=
    ⟨denotes_signedNumeral _, keeps_immediateValue behind v⟩
  have read := h.readSigned64? low high
  obtain rfl | ⟨rest, rfl⟩ := ends
  · by_cases zero : number = ['0']
    · have none : v = 0 := by
        rw [zero] at read
        exact (Option.some.inj read).symm
      refine ⟨['0'], 0, ?_, .zero, ?_⟩
      · simp only [convertOperand, run.takeWhile_append, run.dropWhile_append, read, if_pos zero]
        rw [zero]
      · rw [none]
        have kept : Keeps traits [] 0 (immediateValue traits false 0) :=
          keeps_immediateValue (by simp) 0
        rwa [show immediateValue traits false 0 = 0 by simp [immediateValue]] at kept
    · refine ⟨_, _, ?_, written false (by simp)⟩
      simp only [convertOperand, run.takeWhile_append, run.dropWhile_append, read, if_neg zero]
      simp [immediate]
  · refine ⟨_, _, ?_, written true (by simp)⟩
    simp only [convertOperand, run.takeWhile_append, run.dropWhile_append, read]
    simp [immediate]

theorem converts_convertOperand (traits : Traits) (operand : Text) :
    Converts traits operand (convertOperand traits operand) where
  decimal := by
    rintro number tail v rfl h low high ends
    exact convertOperand_of_isDecimal traits h low high ends
  other := by
    intro start
    have none : operand.takeWhile isDecimalChar = [] := by
      cases operand with
      | nil => rfl
      | cons c rest =>
        obtain ⟨digit, minus⟩ := start c rfl
        exact List.takeWhile_cons_of_neg (by simp [isDecimalChar, digit, minus])
    simp only [convertOperand, none]
    rfl
  hex := by
    rintro ⟨rest, rfl | rfl⟩
    · rfl
    · rfl

/-! ### All operands -/

/-- What stands in front of every operand but the first. -/
def operandGap (traits : Traits) : Text := if traits.pairedSingle then [] else [' ']

/-- A comma comes from no operand. -/
theorem comma_notMem_convertOperand {traits : Traits} {operand : Text} (h : ',' ∉ operand) :
    ',' ∉ convertOperand traits operand := by
  intro comma
  obtain read | written := mem_convertOperand comma
  · exact h read
  · exact absurd written (by decide)

/-- The operands are found again in what is written, each rewritten by itself. -/
theorem pieces_writeOperands {traits : Traits} {operands first : Text} {rest : List Text}
    (numbers : ¬(4 ≤ operands.count ',' ∧ traits.pairedSingle = false))
    (h : Text.pieces ',' operands = first :: rest) :
    Text.pieces ',' (writeOperands traits operands) =
      first :: rest.map fun operand => operandGap traits ++ convertOperand traits operand := by
  have apart := Text.notMem_of_mem_pieces (c := ',') (t := operands)
  rw [h] at apart
  obtain ⟨hfirst, hrest⟩ := List.forall_mem_cons.mp apart
  have separator : (if traits.pairedSingle then [','] else [',', ' ']) =
      ',' :: operandGap traits := by
    rw [operandGap]
    split <;> rfl
  have blank : ',' ∉ operandGap traits := by
    rw [operandGap]
    split <;> decide
  have kept : (decide (4 ≤ operands.count ',') && !traits.pairedSingle) = false := by
    simpa using numbers
  have converted : ∀ t ∈ first :: rest.map (convertOperand traits), ',' ∉ t := by
    refine List.forall_mem_cons.mpr ⟨hfirst, fun t ht => ?_⟩
    obtain ⟨operand, hoperand, rfl⟩ := List.mem_map.mp ht
    exact comma_notMem_convertOperand (hrest operand hoperand)
  rw [writeOperands, kept, h, separator]
  simp only [Bool.false_eq_true, if_false]
  rw [Text.pieces_join blank converted, List.map_map]
  rfl

/-- Operands keep their number, their order and the first of them. All of them stay as they
are when there are four commas or more, unless the access is a paired-single one; otherwise
every later operand is converted by itself, behind the blank that separates it. -/
theorem writeOperands_keeps (traits : Traits) (operands : Text) :
    let read := Text.pieces ',' operands
    let written := Text.pieces ',' (writeOperands traits operands)
    written.length = read.length ∧ written.head? = read.head? ∧
      (4 ≤ operands.count ',' → traits.pairedSingle = false →
        writeOperands traits operands = operands) ∧
      (¬(4 ≤ operands.count ',' ∧ traits.pairedSingle = false) →
        ∀ k operand, read[k + 1]? = some operand →
          ∃ shown, written[k + 1]? = some (operandGap traits ++ shown) ∧
            Converts traits operand shown) := by
  intro read written
  have unchanged (many : 4 ≤ operands.count ',') (single : traits.pairedSingle = false) :
      writeOperands traits operands = operands := by
    rw [writeOperands, decide_eq_true many, single]
    rfl
  by_cases many : 4 ≤ operands.count ',' ∧ traits.pairedSingle = false
  · have same : written = read := congrArg (Text.pieces ',') (unchanged many.1 many.2)
    exact ⟨congrArg List.length same, congrArg List.head? same, unchanged,
      fun numbers => absurd many numbers⟩
  · obtain ⟨first, rest, hread⟩ := List.exists_cons_of_ne_nil (Text.pieces_ne_nil ',' operands)
    have hread : read = first :: rest := hread
    have hwritten : written = first :: rest.map _ := pieces_writeOperands many hread
    rw [hread, hwritten]
    refine ⟨by simp, rfl, unchanged, fun _ k operand found => ?_⟩
    refine ⟨convertOperand traits operand, ?_, converts_convertOperand traits operand⟩
    rw [List.getElem?_cons_succ] at found ⊢
    rw [List.getElem?_map, found, Option.map_some]

/-- The offset of a paired-single load, which is negative in 12 bits. -/
theorem writeOperands_keeps_paired :
    let traits := Traits.ofMnemonic "psq_l".toList
    let operands := "f1,4088(r3),0,0".toList
    writeOperands traits operands = "f1,-0x8(r3),0,0".toList ∧
      IsDecimal "4088".toList 4088 ∧
      ∃ numeral value, "-0x8(r3)".toList = numeral ++ "(r3)".toList ∧ Denotes numeral value ∧
        Keeps traits "(r3)".toList 4088 value := by
  intro traits operands
  have text : writeOperands traits operands = "f1,-0x8(r3),0,0".toList := by decide +kernel
  have decimal : IsDecimal "4088".toList 4088 :=
    .plain (by decide) (List.all_iff_forall_prop.mp (by decide))
  obtain ⟨-, -, -, later⟩ := writeOperands_keeps traits operands
  obtain ⟨shown, place, converts⟩ := later (by decide) 0 "4088(r3)".toList (by decide)
  have here : (Text.pieces ',' (writeOperands traits operands))[1]? = some "-0x8(r3)".toList := by
    rw [text]
    decide
  rw [here] at place
  cases place
  exact ⟨text, decimal, converts.decimal "4088".toList "(r3)".toList 4088 rfl decimal
    (by decide) (by decide) (Or.inr ⟨_, rfl⟩)⟩

end CheatCode.Listing

import CheatCode.Proofs.Text.Numeral
import CheatCode.Proofs.Word.Digits

/-!
# Words spelled with digits of either case

Digits spell a word when the word, written with as many digits, gives them in upper case.
Leading zeros are allowed, so a word has many spellings, and each is read as that word.
-/

namespace CheatCode.Hex

/-- One to eight digits of either case. -/
structure IsWordText (t : Text) : Prop where
  /-- There is a digit. -/
  nonempty : t ≠ []
  /-- There are no more than a word has. -/
  length : t.length ≤ 8
  /-- There is nothing else. -/
  digits : ∀ c ∈ t, isDigit c = true

/-- The number that digits stand for: written with as many digits, it gives them in upper
case. -/
structure Spells (t : Text) (w : Word) : Prop where
  /-- The digits have room for the number. -/
  fits : w.toNat < 16 ^ t.length
  /-- Its digits are these. -/
  upper : fixed t.length w.toNat = t.map Char.toUpper

theorem fixed_injective {width m n : Nat} (hm : m < 16 ^ width) (hn : n < 16 ^ width)
    (h : fixed width m = fixed width n) : m = n := by
  have read := congrArg (Text.digitsFrom 16 0) h
  rw [Text.digitsFrom_fixed, Text.digitsFrom_fixed, Nat.mod_eq_of_lt hm, Nat.mod_eq_of_lt hn]
    at read
  simpa using read

/-- What spells a word is digits. -/
theorem Spells.isDigit {t : Text} {w : Word} (h : Spells t w) : ∀ c ∈ t, isDigit c = true := by
  intro c hc
  have written : c.toUpper ∈ fixed t.length w.toNat := by
    rw [h.upper]
    exact List.mem_map_of_mem hc
  rw [← isDigit_toUpper]
  exact Text.isDigit_of_mem_fixed written

/-- Digits are read as the word that they spell. -/
theorem readDigits?_iff {t : Text} (nonempty : t ≠ []) {w : Word} :
    Text.readDigits? 16 (Text.limit 32) t = some w.toNat ↔ Spells t w := by
  constructor
  · intro read
    obtain ⟨-, fits, upper⟩ := Text.of_readDigits?_eq_some read
    exact ⟨fits, upper⟩
  · intro spells
    obtain ⟨n, fits, read⟩ := Text.exists_digitsFrom 0 spells.isDigit
    obtain ⟨-, upper⟩ := Text.fixed_of_digitsFrom read
    have same : n = w.toNat := by
      apply fixed_injective _ spells.fits (upper.trans spells.upper.symm)
      simpa using fits
    have small : w.toNat < Text.limit 32 := w.isLt
    simp [Text.readDigits?, nonempty, read, same, Option.filter, small]

theorem isWordText_digits (w : Word) : IsWordText w.digits where
  nonempty := List.ne_nil_of_length_pos (by simp)
  length := by simp
  digits := by
    rw [Word.digits_eq_encode]
    intro c
    exact isDigit_of_mem_encode

theorem spells_digits (w : Word) : Spells w.digits w where
  fits := by simpa using w.isLt
  upper := by rw [Word.length_digits, Word.digits_eq_encode, map_toUpper_encode,
    ← Word.digits_eq_encode, Word.digits]

/-- What is read from few enough digits is the word that they spell. -/
theorem spells_of_readDigits? {t : Text} {limit n : Nat} (short : t.length ≤ 8)
    (h : Text.readDigits? 16 limit t = some n) : Spells t (BitVec.ofNat 32 n) := by
  obtain ⟨-, fits, upper⟩ := Text.of_readDigits?_eq_some h
  have room : 16 ^ t.length ≤ 2 ^ 32 := Nat.pow_le_pow_right (by decide) short
  have same : (BitVec.ofNat 32 n).toNat = n := by
    rw [BitVec.toNat_ofNat, Nat.mod_eq_of_lt (by omega)]
  exact ⟨by rwa [same], by rwa [same]⟩

theorem IsWordText.exists_spells {t : Text} (h : IsWordText t) : ∃ w, Spells t w := by
  obtain ⟨n, read⟩ := Text.exists_readDigits? h.nonempty h.digits (Nat.le_refl _)
  exact ⟨_, spells_of_readDigits? h.length read⟩

end CheatCode.Hex

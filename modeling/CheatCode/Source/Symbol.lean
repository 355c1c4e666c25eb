import CheatCode.Source.Nesting
import CheatCode.Text.Blank
import CheatCode.Text.Letter
import CheatCode.Text.Lines

/-!
# Symbols among operands

Operands fall into tokens at commas and blanks where nothing is open. A token that
names a symbol is cleaned: string literals and matching parentheses stay, and every
other character that cannot be part of a symbol becomes an underscore. So cleaning
changes no length, and no place where operands fall apart.
-/

namespace CheatCode.Source

/-- Characters of symbols, including the marks of numbers, strings and comments. -/
def isSymbolChar (c : Char) : Bool :=
  Text.isAlphanumeric c || c ∈ ['_', '\n', '@', '.', '"', '\'', ';', '#']

/-- Whether tokens are separated here. -/
def separates (s : Nesting) (c : Char) : Bool := s.isTop && (c = ',' || Text.isBlank c)

/-- The pieces between separators, the empty ones included. -/
def piecesFrom (s : Nesting) : Text → List Text
  | [] => [[]]
  | c :: rest =>
    if separates s c then [] :: piecesFrom s rest
    else
      match piecesFrom (s.next c) rest with
      | [] => [[c]]
      | piece :: more => (c :: piece) :: more

/-- The tokens of operands. -/
def tokens (operands : Text) : List Text := (piecesFrom .start operands).filter (· ≠ [])

/-- The character that is written for one in a symbol. -/
def cleanChar (s : Nesting) (c : Char) : Char :=
  if s.quoted || c = '(' || c = ')' && 0 < s.depth || isSymbolChar c then c else '_'

/-- A text with the characters that cannot be part of a symbol replaced. -/
def cleanFrom (s : Nesting) : Text → Text
  | [] => []
  | c :: rest => cleanChar s c :: cleanFrom (s.next c) rest

/-- A token with the characters that cannot be part of a symbol replaced. -/
def clean (token : Text) : Text := cleanFrom .start token

/-- A label with the characters that cannot be part of a symbol replaced,
parentheses among them. -/
def cleanLabel (label : Text) : Text :=
  (clean label).map fun c => if c = '(' ∨ c = ')' then '_' else c

/-- Whether a token has a register in it: a letter for a kind of register with a
digit right after it. -/
def hasRegister : Text → Bool
  | c :: d :: rest => (c = 'c' || c = 'r' || c = 'f') && d.isDigit || hasRegister (d :: rest)
  | _ => false

/-- The tokens that are operators of conditions. -/
def operators : List Text := ["==".toList, "||".toList, "&&".toList]

/-- A token as it is written: operators and registers stay, symbols are cleaned. -/
def cleanToken (token : Text) : Text :=
  if operators.contains token || hasRegister token then token else clean token

/-- Operands with each token as it is written. -/
def cleanOperands (operands : Text) : Text :=
  Text.join [',', ' '] ((tokens operands).map cleanToken)

/-- Whatever is written for a character opens and closes the same. -/
@[simp] theorem next_cleanChar (s : Nesting) (c : Char) : s.next (cleanChar s c) = s.next c := by
  unfold cleanChar
  split
  · rfl
  · next h =>
    have hq : c ≠ '"' := by rintro rfl; simp [isSymbolChar] at h
    have hd : c = ')' → s.depth = 0 := by rintro rfl; simp at h; exact h.1.2
    simp only [Bool.or_eq_true, decide_eq_true_eq, not_or, Bool.not_eq_true] at h
    by_cases hc : c = ')'
    · have hdepth := hd hc
      have hquoted := h.1.1.1
      obtain ⟨quoted, depth⟩ := s
      subst hc
      simp_all [Nesting.next]
    · simp [Nesting.next, hq, hc, h.1.1.1, h.1.1.2]

/-- What is written for a character stays as it is. -/
@[simp] theorem cleanChar_cleanChar (s : Nesting) (c : Char) :
    cleanChar s (cleanChar s c) = cleanChar s c := by
  by_cases h : cleanChar s c = c
  · rw [h, h]
  · have : cleanChar s c = '_' := by
      unfold cleanChar at h ⊢
      split
      · next hc => simp [hc] at h
      · rfl
    rw [this]
    simp [cleanChar, isSymbolChar]

/-- A cleaned text stays as it is. -/
@[simp] theorem cleanFrom_cleanFrom (s : Nesting) (t : Text) :
    cleanFrom s (cleanFrom s t) = cleanFrom s t := by
  induction t generalizing s with
  | nil => rfl
  | cons c rest ih => simp [cleanFrom, ih]

@[simp] theorem length_cleanFrom (s : Nesting) (t : Text) :
    (cleanFrom s t).length = t.length := by
  induction t generalizing s with
  | nil => rfl
  | cons c rest ih => simp [cleanFrom, ih]

end CheatCode.Source

import CheatCode.Proofs.Source.Cleaning
import CheatCode.Proofs.Source.Places
import CheatCode.Source.Sanitize

/-!
# Cleaned tokens

A cleaned token has as many characters as the token, and the same ones in string literals
and wherever they belong to symbols. Outside string literals it has symbols and parentheses
only, and every parenthesis there that closes has been opened. Whether one that opens is
closed is not known where it stands, and it is always kept. So the parentheses of a cleaned
token are balanced exactly if none is left open in the token. Operands are cut where nothing
is open, hence only their last token can leave one open.
-/

namespace CheatCode.Source

open Nesting

/-- One token is what cleaning makes of another, parentheses aside. -/
structure IsCleaned (token cleaned : Text) : Prop where
  /-- No character is added or taken away. -/
  length : cleaned.length = token.length
  /-- String literals stand at the same places, -/
  literals : ∀ i, InLiteral (cleaned.take i) ↔ InLiteral (token.take i)
  /-- and they are the same. -/
  literal : ∀ i : Nat, InLiteral (token.take i) → cleaned[i]? = token[i]?
  /-- Characters of symbols stay. -/
  symbol : ∀ c, isSymbolChar c = true → ∀ i : Nat, token[i]? = some c → cleaned[i]? = some c
  /-- There are no others outside string literals but parentheses. -/
  outside : ∀ c ∈ outside cleaned, isSymbolChar c = true ∨ c = '(' ∨ c = ')'

/-- A cleaned token is safe for the assembler when its parentheses are balanced. -/
def IsSafe (token cleaned : Text) : Prop := IsCleaned token cleaned ∧ Balanced (outside cleaned)

/-! ### Character by character -/

theorem take_cleanFrom (s : Nesting) (t : Text) (i : Nat) :
    (cleanFrom s t).take i = cleanFrom s (t.take i) := by
  induction t generalizing s i with
  | nil => simp [cleanFrom]
  | cons c t ih =>
    cases i with
    | zero => rfl
    | succ i => rw [cleanFrom, List.take_succ_cons, ih, List.take_succ_cons, cleanFrom]

theorem getElem?_cleanFrom (s : Nesting) (t : Text) (i : Nat) :
    (cleanFrom s t)[i]? = t[i]?.map (cleanChar (s.run (t.take i))) := by
  induction t generalizing s i with
  | nil => simp [cleanFrom]
  | cons c t ih =>
    cases i with
    | zero => rfl
    | succ i => rw [cleanFrom, List.getElem?_cons_succ, ih, List.getElem?_cons_succ,
        List.take_succ_cons, run_cons]

theorem inLiteral_clean (t : Text) : InLiteral (clean t) ↔ InLiteral t := by
  rw [← quoted_run_start_iff, ← quoted_run_start_iff, clean, run_cleanFrom]

theorem ne_parenthesis_of_isSymbolChar {c : Char} (h : isSymbolChar c = true) :
    c ≠ '(' ∧ c ≠ ')' := by
  constructor
  · rintro rfl
    exact absurd h (by decide)
  · rintro rfl
    exact absurd h (by decide)

/-- Outside string literals a symbol or a parenthesis is written, and a parenthesis only with
the effect that it has on what is open. -/
theorem cleanChar_step {s : Nesting} (unquoted : s.quoted = false) {c : Char} (quote : c ≠ '"') :
    (isSymbolChar (cleanChar s c) = true ∨ cleanChar s c = '(' ∨ cleanChar s c = ')') ∧
      [cleanChar s c].count '(' + s.depth = [cleanChar s c].count ')' + (s.next c).depth := by
  by_cases opening : c = '('
  · have kept : cleanChar s c = '(' := by simp [cleanChar, opening]
    rw [kept]
    simp [Nesting.next, opening, unquoted, Nat.add_comm]
  · by_cases closing : c = ')' ∧ 0 < s.depth
    · have kept : cleanChar s c = ')' := by simp [cleanChar, closing]
      rw [kept]
      simp [Nesting.next, closing, unquoted]
      omega
    · have symbol : isSymbolChar (cleanChar s c) = true := by
        rw [cleanChar]
        split
        · next kept => simpa [unquoted, opening, closing] using kept
        · decide
      have depth : (s.next c).depth = s.depth := by
        by_cases last : c = ')'
        · have none : s.depth = 0 := Nat.eq_zero_of_not_pos fun pos => closing ⟨last, pos⟩
          simp [Nesting.next, last, unquoted, none]
        · simp [Nesting.next, quote, opening, last, unquoted]
      obtain ⟨left, right⟩ := ne_parenthesis_of_isSymbolChar symbol
      exact ⟨Or.inl symbol, by simp [depth, left, right]⟩

/-- What is written outside string literals for one more character. -/
theorem outside_clean_concat (t : Text) (c : Char) : outside (clean (t ++ [c])) =
    outside (clean t) ++ if c = '"' ∨ InLiteral t then [] else [cleanChar (start.run t) c] := by
  have quote : cleanChar (start.run t) c = '"' ↔ c = '"' := by
    constructor
    · intro same
      obtain kept | ⟨masked, -⟩ := cleanChar_cases (start.run t) c
      · exact kept ▸ same
      · rw [masked] at same
        exact absurd same (by decide)
    · rintro rfl
      simp [cleanChar, isSymbolChar]
  have whole : clean (t ++ [c]) = clean t ++ [cleanChar (start.run t) c] := cleanFrom_append ..
  simp only [whole, outside_concat, quote, inLiteral_clean]

/-- Outside string literals a cleaned text has symbols and parentheses. Of these as many have
been opened as have been closed and are still open, and none is closed before it is opened. -/
theorem parentheses_clean (t : Text) :
    (∀ c ∈ outside (clean t), isSymbolChar c = true ∨ c = '(' ∨ c = ')') ∧
      (outside (clean t)).count '(' = (outside (clean t)).count ')' + (start.run t).depth ∧
      AllOpened (outside (clean t)) := by
  -- The middle part carries the induction: it says that a parenthesis that closes is written
  -- only while there are more open than closed.
  induction t using List.reverseRecOn with
  | nil => exact ⟨by simp [clean, cleanFrom], rfl, by simp [AllOpened, clean, cleanFrom]⟩
  | append_singleton t c ih =>
    obtain ⟨chars, level, opened⟩ := ih
    rw [outside_clean_concat, run_append, run_cons, run_nil]
    by_cases quote : c = '"'
    · simpa [quote, Nesting.next] using ⟨chars, level, opened⟩
    · by_cases literal : InLiteral t
      · simpa [literal, Nesting.next, quote, quoted_run_start_iff.mpr literal] using
          ⟨chars, level, opened⟩
      · have unquoted : (start.run t).quoted = false :=
          Bool.eq_false_iff.mpr (mt quoted_run_start_iff.mp literal)
        obtain ⟨char, step⟩ := cleanChar_step unquoted quote
        rw [if_neg (by simp [quote, literal]), allOpened_concat, List.forall_mem_append,
          List.count_append, List.count_append]
        exact ⟨⟨chars, by simpa using char⟩, by omega, opened, by omega⟩

/-! ### Tokens -/

theorem isCleaned_clean (token : Text) : IsCleaned token (clean token) where
  length := length_cleanFrom start token
  literals := fun i => by rw [clean, take_cleanFrom, ← clean, inLiteral_clean]
  literal := by
    intro i literal
    rw [clean, getElem?_cleanFrom]
    cases token[i]? with
    | none => rfl
    | some c => simp [cleanChar, quoted_run_start_iff.mpr literal]
  symbol := by
    intro c symbol i here
    rw [clean, getElem?_cleanFrom, here]
    simp [cleanChar, symbol]
  outside := (parentheses_clean token).1

/-- Cleaning changes nothing about which parentheses are closed behind. -/
theorem allClosed_clean_iff (token : Text) :
    AllClosed (outside (clean token)) ↔ AllClosed (outside token) := by
  rw [← depth_run_start_eq_zero_iff, ← depth_run_start_eq_zero_iff, clean, run_cleanFrom]

/-- Nothing is open behind the tokens of operands but the last. -/
theorem Tokenized.closed {ts : List Text} (h : Tokenized ts) :
    ∀ t ∈ ts.dropLast, start.run t = start := by
  induction h with
  | nil => simp
  | last => simp
  | @cons t more _ closed _ ih =>
    cases more with
    | nil => simp
    | cons u more => exact List.forall_mem_cons.mpr ⟨closed, ih⟩

/-- A cleaned token is what it should be but for parentheses that are left open, and none of
these is closed before it is opened. It is safe exactly if the token leaves none open, as
every token of operands does but the last. -/
theorem isSafe_clean_iff (token : Text) :
    IsCleaned token (clean token) ∧ AllOpened (outside (clean token)) ∧
      (IsSafe token (clean token) ↔ AllClosed (outside token)) ∧
      ∀ operands, token ∈ (tokens operands).dropLast → IsSafe token (clean token) := by
  have cleaned := isCleaned_clean token
  have opened := (parentheses_clean token).2.2
  have safe : IsSafe token (clean token) ↔ AllClosed (outside token) := by
    rw [← allClosed_clean_iff]
    exact ⟨fun h => h.2.2, fun h => ⟨cleaned, opened, h⟩⟩
  refine ⟨cleaned, opened, safe, fun operands member => safe.mpr ?_⟩
  have closed := (tokenized_tokens operands).closed token member
  rw [← depth_run_start_eq_zero_iff, closed]
  rfl

/-- A parenthesis that is never closed stays among the operands of a directive. -/
theorem not_isSafe_clean :
    let token := "(b".toList
    tokens "a, (b".toList = ["a".toList, token] ∧
      sanitizeLine ".long a, (b".toList = ".long a, (b".toList ∧ ¬IsSafe token (clean token) := by
  intro token
  refine ⟨by decide, by decide, fun safe => ?_⟩
  obtain ⟨-, -, closed⟩ := safe
  exact absurd (closed _ (List.suffix_refl _)) (by decide)

/-- A group with a string literal in it, and characters that have to be replaced. -/
theorem isSafe_clean_group :
    let token := "a-(b, \"c(-\")".toList
    token ∈ (tokens (token ++ ", d".toList)).dropLast ∧ AllClosed (outside token) ∧
      clean token = "a_(b__\"c(-\")".toList ∧ IsSafe token (clean token) := by
  intro token
  have member : token ∈ (tokens (token ++ ", d".toList)).dropLast := by decide
  obtain ⟨-, -, safe, before⟩ := isSafe_clean_iff token
  have found := before (token ++ ", d".toList) member
  exact ⟨member, safe.mp found, by decide, found⟩

end CheatCode.Source

import CheatCode.Proofs.Source.Tokens

/-!
# Tokens and the gaps around them

A text is made of its tokens and of gaps of commas and blanks in front of them, between
any two of them and behind them. There is one way to see a text so if tokens are not empty,
do not fall apart, and leave nothing open unless the text ends with them; the tokens of the
text are those. Cleaned operands are made of the cleaned tokens, which cleaning does not
change any more.
-/

namespace CheatCode.Source

open Nesting

/-- A text of commas and blanks. -/
def Gap (t : Text) : Prop := ∀ c ∈ t, isGap c = true

/-- How a text is made of tokens, all its other characters being commas and blanks. -/
inductive Spaced : List Text → Text → Prop where
  /-- Without tokens there is only a gap. -/
  | none {t : Text} (gap : Gap t) : Spaced [] t
  /-- The token at the end of the text may leave something open. -/
  | last {front token : Text} (gap : Gap front) (whole : IsToken token) :
    Spaced [token] (front ++ token)
  /-- A token that leaves nothing open is followed by a comma or blank, and other tokens
  may come behind it. -/
  | more {front token t : Text} {c : Char} {ts : List Text} (gap : Gap front)
    (whole : IsToken token) (closed : start.run token = start) (mark : isGap c = true)
    (rest : Spaced ts t) : Spaced (token :: ts) (front ++ token ++ c :: t)

theorem Gap.nil : Gap [] := by simp [Gap]

theorem Gap.cons {c : Char} {t : Text} (hc : isGap c = true) (h : Gap t) : Gap (c :: t) :=
  List.forall_mem_cons.mpr ⟨hc, h⟩

/-- A gap in front of a text adds nothing to what it is made of. -/
theorem Spaced.cons_gap {ts : List Text} {t : Text} {c : Char} (hc : isGap c = true)
    (h : Spaced ts t) : Spaced ts (c :: t) := by
  cases h with
  | none gap => exact none (gap.cons hc)
  | last gap whole => exact last (gap.cons hc) whole
  | more gap whole closed mark rest => exact more (gap.cons hc) whole closed mark rest

/-- The pieces that are not empty are spaced by the gaps between pieces. -/
theorem Pieces.spaced {t : Text} {ps : List Text} (h : Pieces t ps) :
    Spaced (ps.filter (· ≠ [])) t := by
  induction h with
  | @last piece whole =>
    by_cases empty : piece = []
    · simpa [empty] using Spaced.none Gap.nil
    · simpa [empty] using Spaced.last Gap.nil ⟨empty, whole⟩
  | @cut piece _ _ _ whole closed gap _ ih =>
    by_cases empty : piece = []
    · simpa [empty] using ih.cons_gap gap
    · simpa [empty] using Spaced.more Gap.nil ⟨empty, whole⟩ closed gap ih

theorem spaced_tokens (t : Text) : Spaced (tokens t) t := (pieces_piecesFrom t).spaced

theorem tokens_gap_append {front : Text} (gap : Gap front) (t : Text) :
    tokens (front ++ t) = tokens t := by
  induction front with
  | nil => rfl
  | cons c front ih =>
    obtain ⟨hc, gap⟩ := List.forall_mem_cons.mp gap
    have apart : tokens ([] ++ c :: (front ++ t)) = tokens [] ++ tokens (front ++ t) :=
      tokens_append_of_closed rfl hc
    calc
      tokens (c :: front ++ t) = tokens [] ++ tokens (front ++ t) := apart
      _ = tokens t := ih gap

/-- Whatever tokens a text is made of, they are found in it. The induction takes one token
after another off the front. -/
theorem Spaced.tokens_eq {ts : List Text} {t : Text} (h : Spaced ts t) : tokens t = ts := by
  induction h with
  | none gap =>
    have none := tokens_gap_append gap []
    rw [List.append_nil] at none
    exact none
  | last gap whole => rw [tokens_gap_append gap, whole.tokens_eq]
  | more gap whole closed mark _ ih =>
    rw [List.append_assoc, tokens_gap_append gap, tokens_append_of_closed closed mark,
      whole.tokens_eq, ih]
    rfl

/-- A text is made of its tokens in one way. -/
theorem spaced_iff {ts : List Text} {t : Text} : Spaced ts t ↔ tokens t = ts :=
  ⟨Spaced.tokens_eq, fun h => h ▸ spaced_tokens t⟩

/-- Cleaned operands fall into the cleaned tokens, each of which is cleaned to itself. No
token is empty, and operands are made of their tokens, in order and with nothing but commas
and blanks around them, and of no others. -/
theorem cleanOperands_tokenized (operands : Text) :
    tokens (cleanOperands operands) = (tokens operands).map cleanToken ∧
      (∀ token ∈ tokens operands,
        cleanToken (cleanToken token) = cleanToken token ∧ token ≠ []) ∧
      ∀ ts, Spaced ts operands ↔ tokens operands = ts := by
  refine ⟨tokens_cleanOperands operands, fun token found => ?_, fun ts => spaced_iff⟩
  have whole : IsToken token := (tokenized_tokens operands).isToken token found
  exact ⟨cleanToken_cleanToken token, whole.1⟩

/-- An operator, a symbol, a group with a string literal in it, and a parenthesis that stays
open. -/
theorem cleanOperands_tokenized_open :
    let operands := " ==,my-func, (a \"x, y\" b) (c d".toList
    let ts := ["==", "my-func", "(a \"x, y\" b)", "(c d"].map String.toList
    let cleaned := ["==", "my_func", "(a_\"x, y\"_b)", "(c_d"].map String.toList
    Spaced ts operands ∧ tokens (cleanOperands operands) = cleaned ∧
      "(c d".toList ∈ tokens operands ∧ cleanToken "(c_d".toList = "(c_d".toList := by
  intro operands ts cleaned
  have found : tokens operands = ts := by decide
  obtain ⟨again, each, spaced⟩ := cleanOperands_tokenized operands
  have member : "(c d".toList ∈ tokens operands := by
    rw [found]
    decide
  refine ⟨(spaced ts).mpr found, ?_, member, (each _ member).1⟩
  rw [again, found]
  decide

end CheatCode.Source

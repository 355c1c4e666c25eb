import CheatCode.Proofs.Source.Masking

/-!
# Tokens of operands

Operands fall into pieces at the gaps where nothing is open, so every piece is scanned
from the start and the tokens are the pieces that are not empty. Cleaning a token
changes neither where it ends nor what is open behind it, hence operands that are put
together from cleaned tokens fall into these tokens again.
-/

namespace CheatCode.Source

open Nesting

/-- A text falls into pieces: nothing is open at the gaps between them, and inside of
a piece no gap is reached with nothing open. -/
inductive Pieces : Text → List Text → Prop where
  | last {piece : Text} (whole : Avoids separates start piece) : Pieces piece [piece]
  | cut {piece t : Text} {c : Char} {more : List Text} (whole : Avoids separates start piece)
      (closed : start.run piece = start) (gap : isGap c = true) (rest : Pieces t more) :
      Pieces (piece ++ c :: t) (piece :: more)

theorem separates_iff {s : Nesting} {c : Char} :
    separates s c = true ↔ s = start ∧ isGap c = true := by
  rw [separates, Bool.and_eq_true, isTop_iff, isGap]

/-- The pieces that are found from the middle of a piece on. -/
theorem exists_pieces_piecesFrom (front t : Text) (whole : Avoids separates start front) :
    ∃ first more, piecesFrom (start.run front) t = first :: more ∧
      Pieces (front ++ t) ((front ++ first) :: more) := by
  induction t generalizing front with
  | nil => exact ⟨[], [], rfl, by simpa using Pieces.last whole⟩
  | cons c t ih =>
    rw [piecesFrom]
    cases hc : separates (start.run front) c with
    | true =>
      obtain ⟨closed, gap⟩ := separates_iff.mp hc
      obtain ⟨first, more, hpieces, rest⟩ := ih [] trivial
      rw [run_nil] at hpieces
      rw [closed, hpieces]
      exact ⟨[], first :: more, rfl, by simpa using Pieces.cut whole closed gap rest⟩
    | false =>
      have longer : Avoids separates start (front ++ [c]) :=
        avoids_append.mpr ⟨whole, hc, trivial⟩
      obtain ⟨first, more, hpieces, rest⟩ := ih (front ++ [c]) longer
      rw [run_append, run_cons, run_nil] at hpieces
      rw [hpieces]
      exact ⟨c :: first, more, rfl, by simpa using rest⟩

theorem pieces_piecesFrom (t : Text) : Pieces t (piecesFrom start t) := by
  obtain ⟨first, more, hpieces, rest⟩ := exists_pieces_piecesFrom [] t trivial
  rw [run_nil] at hpieces
  rw [hpieces]
  exact rest

/-- Pieces hold nothing that is not in the text. -/
theorem Pieces.mem {t : Text} {ps : List Text} (h : Pieces t ps) {piece : Text}
    (hpiece : piece ∈ ps) {c : Char} (hc : c ∈ piece) : c ∈ t := by
  induction h with
  | last => exact List.mem_singleton.mp hpiece ▸ hc
  | cut _ _ _ _ ih =>
    obtain rfl | hpiece := List.mem_cons.mp hpiece
    · exact List.mem_append_left _ hc
    · exact List.mem_append_right _ (List.mem_cons_of_mem _ (ih hpiece))

theorem mem_of_mem_tokens {operands token : Text} (h : token ∈ tokens operands) {c : Char}
    (hc : c ∈ token) : c ∈ operands :=
  (pieces_piecesFrom operands).mem (List.mem_filter.mp h).1 hc

theorem piecesFrom_of_avoids {s : Nesting} {t : Text} (h : Avoids separates s t) :
    piecesFrom s t = [t] := by
  induction t generalizing s with
  | nil => rfl
  | cons c t ih =>
    obtain ⟨hc, rest⟩ := h
    rw [piecesFrom, hc, ih rest]
    rfl

theorem piecesFrom_append {s : Nesting} {piece t : Text} {c : Char}
    (whole : Avoids separates s piece) (stop : separates (s.run piece) c = true) :
    piecesFrom s (piece ++ c :: t) = piece :: piecesFrom (s.run piece) t := by
  induction piece generalizing s with
  | nil =>
    rw [run_nil] at stop
    rw [List.nil_append, piecesFrom, stop]
    rfl
  | cons d piece ih =>
    obtain ⟨hd, rest⟩ := whole
    rw [List.cons_append, piecesFrom, hd, ih rest stop]
    rfl

/-- A token is not empty and does not fall apart. -/
def IsToken (t : Text) : Prop := t ≠ [] ∧ Avoids separates start t

/-- Tokens that are found again when they are put together: behind each of them but the
last nothing is open. -/
inductive Tokenized : List Text → Prop where
  | nil : Tokenized []
  | last {t : Text} (token : IsToken t) : Tokenized [t]
  | cons {t : Text} {more : List Text} (token : IsToken t) (closed : start.run t = start)
      (rest : Tokenized more) : Tokenized (t :: more)

theorem Pieces.tokenized {t : Text} {ps : List Text} (h : Pieces t ps) :
    Tokenized (ps.filter (· ≠ [])) := by
  induction h with
  | @last piece whole =>
    by_cases empty : piece = []
    · simpa [empty] using Tokenized.nil
    · simpa [empty] using Tokenized.last ⟨empty, whole⟩
  | @cut piece _ _ _ whole closed _ _ ih =>
    by_cases empty : piece = []
    · simpa [empty] using ih
    · simpa [empty] using Tokenized.cons ⟨empty, whole⟩ closed ih

theorem Tokenized.isToken {ts : List Text} (h : Tokenized ts) : ∀ t ∈ ts, IsToken t := by
  induction h with
  | nil => simp
  | last token => simpa using token
  | cons token _ _ ih => simpa using ⟨token, ih⟩

theorem tokenized_tokens (operands : Text) : Tokenized (tokens operands) :=
  (pieces_piecesFrom operands).tokenized

/-- A token by itself is its only token. -/
theorem IsToken.tokens_eq {t : Text} (h : IsToken t) : tokens t = [t] := by
  rw [tokens, piecesFrom_of_avoids h.2]
  simp [h.1]

/-- Tokens that are put together with commas and blanks are found again. -/
theorem tokens_join {ts : List Text} (h : Tokenized ts) :
    tokens (Text.join [',', ' '] ts) = ts := by
  have gap : ∀ {c : Char}, isGap c = true → separates start c = true :=
    fun hc => separates_iff.mpr ⟨rfl, hc⟩
  induction h with
  | nil => rfl
  | last token => exact token.tokens_eq
  | @cons t more token closed _ ih =>
    cases more with
    | nil => exact token.tokens_eq
    | cons u more =>
      have comma : separates (start.run t) ',' = true := by rw [closed]; exact gap (by decide)
      have space : ∀ t, piecesFrom start (' ' :: t) = [] :: piecesFrom start t := by
        intro t
        rw [piecesFrom, gap (by decide)]
        rfl
      have whole : Text.join [',', ' '] (t :: u :: more) =
          t ++ ',' :: ' ' :: Text.join [',', ' '] (u :: more) := by
        simp
      rw [tokens] at ih
      rw [whole, tokens, piecesFrom_append token.2 comma, closed, space,
        List.filter_cons_of_pos (by simp [token.1]), List.filter_cons_of_neg (by simp), ih]

theorem piecesFrom_ne_nil (s : Nesting) (t : Text) : piecesFrom s t ≠ [] := by
  cases t with
  | nil => simp [piecesFrom]
  | cons c t =>
    rw [piecesFrom]
    split
    · simp
    · split <;> simp

theorem piecesFrom_append_of_closed {s : Nesting} {front t : Text} {c : Char}
    (closed : s.run front = start) (gap : isGap c = true) :
    piecesFrom s (front ++ c :: t) = piecesFrom s front ++ piecesFrom start t := by
  induction front generalizing s with
  | nil =>
    rw [run_nil] at closed
    rw [List.nil_append, piecesFrom, piecesFrom, if_pos (separates_iff.mpr ⟨closed, gap⟩), closed]
    rfl
  | cons d front ih =>
    rw [run_cons] at closed
    rw [List.cons_append, piecesFrom, piecesFrom]
    split
    · next stop =>
      rw [next_of_isGap s (separates_iff.mp stop).2] at closed
      rw [ih closed, List.cons_append]
    · rw [ih closed]
      obtain ⟨piece, more, hpieces⟩ :=
        List.exists_cons_of_ne_nil (piecesFrom_ne_nil (s.next d) front)
      rw [hpieces]
      rfl

/-- Operands on both sides of a gap where nothing is open fall into tokens on their own. -/
theorem tokens_append_of_closed {front t : Text} {c : Char} (closed : start.run front = start)
    (gap : isGap c = true) : tokens (front ++ c :: t) = tokens front ++ tokens t := by
  rw [tokens, piecesFrom_append_of_closed closed gap, List.filter_append]
  rfl

/-- An underscore separates nothing, and it opens and closes nothing either. -/
theorem avoids_cleanFrom {s : Nesting} {t : Text} (h : Avoids separates s t) :
    Avoids separates s (cleanFrom s t) := by
  induction t generalizing s with
  | nil => trivial
  | cons c t ih =>
    obtain ⟨hc, rest⟩ := h
    rw [cleanFrom, Avoids, next_cleanChar]
    refine ⟨?_, ih rest⟩
    rw [cleanChar]
    split
    · exact hc
    · cases h' : separates s '_' with
      | true => exact absurd (separates_iff.mp h').2 (by decide)
      | false => rfl

theorem run_cleanFrom (s : Nesting) (t : Text) : s.run (cleanFrom s t) = s.run t := by
  induction t generalizing s with
  | nil => rfl
  | cons c t ih => rw [cleanFrom, run_cons, run_cons, next_cleanChar, ih]

theorem cleanFrom_eq_nil {s : Nesting} {t : Text} : cleanFrom s t = [] ↔ t = [] := by
  cases t <;> simp [cleanFrom]

theorem run_cleanToken (t : Text) : start.run (cleanToken t) = start.run t := by
  rw [cleanToken]
  split
  · rfl
  · exact run_cleanFrom start t

theorem IsToken.cleanToken {t : Text} (h : IsToken t) : IsToken (cleanToken t) := by
  rw [Source.cleanToken]
  split
  · exact h
  · exact ⟨mt cleanFrom_eq_nil.mp h.1, avoids_cleanFrom h.2⟩

theorem Tokenized.map_cleanToken {ts : List Text} (h : Tokenized ts) :
    Tokenized (ts.map Source.cleanToken) := by
  induction h with
  | nil => exact nil
  | last token => exact last token.cleanToken
  | cons token closed _ ih =>
    exact cons token.cleanToken ((run_cleanToken _).trans closed) ih

/-- Cleaned operands fall into the cleaned tokens. -/
theorem tokens_cleanOperands (operands : Text) :
    tokens (cleanOperands operands) = (tokens operands).map cleanToken :=
  tokens_join (tokenized_tokens operands).map_cleanToken

/-- A token as it is written stays as it is. -/
theorem cleanToken_cleanToken (t : Text) : cleanToken (cleanToken t) = cleanToken t := by
  by_cases kept : (operators.contains t || hasRegister t) = true
  · have same : cleanToken t = t := by rw [cleanToken, if_pos kept]
    rw [same, same]
  · have cleaned : cleanToken t = clean t := by rw [cleanToken, if_neg kept]
    rw [cleaned, cleanToken]
    split
    · rfl
    · exact cleanFrom_cleanFrom start t

/-- Cleaned operands stay as they are. -/
theorem cleanOperands_cleanOperands (operands : Text) :
    cleanOperands (cleanOperands operands) = cleanOperands operands := by
  rw [cleanOperands, tokens_cleanOperands, List.map_map, cleanOperands]
  congr 1
  exact List.map_congr_left fun t _ => cleanToken_cleanToken t

theorem cleanOperands_eq_nil {operands : Text} :
    cleanOperands operands = [] ↔ tokens operands = [] := by
  have h := tokens_cleanOperands operands
  constructor
  · intro empty
    rw [empty] at h
    exact List.map_eq_nil_iff.mp h.symm
  · intro empty
    rw [cleanOperands, empty]
    rfl

end CheatCode.Source

import CheatCode.Proofs.Source.Tokens

/-!
# Cleaned labels and operands

Cleaning writes underscores and gaps and nothing else, so a scan finds no comment and
no label in a cleaned text that was not in the text before. It writes no blank at
either end. A cleaned label has no parentheses left, and its colons are all in string
literals.
-/

namespace CheatCode

namespace Text

theorem Closed.map {f : Char → Char} (ink : ∀ c, isBlank c = false → isBlank (f c) = false)
    {t : Text} (h : Closed t) : Closed (t.map f) := by
  intro c hc
  rw [List.getLast?_map] at hc
  obtain ⟨d, hd, rfl⟩ := Option.map_eq_some_iff.mp hc
  exact ink d (h d hd)

theorem Unpadded.map {f : Char → Char} (ink : ∀ c, isBlank c = false → isBlank (f c) = false)
    {t : Text} (h : Unpadded t) : Unpadded (t.map f) := by
  refine ⟨?_, h.2.map ink⟩
  intro c hc
  rw [List.head?_map] at hc
  obtain ⟨d, hd, rfl⟩ := Option.map_eq_some_iff.mp hc
  exact ink d (h.1 d hd)

/-- Texts with something in front of and behind every separator have no blanks at the
ends when they are put together. -/
theorem unpadded_join {separator : Text} {ts : List Text} (h : ∀ t ∈ ts, t ≠ [] ∧ Unpadded t) :
    Unpadded (join separator ts) := by
  induction ts with
  | nil => exact ⟨by simp, closed_nil⟩
  | cons t ts ih =>
    obtain ⟨⟨nonempty, unpadded⟩, hts⟩ := List.forall_mem_cons.mp h
    cases ts with
    | nil => exact unpadded
    | cons u ts =>
      have rest := ih hts
      have joined : join separator (u :: ts) ≠ [] := by
        have := (h u (by simp)).1
        cases ts <;> simp [this]
      rw [join_cons_cons]
      refine ⟨?_, (closed_append joined).mpr rest.2⟩
      obtain ⟨c, t, rfl⟩ := List.exists_cons_of_ne_nil nonempty
      exact unpadded.1

end Text

namespace Source

open Nesting Statement

/-- A map that changes no element changes nothing. -/
theorem map_eq_self_iff {α : Type} {f : α → α} {l : List α} :
    l.map f = l ↔ ∀ a ∈ l, f a = a := by
  have each : l.map f = l.map id ↔ ∀ a ∈ l, f a = id a := List.map_inj_left
  rwa [List.map_id] at each

/-- Characters that cleaning may write an underscore for. -/
def Maskable (c : Char) : Prop := c ≠ '"' ∧ c ≠ '('

theorem cleanChar_cases (s : Nesting) (c : Char) :
    cleanChar s c = c ∨ (cleanChar s c = '_' ∧ Maskable c) := by
  rw [cleanChar]
  split
  · exact Or.inl rfl
  · next h =>
    refine Or.inr ⟨rfl, ?_, ?_⟩
    · rintro rfl
      exact h (by simp [isSymbolChar])
    · rintro rfl
      exact h (by simp)

theorem isBlank_cleanChar {c : Char} (h : Text.isBlank c = false) (s : Nesting) :
    Text.isBlank (cleanChar s c) = false := by
  obtain same | ⟨masked, -⟩ := cleanChar_cases s c
  · rw [same, h]
  · rw [masked]
    decide

theorem cleanFrom_append (s : Nesting) (t u : Text) :
    cleanFrom s (t ++ u) = cleanFrom s t ++ cleanFrom (s.run t) u := by
  induction t generalizing s with
  | nil => rfl
  | cons c t ih => rw [List.cons_append, cleanFrom, cleanFrom, ih, run_cons, List.cons_append]

/-- A text stays when every character of it stays in its place. -/
theorem cleanFrom_eq_self_iff {s : Nesting} {t : Text} :
    cleanFrom s t = t ↔ ∀ front c back, t = front ++ c :: back → cleanChar (s.run front) c = c := by
  induction t generalizing s with
  | nil => simp [cleanFrom]
  | cons d t ih =>
    rw [cleanFrom, List.cons.injEq, ih]
    constructor
    · rintro ⟨here, later⟩ front c back whole
      cases front with
      | nil =>
        cases whole
        exact here
      | cons e front =>
        obtain ⟨rfl, rest⟩ := List.cons.inj whole
        exact later front c back rest
    · intro all
      exact ⟨all [] d t rfl, fun front c back whole => all (d :: front) c back (by simp [whole])⟩

theorem unpadded_cleanFrom (s : Nesting) {t : Text} (h : Text.Unpadded t) :
    Text.Unpadded (cleanFrom s t) := by
  constructor
  · cases t with
    | nil => simp [cleanFrom]
    | cons c t =>
      intro d hd
      cases hd
      exact isBlank_cleanChar (h.1 c rfl) s
  · obtain rfl | ⟨front, last, rfl⟩ := List.eq_nil_or_concat t
    · exact Text.closed_nil
    · rw [List.concat_eq_append] at h ⊢
      rw [cleanFrom_append]
      exact Text.closed_concat.mpr (isBlank_cleanChar (Text.closed_concat.mp h.2) _)

theorem masks_cleanFrom (s : Nesting) (t : Text) : Masks Maskable t (cleanFrom s t) := by
  induction t generalizing s with
  | nil => exact .nil
  | cons c t ih =>
    rw [cleanFrom]
    obtain same | ⟨masked, maskable⟩ := cleanChar_cases s c
    · rw [same]
      exact .keep c (ih _)
    · rw [masked]
      exact .mask maskable (ih _)

theorem masks_cleanToken (t : Text) : Masks Maskable t (cleanToken t) := by
  rw [cleanToken]
  split
  · exact .refl _ t
  · exact masks_cleanFrom start t

theorem mem_of_hasRegister {t : Text} (h : hasRegister t = true) :
    'c' ∈ t ∨ 'r' ∈ t ∨ 'f' ∈ t := by
  induction t using hasRegister.induct with
  | case1 c d t ih =>
    rw [hasRegister, Bool.or_eq_true, Bool.and_eq_true] at h
    obtain ⟨kind, -⟩ | h := h
    · simp only [Bool.or_eq_true, decide_eq_true_eq] at kind
      obtain (rfl | rfl) | rfl := kind <;> simp
    · obtain h | h | h := ih h <;> simp [h]
  | case2 => simp [hasRegister] at h

/-- Operands are cleaned piece by piece, and only gaps between them are written anew. -/
theorem Pieces.masks {t : Text} {ps : List Text} (h : Pieces t ps) :
    Masks Maskable t (Text.join [',', ' '] ((ps.filter (· ≠ [])).map cleanToken)) := by
  induction h with
  | @last piece _ =>
    by_cases empty : piece = []
    · simpa [empty] using Masks.nil
    · simpa [empty] using masks_cleanToken piece
  | @cut piece t c more _ _ gap _ ih =>
    by_cases empty : piece = []
    · simpa [empty] using Masks.drop gap ih
    · have token := masks_cleanToken piece
      rw [List.filter_cons_of_pos (by simp [empty]), List.map_cons]
      cases hmore : (more.filter (· ≠ [])).map cleanToken with
      | nil =>
        rw [hmore] at ih
        simpa using token.append (Masks.drop gap ih)
      | cons u more =>
        rw [hmore] at ih
        have separator : Masks Maskable (c :: t) (',' :: ' ' :: Text.join [',', ' '] (u :: more)) :=
          .insert (by decide) (.insert (by decide) (.drop gap ih))
        simpa using token.append separator

theorem masks_cleanOperands (operands : Text) : Masks Maskable operands (cleanOperands operands) :=
  (pieces_piecesFrom operands).masks

/-- A piece with nothing open behind it does not end in a blank: that blank would have
been a gap. -/
theorem closed_of_avoids {t : Text} (whole : Avoids separates start t)
    (closed : start.run t = start) : Text.Closed t := by
  obtain rfl | ⟨front, last, rfl⟩ := List.eq_nil_or_concat t
  · exact Text.closed_nil
  · rw [List.concat_eq_append] at whole closed ⊢
    rw [Text.closed_concat]
    cases hlast : Text.isBlank last with
    | false => rfl
    | true =>
      rw [run_append, run_cons, run_nil, next_of_isBlank _ hlast] at closed
      have gap : separates (start.run front) last = true :=
        separates_iff.mpr ⟨closed, by simp [isGap, hlast]⟩
      have kept := (avoids_append.mp whole).2.1
      rw [gap] at kept
      cases kept

theorem Pieces.closed {t : Text} {ps : List Text} (h : Pieces t ps) (closed : Text.Closed t) :
    ∀ piece ∈ ps, Text.Closed piece := by
  induction h with
  | last =>
    intro piece hpiece
    rw [List.mem_singleton] at hpiece
    exact hpiece ▸ closed
  | @cut piece t c more whole top _ _ ih =>
    have rest : Text.Closed t := by
      cases t with
      | nil => exact Text.closed_nil
      | cons d t => exact (Text.closed_append_cons (List.cons_ne_nil d t)).mp closed
    intro p hp
    obtain rfl | hp := List.mem_cons.mp hp
    · exact closed_of_avoids whole top
    · exact ih rest p hp

theorem unpadded_of_mem_tokens {operands t : Text} (closed : Text.Closed operands)
    (h : t ∈ tokens operands) : t ≠ [] ∧ Text.Unpadded t := by
  obtain ⟨nonempty, whole⟩ := (tokenized_tokens operands).isToken t h
  refine ⟨nonempty, ?_, (pieces_piecesFrom operands).closed closed t (List.mem_filter.mp h).1⟩
  obtain ⟨c, t, rfl⟩ := List.exists_cons_of_ne_nil nonempty
  intro d hd
  cases hd
  cases hc : Text.isBlank c with
  | false => rfl
  | true =>
    have gap : separates start c = true := separates_iff.mpr ⟨rfl, by simp [isGap, hc]⟩
    rw [Avoids, gap] at whole
    cases whole.1

theorem unpadded_cleanOperands {operands : Text} (closed : Text.Closed operands) :
    Text.Unpadded (cleanOperands operands) := by
  apply Text.unpadded_join
  intro u hu
  obtain ⟨t, ht, rfl⟩ := List.mem_map.mp hu
  obtain ⟨nonempty, unpadded⟩ := unpadded_of_mem_tokens closed ht
  rw [cleanToken]
  split
  · exact ⟨nonempty, unpadded⟩
  · exact ⟨mt cleanFrom_eq_nil.mp nonempty, unpadded_cleanFrom start unpadded⟩

/-- A character without what parentheses it may be. -/
def maskParenthesis (c : Char) : Char := if c = '(' ∨ c = ')' then '_' else c

theorem cleanLabel_eq (label : Text) :
    cleanLabel label = (cleanFrom start label).map maskParenthesis := rfl

theorem isBlank_maskParenthesis {c : Char} (h : Text.isBlank c = false) :
    Text.isBlank (maskParenthesis c) = false := by
  rw [maskParenthesis]
  split
  · decide
  · exact h

theorem unpadded_cleanLabel {label : Text} (h : Text.Unpadded label) :
    Text.Unpadded (cleanLabel label) :=
  (unpadded_cleanFrom start h).map fun _ => isBlank_maskParenthesis

/-- What is open when parentheses are not counted. -/
def flat (s : Nesting) : Nesting := ⟨s.quoted, 0⟩

/-- A character of a label is masked, or it is no parenthesis and needs no cleaning. -/
theorem labelChar_cases (s : Nesting) (c : Char) :
    (maskParenthesis (cleanChar s c) = '_' ∧ c ≠ '"') ∨
      (maskParenthesis (cleanChar s c) = c ∧ c ≠ '(' ∧ c ≠ ')' ∧
        (s.quoted = true ∨ isSymbolChar c = true)) := by
  obtain same | ⟨masked, quote, -⟩ := cleanChar_cases s c
  · rw [same, maskParenthesis]
    split
    · next parenthesis =>
      refine Or.inl ⟨rfl, ?_⟩
      obtain rfl | rfl := parenthesis <;> decide
    · next plain =>
      obtain ⟨opening, closing⟩ := not_or.mp plain
      refine Or.inr ⟨rfl, opening, closing, ?_⟩
      rw [cleanChar] at same
      split at same
      · next kept => simpa [opening, closing] using kept
      · exact Or.inr (same ▸ by decide)
  · rw [masked]
    exact Or.inl ⟨rfl, quote⟩

theorem next_flat (s : Nesting) (c : Char) :
    (flat s).next (maskParenthesis (cleanChar s c)) = flat (s.next c) := by
  rw [flat, flat, quoted_next]
  obtain ⟨masked, quote⟩ | ⟨same, opening, closing, -⟩ := labelChar_cases s c
  · rw [masked, next_underscore, if_neg quote]
  · rw [same]
    by_cases quote : c = '"' <;> simp [Nesting.next, quote, opening, closing]

theorem cleanChar_flat (s : Nesting) (c : Char) :
    cleanChar (flat s) (maskParenthesis (cleanChar s c)) = maskParenthesis (cleanChar s c) := by
  obtain ⟨masked, -⟩ | ⟨same, -, -, hc⟩ := labelChar_cases s c
  · rw [masked]
    exact if_pos (by simp [isSymbolChar])
  · rw [same]
    obtain hc | hc := hc <;> simp [cleanChar, flat, hc]

theorem endsLabel_flat (s : Nesting) (c : Char) :
    endsLabel (flat s) (maskParenthesis (cleanChar s c)) = false := by
  obtain ⟨masked, -⟩ | ⟨same, -, -, hc⟩ := labelChar_cases s c
  · rw [masked]
    simp [endsLabel]
  · rw [same]
    obtain hc | hc := hc
    · simp [endsLabel, isTop, flat, hc]
    · have : c ≠ ':' := by
        rintro rfl
        exact absurd hc (by decide)
      simp [endsLabel, this]

/-- Every colon of a cleaned label is in a string literal. -/
theorem avoids_cleanLabel (label : Text) : Avoids endsLabel start (cleanLabel label) := by
  have from_s : ∀ (s : Nesting) (t : Text),
      Avoids endsLabel (flat s) ((cleanFrom s t).map maskParenthesis) := by
    intro s t
    induction t generalizing s with
    | nil => trivial
    | cons c t ih =>
      rw [cleanFrom, List.map_cons, Avoids, next_flat]
      exact ⟨endsLabel_flat s c, ih _⟩
  exact from_s start label

theorem run_cleanLabel (label : Text) : start.run (cleanLabel label) = flat (start.run label) := by
  have from_s : ∀ (s : Nesting) (t : Text),
      (flat s).run ((cleanFrom s t).map maskParenthesis) = flat (s.run t) := by
    intro s t
    induction t generalizing s with
    | nil => rfl
    | cons c t ih => rw [cleanFrom, List.map_cons, run_cons, next_flat, ih, run_cons]
  exact from_s start label

/-- A cleaned label stays as it is. -/
theorem cleanLabel_cleanLabel (label : Text) :
    cleanLabel (cleanLabel label) = cleanLabel label := by
  have from_s : ∀ (s : Nesting) (t : Text),
      cleanFrom (flat s) ((cleanFrom s t).map maskParenthesis) =
        (cleanFrom s t).map maskParenthesis := by
    intro s t
    induction t generalizing s with
    | nil => rfl
    | cons c t ih => rw [cleanFrom, List.map_cons, cleanFrom, cleanChar_flat, next_flat, ih]
  have once : maskParenthesis ∘ maskParenthesis = maskParenthesis := by
    funext c
    rw [Function.comp, maskParenthesis, maskParenthesis]
    split <;> simp_all
  have same : cleanFrom start (cleanLabel label) = cleanLabel label := from_s start label
  rw [cleanLabel_eq, same, cleanLabel_eq, List.map_map, once]

/-- Cleaning a label masks characters that are no quotes. -/
theorem masks_cleanLabel (label : Text) : Masks (· ≠ '"') label (cleanLabel label) := by
  have from_s : ∀ (s : Nesting) (t : Text),
      Masks (· ≠ '"') t ((cleanFrom s t).map maskParenthesis) := by
    intro s t
    induction t generalizing s with
    | nil => exact .nil
    | cons c t ih =>
      rw [cleanFrom, List.map_cons]
      obtain ⟨masked, quote⟩ | ⟨same, -⟩ := labelChar_cases s c
      · rw [masked]
        exact .mask quote (ih _)
      · rw [same]
        exact .keep c (ih _)
  exact from_s start label

end Source

end CheatCode

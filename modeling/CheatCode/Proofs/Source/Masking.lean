import CheatCode.Proofs.Source.Scanning

/-!
# Texts that are rewritten character by character

Symbols are rewritten by writing an underscore for some of their characters, and the
gaps between them are written anew. A scan of the rewritten text runs along with that
of the text it was made from, so where the one finds nothing to stop at the other does
not either.
-/

namespace CheatCode.Source

open Nesting Statement

/-- Characters that separate tokens. -/
def isGap (c : Char) : Bool := c = ',' || Text.isBlank c

theorem ne_of_isGap {c d : Char} (h : isGap c = true) (hd : isGap d = false) : c ≠ d := by
  rintro rfl
  rw [h] at hd
  cases hd

theorem next_of_isGap (s : Nesting) {c : Char} (h : isGap c = true) : s.next c = s := by
  simp only [isGap, Bool.or_eq_true, decide_eq_true_eq] at h
  obtain rfl | h := h
  · simp [Nesting.next]
  · exact s.next_of_isBlank h

theorem next_underscore (s : Nesting) : s.next '_' = s := by simp [Nesting.next]

/-- The second text is the first with underscores for some of the characters in `p` and
with other gaps. -/
inductive Masks (p : Char → Prop) : Text → Text → Prop where
  | nil : Masks p [] []
  | keep (c : Char) {t u : Text} (h : Masks p t u) : Masks p (c :: t) (c :: u)
  | mask {c : Char} {t u : Text} (hc : p c) (h : Masks p t u) : Masks p (c :: t) ('_' :: u)
  | drop {c : Char} {t u : Text} (hc : isGap c = true) (h : Masks p t u) : Masks p (c :: t) u
  | insert {c : Char} {t u : Text} (hc : isGap c = true) (h : Masks p t u) : Masks p t (c :: u)

namespace Masks

variable {p q : Char → Prop} {t u v w : Text}

theorem refl (p : Char → Prop) (t : Text) : Masks p t t := by
  induction t with
  | nil => exact nil
  | cons c t ih => exact keep c ih

theorem mono (hpq : ∀ c, p c → q c) (h : Masks p t u) : Masks q t u := by
  induction h with
  | nil => exact nil
  | keep c _ ih => exact keep c ih
  | mask hc _ ih => exact mask (hpq _ hc) ih
  | drop hc _ ih => exact drop hc ih
  | insert hc _ ih => exact insert hc ih

theorem append (h : Masks p t u) (h' : Masks p v w) : Masks p (t ++ v) (u ++ w) := by
  induction h with
  | nil => exact h'
  | keep c _ ih => exact keep c ih
  | mask hc _ ih => exact mask hc ih
  | drop hc _ ih => exact drop hc ih
  | insert hc _ ih => exact insert hc ih

theorem drop_blank {b : Text} (hb : Text.Blank b) : Masks p b [] := by
  induction b with
  | nil => exact nil
  | cons c b ih =>
    have hc : isGap c = true := by simp [isGap, hb c (by simp)]
    exact drop hc (ih hb.of_cons)

/-- Scans of both texts run along with each other. What they know of each other is
kept by every character, and by those that are masked or gaps in one text alone. -/
theorem scan {R : Nesting → Nesting → Prop} {stop : Nesting → Char → Bool}
    (step : ∀ s s' c, R s s' → R (s.next c) (s'.next c))
    (masked : ∀ s s' c, p c → R s s' → R (s.next c) s')
    (stops : ∀ s s' c, R s s' → stop s c = false → stop s' c = false)
    (passes : ∀ s c, (c = '_' ∨ isGap c = true) → stop s c = false)
    (h : Masks p t u) {s s' : Nesting} (related : R s s') (avoids : Avoids stop s t) :
    Avoids stop s' u ∧ R (s.run t) (s'.run u) := by
  induction h generalizing s s' with
  | nil => exact ⟨trivial, related⟩
  | keep c _ ih =>
    obtain ⟨hc, avoids⟩ := avoids
    obtain ⟨hu, hrun⟩ := ih (step s s' c related) avoids
    exact ⟨⟨stops s s' c related hc, hu⟩, hrun⟩
  | @mask c _ _ hc _ ih =>
    obtain ⟨hu, hrun⟩ := ih (masked s s' c hc related) avoids.2
    refine ⟨⟨passes s' '_' (Or.inl rfl), ?_⟩, ?_⟩
    · rwa [next_underscore]
    · rwa [run_cons, run_cons, next_underscore]
  | drop hc _ ih =>
    have avoids := avoids.2
    rw [next_of_isGap s hc] at avoids
    rw [run_cons, next_of_isGap s hc]
    exact ih related avoids
  | @insert c _ _ hc _ ih =>
    obtain ⟨hu, hrun⟩ := ih related avoids
    refine ⟨⟨passes s' c (Or.inr hc), ?_⟩, ?_⟩
    · rwa [next_of_isGap s' hc]
    · rwa [run_cons, next_of_isGap s' hc]

/-- A comment does not start in the rewritten text either, and string literals are
open behind both texts or behind none. -/
theorem startsComment (quotes : ∀ c, p c → c ≠ '"') (h : Masks p t u) {s s' : Nesting}
    (same : s.quoted = s'.quoted) (avoids : Avoids startsComment s t) :
    Avoids startsComment s' u ∧ (s.run t).quoted = (s'.run u).quoted := by
  apply scan (R := fun s s' => s.quoted = s'.quoted) _ _ _ _ h same avoids
  · intro s s' c same
    rw [quoted_next, quoted_next, same]
  · intro s s' c hc same
    rw [quoted_next, if_neg (quotes c hc), same]
  · intro s s' c same hc
    rwa [Statement.startsComment, ← same]
  · intro s c hc
    have : c ≠ '#' ∧ c ≠ ';' := by
      obtain rfl | hc := hc
      · decide
      · exact ⟨ne_of_isGap hc (by decide), ne_of_isGap hc (by decide)⟩
    simp [Statement.startsComment, this]

/-- A label does not end in the rewritten text either: masking may leave more
parentheses open, never fewer. -/
theorem endsLabel (plain : ∀ c, p c → c ≠ '"' ∧ c ≠ '(') (h : Masks p t u) {s s' : Nesting}
    (within : Within s s') (avoids : Avoids endsLabel s t) : Avoids endsLabel s' u := by
  refine (scan (R := Within) ?_ ?_ ?_ ?_ h within avoids).1
  · intro s s' c h
    exact h.next c
  · rintro s s' c hc ⟨same, hdepth⟩
    obtain ⟨quote, opening⟩ := plain c hc
    rw [Within, quoted_next, if_neg quote]
    refine ⟨same, Nat.le_trans ?_ hdepth⟩
    rw [Nesting.next]
    repeat' split
    all_goals first | contradiction | simp
  · rintro s s' c ⟨same, hdepth⟩ hc
    simp only [Statement.endsLabel, isTop, ← same] at hc ⊢
    by_cases closed : s'.depth = 0
    · have : s.depth = 0 := by omega
      simpa [this, closed] using hc
    · simp [closed]
  · intro s c hc
    have : c ≠ ':' := by
      obtain rfl | hc := hc
      · decide
      · exact ne_of_isGap hc (by decide)
    simp [Statement.endsLabel, this]

end Masks

end CheatCode.Source

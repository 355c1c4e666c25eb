import CheatCode.Proofs.Text.Lines
import CheatCode.Text.Search
import Mathlib.Data.List.Basic

/-!
# Where a text is cut

A text is cut at the first occurrence of a text or at the last occurrence of a
character. The first does not begin anywhere before the cut, and the second does not
occur behind it. A run of characters of a class is the longest one at the front. The
pieces of a text hold nothing that is not in the text and nothing they are cut at.
-/

namespace CheatCode.Text

/-- The longest run of characters of a class before the rest of a text. -/
structure Run (p : Char → Bool) (run rest : Text) : Prop where
  /-- All characters of the run are of the class. -/
  chars : ∀ c ∈ run, p c = true
  /-- The character behind the run is not. -/
  maximal : ∀ c ∈ rest.head?, p c = false

section

variable {p : Char → Bool} {run rest : Text}

theorem Run.takeWhile_append (h : Run p run rest) : (run ++ rest).takeWhile p = run := by
  have stop : rest.takeWhile p = [] := by
    cases rest with
    | nil => rfl
    | cons c rest => exact List.takeWhile_cons_of_neg (by simp [h.maximal c rfl])
  rw [List.takeWhile_append_of_pos h.chars, stop, List.append_nil]

theorem Run.dropWhile_append (h : Run p run rest) : (run ++ rest).dropWhile p = rest := by
  rw [List.dropWhile_append_of_pos h.chars]
  cases rest with
  | nil => rfl
  | cons c rest => exact List.dropWhile_cons_of_neg (by simp [h.maximal c rfl])

theorem run_takeWhile (p : Char → Bool) (t : Text) : Run p (t.takeWhile p) (t.dropWhile p) where
  chars := fun c hc => List.all_eq_true.mp List.all_takeWhile c hc
  maximal := by
    intro c hc
    have stop := List.head?_dropWhile_not p t
    rw [Option.mem_def.mp hc] at stop
    simpa using stop

end

/-- A text is found where it occurs. -/
theorem contains_iff {needle t : Text} : contains needle t = true ↔ needle <:+: t := by
  rw [contains]
  induction t with
  | nil =>
    rw [cut?, List.infix_nil]
    cases needle <;> simp
  | cons c t ih =>
    rw [cut?, List.infix_cons_iff, ← ih, ← List.isPrefixOf_iff_prefix]
    cases needle.isPrefixOf (c :: t) <;> simp

/-- The cut is at the first occurrence: what is searched for does not begin before. -/
theorem cut?_append {needle before after : Text}
    (first : ¬needle <:+: before ++ needle.dropLast) :
    cut? needle (before ++ needle ++ after) = some (before, after) := by
  induction before with
  | nil =>
    rw [List.nil_append, cut?.eq_def, if_pos (List.isPrefixOf_iff_prefix.mpr ⟨after, rfl⟩),
      List.drop_left]
  | cons c before ih =>
    rw [List.cons_append, List.infix_cons_iff, not_or] at first
    obtain ⟨here, later⟩ := first
    have elsewhere : ¬needle.isPrefixOf (c :: (before ++ needle ++ after)) = true := by
      intro found
      have front : c :: (before ++ needle.dropLast) <+: c :: (before ++ needle ++ after) := by
        rw [List.append_assoc, List.prefix_cons_inj, List.prefix_append_right_inj]
        exact (List.dropLast_prefix needle).trans (List.prefix_append needle after)
      refine here (List.prefix_of_prefix_length_le (List.isPrefixOf_iff_prefix.mp found) front ?_)
      simp only [List.length_cons, List.length_append, List.length_dropLast]
      omega
    rw [List.cons_append, List.cons_append, cut?, if_neg elsewhere, ih later]
    rfl

/-- What a text is cut into makes the text again. -/
theorem eq_of_cut? {needle t before after : Text} (h : cut? needle t = some (before, after)) :
    t = before ++ needle ++ after := by
  induction t generalizing before with
  | nil =>
    cases needle with
    | nil => simp_all [cut?]
    | cons d needle => simp [cut?] at h
  | cons c t ih =>
    rw [cut?] at h
    split at h
    next found =>
      obtain ⟨rfl, rfl⟩ := Prod.mk.inj (Option.some.inj h)
      exact (List.prefix_iff_eq_append.mp (List.isPrefixOf_iff_prefix.mp found)).symm
    next =>
      obtain ⟨⟨front, back⟩, found, same⟩ := Option.map_eq_some_iff.mp h
      obtain ⟨rfl, rfl⟩ := Prod.mk.inj same
      exact congrArg (c :: ·) (ih found)

/-- Nothing occurs across characters that it does not have. -/
theorem infix_of_append {needle front middle back : Text} (apart : middle ≠ [])
    (others : ∀ c ∈ middle, c ∉ needle) (h : needle <:+: front ++ (middle ++ back)) :
    needle <:+: front ∨ needle <:+: back := by
  obtain h | h | ⟨a, b, rfl, ha, hb⟩ := List.infix_append_iff.mp h
  · exact Or.inl h
  · obtain h | h | ⟨a, b, rfl, ha, hb⟩ := List.infix_append_iff.mp h
    · cases needle with
      | nil => exact Or.inl (List.nil_infix ..)
      | cons c needle => exact absurd (by simp) (others c (h.subset (by simp)))
    · exact Or.inr h
    · cases a with
      | nil => exact Or.inr hb.isInfix
      | cons c a => exact absurd (by simp) (others c (ha.subset (by simp)))
  · cases b with
    | nil =>
      rw [List.append_nil]
      exact Or.inl ha.isInfix
    | cons c b =>
      obtain ⟨d, middle, rfl⟩ := List.exists_cons_of_ne_nil apart
      obtain ⟨rfl, -⟩ := List.cons_prefix_cons.mp hb
      exact absurd (by simp) (others c (by simp))

/-- What ends in a character does not reach into a text without it. -/
theorem infix_of_append_of_last {needle front back : Text} {c : Char}
    (last : needle.getLast? = some c) (h : c ∉ back) (found : needle <:+: front ++ back) :
    needle <:+: front := by
  obtain front | behind | ⟨a, b, rfl, ha, hb⟩ := List.infix_append_iff.mp found
  · exact front
  · exact absurd (behind.subset (List.mem_of_getLast? last)) h
  · by_cases empty : b = []
    · rw [empty, List.append_nil]
      exact ha.isInfix
    · rw [List.getLast?_append_of_ne_nil a empty] at last
      exact absurd (hb.subset (List.mem_of_getLast? last)) h

/-- Without the second of its characters there is no pair to drop. -/
theorem dropPairs_of_notMem {a b : Char} {t : Text} (h : b ∉ t) : dropPairs a b t = t := by
  rw [dropPairs.eq_def]
  split
  · next c d rest =>
    have other : ¬(c = a ∧ d = b) := by
      rintro ⟨-, rfl⟩
      exact h (by simp)
    rw [if_neg other]
  · rfl

theorem cutLast?_eq_none {c : Char} {t : Text} : cutLast? c t = none ↔ c ∉ t := by
  induction t with
  | nil => simp [cutLast?]
  | cons d t ih =>
    rw [cutLast?]
    cases hcut : cutLast? c t with
    | some sides =>
      have hmem : c ∈ t := by
        by_cases hc : c ∈ t
        · exact hc
        · rw [ih.mpr hc] at hcut
          cases hcut
      simp [hmem]
    | none =>
      have hnot := ih.mp hcut
      by_cases same : d = c
      · simp [same]
      · simp [same, hnot, Ne.symm same]

/-- The cut is at the last occurrence, and there is only one such place. -/
theorem cutLast?_eq_some {c : Char} {t before after : Text} :
    cutLast? c t = some (before, after) ↔ t = before ++ c :: after ∧ c ∉ after := by
  constructor
  · intro h
    induction t generalizing before with
    | nil => simp [cutLast?] at h
    | cons d t ih =>
      rw [cutLast?] at h
      cases hcut : cutLast? c t with
      | some sides =>
        rw [hcut] at h
        cases h
        obtain ⟨rfl, hnot⟩ := ih hcut
        exact ⟨rfl, hnot⟩
      | none =>
        rw [hcut] at h
        by_cases same : d = c
        · rw [same] at h ⊢
          simp only [if_pos] at h
          cases h
          exact ⟨rfl, cutLast?_eq_none.mp hcut⟩
        · simp [same] at h
  · rintro ⟨rfl, hnot⟩
    induction before with
    | nil => simp [cutLast?, cutLast?_eq_none.mpr hnot]
    | cons d before ih => simp [cutLast?, ih]

theorem mem_of_mem_pieces {c d : Char} {t piece : Text} (h : piece ∈ pieces c t) (hd : d ∈ piece) :
    d ∈ t := by
  induction t generalizing piece with
  | nil =>
    rw [pieces, List.mem_singleton] at h
    exact h ▸ hd
  | cons e t ih =>
    rw [pieces] at h
    by_cases same : e = c
    · rw [if_pos same] at h
      obtain rfl | h := List.mem_cons.mp h
      · simp at hd
      · exact List.mem_cons_of_mem e (ih h hd)
    · rw [if_neg same] at h
      cases hp : pieces c t with
      | nil =>
        rw [hp, List.mem_singleton] at h
        rw [h, List.mem_singleton] at hd
        simp [hd]
      | cons first more =>
        rw [hp] at h ih
        obtain rfl | h := List.mem_cons.mp h
        · obtain rfl | hd := List.mem_cons.mp hd
          · simp
          · exact List.mem_cons_of_mem e (ih (by simp) hd)
        · exact List.mem_cons_of_mem e (ih (List.mem_cons_of_mem first h) hd)

theorem pieces_ne_nil (c : Char) (t : Text) : pieces c t ≠ [] := by
  cases t with
  | nil => simp [pieces]
  | cons d t =>
    rw [pieces]
    split
    · simp
    · split <;> simp

/-- The first piece ends where the character occurs first. -/
theorem pieces_append {c : Char} {front : Text} (h : c ∉ front) (rest : Text) :
    pieces c (front ++ c :: rest) = front :: pieces c rest := by
  induction front with
  | nil => simp [pieces]
  | cons d front ih =>
    obtain ⟨first, later⟩ := not_or.mp (mt List.mem_cons.mpr h)
    rw [List.cons_append, pieces, if_neg (Ne.symm first), ih later]

theorem pieces_eq_singleton {c : Char} {t : Text} (h : c ∉ t) : pieces c t = [t] := by
  induction t with
  | nil => rfl
  | cons d t ih =>
    obtain ⟨first, later⟩ := not_or.mp (mt List.mem_cons.mpr h)
    rw [pieces, if_neg (Ne.symm first), ih later]

/-- The character is in none of its pieces. -/
theorem notMem_of_mem_pieces {c : Char} {t : Text} : ∀ piece ∈ pieces c t, c ∉ piece := by
  induction t with
  | nil => simp [pieces]
  | cons d t ih =>
    rw [pieces]
    by_cases same : d = c
    · rw [if_pos same]
      exact List.forall_mem_cons.mpr ⟨by simp, ih⟩
    · obtain ⟨first, more, found⟩ := List.exists_cons_of_ne_nil (pieces_ne_nil c t)
      rw [found] at ih
      rw [if_neg same, found]
      obtain ⟨hfirst, hmore⟩ := List.forall_mem_cons.mp ih
      exact List.forall_mem_cons.mpr ⟨by simp [Ne.symm same, hfirst], hmore⟩

/-- Texts that are put together are found again, each but the first behind the gap that
stands between two of them. -/
theorem pieces_join {c : Char} {gap first : Text} {rest : List Text} (hgap : c ∉ gap)
    (h : ∀ t ∈ first :: rest, c ∉ t) :
    pieces c (join (c :: gap) (first :: rest)) = first :: rest.map (gap ++ ·) := by
  induction rest generalizing first with
  | nil => exact pieces_eq_singleton (h first (by simp))
  | cons second rest ih =>
    obtain ⟨hfirst, hrest⟩ := List.forall_mem_cons.mp h
    obtain ⟨hsecond, hmore⟩ := List.forall_mem_cons.mp hrest
    have shifted : gap ++ join (c :: gap) (second :: rest) =
        join (c :: gap) ((gap ++ second) :: rest) := by
      cases rest with
      | nil => rfl
      | cons third rest => simp
    have both : c ∉ gap ++ second := fun hc => (List.mem_append.mp hc).elim hgap hsecond
    rw [join_cons_cons, List.append_assoc, List.cons_append, pieces_append hfirst, shifted,
      ih (List.forall_mem_cons.mpr ⟨both, hmore⟩), List.map_cons]

end CheatCode.Text

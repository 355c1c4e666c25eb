import CheatCode.Text.Blank
import Mathlib.Data.Bool.AllAny
import Mathlib.Data.List.Basic
import Mathlib.Data.List.Induction

/-!
# Blanks at the ends of a text

Trimming takes blanks off the ends of a text and leaves a text with none there, so a
text is blanks around its trimmed form. Texts that have no blanks at their ends are
not changed by trimming and are found again among any blanks. Without any of their
blanks a text and its trimmed form are the same.
-/

namespace CheatCode.Text

/-- A text of blanks. -/
def Blank (t : Text) : Prop := ∀ c ∈ t, isBlank c = true

/-- A text that does not end in a blank. -/
def Closed (t : Text) : Prop := ∀ c ∈ t.getLast?, isBlank c = false

/-- A text that neither starts nor ends in a blank. -/
def Unpadded (t : Text) : Prop := (∀ c ∈ t.head?, isBlank c = false) ∧ Closed t

theorem Blank.nil : Blank [] := by simp [Blank]

theorem Blank.of_cons {c : Char} {t : Text} (h : Blank (c :: t)) : Blank t := by
  intro d hd
  exact h d (List.mem_cons_of_mem c hd)

/-- A blank is told from every character that is none. -/
theorem ne_of_isBlank {c d : Char} (h : isBlank c = true) (ink : isBlank d = false) : c ≠ d := by
  rintro rfl
  rw [h] at ink
  cases ink

theorem blank_indent (t : Text) : Blank (indent t) := by
  intro c hc
  have all := List.all_takeWhile (p := isBlank) (l := t)
  exact List.all_eq_true.mp all c hc

theorem closed_nil : Closed [] := by simp [Closed]

theorem closed_append {t u : Text} (nonempty : u ≠ []) : Closed (t ++ u) ↔ Closed u := by
  rw [Closed, Closed, List.getLast?_append_of_ne_nil t nonempty]

theorem closed_append_cons {t u : Text} {c : Char} (nonempty : u ≠ []) :
    Closed (t ++ c :: u) ↔ Closed u := by
  rw [List.append_cons, closed_append nonempty]

theorem closed_concat {t : Text} {c : Char} : Closed (t ++ [c]) ↔ isBlank c = false := by
  simp [Closed]

theorem Closed.of_isBlank {t : Text} (h : ∀ c ∈ t, isBlank c = false) : Closed t := by
  intro c hc
  exact h c (List.mem_of_getLast? hc)

theorem Unpadded.of_isBlank {t : Text} (h : ∀ c ∈ t, isBlank c = false) : Unpadded t :=
  ⟨fun c hc => h c (List.mem_of_head? hc), .of_isBlank h⟩

/-- A text of blanks that does not end in one is empty. -/
theorem Blank.eq_nil {t : Text} (h : Blank t) (closed : Closed t) : t = [] := by
  obtain rfl | ⟨front, last, rfl⟩ := List.eq_nil_or_concat t
  · rfl
  · rw [List.concat_eq_append] at h closed
    have blank := h last (by simp)
    rw [closed_concat.mp closed] at blank
    cases blank

theorem trimStart_append_of_blank {b : Text} (h : Blank b) (t : Text) :
    trimStart (b ++ t) = trimStart t :=
  List.dropWhile_append_of_pos h

theorem trimStart_eq_self {t : Text} (h : ∀ c ∈ t.head?, isBlank c = false) :
    trimStart t = t := by
  cases t with
  | nil => rfl
  | cons c t => rw [trimStart, List.dropWhile_cons_of_neg (by simp [h c (by simp)])]

theorem indent_eq_nil {t : Text} (h : ∀ c ∈ t.head?, isBlank c = false) : indent t = [] := by
  cases t with
  | nil => rfl
  | cons c t => rw [indent, List.takeWhile_cons_of_neg (by simp [h c (by simp)])]

theorem trimEnd_append_of_blank {b : Text} (h : Blank b) (t : Text) :
    trimEnd (t ++ b) = trimEnd t := by
  rw [trimEnd, List.reverse_append, List.dropWhile_append_of_pos, ← trimEnd]
  intro c hc
  exact h c (List.mem_reverse.mp hc)

theorem trimEnd_eq_self {t : Text} (h : Closed t) : trimEnd t = t := by
  obtain rfl | ⟨front, last, rfl⟩ := List.eq_nil_or_concat t
  · rfl
  · rw [List.concat_eq_append] at h ⊢
    have hlast := closed_concat.mp h
    rw [trimEnd, List.reverse_concat, List.dropWhile_cons_of_neg (by simp [hlast])]
    simp

/-- What trimming takes off the end are blanks. -/
theorem exists_trimEnd_append (t : Text) : ∃ b, Blank b ∧ trimEnd t ++ b = t := by
  refine ⟨(t.reverse.takeWhile isBlank).reverse, ?_, ?_⟩
  · intro c hc
    exact blank_indent t.reverse c (List.mem_reverse.mp hc)
  · rw [trimEnd, ← List.reverse_append, List.takeWhile_append_dropWhile, List.reverse_reverse]

theorem trimEnd_subset (t : Text) : trimEnd t ⊆ t := by
  obtain ⟨b, -, whole⟩ := exists_trimEnd_append t
  exact fun c hc => whole ▸ List.mem_append_left b hc

theorem trim_subset (t : Text) : trim t ⊆ t :=
  List.Subset.trans (trimEnd_subset (trimStart t)) (List.dropWhile_sublist isBlank).subset

theorem closed_trimEnd (t : Text) : Closed (trimEnd t) := by
  intro c hc
  rw [trimEnd, List.getLast?_reverse] at hc
  have := List.head?_dropWhile_not isBlank t.reverse
  rw [Option.mem_def.mp hc] at this
  simpa using this

theorem trimEnd_eq_self_iff {t : Text} : trimEnd t = t ↔ Closed t :=
  ⟨fun h => h ▸ closed_trimEnd t, trimEnd_eq_self⟩

/-- Trimming the end stays within the last text that is not blank. -/
theorem trimEnd_append {t : Text} (nonempty : trimEnd t ≠ []) (front : Text) :
    trimEnd (front ++ t) = front ++ trimEnd t := by
  obtain ⟨b, hb, happend⟩ := exists_trimEnd_append t
  have closed : Closed (front ++ trimEnd t) := (closed_append nonempty).mpr (closed_trimEnd t)
  calc
    trimEnd (front ++ t) = trimEnd (front ++ trimEnd t ++ b) := by
      rw [List.append_assoc, happend]
    _ = front ++ trimEnd t := by
      rw [trimEnd_append_of_blank hb, trimEnd_eq_self closed]

/-- Trimming the end takes nothing from a closed text in front. -/
theorem prefix_trimEnd {front t : Text} (closed : Closed front) (h : front <+: t) :
    front <+: trimEnd t := by
  obtain ⟨rest, rfl⟩ := h
  obtain ⟨b, hb, happend⟩ := exists_trimEnd_append (front ++ rest)
  obtain ⟨x, hfront, hx⟩ | ⟨x, htrim, -⟩ := List.append_eq_append_iff.mp happend
  · cases x using List.reverseRecOn with
    | nil => exact ⟨[], by simpa using hfront⟩
    | append_singleton x c =>
      have hc : isBlank c = true := hb c (by simp [hx])
      rw [hfront, ← List.append_assoc, closed_concat, hc] at closed
      cases closed
  · exact ⟨x, htrim.symm⟩

/-- A closed text is found again before blanks, a text without blanks at its ends
among them. -/
theorem trim_append {b t d : Text} (hb : Blank b) (ht : Unpadded t) (hd : Blank d) :
    trim (b ++ t ++ d) = t := by
  rw [trim, List.append_assoc, trimStart_append_of_blank hb]
  cases t with
  | nil =>
    rw [List.nil_append, ← List.append_nil d, trimStart_append_of_blank hd]
    rfl
  | cons c t =>
    have start : trimStart (c :: (t ++ d)) = c :: (t ++ d) := trimStart_eq_self ht.1
    rw [List.cons_append, start, ← List.cons_append, trimEnd_append_of_blank hd,
      trimEnd_eq_self ht.2]

theorem trim_cons_of_blank {c : Char} (h : isBlank c = true) (t : Text) :
    trim (c :: t) = trim t := by
  rw [trim, trimStart, List.dropWhile_cons_of_pos h]
  rfl

theorem trim_eq_self {t : Text} (h : Unpadded t) : trim t = t := by
  simpa using trim_append Blank.nil h Blank.nil

theorem unpadded_trim (t : Text) : Unpadded (trim t) := by
  refine ⟨?_, closed_trimEnd _⟩
  intro c hc
  obtain ⟨b, -, hb⟩ := exists_trimEnd_append (trimStart t)
  rw [trim] at hc
  have start := List.head?_dropWhile_not isBlank t
  rw [← trimStart, ← hb] at start
  cases hs : trimEnd (trimStart t) with
  | nil => simp [hs] at hc
  | cons d u =>
    rw [hs] at hc start
    cases hc
    simpa using start

/-- A text is blanks around its trimmed form. -/
theorem exists_append_trim (t : Text) : ∃ d, Blank d ∧ indent t ++ trim t ++ d = t := by
  obtain ⟨d, hd, happend⟩ := exists_trimEnd_append (trimStart t)
  refine ⟨d, hd, ?_⟩
  rw [trim, List.append_assoc, happend, indent_append_trimStart]

theorem trim_blank_append {b : Text} (h : Blank b) (t : Text) : trim (b ++ t) = trim t :=
  congrArg trimEnd (trimStart_append_of_blank h t)

theorem trim_append_of_blank {b : Text} (h : Blank b) (t : Text) : trim (t ++ b) = trim t := by
  obtain ⟨d, hd, whole⟩ := exists_append_trim t
  have blank : Blank (d ++ b) := fun c hc => (List.mem_append.mp hc).elim (hd c) (h c)
  have longer : t ++ b = indent t ++ trim t ++ (d ++ b) := by rw [← List.append_assoc, whole]
  rw [longer, trim_append (blank_indent t) (unpadded_trim t) blank]

/-- Nothing is left of blanks, and of nothing else. -/
theorem trim_eq_nil_iff {t : Text} : trim t = [] ↔ Blank t := by
  constructor
  · intro empty
    obtain ⟨d, hd, whole⟩ := exists_append_trim t
    rw [← whole, empty, List.append_nil]
    exact fun c hc => (List.mem_append.mp hc).elim (blank_indent t c) (hd c)
  · intro blank
    have start := trimStart_append_of_blank blank []
    rw [List.append_nil] at start
    rw [trim, start]
    rfl

/-! ### Without any blanks -/

theorem compact_append (a b : Text) : compact (a ++ b) = compact a ++ compact b :=
  List.filter_append ..

theorem compact_cons_blank {c : Char} (h : isBlank c = true) (t : Text) :
    compact (c :: t) = compact t :=
  List.filter_cons_of_neg (by simp [h])

theorem compact_eq_self {t : Text} (h : ∀ c ∈ t, isBlank c = false) : compact t = t :=
  List.filter_eq_self.mpr fun c hc => by simp [h c hc]

theorem compact_eq_nil_iff {t : Text} : compact t = [] ↔ Blank t := by
  simp [compact, Blank]

/-- Trimming takes nothing off a text but blanks. -/
theorem compact_trim (t : Text) : compact (trim t) = compact t := by
  obtain ⟨d, hd, whole⟩ := exists_append_trim t
  have parts := congrArg compact whole
  simpa [compact_append, compact_eq_nil_iff.mpr hd,
    compact_eq_nil_iff.mpr (blank_indent t)] using parts

end CheatCode.Text

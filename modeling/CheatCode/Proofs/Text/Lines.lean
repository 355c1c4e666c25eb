import CheatCode.Text.Blank
import CheatCode.Text.Lines

/-!
# Lines put together and taken apart

Texts without line breaks that are put together as lines are found again as the lines
of the whole, as long as the last of them is not empty: nothing after a final line
feed is a line.
-/

namespace CheatCode.Text

/-- A text that does not break into lines. -/
def OneLine (t : Text) : Prop := ∀ c ∈ t, c ≠ '\n' ∧ c ≠ '\r'

theorem OneLine.append {t u : Text} (ht : OneLine t) (hu : OneLine u) : OneLine (t ++ u) := by
  intro c hc
  obtain hc | hc := List.mem_append.mp hc
  · exact ht c hc
  · exact hu c hc

theorem OneLine.of_subset {t u : Text} (ht : OneLine t) (h : u ⊆ t) : OneLine u := by
  intro c hc
  exact ht c (h hc)

theorem OneLine.of_isBlank {t : Text} (h : ∀ c ∈ t, isBlank c = false) : OneLine t := by
  intro c hc
  constructor
  · rintro rfl
    exact absurd (h '\n' hc) (by decide)
  · rintro rfl
    exact absurd (h '\r' hc) (by decide)

theorem mem_join {separator : Text} {ls : List Text} {c : Char} (h : c ∈ join separator ls) :
    c ∈ separator ∨ ∃ l ∈ ls, c ∈ l := by
  induction ls with
  | nil => cases h
  | cons l ls ih =>
    cases ls with
    | nil => exact Or.inr ⟨l, by simp, h⟩
    | cons m ls =>
      rw [join_cons_cons, List.mem_append, List.mem_append] at h
      obtain (here | separating) | later := h
      · exact Or.inr ⟨l, by simp, here⟩
      · exact Or.inl separating
      · exact (ih later).imp_right fun ⟨k, hk, hc⟩ => ⟨k, List.mem_cons_of_mem l hk, hc⟩

theorem lines_cons {c : Char} {t : Text} (feed : c ≠ '\n')
    (carriage : c = '\r' → t.head? ≠ some '\n') :
    lines (c :: t) =
      match lines t with
      | [] => [[c]]
      | line :: more => (c :: line) :: more :=
  lines.eq_4 c t (fun _ hc ht => carriage hc (ht ▸ rfl)) feed

/-- A text that is found again as a line when a line feed follows it. -/
structure Unbroken (t : Text) : Prop where
  /-- There is no line feed in it. -/
  feed : '\n' ∉ t
  /-- A carriage return at its end would be taken for a part of what ends the line. -/
  carriage : t.getLast? ≠ some '\r'

theorem OneLine.unbroken {t : Text} (h : OneLine t) : Unbroken t where
  feed := fun hc => (h _ hc).1 rfl
  carriage := fun last => (h _ (List.mem_of_getLast? last)).2 rfl

theorem lines_append_feed {t : Text} (h : Unbroken t) (rest : Text) :
    lines (t ++ '\n' :: rest) = t :: lines rest := by
  induction t with
  | nil => rfl
  | cons c t ih =>
    obtain ⟨feed, later⟩ := not_or.mp (mt List.mem_cons.mpr h.feed)
    have rest_unbroken : Unbroken t := by
      refine ⟨later, fun last => h.carriage ?_⟩
      rw [List.getLast?_cons, last]
      rfl
    have carriage : c = '\r' → (t ++ '\n' :: rest).head? ≠ some '\n' := by
      rintro rfl
      cases t with
      | nil => exact absurd rfl h.carriage
      | cons d t =>
        rintro ⟨⟩
        exact later (by simp)
    rw [List.cons_append, lines_cons (Ne.symm feed) carriage, ih rest_unbroken]

/-- A carriage return before the line feed is no part of the line. -/
theorem lines_append_carriage {t : Text} (h : '\n' ∉ t) (rest : Text) :
    lines (t ++ '\r' :: '\n' :: rest) = t :: lines rest := by
  induction t with
  | nil => rfl
  | cons c t ih =>
    obtain ⟨feed, later⟩ := not_or.mp (mt List.mem_cons.mpr h)
    have carriage : c = '\r' → (t ++ '\r' :: '\n' :: rest).head? ≠ some '\n' := by
      intro _ next
      cases t with
      | nil => exact absurd next (by simp)
      | cons d t => exact later (List.mem_of_head? next)
    rw [List.cons_append, lines_cons (Ne.symm feed) carriage, ih later]

/-- A text without line feeds is one line before a line feed, up to a carriage return at
its end. -/
theorem exists_lines_append_feed {t : Text} (h : '\n' ∉ t) (rest : Text) :
    ∃ line, lines (t ++ '\n' :: rest) = line :: lines rest ∧
      (t = line ∨ t = line ++ ['\r']) := by
  by_cases carriage : t.getLast? = some '\r'
  · obtain ⟨line, rfl⟩ := List.getLast?_eq_some_iff.mp carriage
    have feed : '\n' ∉ line := fun hc => h (List.mem_append_left _ hc)
    refine ⟨line, ?_, Or.inr rfl⟩
    rw [List.append_assoc]
    exact lines_append_carriage feed rest
  · exact ⟨t, lines_append_feed ⟨h, carriage⟩ rest, Or.inl rfl⟩

theorem lines_eq_singleton {t : Text} (h : '\n' ∉ t) (nonempty : t ≠ []) : lines t = [t] := by
  induction t with
  | nil => exact absurd rfl nonempty
  | cons c t ih =>
    obtain ⟨feed, later⟩ := not_or.mp (mt List.mem_cons.mpr h)
    have carriage : c = '\r' → t.head? ≠ some '\n' :=
      fun _ next => later (List.mem_of_head? next)
    rw [lines_cons (Ne.symm feed) carriage]
    cases t with
    | nil => rfl
    | cons d t => rw [ih later (by simp)]

/-- Lines that are put together are found again. -/
theorem lines_unlines {ls : List Text} (h : ∀ l ∈ ls, OneLine l)
    (last : ls.getLast? ≠ some []) : lines (unlines ls) = ls := by
  induction ls with
  | nil => rfl
  | cons l ls ih =>
    obtain ⟨hl, hls⟩ := List.forall_mem_cons.mp h
    cases ls with
    | nil =>
      apply lines_eq_singleton hl.unbroken.feed
      rintro rfl
      exact last rfl
    | cons m ls =>
      have rest := ih hls (by simpa using last)
      rw [unlines] at rest ⊢
      rw [join_cons_cons, List.append_assoc, List.singleton_append, lines_append_feed hl.unbroken,
        rest]

/-- Lines with a line feed behind each of them are found again in front of anything. -/
theorem lines_flatMap_append {ls : List Text} (h : ∀ l ∈ ls, Unbroken l) (rest : Text) :
    lines (ls.flatMap (· ++ ['\n']) ++ rest) = ls ++ lines rest := by
  induction ls with
  | nil => rfl
  | cons l ls ih =>
    obtain ⟨hl, hls⟩ := List.forall_mem_cons.mp h
    rw [List.flatMap_cons, List.append_assoc, List.append_assoc, List.singleton_append,
      lines_append_feed hl, ih hls, List.cons_append]

/-- Lines that are put together and ended have a line feed behind each of them. -/
theorem unlines_append_feed {ls : List Text} (nonempty : ls ≠ []) :
    unlines ls ++ ['\n'] = ls.flatMap (· ++ ['\n']) := by
  induction ls with
  | nil => exact absurd rfl nonempty
  | cons l ls ih =>
    cases ls with
    | nil => simp [unlines]
    | cons m ls =>
      rw [List.flatMap_cons, ← ih (by simp), unlines, join_cons_cons]
      simp

/-- Lines that are put together and ended are found again. -/
theorem lines_unlines_feed {ls : List Text} (h : ∀ l ∈ ls, Unbroken l) (nonempty : ls ≠ []) :
    lines (unlines ls ++ ['\n']) = ls := by
  have found := lines_flatMap_append h []
  rw [unlines_append_feed nonempty]
  simpa using found

/-- Between two runs of lines there is one line feed. -/
theorem unlines_append {ls ms : List Text} (nonempty : ls ≠ []) (more : ms ≠ []) :
    unlines (ls ++ ms) = unlines ls ++ '\n' :: unlines ms := by
  induction ls with
  | nil => exact absurd rfl nonempty
  | cons l ls ih =>
    cases ls with
    | nil =>
      obtain ⟨m, ms, rfl⟩ := List.exists_cons_of_ne_nil more
      simp [unlines]
    | cons k ls =>
      have rest := ih (by simp)
      simp only [unlines, List.cons_append] at rest
      simp [unlines, rest]

/-- No line has a line feed in it. -/
theorem feed_notMem_of_mem_lines (t : Text) : ∀ line ∈ lines t, '\n' ∉ line := by
  induction t using lines.induct with
  | case1 => simp
  | case2 rest ih => exact List.forall_mem_cons.mpr ⟨by simp, ih⟩
  | case3 rest ih => exact List.forall_mem_cons.mpr ⟨by simp, ih⟩
  | case4 c rest carriage feed none ih =>
    rw [lines.eq_4 c rest carriage feed, none]
    simp [Ne.symm feed]
  | case5 c rest carriage feed line more found ih =>
    rw [found] at ih
    obtain ⟨hline, hmore⟩ := List.forall_mem_cons.mp ih
    rw [lines.eq_4 c rest carriage feed, found]
    exact List.forall_mem_cons.mpr ⟨by simp [hline, Ne.symm feed], hmore⟩

/-- Every line takes a character at least. -/
theorem length_lines_le (t : Text) : (lines t).length ≤ t.length := by
  induction t using lines.induct with
  | case1 => simp
  | case2 rest ih =>
    rw [lines, List.length_cons, List.length_cons, List.length_cons]
    omega
  | case3 rest ih =>
    rw [lines, List.length_cons, List.length_cons]
    omega
  | case4 c rest carriage feed none ih =>
    rw [lines.eq_4 c rest carriage feed, none]
    simp
  | case5 c rest carriage feed line more found ih =>
    rw [found] at ih
    rw [lines.eq_4 c rest carriage feed, found]
    simp only [List.length_cons] at ih ⊢
    omega

/-- A line feed in front of a line is an empty line before it. -/
theorem unlines_feed_cons (t : Text) (ls : List Text) :
    unlines (('\n' :: t) :: ls) = unlines ([] :: t :: ls) := by
  cases ls with
  | nil => rfl
  | cons l ls => simp [unlines]

/-- What follows a line matters only as the text it makes. -/
theorem unlines_cons_congr {ls ms : List Text} (l : Text) (h : unlines ls = unlines ms)
    (empty : ls = [] ↔ ms = []) : unlines (l :: ls) = unlines (l :: ms) := by
  cases ls with
  | nil => rw [empty.mp rfl]
  | cons a ls =>
    cases ms with
    | nil => exact absurd (empty.mpr rfl) (by simp)
    | cons b ms =>
      rw [unlines] at h ⊢
      rw [join_cons_cons, join_cons_cons, h]

end CheatCode.Text

import CheatCode.Proofs.Text.Trim
import CheatCode.Source.Statement
import CheatCode.Source.Symbol

/-!
# Scanning a text place by place

Every scan follows what is open through a text and looks for a place to stop at. The
scan of two texts one after another is the scan of the first and then, from what is
open behind it, the scan of the second; blanks open and close nothing.
-/

namespace CheatCode.Source.Nesting

/-- What is open behind a text. -/
def run (s : Nesting) (t : Text) : Nesting := t.foldl next s

@[simp] theorem run_nil (s : Nesting) : s.run [] = s := rfl

@[simp] theorem run_cons (s : Nesting) (c : Char) (t : Text) : s.run (c :: t) = (s.next c).run t :=
  rfl

@[simp] theorem run_append (s : Nesting) (t u : Text) : s.run (t ++ u) = (s.run t).run u :=
  List.foldl_append

/-- No place of a text is one to stop at. -/
def Avoids (stop : Nesting → Char → Bool) : Nesting → Text → Prop
  | _, [] => True
  | s, c :: rest => stop s c = false ∧ Avoids stop (s.next c) rest

section

variable {stop : Nesting → Char → Bool} {s : Nesting} {t before after : Text}

theorem avoids_append {u : Text} :
    Avoids stop s (t ++ u) ↔ Avoids stop s t ∧ Avoids stop (s.run t) u := by
  induction t generalizing s with
  | nil => simp [Avoids]
  | cons c t ih => simp only [List.cons_append, Avoids, ih, run_cons, and_assoc]

theorem breakAt?_eq_none : breakAt? stop s t = none ↔ Avoids stop s t := by
  induction t generalizing s with
  | nil => simp [breakAt?, Avoids]
  | cons c t ih =>
    rw [breakAt?, Avoids]
    cases hstop : stop s c with
    | true => simp
    | false => simp [ih]

/-- A text is cut at the first place to stop at, and there is only one such place. -/
theorem breakAt?_eq_some : breakAt? stop s t = some (before, after) ↔
    ∃ c rest, after = c :: rest ∧ t = before ++ c :: rest ∧ Avoids stop s before ∧
      stop (s.run before) c = true := by
  constructor
  · intro h
    induction t generalizing s before with
    | nil => cases h
    | cons c t ih =>
      rw [breakAt?] at h
      cases hstop : stop s c with
      | true =>
        rw [hstop] at h
        cases h
        exact ⟨c, t, rfl, rfl, trivial, hstop⟩
      | false =>
        rw [hstop] at h
        obtain ⟨sides, hsides, heq⟩ := Option.map_eq_some_iff.mp h
        cases heq
        obtain ⟨d, rest, hafter, rfl, hbefore, hd⟩ := ih hsides
        exact ⟨d, rest, hafter, rfl, ⟨hstop, hbefore⟩, hd⟩
  · rintro ⟨c, rest, rfl, rfl, hbefore, hc⟩
    induction before generalizing s with
    | nil => simpa [breakAt?] using hc
    | cons d before ih =>
      obtain ⟨hd, hbefore⟩ := hbefore
      rw [List.cons_append, breakAt?, hd, ih hbefore hc]
      rfl

end

/-- Nothing is opened or closed by quotes and parentheses that are not there. -/
theorem next_of_plain (s : Nesting) {c : Char} (h : c ∉ ['"', '(', ')']) : s.next c = s := by
  simp only [List.mem_cons, List.not_mem_nil, or_false, not_or] at h
  simp [next, h]

theorem next_of_isBlank (s : Nesting) {c : Char} (h : Text.isBlank c = true) : s.next c = s := by
  apply s.next_of_plain
  intro mark
  have ink : ∀ d ∈ ['"', '(', ')'], Text.isBlank d = false :=
    List.all_iff_forall_prop.mp (by decide)
  exact Text.ne_of_isBlank h (ink c mark) rfl

theorem run_eq_self {s : Nesting} {t : Text} (h : ∀ c ∈ t, s.next c = s) : s.run t = s := by
  induction t with
  | nil => rfl
  | cons c t ih =>
    obtain ⟨hc, ht⟩ := List.forall_mem_cons.mp h
    rw [run_cons, hc, ih ht]

theorem run_of_blank (s : Nesting) {b : Text} (h : Text.Blank b) : s.run b = s :=
  run_eq_self fun c hc => next_of_isBlank s (h c hc)

/-- A scan passes over characters that it stops at nowhere. -/
theorem avoids_of_forall {stop : Nesting → Char → Bool} {t : Text}
    (h : ∀ s, ∀ c ∈ t, stop s c = false) (s : Nesting) : Avoids stop s t := by
  induction t generalizing s with
  | nil => trivial
  | cons c t ih => exact ⟨h s c (by simp), ih (fun s d hd => h s d (by simp [hd])) (s.next c)⟩

/-- Blanks are passed over by a scan that stops at none. -/
theorem avoids_of_blank {stop : Nesting → Char → Bool}
    (blank : ∀ s c, Text.isBlank c = true → stop s c = false) (s : Nesting) {b : Text}
    (h : Text.Blank b) : Avoids stop s b :=
  avoids_of_forall (fun s c hc => blank s c (h c hc)) s

theorem isTop_iff {s : Nesting} : s.isTop = true ↔ s = start := by
  obtain ⟨quoted, depth⟩ := s
  simp [isTop, start]

/-- Quotes alone decide what is in a string literal. -/
theorem quoted_next (s : Nesting) (c : Char) :
    (s.next c).quoted = if c = '"' then !s.quoted else s.quoted := by
  rw [next]
  repeat' split
  all_goals rfl

/-- Without quotes no string literal is open. -/
theorem quoted_run {t : Text} (h : '"' ∉ t) (s : Nesting) : (s.run t).quoted = s.quoted := by
  induction t generalizing s with
  | nil => rfl
  | cons c t ih =>
    obtain ⟨hc, ht⟩ := not_or.mp (mt List.mem_cons.mpr h)
    rw [run_cons, ih ht, quoted_next, if_neg (Ne.symm hc)]

/-- A string literal is left as it was entered, whatever is in it. -/
theorem run_literal {t : Text} (h : '"' ∉ t) {s : Nesting} (outside : s.quoted = false) :
    s.run ('"' :: t ++ ['"']) = s := by
  obtain ⟨quoted, depth⟩ := s
  cases outside
  have steady : (Nesting.mk true depth).run t = ⟨true, depth⟩ := by
    apply run_eq_self
    intro c hc
    have other : c ≠ '"' := ne_of_mem_of_not_mem hc h
    rw [next, if_neg other]
    rfl
  rw [List.cons_append, run_cons, run_append, show next ⟨false, depth⟩ '"' = ⟨true, depth⟩ from rfl,
    steady]
  rfl

/-- A string literal is passed over by a scan that stops at no quote and nowhere in a string
literal. -/
theorem avoids_literal {stop : Nesting → Char → Bool} (quote : ∀ s, stop s '"' = false)
    (inside : ∀ s c, s.quoted = true → stop s c = false) {t : Text} (h : '"' ∉ t) {s : Nesting}
    (outside : s.quoted = false) : Avoids stop s ('"' :: t ++ ['"']) := by
  have body : ∀ (t : Text) (s : Nesting), '"' ∉ t → s.quoted = true → Avoids stop s t := by
    intro t
    induction t with
    | nil => exact fun _ _ _ => trivial
    | cons c t ih =>
      intro s hc quoted
      obtain ⟨other, later⟩ := not_or.mp (mt List.mem_cons.mpr hc)
      refine ⟨inside s c quoted, ih (s.next c) later ?_⟩
      rw [quoted_next, if_neg (Ne.symm other), quoted]
  have opened : (s.next '"').quoted = true := by
    rw [quoted_next, if_pos rfl, outside, Bool.not_false]
  exact ⟨quote s, avoids_append.mpr ⟨body t _ h opened, quote _, trivial⟩⟩

/-- Without quotes and parentheses that open, nothing is open behind a text. -/
theorem run_start_of_plain {t : Text} (h : '"' ∉ t ∧ '(' ∉ t) : start.run t = start := by
  apply run_eq_self
  intro c hc
  have quote : c ≠ '"' := ne_of_mem_of_not_mem hc h.1
  have opening : c ≠ '(' := ne_of_mem_of_not_mem hc h.2
  simp [next, quote, opening, start]

/-- As much is open in both, up to parentheses that are open in the second only. -/
def Within (s s' : Nesting) : Prop := s.quoted = s'.quoted ∧ s.depth ≤ s'.depth

theorem Within.refl (s : Nesting) : Within s s := ⟨rfl, Nat.le_refl _⟩

theorem Within.next {s s' : Nesting} (h : Within s s') (c : Char) :
    Within (s.next c) (s'.next c) := by
  obtain ⟨quoted, depth⟩ := s
  obtain ⟨quoted', depth'⟩ := s'
  obtain ⟨rfl, hdepth⟩ := h
  simp only at hdepth
  simp only [Within, Nesting.next]
  repeat' split
  all_goals simp only [true_and]
  all_goals omega

end CheatCode.Source.Nesting

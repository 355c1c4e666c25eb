import CheatCode.Proofs.Source.Scanning

/-!
# Places of a text

What stands in front of a place tells what is open there. A string literal is open behind
an odd number of quotes. Of the parentheses outside string literals those are open that are
closed nowhere behind, so nothing is open exactly if each of them is closed. What a scan
stops at is therefore said without the scan.
-/

namespace CheatCode.Source

open Nesting

/-! ### String literals -/

/-- The place behind a text is in a string literal: the quotes in front of it are odd in
number. -/
def InLiteral (front : Text) : Prop := front.count '"' % 2 = 1

instance : DecidablePred InLiteral := fun _ => inferInstanceAs (Decidable (_ = _))

theorem inLiteral_concat {front : Text} {c : Char} :
    InLiteral (front ++ [c]) ↔ if c = '"' then ¬InLiteral front else InLiteral front := by
  by_cases quote : c = '"'
  · subst quote
    simp only [InLiteral, List.count_append, List.count_singleton_self, if_pos]
    omega
  · simp [InLiteral, quote]

/-- The characters outside string literals of what follows a text. The quotes are none
of them. -/
def outsideBehind (front : Text) : Text → Text
  | [] => []
  | c :: rest =>
    (if c = '"' ∨ InLiteral front then [] else [c]) ++ outsideBehind (front ++ [c]) rest

/-- The characters outside string literals. -/
def outside (t : Text) : Text := outsideBehind [] t

@[simp] theorem outside_nil : outside [] = [] := rfl

theorem outside_concat (t : Text) (c : Char) :
    outside (t ++ [c]) = outside t ++ if c = '"' ∨ InLiteral t then [] else [c] := by
  have behind : ∀ front t : Text, outsideBehind front (t ++ [c]) =
      outsideBehind front t ++ if c = '"' ∨ InLiteral (front ++ t) then [] else [c] := by
    intro front t
    induction t generalizing front with
    | nil => simp [outsideBehind]
    | cons d t ih =>
      rw [List.cons_append, outsideBehind, outsideBehind, ih, List.append_assoc, List.append_assoc,
        List.singleton_append]
  exact behind [] t

/-! ### Parentheses -/

/-- How many parentheses are open after one more character. One that closes nothing counts
for nothing. -/
def countParenthesis (opened : Nat) (c : Char) : Nat :=
  if c = '(' then opened + 1 else if c = ')' then opened - 1 else opened

/-- How many parentheses are open behind a text. -/
def openBehind (t : Text) : Nat := t.foldl countParenthesis 0

theorem openBehind_concat (t : Text) (c : Char) :
    openBehind (t ++ [c]) = countParenthesis (openBehind t) c := by
  rw [openBehind, List.foldl_append]
  rfl

/-- Every parenthesis that closes has been opened before. -/
def AllOpened (t : Text) : Prop := ∀ front, front <+: t → front.count ')' ≤ front.count '('

/-- Every parenthesis that opens is closed behind. -/
def AllClosed (t : Text) : Prop := ∀ back, back <:+ t → back.count '(' ≤ back.count ')'

/-- The parentheses open and close each other. -/
def Balanced (t : Text) : Prop := AllOpened t ∧ AllClosed t

theorem allOpened_concat {t : Text} {c : Char} : AllOpened (t ++ [c]) ↔
    AllOpened t ∧ (t ++ [c]).count ')' ≤ (t ++ [c]).count '(' := by
  simp only [AllOpened, List.prefix_concat_iff, forall_eq_or_imp, and_comm]

theorem allClosed_cons {t : Text} {c : Char} : AllClosed (c :: t) ↔
    (c :: t).count '(' ≤ (c :: t).count ')' ∧ AllClosed t := by
  simp only [AllClosed, List.suffix_cons_iff, forall_eq_or_imp]

/-- With some parentheses open in front nothing is open behind a text exactly if it closes
them all, and all that it opens. -/
theorem foldl_countParenthesis_eq_zero_iff (n : Nat) (t : Text) :
    t.foldl countParenthesis n = 0 ↔ n + t.count '(' ≤ t.count ')' ∧ AllClosed t := by
  induction t generalizing n with
  | nil => simp [AllClosed]
  | cons c t ih =>
    have whole : AllClosed t → t.count '(' ≤ t.count ')' := fun h => h t (List.suffix_refl t)
    rw [List.foldl_cons, ih, allClosed_cons, countParenthesis]
    by_cases opening : c = '('
    · subst opening
      simp only [if_pos, List.count_cons_self, List.count_cons_of_ne (by decide : '(' ≠ ')')]
      grind
    · by_cases closing : c = ')'
      · subst closing
        simp only [if_neg opening, if_pos, List.count_cons_self,
          List.count_cons_of_ne (by decide : ')' ≠ '(')]
        grind
      · simp only [if_neg opening, if_neg closing, List.count_cons_of_ne opening,
          List.count_cons_of_ne closing]
        grind

theorem openBehind_eq_zero_iff {t : Text} : openBehind t = 0 ↔ AllClosed t := by
  rw [openBehind, foldl_countParenthesis_eq_zero_iff, Nat.zero_add]
  exact and_iff_right_of_imp fun h => h t (List.suffix_refl t)

/-! ### What a scan knows of a place -/

/-- What is open behind a text, by its quotes and its parentheses outside string literals. -/
theorem run_start_eq (t : Text) :
    start.run t = ⟨decide (InLiteral t), openBehind (outside t)⟩ := by
  induction t using List.reverseRecOn with
  | nil => rfl
  | append_singleton t c ih =>
    rw [run_append, ih, run_cons, run_nil]
    by_cases quote : c = '"'
    · simp [Nesting.next, quote, outside_concat, inLiteral_concat]
    · have still : InLiteral (t ++ [c]) ↔ InLiteral t := by simp [inLiteral_concat, quote]
      by_cases literal : InLiteral t
      · simp [Nesting.next, quote, literal, outside_concat, still]
      · have longer : outside (t ++ [c]) = outside t ++ [c] := by
          simp [outside_concat, quote, literal]
        simp only [Nesting.next, quote, literal, still, longer, openBehind_concat, countParenthesis,
          decide_false, if_false, Bool.false_eq_true]
        split
        · rfl
        · split <;> rfl

theorem quoted_run_start_iff {t : Text} : (start.run t).quoted = true ↔ InLiteral t := by
  rw [run_start_eq, decide_eq_true_eq]

theorem depth_run_start_eq_zero_iff {t : Text} :
    (start.run t).depth = 0 ↔ AllClosed (outside t) := by
  rw [run_start_eq, openBehind_eq_zero_iff]

/-- No place of a text is of a kind that is told by what stands in front of it and by the
character there. -/
def Lacks (place : Text → Char → Prop) (t : Text) : Prop :=
  ∀ front c back, t = front ++ c :: back → ¬place front c

theorem avoids_iff {stop : Nesting → Char → Bool} {s : Nesting} {t : Text} :
    Avoids stop s t ↔
      ∀ front c back, t = front ++ c :: back → stop (s.run front) c = false := by
  induction t generalizing s with
  | nil => simp [Avoids]
  | cons d t ih =>
    rw [Avoids, ih]
    constructor
    · rintro ⟨here, later⟩ front c back whole
      cases front with
      | nil =>
        cases whole
        exact here
      | cons e front =>
        obtain ⟨rfl, rest⟩ := List.cons.inj whole
        exact later front c back rest
    · intro all
      exact ⟨all [] d t rfl, fun front c back whole => all (d :: front) c back (by simp [whole])⟩

/-- A scan finds nothing exactly if the text has no place of the kind that it stops at. -/
theorem avoids_start_iff {stop : Nesting → Char → Bool} {place : Text → Char → Prop}
    (kind : ∀ front c, stop (start.run front) c = true ↔ place front c) {t : Text} :
    Avoids stop start t ↔ Lacks place t := by
  simp only [avoids_iff, Lacks, ← kind, Bool.not_eq_true]

end CheatCode.Source

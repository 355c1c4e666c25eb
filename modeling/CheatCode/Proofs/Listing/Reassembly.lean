import CheatCode.Proofs.Listing.Columns
import CheatCode.Proofs.Source.Naming

/-!
# Assembly of a listing as source

The assembly of a listing is sanitized line by line when it is taken as source again.
Its labels are names that need no cleaning. Its instructions keep their mnemonics, and
their operands too unless these are symbols. As symbols, labels and distances ahead stay
as they are, but a distance back loses its sign: a minus sign is no part of a symbol.
-/

namespace CheatCode.Listing

open Source Source.Nesting Source.Statement

/-- A token of operands stays when it is cleaned: it has a register in it, or it has no
minus sign, no gap, and no parenthesis that closes nothing. -/
def Survives (token : Text) : Prop :=
  hasRegister token = true ∨
    '-' ∉ token ∧ ',' ∉ token ∧ ' ' ∉ token ∧
      ∀ front back, token = front ++ ')' :: back → 0 < (start.run front).depth

/-- Characters of written operands. -/
def isListedChar (c : Char) : Bool := isOperandChar c || c = ' ' || c = '.'

theorem isSymbolChar_of_isAlphanum {c : Char} (h : c.isAlphanum = true) :
    isSymbolChar c = true := by
  simp [isSymbolChar, Text.isAlphanumeric, toNat_lt_of_isAlphanum h, h]

/-- The characters of written operands that stay where no string literal is open. -/
theorem cleanChar_eq_self_iff {s : Nesting} {c : Char} (outside : s.quoted = false)
    (h : isListedChar c = true) :
    cleanChar s c = c ↔ c ≠ '-' ∧ c ≠ ',' ∧ c ≠ ' ' ∧ (c = ')' → 0 < s.depth) := by
  have marked : ∀ d ∈ ['-', ',', ' ', ')'], isSymbolChar d = false ∧ d.isAlphanum = false :=
    List.all_iff_forall_prop.mp (by decide)
  have symbols : isSymbolChar '_' = true ∧ isSymbolChar '.' = true := by decide
  simp only [isListedChar, isOperandChar, Bool.or_eq_true, decide_eq_true_eq] at h
  obtain ((((((letter | rfl) | rfl) | rfl) | rfl) | rfl) | rfl) | rfl := h
  · have plain : c ∉ ['-', ',', ' ', ')'] := by
      intro mark
      rw [(marked c mark).2] at letter
      cases letter
    simp only [List.mem_cons, List.not_mem_nil, or_false, not_or] at plain
    simp [cleanChar, isSymbolChar_of_isAlphanum letter, plain]
  all_goals simp [cleanChar, outside, marked, symbols, Nat.pos_iff_ne_zero]

/-- What is written in operands is neither a string literal nor an operator. -/
theorem mark_notMem_of_isListedChar {t : Text} (h : ∀ c ∈ t, isListedChar c = true) :
    ∀ mark ∈ ['"', '#', ';', ':', '=', '|', '&'], mark ∉ t :=
  Text.notMem_of_class (by decide) h

theorem cleanToken_eq_self_iff {token : Text} (h : ∀ c ∈ token, isListedChar c = true) :
    cleanToken token = token ↔ Survives token := by
  have marks := mark_notMem_of_isListedChar h
  have operator : token ∉ operators := by
    intro member
    simp only [operators, List.mem_cons, List.not_mem_nil, or_false] at member
    obtain rfl | rfl | rfl := member
    · exact marks '=' (by decide) (by decide)
    · exact marks '|' (by decide) (by decide)
    · exact marks '&' (by decide) (by decide)
  have outside : ∀ front back c, token = front ++ c :: back → (start.run front).quoted = false := by
    rintro front back c rfl
    refine quoted_run (fun quote => marks '"' (by decide) ?_) start
    exact List.mem_append_left _ quote
  rw [cleanToken, Survives]
  by_cases register : hasRegister token = true
  · simp [register]
  · have cleaned : ¬(operators.contains token || hasRegister token) = true := by
      simp [operator, register]
    rw [if_neg cleaned, or_iff_right register, clean, cleanFrom_eq_self_iff]
    constructor
    · intro stays
      have kept : ∀ c ∈ token, c ≠ '-' ∧ c ≠ ',' ∧ c ≠ ' ' := by
        intro c hc
        obtain ⟨front, back, whole⟩ := List.append_of_mem hc
        have here := (cleanChar_eq_self_iff (outside front back c whole) (h c hc)).mp
          (stays front c back whole)
        exact ⟨here.1, here.2.1, here.2.2.1⟩
      refine ⟨fun hc => (kept _ hc).1 rfl, fun hc => (kept _ hc).2.1 rfl,
        fun hc => (kept _ hc).2.2 rfl, ?_⟩
      intro front back whole
      have here := (cleanChar_eq_self_iff (outside front back _ whole) (by decide)).mp
        (stays front _ back whole)
      exact here.2.2.2 rfl
    · rintro ⟨minus, comma, space, closes⟩ front c back whole
      have hc : c ∈ token := whole ▸ by simp
      rw [cleanChar_eq_self_iff (outside front back c whole) (h c hc)]
      refine ⟨ne_of_mem_of_not_mem hc minus, ne_of_mem_of_not_mem hc comma,
        ne_of_mem_of_not_mem hc space, ?_⟩
      rintro rfl
      exact closes front back whole

/-! ### Characters of written instructions -/

theorem isListedChar_of_isOperandChar {c : Char} (h : isOperandChar c = true) :
    isListedChar c = true := by
  simp [isListedChar, h]

theorem isListedChar_of_isDigit {c : Char} (h : Hex.isDigit c = true) : isListedChar c = true :=
  isListedChar_of_isOperandChar
    (isOperandChar_of_isNumeralChar (by simp [isNumeralChar, h]))

theorem isListedChar_of_isWrittenChar {c : Char} (h : isWrittenChar c = true) :
    isListedChar c = true := by
  simp only [isWrittenChar, Bool.or_eq_true, decide_eq_true_eq] at h
  obtain ((((digit | rfl) | rfl) | rfl) | rfl) | rfl := h
  · exact isListedChar_of_isDigit digit
  all_goals decide

theorem isListedChar_of_mem_label {target : Nat} {c : Char} (h : c ∈ label target) :
    isListedChar c = true := by
  obtain letter | rfl | rfl := plain_of_mem_label h
  · simp [isListedChar, isOperandChar, letter]
  all_goals decide

theorem Branch.isListedChar_of_mem_operand {branch : Branch} {c : Char} (h : c ∈ branch.operand) :
    isListedChar c = true := by
  rw [operand] at h
  split at h
  · exact isListedChar_of_mem_label h
  · exact isListedChar_of_isWrittenChar (isWrittenChar_of_mem_signedNumeral h)

theorem Line.isListedChar_written {t : Text} {line : Line} (h : Line.parse? t = some line)
    (count : Nat) : ∀ c ∈ (line.written count).operands, isListedChar c = true := by
  obtain ⟨-, -, operands⟩ := Line.of_parse? h
  have read : ∀ c ∈ line.operands, isListedChar c = true :=
    fun c hc => isListedChar_of_isOperandChar (operands c hc)
  have converted : ∀ {o : Text}, o ⊆ line.operands →
      ∀ c ∈ writeOperands line.traits o, isListedChar c = true := by
    intro o kept c hc
    obtain hc | hc := mem_writeOperands hc
    · exact read c (kept hc)
    · exact isListedChar_of_isWrittenChar hc
  simp only [written]
  split
  · obtain ⟨front, whole, kept⟩ :=
      exists_append_replaceLast line.operands (Branch.inBlock line count).operand
    rw [whole]
    refine List.forall_mem_append.mpr ⟨?_, fun _ => Branch.isListedChar_of_mem_operand⟩
    intro c hc
    obtain hread | rfl := kept c hc
    · exact read c hread
    · decide
  · split
    · intro c hc
      simp only [List.mem_cons] at hc
      obtain rfl | rfl | digit := hc
      · decide
      · decide
      · rw [Word.digits_eq_encode] at digit
        exact isListedChar_of_isDigit (Hex.isDigit_of_mem_encode digit)
    · next repaired hrepair =>
      rw [repaired_of_repair? hrepair]
      exact converted (Rule.dropLastNumber_subset line.operands)
    · exact converted (List.Subset.refl _)

/-! ### Lines of the assembly -/

/-- An instruction as it is written: behind the indent stands its mnemonic, and the rest
are characters that start neither a label nor a comment. -/
structure IsWritten (s mnemonic rest : Text) : Prop where
  /-- These are all characters of the line. -/
  text : s = [' ', ' '] ++ (mnemonic ++ rest)
  /-- There is a mnemonic. -/
  nonempty : mnemonic ≠ []
  /-- These are the characters of the mnemonic. -/
  mnemonic : ∀ c ∈ mnemonic, isMnemonicChar c = true
  /-- These are the characters of the gap and the operands. -/
  rest : ∀ c ∈ rest, isListedChar c = true
  /-- Nothing is left to trim. -/
  closed : Text.Closed s

theorem Line.isWritten_text {t : Text} {line : Line} (h : Line.parse? t = some line)
    (width count : Nat) :
    IsWritten ((line.written count).text width) (line.written count).mnemonic
      ((line.written count).gap width ++ Text.trimEnd (line.written count).operands) := by
  obtain ⟨nonempty, characters⟩ := Line.isMnemonicChar_written h count
  have ink := Line.isBlank_of_mem_mnemonic_written h count
  have listed := Line.isListedChar_written h count
  have tidy := Line.tidy_written h count
  generalize line.written count = w at *
  have text := w.text_eq width ink nonempty tidy
  rw [List.append_assoc] at text
  refine ⟨text, nonempty, characters, ?_, Text.closed_trimEnd _⟩
  intro c hc
  obtain gap | operand := List.mem_append.mp hc
  · rw [Written.eq_of_mem_gap gap]
    decide
  · exact listed c (Text.trimEnd_subset w.operands operand)

theorem exists_isWritten {config : Config} {t s : Text} (h : s ∈ instructionTexts config t) :
    ∃ mnemonic rest, IsWritten s mnemonic rest := by
  obtain ⟨w, hw, rfl⟩ := List.mem_map.mp h
  obtain ⟨line, hline, rfl⟩ := List.mem_map.mp hw
  obtain ⟨read, -, hparse⟩ := List.mem_filterMap.mp hline
  exact ⟨_, _, Line.isWritten_text hparse _ _⟩

/-- What stands behind a blank stands behind a word that has none. -/
theorem subset_of_append_eq {word rest front behind : Text} {c : Char}
    (ink : ∀ c ∈ word, Text.isBlank c = false) (blank : Text.isBlank c = true)
    (h : word ++ rest = front ++ c :: behind) : behind ⊆ rest := by
  obtain ⟨x, -, hx⟩ | ⟨x, hword, hx⟩ := List.append_eq_append_iff.mp h
  · rw [hx]
    simp
  · cases x with
    | nil =>
      rw [← List.nil_append rest, ← hx]
      simp
    | cons d x =>
      obtain ⟨rfl, -⟩ := List.cons.inj hx
      rw [ink c (by simp [hword])] at blank
      cases blank

namespace IsWritten

variable {s mnemonic rest : Text}

theorem mark_notMem (h : IsWritten s mnemonic rest) : ∀ mark ∈ ['"', '#', ';', ':'], mark ∉ s := by
  intro mark hmark
  have spaces : ∀ mark ∈ ['"', '#', ';', ':'], mark ∉ [' ', ' '] :=
    List.all_iff_forall_prop.mp (by decide)
  rw [h.text, List.mem_append, List.mem_append, not_or, not_or]
  exact ⟨spaces mark hmark, Text.notMem_of_class (by decide) h.mnemonic mark hmark,
    Text.notMem_of_class (by decide) h.rest mark hmark⟩

theorem layout (h : IsWritten s mnemonic rest) :
    Statement.Layout s [' ', ' '] (mnemonic ++ rest) [] none := by
  obtain ⟨first, more, hfirst⟩ := List.exists_cons_of_ne_nil h.nonempty
  have nonempty : mnemonic ++ rest ≠ [] := by simp [h.nonempty]
  have marks := h.mark_notMem
  have indent : Text.Blank [' ', ' '] := List.all_iff_forall_prop.mp (by decide)
  refine ⟨by simp [h.text], indent, Text.Blank.nil, ⟨?_, ?_⟩, ?_, by simp⟩
  · intro c hc
    rw [hfirst] at hc
    cases hc
    exact isBlank_of_isMnemonicChar (h.mnemonic first (by simp [hfirst]))
  · exact (Text.closed_append nonempty).mp (h.text ▸ h.closed)
  · apply avoids_of_forall
    intro nesting c hc
    have member : c ∈ s := h.text ▸ List.mem_append_right _ hc
    simp [startsComment, ne_of_mem_of_not_mem member (marks '#' (by decide)),
      ne_of_mem_of_not_mem member (marks ';' (by decide))]

/-- A written instruction has no label and no comment. -/
theorem ofLine_eq (h : IsWritten s mnemonic rest) :
    ofLine s = ⟨none, (splitInstruction (mnemonic ++ rest)).1,
      (splitInstruction (mnemonic ++ rest)).2, none⟩ := by
  rw [h.layout.ofLine_eq, ofHead_of_avoids]
  apply avoids_of_forall
  intro nesting c hc
  have member : c ∈ s := h.text ▸ List.mem_append_right _ hc
  simp [endsLabel, ne_of_mem_of_not_mem member (h.mark_notMem ':' (by decide))]

/-- The operands of a written instruction are read behind its mnemonic. -/
theorem isListedChar_of_mem_operands (h : IsWritten s mnemonic rest) :
    ∀ c ∈ (ofLine s).operands.getD [], isListedChar c = true := by
  rw [h.ofLine_eq]
  obtain empty | word | ⟨word, blank, behind, whole, isWord, hblank, -⟩ :=
    instruction_cases h.layout.trimmed
  · rw [empty]
    simp [splitInstruction, Text.breakBlank?]
  · rw [word.splitInstruction_eq]
    simp
  · have ink : ∀ c ∈ mnemonic, Text.isBlank c = false :=
      fun c hc => isBlank_of_isMnemonicChar (h.mnemonic c hc)
    obtain ⟨after, -, trimmed⟩ := Text.exists_append_trim behind
    rw [whole, isWord.splitInstruction_append hblank, getD_nonempty?]
    intro c hc
    apply h.rest c
    apply subset_of_append_eq ink hblank whole
    rw [← trimmed]
    simp [hc]

end IsWritten

/-! ### Labels and distances -/

/-- The characters of mnemonics end no name. -/
theorem isName_of_isMnemonicChar {t : Text} (nonempty : t ≠ [])
    (h : ∀ c ∈ t, isMnemonicChar c = true) : IsName t := by
  have marks : ∀ mark ∈ [',', '(', ')', '"', ':', '#', ';'], mark ∉ t :=
    Text.notMem_of_class (by decide) h
  exact ⟨nonempty, fun c hc => ⟨isBlank_of_isMnemonicChar (h c hc), fun mark => marks c mark hc⟩⟩

theorem isName_label (target : Nat) : IsName (label target) := by
  apply isName_of_isMnemonicChar (List.append_ne_nil_of_left_ne_nil (by decide) _)
  intro c hc
  obtain letter | rfl | rfl := plain_of_mem_label hc
  · simp [isMnemonicChar, letter]
  all_goals decide

theorem isName_signedNumeral (value : Int) : IsName (signedNumeral value) := by
  apply isName_of_isMnemonicChar (by simp [signedNumeral])
  intro c hc
  simp only [signedNumeral, List.mem_append, List.mem_cons] at hc
  obtain sign | rfl | rfl | digit := hc
  · split at sign
    · rw [List.mem_singleton.mp sign]
      decide
    · cases sign
  · decide
  · decide
  · simp [isMnemonicChar, isAlphanum_of_isDigit (Hex.isDigit_of_mem_numeral digit)]

theorem Branch.isName_operand (branch : Branch) : IsName branch.operand := by
  rw [operand]
  split
  · exact isName_label _
  · exact isName_signedNumeral _

theorem symbolOf_label (target : Nat) : symbolOf (label target) = label target := by
  rw [symbolOf_eq_self_iff]
  intro c hc
  obtain letter | rfl | rfl := plain_of_mem_label hc
  · exact isSymbolChar_of_isAlphanum letter
  all_goals decide

/-- The line of a label is a definition whose name needs no cleaning. -/
theorem sanitizeLine_labelLine (target : Nat) :
    sanitizeLine (labelLine target) = labelLine target := by
  have defined := (isName_label target).sanitizeLine_definition
  rwa [symbolOf_label] at defined

/-- A token of plain characters stays. -/
theorem survives_of_isSymbolChar {token : Text} (h : ∀ c ∈ token, isSymbolChar c = true) :
    Survives token := by
  have none : ∀ mark ∈ ['-', ',', ' ', ')'], mark ∉ token :=
    Text.notMem_of_class (by decide) h
  refine Or.inr ⟨none _ (by decide), none _ (by decide), none _ (by decide), ?_⟩
  rintro front back rfl
  exact absurd (by simp) (none ')' (by decide))

theorem survives_label (target : Nat) : Survives (label target) :=
  survives_of_isSymbolChar (symbolOf_eq_self_iff.mp (symbolOf_label target))

/-- The letters in a numeral are capitals, so none of them is the letter of a register. -/
theorem notMem_of_mem_numeral {n : Nat} {c : Char} (h : c ∈ Hex.numeral n) :
    c ∉ ['c', 'r', 'f'] := by
  have digits : ∀ d < 16, Hex.digit d ∉ ['c', 'r', 'f'] := by decide
  induction n using Hex.numeral.induct with
  | case1 n small =>
    rw [Hex.numeral, if_pos small, List.mem_singleton] at h
    exact h ▸ digits n small
  | case2 n large ih =>
    rw [Hex.numeral, if_neg large, List.mem_append, List.mem_singleton] at h
    obtain h | rfl := h
    · exact ih h
    · exact digits _ (Nat.mod_lt n (by decide))

/-- A distance is a symbol unless it leads back. -/
theorem survives_signedNumeral_iff (value : Int) : Survives (signedNumeral value) ↔ 0 ≤ value := by
  have digit : ∀ c ∈ Hex.numeral value.natAbs, c.isAlphanum = true ∧ c ∉ ['c', 'r', 'f'] :=
    fun c hc => ⟨isAlphanum_of_isDigit (Hex.isDigit_of_mem_numeral hc), notMem_of_mem_numeral hc⟩
  by_cases back : value < 0
  · have written : signedNumeral value = '-' :: '0' :: 'x' :: Hex.numeral value.natAbs := by
      rw [signedNumeral, if_pos back]
      rfl
    have register : ¬hasRegister (signedNumeral value) = true := by
      intro found
      have letter : ∀ c ∈ signedNumeral value, c ∉ ['c', 'r', 'f'] := by
        have front : ∀ c ∈ ['-', '0', 'x'], c ∉ ['c', 'r', 'f'] :=
          List.all_iff_forall_prop.mp (by decide)
        rw [written]
        exact List.forall_mem_append.mpr ⟨front, fun c hc => (digit c hc).2⟩
      obtain h | h | h := mem_of_hasRegister found
      all_goals exact letter _ h (by decide)
    have sign : '-' ∈ signedNumeral value := by simp [written]
    refine iff_of_false (fun survives => ?_) (by omega)
    exact (survives.resolve_left register).1 sign
  · have written : signedNumeral value = '0' :: 'x' :: Hex.numeral value.natAbs := by
      rw [signedNumeral, if_neg back]
      rfl
    refine iff_of_true (survives_of_isSymbolChar ?_) (by omega)
    rw [written]
    refine List.forall_mem_cons.mpr ⟨by decide, List.forall_mem_cons.mpr ⟨by decide, ?_⟩⟩
    exact fun c hc => isSymbolChar_of_isAlphanum (digit c hc).1

/-- What is written for the target of a branch stays unless it is a distance back. -/
theorem Branch.survives_operand_iff (branch : Branch) :
    Survives branch.operand ↔
      branch.inRange = true ∨ branch.target = 0 ∨ 0 ≤ branch.displacement := by
  rw [operand]
  split
  · next labelled =>
    rw [Bool.or_eq_true, decide_eq_true_eq] at labelled
    exact iff_of_true (survives_label _) (labelled.imp_right Or.inl)
  · next outside =>
    rw [Bool.or_eq_true, decide_eq_true_eq, not_or] at outside
    rw [survives_signedNumeral_iff]
    simp [outside]

/-- The operands in front of the last one. -/
def Line.leading (line : Line) : Text :=
  ((Text.cutLast? ',' line.operands).map Prod.fst).getD []

/-- The operands of a branch are those in front of the last one, and what is written for
the target. -/
theorem Line.tokens_replaceLast {line : Line} (h : ∀ c ∈ line.operands, isOperandChar c = true)
    (plain : '(' ∉ line.operands) (branch : Branch) :
    tokens (replaceLast line.operands branch.operand) =
      tokens line.leading ++ [branch.operand] := by
  have name := branch.isName_operand
  rw [replaceLast, leading]
  cases hcut : Text.cutLast? ',' line.operands with
  | none => simpa [tokens, piecesFrom] using name.tokens_eq
  | some sides =>
    obtain ⟨whole, -⟩ := Text.cutLast?_eq_some.mp hcut
    have quote : '"' ∉ line.operands := fun hc => absurd (h _ hc) (by decide)
    have closed : start.run sides.1 = start := by
      refine run_start_of_plain ⟨fun hc => quote ?_, fun hc => plain ?_⟩
      all_goals
        rw [whole]
        exact List.mem_append_left _ hc
    have space : tokens (' ' :: branch.operand) = [branch.operand] := by
      have apart : tokens ([] ++ ' ' :: branch.operand) = tokens [] ++ tokens branch.operand :=
        tokens_append_of_closed rfl (by decide)
      rwa [name.tokens_eq] at apart
    rw [Option.map_some, Option.getD_some, ← space]
    exact tokens_append_of_closed closed (by decide)

/-- A branch whose mnemonic leaves room in its column is read back with its operands. -/
theorem Line.operands_of_branch {t : Text} {line : Line} (h : Line.parse? t = some line)
    (branch : line.traits.branch = true) {width : Nat} (room : line.mnemonic.length < width)
    (count : Nat) :
    (ofLine ((line.written count).text width)).operands =
      some (replaceLast line.operands (Branch.inBlock line count).operand) := by
  obtain ⟨nonempty, characters, -⟩ := Line.of_parse? h
  have word : IsMnemonic line.mnemonic :=
    ⟨nonempty, fun c hc => isBlank_of_isMnemonicChar (characters c hc)⟩
  have written := Line.isWritten_text h width count
  have starts := (Line.tidy_written h count).starts
  obtain ⟨mnemonic, operands⟩ := Line.written_of_branch branch count
  obtain ⟨filled, closed⟩ := (Branch.inBlock line count).closed_replaceLast line.operands
  have gap := (line.written count).gap_ne_nil_or_iff width
  rw [operands, or_iff_left filled, or_iff_left filled, mnemonic] at gap
  obtain ⟨c, rest, hgap⟩ := List.exists_cons_of_ne_nil (gap.mpr room)
  have blank := (line.written count).blank_gap width
  rw [hgap] at blank
  rw [mnemonic, operands, Text.trimEnd_eq_self closed, hgap] at written
  rw [operands] at starts
  have found := word.splitInstruction_append (blank c (by simp))
    (rest ++ replaceLast line.operands (Branch.inBlock line count).operand)
  have trimmed := Text.trim_append blank.of_cons ⟨starts, closed⟩ Text.Blank.nil
  rw [List.append_nil] at trimmed
  rw [written.ofLine_eq, List.cons_append, found, trimmed, nonempty?_of_ne_nil filled]

theorem tokens_sanitized_eq_iff {st : Statement}
    (h : ∀ c ∈ st.operands.getD [], isListedChar c = true) :
    tokens (st.sanitized.operands.getD []) = tokens (st.operands.getD []) ↔
      (st.symbolic = true → ∀ token ∈ tokens (st.operands.getD []), Survives token) := by
  rw [sanitized]
  split
  · next symbols =>
    have listed : ∀ token ∈ tokens (st.operands.getD []), ∀ c ∈ token, isListedChar c = true :=
      fun token htoken c hc => h c (mem_of_mem_tokens htoken hc)
    rw [getD_nonempty?, tokens_cleanOperands, map_eq_self_iff,
      forall₂_congr fun token htoken => cleanToken_eq_self_iff (listed token htoken)]
    exact ⟨fun all _ => all, fun all => all symbols⟩
  · next plain => exact iff_of_true rfl fun symbols => absurd symbols plain

/-- Labels and empty lines of an assembled listing stay as they are. Instructions keep
their mnemonics. They keep their operands as well exactly if these are no symbols or if
each of them survives. In a branch with room in its column the last operand is what is
written for the target, and that survives unless it is a distance back. -/
theorem sanitizeLine_of_mem_assembly (config : Config) {t s : Text}
    (h : s ∈ Text.lines (assembly config t)) :
    let st := ofLine s
    let st' := ofLine (sanitizeLine s)
    (isInstruction s = false → sanitizeLine s = s) ∧
      (isInstruction s = true →
        st'.mnemonic = st.mnemonic ∧
          (tokens (st'.operands.getD []) = tokens (st.operands.getD []) ↔
            (st.symbolic = true → ∀ token ∈ tokens (st.operands.getD []), Survives token))) ∧
      ∀ line ∈ instructions t,
        s = (line.written (instructions t).length).text config.mnemonicWidth →
        line.traits.branch = true → '(' ∉ line.operands →
        line.mnemonic.length < config.mnemonicWidth →
          let branch := Branch.inBlock line (instructions t).length
          tokens (st.operands.getD []) = tokens line.leading ++ [branch.operand] ∧
            (Survives branch.operand ↔
              branch.inRange = true ∨ branch.target = 0 ∨ 0 ≤ branch.displacement) := by
  intro st st'
  refine ⟨?_, ?_, ?_⟩
  · intro other
    rw [lines_assembly] at h
    obtain rfl | h := List.mem_cons.mp h
    · exact sanitizeLine_labelLine 0
    · obtain text | rfl | ⟨k, -, -, -, rfl⟩ := mem_mergeLines h
      · rw [isInstruction_of_mem_instructionTexts text] at other
        cases other
      · rfl
      · exact sanitizeLine_labelLine (4 * k)
  · intro instruction
    have text : s ∈ instructionTexts config t := by
      rw [← filter_lines_assembly]
      exact List.mem_filter.mpr ⟨h, instruction⟩
    obtain ⟨mnemonic, rest, written⟩ := exists_isWritten text
    have parts : st' = st.sanitized := by
      have found := ofLine_sanitizeLine_eq s
      rwa [Text.trimEnd_eq_self written.closed] at found
    rw [parts]
    exact ⟨rfl, tokens_sanitized_eq_iff written.isListedChar_of_mem_operands⟩
  · rintro line hline rfl isBranch plain room branch
    obtain ⟨read, -, hparse⟩ := List.mem_filterMap.mp hline
    change tokens ((ofLine _).operands.getD []) = _ ∧ _
    rw [Line.operands_of_branch hparse isBranch room, Option.getD_some]
    exact ⟨Line.tokens_replaceLast (Line.of_parse? hparse).2.2 plain _,
      Branch.survives_operand_iff _⟩

/-- A branch that is alone in its block and leads out of it. -/
theorem mem_lines_of_alone (config : Config) {t : Text} {line : Line}
    (alone : instructions t = [line]) (branch : line.traits.branch = true)
    (outside : ¬((Branch.inBlock line 1).inRange || (Branch.inBlock line 1).target = 0) = true) :
    ' ' :: ' ' :: fill config.mnemonicWidth line.mnemonic ++
        replaceLast line.operands (signedNumeral line.displacement) ∈
      Text.lines (assembly config t) := by
  have text := line.text_written branch config.mnemonicWidth 1
  rw [Branch.operand, Int.natCast_one, if_neg outside] at text
  have member : (line.written 1).text config.mnemonicWidth ∈ instructionTexts config t := by
    simp [instructionTexts, writtenLines, alone]
  rw [text, ← filter_lines_assembly] at member
  exact (List.mem_filter.mp member).1

/-- A branch that leads back, in front of the block. -/
theorem tokens_sanitizeLine_ne :
    let t := "0: 4BFFFFFC b -0x4\n".toList
    let s := "  b         -0x4".toList
    s ∈ Text.lines (assembly Config.default t) ∧
      tokens ((ofLine s).operands.getD []) = ["-0x4".toList] ∧
      tokens ((ofLine (sanitizeLine s)).operands.getD []) = ["_0x4".toList] := by
  intro t s
  let line : Line := ⟨0, 0x4BFFFFFC, "b".toList, "-0x4".toList⟩
  have alone : instructions t = [line] := by decide
  have written := mem_lines_of_alone Config.default alone (by decide) (by decide)
  have distance : line.displacement = -4 := by decide
  rw [distance, signedNumeral, Hex.numeral] at written
  exact ⟨written, by decide, by decide⟩

/-- A branch that leads on, behind the end of the block. -/
theorem tokens_sanitizeLine_ahead :
    let t := "0: 48000008 b 0x8\n".toList
    let s := "  b         0x8".toList
    s ∈ Text.lines (assembly Config.default t) ∧ isInstruction s = true ∧
      (ofLine (sanitizeLine s)).mnemonic = some "b".toList ∧
      tokens ((ofLine (sanitizeLine s)).operands.getD []) = ["0x8".toList] := by
  intro t s
  let line : Line := ⟨0, 0x48000008, "b".toList, "0x8".toList⟩
  have alone : instructions t = [line] := by decide
  have written := mem_lines_of_alone Config.default alone (by decide) (by decide)
  have distance : line.displacement = 8 := by decide
  rw [distance, signedNumeral, Hex.numeral] at written
  have member : s ∈ Text.lines (assembly Config.default t) := written
  obtain ⟨-, instruction, -⟩ := sanitizeLine_of_mem_assembly Config.default member
  obtain ⟨mnemonic, same⟩ := instruction (by decide)
  have read : tokens ((ofLine s).operands.getD []) = ["0x8".toList] := by decide
  refine ⟨member, by decide, mnemonic.trans (by decide), (same.mpr ?_).trans read⟩
  rw [read]
  intro _ token htoken
  rw [List.mem_singleton.mp htoken]
  exact survives_of_isSymbolChar (List.all_iff_forall_prop.mp (by decide))

end CheatCode.Listing

import CheatCode.Proofs.Listing.BranchTargets

/-!
# Mnemonics and operands in their columns

An instruction is written as two blanks, its mnemonic filled up to a width, and its
operands. Nothing but the filling keeps the two apart. A mnemonic that leaves room in
its column is read back with its operands, and one that fills the column runs into
them, unless there are none.
-/

namespace CheatCode

namespace Text

/-- A text reads as its first word and as what stands behind the blanks after it. -/
def ReadsAs (t word rest : Text) : Prop :=
  t.takeWhile (fun c => !isBlank c) = word ∧ trimStart (t.dropWhile fun c => !isBlank c) = rest

section

variable {word gap rest : Text} (ink : ∀ c ∈ word, isBlank c = false)
  (starts : ∀ c ∈ rest.head?, isBlank c = false)

include ink starts

/-- A word is read up to the gap behind it. -/
theorem readsAs_append (blank : Blank gap) (apart : gap ≠ [] ∨ rest = []) :
    ReadsAs (word ++ gap ++ rest) word rest := by
  have pass : ∀ c ∈ word, (!isBlank c) = true := fun c hc => by simp [ink c hc]
  have stop : (gap ++ rest).takeWhile (fun c => !isBlank c) = [] ∧
      (gap ++ rest).dropWhile (fun c => !isBlank c) = gap ++ rest := by
    cases gap with
    | nil =>
      rw [apart.resolve_left (by simp)]
      exact ⟨rfl, rfl⟩
    | cons c gap => simp [blank c (by simp)]
  rw [ReadsAs, List.append_assoc, List.takeWhile_append_of_pos pass,
    List.dropWhile_append_of_pos pass, stop.1, stop.2, List.append_nil,
    trimStart_append_of_blank blank, trimStart_eq_self starts]
  exact ⟨rfl, rfl⟩

/-- A word is not read when something other than a blank stands right behind it. -/
theorem not_readsAs_append (nonempty : rest ≠ []) (rest' : Text) :
    ¬ReadsAs (word ++ rest) word rest' := by
  have pass : ∀ c ∈ word, (!isBlank c) = true := fun c hc => by simp [ink c hc]
  obtain ⟨c, rest, rfl⟩ := List.exists_cons_of_ne_nil nonempty
  rintro ⟨longer, -⟩
  rw [List.takeWhile_append_of_pos pass, List.takeWhile_cons_of_pos (by simp [starts c rfl])]
    at longer
  simp at longer

end

/-- Closed texts that are put together end in a separator, or the whole is closed. -/
theorem join_ends (separator : Text) {ts : List Text} (h : ∀ t ∈ ts, Closed t) :
    Closed (join separator ts) ∨ ∃ before, join separator ts = before ++ separator := by
  induction ts with
  | nil => exact Or.inl closed_nil
  | cons t ts ih =>
    obtain ⟨ht, hts⟩ := List.forall_mem_cons.mp h
    cases ts with
    | nil => exact Or.inl ht
    | cons u ts =>
      rw [join_cons_cons]
      obtain closed | ⟨before, hbefore⟩ := ih hts
      · by_cases empty : join separator (u :: ts) = []
        · exact Or.inr ⟨t, by simp [empty]⟩
        · exact Or.inl ((closed_append empty).mpr closed)
      · exact Or.inr ⟨t ++ separator ++ before, by simp [hbefore]⟩

/-- What is put together starts as its first text does, or as a separator does. -/
theorem head?_join {separator t : Text} {ts : List Text} {c : Char} (nonempty : separator ≠ [])
    (h : c ∈ (join separator (t :: ts)).head?) : c ∈ t.head? ∨ c ∈ separator.head? := by
  cases ts with
  | nil => exact Or.inl h
  | cons u ts =>
    obtain ⟨d, separator, rfl⟩ := List.exists_cons_of_ne_nil nonempty
    cases t with
    | nil => exact Or.inr h
    | cons e t => exact Or.inl h

end Text

namespace Listing

/-- Operands start with no blank, and they end in none but that of a last comma. -/
structure Tidy (operands : Text) : Prop where
  /-- The first character is no blank. -/
  starts : ∀ c ∈ operands.head?, Text.isBlank c = false
  /-- A blank at the end stands behind a comma. -/
  ends : Text.Closed operands ∨ ∃ before, operands = before ++ [',', ' ']

theorem tidy_of_isBlank {operands : Text} (h : ∀ c ∈ operands, Text.isBlank c = false) :
    Tidy operands where
  starts := fun c hc => h c (List.mem_of_head? hc)
  ends := Or.inl (Text.Closed.of_isBlank h)

/-- Trimming takes the blank of a last comma and nothing else. -/
theorem Tidy.trimEnd_cases {operands : Text} (h : Tidy operands) :
    Text.trimEnd operands = operands ∨
      operands = Text.trimEnd operands ++ [' '] ∧ (Text.trimEnd operands).getLast? = some ',' := by
  obtain closed | ⟨before, rfl⟩ := h.ends
  · exact Or.inl (Text.trimEnd_eq_self closed)
  · right
    have blank : Text.Blank [' '] := by
      intro c hc
      rw [List.mem_singleton.mp hc]
      decide
    have comma : Text.Closed (before ++ [',']) := Text.closed_concat.mpr (by decide)
    have trimmed : Text.trimEnd (before ++ [',', ' ']) = before ++ [','] := by
      rw [List.append_cons, Text.trimEnd_append_of_blank blank, Text.trimEnd_eq_self comma]
    rw [trimmed]
    simp

theorem Tidy.trimEnd_eq_nil {operands : Text} (h : Tidy operands) :
    Text.trimEnd operands = [] ↔ operands = [] := by
  constructor
  · intro empty
    obtain same | ⟨-, comma⟩ := h.trimEnd_cases
    · exact same.symm.trans empty
    · rw [empty] at comma
      cases comma
  · rintro rfl
    rfl

theorem Tidy.starts_trimEnd {operands : Text} (h : Tidy operands) :
    ∀ c ∈ (Text.trimEnd operands).head?, Text.isBlank c = false := by
  intro c hc
  obtain same | ⟨longer, -⟩ := h.trimEnd_cases
  · exact h.starts c (same ▸ hc)
  · apply h.starts c
    rw [longer, List.head?_append, Option.mem_def.mp hc]
    rfl

/-! ### Operands as they are written -/

theorem isOperandChar_of_isNumeralChar {c : Char} (h : isNumeralChar c = true) :
    isOperandChar c = true := by
  simp only [isNumeralChar, Bool.or_eq_true, decide_eq_true_eq] at h
  obtain ((h | rfl) | rfl) | rfl := h
  · simp [isOperandChar, isAlphanum_of_isDigit h]
  all_goals decide

theorem isOperandChar_of_mem_convertOperand {traits : Traits} {operand : Text}
    (h : ∀ c ∈ operand, isOperandChar c = true) :
    ∀ c ∈ convertOperand traits operand, isOperandChar c = true := by
  intro c hc
  obtain read | written := mem_convertOperand hc
  · exact h c read
  · exact isOperandChar_of_isNumeralChar written

theorem tidy_writeOperands (traits : Traits) {operands : Text}
    (h : ∀ c ∈ operands, isOperandChar c = true) : Tidy (writeOperands traits operands) := by
  have ink : ∀ {t : Text}, (∀ c ∈ t, isOperandChar c = true) → ∀ c ∈ t, Text.isBlank c = false :=
    fun ht c hc => isBlank_of_isOperandChar (ht c hc)
  rw [writeOperands]
  split
  · exact tidy_of_isBlank (ink h)
  · split
    · exact tidy_of_isBlank (by simp)
    · next first rest hpieces =>
      have read : ∀ piece ∈ first :: rest, ∀ c ∈ piece, isOperandChar c = true :=
        fun piece hpiece c hc => h c (Text.mem_of_mem_pieces (hpieces ▸ hpiece) hc)
      obtain ⟨hfirst, hrest⟩ := List.forall_mem_cons.mp read
      have closed : ∀ t ∈ first :: rest.map (convertOperand traits), Text.Closed t := by
        refine List.forall_mem_cons.mpr ⟨Text.Closed.of_isBlank (ink hfirst), ?_⟩
        intro t ht
        obtain ⟨piece, hpiece, rfl⟩ := List.mem_map.mp ht
        exact Text.Closed.of_isBlank
          (ink (isOperandChar_of_mem_convertOperand (hrest piece hpiece)))
      constructor
      · intro c hc
        obtain here | separator := Text.head?_join (by split <;> simp) hc
        · exact ink hfirst c (List.mem_of_head? here)
        · have comma : c = ',' := by
            split at separator <;> exact (Option.some.inj separator).symm
          rw [comma]
          decide
      · split
        · obtain closed | ⟨before, hbefore⟩ := Text.join_ends [','] closed
          · exact Or.inl closed
          · rw [hbefore]
            exact Or.inl (Text.closed_concat.mpr (by decide))
        · exact Text.join_ends [',', ' '] closed

theorem Branch.isBlank_of_mem_operand {branch : Branch} {c : Char} (h : c ∈ branch.operand) :
    Text.isBlank c = false := by
  rw [operand] at h
  split at h
  · obtain letter | rfl | rfl := plain_of_mem_label h
    · exact isBlank_of_isAlphanum letter
    all_goals decide
  · exact isBlank_of_isOperandChar
      (isOperandChar_of_isNumeralChar (isNumeralChar_of_mem_signedNumeral h))

theorem tidy_replaceLast {operands operand : Text} (h : ∀ c ∈ operands, Text.isBlank c = false)
    (ink : ∀ c ∈ operand, Text.isBlank c = false) (nonempty : operand ≠ []) :
    Tidy (replaceLast operands operand) := by
  obtain ⟨-, written⟩ | ⟨before, last, hread, -, written⟩ := replacesLast operands operand
  · rw [written]
    exact tidy_of_isBlank ink
  · have whole : before ++ ',' :: ' ' :: operand = before ++ [',', ' '] ++ operand := by simp
    rw [written]
    constructor
    · intro c hc
      cases before with
      | nil =>
        rw [← Option.some.inj hc]
        decide
      | cons d before => exact h c (hread ▸ List.mem_append_left _ (List.mem_of_head? hc))
    · rw [whole]
      exact Or.inl ((Text.closed_append nonempty).mpr (Text.Closed.of_isBlank ink))

theorem Line.tidy_written {t : Text} {line : Line} (h : Line.parse? t = some line) (count : Nat) :
    Tidy (line.written count).operands := by
  obtain ⟨-, -, operands⟩ := Line.of_parse? h
  simp only [written]
  split
  · exact tidy_replaceLast (fun c hc => isBlank_of_isOperandChar (operands c hc))
      (fun _ => Branch.isBlank_of_mem_operand) (Branch.operand_plain _).1
  · split
    · next raw _ =>
      apply tidy_of_isBlank
      intro c hc
      simp only [List.mem_cons] at hc
      obtain rfl | rfl | digit := hc
      · decide
      · decide
      · exact Word.isBlank_of_mem_digits digit
    · next repaired hrepair =>
      rw [repaired_of_repair? hrepair]
      exact tidy_writeOperands _ fun c hc => operands c (Rule.dropLastNumber_subset _ hc)
    · exact tidy_writeOperands _ operands

theorem Rule.mnemonic_of_updateOfFirstRegister {line : Line}
    (h : updateOfFirstRegister.applies line = true) :
    line.mnemonic.head? = some 's' ∨ line.mnemonic.head? = some 'l' := by
  change ((decide _ || decide _) && _ && _) = true at h
  rw [Bool.and_eq_true, Bool.and_eq_true, Bool.or_eq_true, decide_eq_true_eq,
    decide_eq_true_eq] at h
  exact h.1.1

theorem Rule.mnemonic_of_conditionBit {line : Line} (h : conditionBit.applies line = true) :
    line.mnemonic = "crclr".toList ∨ line.mnemonic = "crse".toList := by
  change (decide _ || decide _) = true at h
  rwa [Bool.or_eq_true, decide_eq_true_eq, decide_eq_true_eq] at h

/-- No rule is about branches. -/
theorem Line.repair?_of_branch {line : Line} (branch : line.traits.branch = true) :
    line.repair? = none := by
  have first : line.mnemonic.head? = some 'b' := by
    have isBranch : Traits.isBranch line.mnemonic = true := branch
    rw [Traits.isBranch, Bool.and_eq_true] at isBranch
    exact of_decide_eq_true isBranch.1
  rw [repair?, Option.map_eq_none_iff, List.find?_eq_none]
  intro rule hrule applies
  simp only [Rule.all, List.mem_cons, List.not_mem_nil, or_false] at hrule
  obtain rfl | rfl := hrule
  · obtain other | other := Rule.mnemonic_of_updateOfFirstRegister applies
    all_goals
      rw [first] at other
      cases other
  · obtain other | other := Rule.mnemonic_of_conditionBit applies
    all_goals
      rw [other] at first
      cases first

/-- A line that is written as a word is written as its own. -/
theorem Line.word_of_repair? {line : Line} {raw : Word} (h : line.repair? = some (.word raw)) :
    raw = line.raw := by
  obtain ⟨rule, hfind, hrepair⟩ := Option.map_eq_some_iff.mp h
  have hrule := List.mem_of_find?_eq_some hfind
  simp only [Rule.all, List.mem_cons, List.not_mem_nil, or_false] at hrule
  obtain rfl | rfl := hrule
  · cases hrepair
    rfl
  · cases hrepair

/-- Data and words that are kept are written as data, and every other mnemonic stays. -/
theorem Line.mnemonic_written (line : Line) (count : Nat) :
    (line.written count).mnemonic =
      if line.mnemonic = ".word".toList ∨ line.repair? = some (.word line.raw) then ".long".toList
      else line.mnemonic := by
  have data : line.repair? ≠ some (.word line.raw) → dataMnemonic line.mnemonic =
      if line.mnemonic = ".word".toList ∨ line.repair? = some (.word line.raw) then ".long".toList
      else line.mnemonic := by
    intro other
    simp only [dataMnemonic, other, or_false]
  simp only [written]
  split
  · next branch =>
    apply data
    rw [Line.repair?_of_branch branch]
    rintro ⟨⟩
  · split
    · next raw hrepair =>
      rw [hrepair, Line.word_of_repair? hrepair, if_pos (Or.inr rfl)]
    · next operands hrepair =>
      apply data
      rw [hrepair]
      rintro ⟨⟩
    · next hrepair =>
      apply data
      rw [hrepair]
      rintro ⟨⟩

theorem Line.isMnemonicChar_written {t : Text} {line : Line} (h : Line.parse? t = some line)
    (count : Nat) : (line.written count).mnemonic ≠ [] ∧
      ∀ c ∈ (line.written count).mnemonic, isMnemonicChar c = true := by
  obtain ⟨nonempty, mnemonic, -⟩ := Line.of_parse? h
  rw [Line.mnemonic_written]
  split
  · exact ⟨by decide, List.all_iff_forall_prop.mp (by decide)⟩
  · exact ⟨nonempty, mnemonic⟩

theorem Line.isBlank_of_mem_mnemonic_written {t : Text} {line : Line}
    (h : Line.parse? t = some line) (count : Nat) :
    ∀ c ∈ (line.written count).mnemonic, Text.isBlank c = false :=
  fun c hc => isBlank_of_isMnemonicChar ((Line.isMnemonicChar_written h count).2 c hc)

/-! ### The columns -/

namespace Written

/-- The blanks between the mnemonic and the operands. -/
def gap (width : Nat) (w : Written) : Text :=
  if w.operands = [] then [] else List.replicate (width - w.mnemonic.length) ' '

theorem eq_of_mem_gap {width : Nat} {w : Written} {c : Char} (h : c ∈ w.gap width) : c = ' ' := by
  rw [gap] at h
  split at h
  · cases h
  · exact List.eq_of_mem_replicate h

theorem blank_gap (width : Nat) (w : Written) : Text.Blank (w.gap width) := by
  intro c hc
  rw [eq_of_mem_gap hc]
  decide

theorem gap_ne_nil_or_iff (width : Nat) (w : Written) :
    w.gap width ≠ [] ∨ w.operands = [] ↔ w.mnemonic.length < width ∨ w.operands = [] := by
  by_cases none : w.operands = []
  · simp [none]
  · have room : width - w.mnemonic.length = 0 ↔ ¬w.mnemonic.length < width := by omega
    simp [gap, none, room]

/-- The text of an instruction, with what is trimmed off it taken off its operands. -/
theorem text_eq {w : Written} (width : Nat) (ink : ∀ c ∈ w.mnemonic, Text.isBlank c = false)
    (nonempty : w.mnemonic ≠ []) (tidy : Tidy w.operands) :
    w.text width =
      ' ' :: ' ' :: (w.mnemonic ++ w.gap width ++ Text.trimEnd w.operands) := by
  rw [text, gap, fill]
  by_cases none : w.operands = []
  · have blank : Text.Blank (List.replicate (width - w.mnemonic.length) ' ') := by
      intro c hc
      rw [List.eq_of_mem_replicate hc]
      decide
    have closed : Text.Closed ([' ', ' '] ++ w.mnemonic) :=
      (Text.closed_append nonempty).mpr (Text.Closed.of_isBlank ink)
    have trimmed := (Text.trimEnd_append_of_blank blank _).trans (Text.trimEnd_eq_self closed)
    simpa [none] using trimmed
  · have left := mt tidy.trimEnd_eq_nil.mp none
    have trimmed := Text.trimEnd_append left
      (' ' :: ' ' :: (w.mnemonic ++ List.replicate (width - w.mnemonic.length) ' '))
    simpa [none] using trimmed

end Written

/-- An instruction is written behind two blanks, and it reads as its mnemonic and its
operands exactly if the mnemonic leaves room in its column or there are no operands.
Otherwise the two run together. The mnemonic is that of the line, but data and words
that are kept are written as data. Of the operands nothing is lost but a blank behind
a last comma. -/
theorem text_readsAs_iff (config : Config) (count : Nat) {t : Text} {line : Line}
    (h : Line.parse? t = some line) :
    let w := line.written count
    let operands := Text.trimEnd w.operands
    w.mnemonic = (if line.mnemonic = ".word".toList ∨ line.repair? = some (.word line.raw) then
      ".long".toList else line.mnemonic) ∧
    (operands = w.operands ∨ w.operands = operands ++ [' '] ∧ operands.getLast? = some ',') ∧
    ∃ body, w.text config.mnemonicWidth = ' ' :: ' ' :: body ∧
      (Text.ReadsAs body w.mnemonic operands ↔
        w.mnemonic.length < config.mnemonicWidth ∨ operands = []) ∧
      (¬Text.ReadsAs body w.mnemonic operands → body = w.mnemonic ++ operands) := by
  intro w operands
  have tidy : Tidy w.operands := Line.tidy_written h count
  have nonempty := (Line.isMnemonicChar_written h count).1
  have ink := Line.isBlank_of_mem_mnemonic_written h count
  have apart := w.gap_ne_nil_or_iff config.mnemonicWidth
  rw [← tidy.trimEnd_eq_nil] at apart
  have reads : w.gap config.mnemonicWidth ≠ [] ∨ operands = [] →
      Text.ReadsAs (w.mnemonic ++ w.gap config.mnemonicWidth ++ operands) w.mnemonic operands :=
    Text.readsAs_append ink tidy.starts_trimEnd (w.blank_gap _)
  have together : ¬(w.gap config.mnemonicWidth ≠ [] ∨ operands = []) →
      w.mnemonic ++ w.gap config.mnemonicWidth ++ operands = w.mnemonic ++ operands := by
    intro no
    rw [not_or, not_not] at no
    rw [no.1, List.append_nil]
  refine ⟨Line.mnemonic_written line count, tidy.trimEnd_cases, _,
    w.text_eq config.mnemonicWidth ink nonempty tidy, ⟨?_, fun room => reads (apart.mpr room)⟩, ?_⟩
  · intro read
    by_contra room
    have no := mt apart.mp room
    rw [together no] at read
    exact Text.not_readsAs_append ink tidy.starts_trimEnd (not_or.mp no).2 _ read
  · intro unread
    exact together (mt reads unread)

/-- A mnemonic of ten characters in a column of ten. -/
theorem text_not_readsAs :
    let line : Line := ⟨0, 0x10221C20, "ps_merge00".toList, "f1,f2,f3".toList⟩
    let w := line.written 1
    Line.parse? "0: 10221C20 ps_merge00 f1,f2,f3".toList = some line ∧
      w.text Config.default.mnemonicWidth = "  ps_merge00f1, f2, f3".toList ∧
      ¬Text.ReadsAs "ps_merge00f1, f2, f3".toList w.mnemonic w.operands := by
  refine ⟨by decide, by decide, ?_⟩
  rintro ⟨word, -⟩
  exact absurd word (by decide)

/-- A mnemonic of nine characters in a column of ten. -/
theorem text_readsAs_room :
    let line : Line := ⟨0, 0x10221C20, "ps_madds0".toList, "f1,f2,f3".toList⟩
    Line.parse? "0: 10221C20 ps_madds0 f1,f2,f3".toList = some line ∧
      ∃ body, (line.written 1).text Config.default.mnemonicWidth = ' ' :: ' ' :: body ∧
        Text.ReadsAs body "ps_madds0".toList "f1, f2, f3".toList := by
  intro line
  have parsed : Line.parse? "0: 10221C20 ps_madds0 f1,f2,f3".toList = some line := by decide
  obtain ⟨-, -, body, text, reads, -⟩ := text_readsAs_iff Config.default 1 parsed
  exact ⟨parsed, body, text, reads.mpr (Or.inl (by decide))⟩

end Listing

end CheatCode

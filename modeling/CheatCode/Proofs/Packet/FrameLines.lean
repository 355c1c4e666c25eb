import CheatCode.Proofs.Packet.Contents
import CheatCode.Proofs.Text.Numeral
import CheatCode.Text.Lines

/-!
# The lines of a frame

A frame is whole lines of two groups, whatever the length of its payload. What a loader
relies on to find the next code is in the header: a code of instructions says how many
lines follow, and they hold the words of the payload and what closes them; a run of bytes
says how many bytes follow, and they are filled with zeros to whole lines. Single writes
have a line for every word and need no count.
-/

namespace CheatCode

/-- A line of two groups. -/
structure Row where
  /-- The group in front. -/
  first : Text
  /-- The group after it. -/
  second : Text

namespace Row

/-- The text of a line. -/
def text (row : Row) : Text := row.first ++ ' ' :: row.second

/-- The groups of a line. -/
def groups (row : Row) : List Text := [row.first, row.second]

/-- Groups divided into lines. -/
def ofGroups : List Text → List Row
  | a :: b :: rest => ⟨a, b⟩ :: ofGroups rest
  | _ => []

@[simp] theorem ofGroups_cons_cons (a b : Text) (rest : List Text) :
    ofGroups (a :: b :: rest) = ⟨a, b⟩ :: ofGroups rest := rfl

@[simp] theorem length_ofGroups (groups : List Text) :
    (ofGroups groups).length = groups.length / 2 := by
  induction groups using List.twoStepInduction with
  | nil => rfl
  | singleton => simp [ofGroups]
  | cons_cons a b rest ih =>
    simp only [ofGroups_cons_cons, List.length_cons, ih]
    omega

/-- Nothing is lost where the groups come in pairs. -/
theorem flatMap_groups_ofGroups {groups : List Text} (even : groups.length % 2 = 0) :
    (ofGroups groups).flatMap Row.groups = groups := by
  induction groups using List.twoStepInduction with
  | nil => rfl
  | singleton => simp at even
  | cons_cons a b rest ih =>
    have hrest := ih (by simp only [List.length_cons] at even; omega)
    rw [ofGroups_cons_cons, List.flatMap_cons, hrest]
    rfl

theorem mem_ofGroups {groups : List Text} {row : Row} (h : row ∈ ofGroups groups) :
    row.first ∈ groups ∧ row.second ∈ groups := by
  induction groups using List.twoStepInduction with
  | nil => cases h
  | singleton => cases h
  | cons_cons a b rest ih =>
    rw [ofGroups_cons_cons, List.mem_cons] at h
    obtain rfl | h := h
    · simp
    · simp [ih h]

/-- The layout of pairs of groups is their lines. -/
theorem layout_eq_unlines {groups : List Text} (even : groups.length % 2 = 0) :
    RawHex.layout groups = Text.unlines ((ofGroups groups).map text) := by
  induction groups using List.twoStepInduction with
  | nil => rfl
  | singleton => simp at even
  | cons_cons a b rest ih =>
    have hrest := ih (by simp only [List.length_cons] at even; omega)
    match rest with
    | [] => rfl
    | [_] => simp at even
    | c :: d :: rest =>
      rw [RawHex.layout.eq_4 a b _ (by simp), hrest]
      simp [Text.unlines, text]

end Row

theorem Hex.encode_replicate_zero (n : Nat) :
    Hex.encode (List.replicate n 0) = List.replicate (2 * n) '0' := by
  induction n with
  | zero => rfl
  | succ n ih =>
    rw [List.replicate_succ, Hex.encode_cons, ih]
    rfl

namespace Footer

/-- What a footer may add to a body. -/
def closings (footer : Footer) : List (List Word) := [[footer.pad], [footer.first, footer.second]]

theorem exists_close_eq (footer : Footer) (body : List Word) :
    ∃ closing ∈ footer.closings, footer.close body = body ++ closing := by
  rw [close]
  split
  · exact ⟨_, by simp [closings], rfl⟩
  · exact ⟨_, by simp [closings], rfl⟩

/-- A closed body is whole lines. -/
theorem length_close_even (footer : Footer) (body : List Word) :
    (footer.close body).length % 2 = 0 := by
  obtain even | odd := Nat.mod_two_eq_zero_or_one body.length
  · rw [close_of_even even]
    simp [even]
  · rw [close_of_odd odd, List.length_append, List.length_singleton]
    omega

end Footer

namespace Word

theorem length_packPairs (bytes : List UInt8) :
    (packPairs bytes).length = 2 * ((bytes.length + 7) / 8) := by
  have length := length_pack bytes
  rw [packPairs]
  split
  · rw [List.length_append, List.length_singleton]
    omega
  · omega

end Word

namespace Packet

variable {p : Packet} {layout : Layout} {bytes : List UInt8} {words : List Word}

/-- A group of eight upper-case digits. -/
structure IsGroup (t : Text) : Prop where
  /-- The group has eight characters. -/
  length : t.length = 8
  /-- They are digits in upper case. -/
  digits : ∀ c ∈ t, c ∈ "0123456789ABCDEF".toList

/-- The digits of the second group of a header that count lines. -/
def countDigits (type : CodeType) (second : Text) : Text :=
  if type = .insertXor then second.drop 6 else second

/-- What may follow the words of the payload in a body of instructions. -/
def closings : CodeType → List (List Text)
  | .execute => [["4E800020".toList], ["4E800020".toList, "00000000".toList]]
  | _ => [["00000000".toList], ["60000000".toList, "00000000".toList]]

/-- The lines of a frame of `p`. -/
structure HasRows (p : Packet) (rows : List Row) : Prop where
  /-- Every line has two groups of eight digits. -/
  groups : ∀ row ∈ rows, IsGroup row.first ∧ IsGroup row.second
  /-- Instructions follow a header that counts their lines: the words of the payload and
  what closes them. -/
  instructions : p.codeType ∈ .execute :: CodeType.insertions →
    ∃ header body, rows = header :: body ∧
      Text.readDigits? 16 (Text.limit 32) (countDigits p.codeType header.second) =
        some body.length ∧
      ∃ closing ∈ closings p.codeType, body.flatMap Row.groups = p.payloadGroups ++ closing
  /-- A run of bytes follows a header that counts the bytes and is filled with zeros. -/
  run : p.codeType = .writeString →
    ∃ header body, rows = header :: body ∧
      Text.readDigits? 16 (Text.limit 32) header.second = some (p.payloadDigits.length / 2) ∧
      body.length = (p.payloadDigits.length / 2 + 7) / 8 ∧
      ∃ zeros, (body.flatMap Row.groups).flatten = p.payloadDigits ++ List.replicate zeros '0'
  /-- Single writes have a line for every word of the payload. -/
  writes : p.codeType = .write32 →
    rows.map Row.second = p.payloadGroups ∧ rows.length = (p.payloadDigits.length / 2 + 3) / 4

theorem isGroup_digits (w : Word) : IsGroup w.digits where
  length := Word.length_digits w
  digits := by
    have upper : ∀ n, n < 16 → Hex.digit n ∈ "0123456789ABCDEF".toList := by decide
    have fixed : ∀ width n, ∀ c ∈ Hex.fixed width n, c ∈ "0123456789ABCDEF".toList := by
      intro width
      induction width with
      | zero => simp
      | succ width ih =>
        intro n c hc
        rw [Hex.fixed_succ, List.mem_append, List.mem_singleton] at hc
        obtain hc | rfl := hc
        · exact ih _ c hc
        · exact upper _ (Nat.mod_lt n (by decide))
    exact fixed 8 w.toNat

/-- The number of digits of the payload is twice that of its bytes. -/
theorem length_payloadDigits (digits : Hex.encode bytes = p.payloadDigits) :
    p.payloadDigits.length / 2 = bytes.length := by
  rw [← digits, Hex.length_encode]
  omega

/-- A count that fits into a word is read from its digits. -/
theorem readDigits?_word {n : Nat} (h : n < 2 ^ 32) :
    Text.readDigits? 16 (Text.limit 32) (Word.digits (BitVec.ofNat 32 n)) = some n := by
  have low : n % 16 ^ 8 = n := Nat.mod_eq_of_lt h
  rw [Word.digits, BitVec.toNat_ofNat, Nat.mod_eq_of_lt h,
    Text.readDigits?_fixed (by decide) (by rwa [low]), low]

/-- The number in the last two digits of the header of a guarded code. -/
theorem readDigits?_guardWord (checksum : BitVec 8) (xor : BitVec 16) {lines : Nat}
    (h : lines ≤ 0xFF) :
    Text.readDigits? 16 (Text.limit 32) ((guardWord checksum xor lines).digits.drop 6) =
      some lines := by
  have low : (guardWord checksum xor lines).toNat % 16 ^ 2 = lines := by
    rw [toNat_guardWord checksum xor h]
    omega
  have small : lines < Text.limit 32 := Nat.lt_of_le_of_lt h (by decide)
  rw [Word.digits, Hex.drop_fixed 6 2, Text.readDigits?_fixed (by decide) (by rwa [low]), low]

/-- The header of instructions counts the lines of what they are closed to. -/
theorem exists_of_instructions (hl : p.codeType.layout? = some layout)
    (instructions : p.codeType ∈ .execute :: CodeType.insertions)
    (short : bytes.length < 2 ^ 32) (h : p.frameWords layout bytes = .ok words) :
    ∃ (first second : Word) (footer : Footer),
      words = first :: second :: footer.close (Word.pack bytes) ∧
      footer.closings.map (·.map Word.digits) = closings p.codeType ∧
      Text.readDigits? 16 (Text.limit 32) (countDigits p.codeType second.digits) =
        some ((footer.close (Word.pack bytes)).length / 2) := by
  have counted : ∀ footer : Footer, Text.readDigits? 16 (Text.limit 32)
      (Word.digits (BitVec.ofNat 32 ((footer.close (Word.pack bytes)).length / 2))) =
        some ((footer.close (Word.pack bytes)).length / 2) := by
    intro footer
    exact readDigits?_word (length_close_lt short)
  cases type : p.codeType with
  | raw | write32 | writeString => simp [type, CodeType.insertions] at instructions
  | execute =>
    rw [type] at hl
    cases hl
    cases h
    exact ⟨_, _, .ofSubroutine, rfl, by decide, counted _⟩
  | insert | insertLink =>
    rw [type] at hl
    cases hl
    obtain ⟨a, -, hw⟩ := bind_eq_ok h
    cases hw
    exact ⟨_, _, .ofInsertion, rfl, by decide, counted _⟩
  | insertXor =>
    rw [type] at hl
    cases hl
    obtain ⟨a, -, hw⟩ := bind_eq_ok h
    obtain ⟨second, hg, hw⟩ := bind_eq_ok hw
    obtain ⟨c, x, hc, hx, few, rfl⟩ := guard_eq_ok hg
    cases hw
    exact ⟨_, _, .ofInsertion, rfl, by decide, readDigits?_guardWord _ _ few⟩

/-- Single writes are pairs of an address and a word of the payload. -/
theorem ofGroups_writeWords (layout : Layout) (a : Address) (words : List Word) :
    (writeWords layout a words).length % 2 = 0 ∧
      (Row.ofGroups ((writeWords layout a words).map Word.digits)).map Row.second =
        words.map Word.digits := by
  induction words generalizing a with
  | nil => exact ⟨rfl, rfl⟩
  | cons w words ih =>
    obtain ⟨even, hrows⟩ := ih (a.advance 4)
    refine ⟨?_, ?_⟩
    · simp only [writeWords, List.length_cons]
      omega
    · simp [writeWords, hrows]

/-- The words of a frame make whole lines. -/
theorem length_frameWords_even (hl : p.codeType.layout? = some layout)
    (short : bytes.length < 2 ^ 32) (h : p.frameWords layout bytes = .ok words) :
    words.length % 2 = 0 := by
  cases type : p.codeType with
  | raw => simp [type, CodeType.layout?] at hl
  | write32 =>
    rw [type] at hl
    cases hl
    obtain ⟨a, -, hw⟩ := bind_eq_ok h
    cases hw
    exact (ofGroups_writeWords _ a _).1
  | writeString =>
    rw [type] at hl
    cases hl
    obtain ⟨a, -, hw⟩ := bind_eq_ok h
    cases hw
    simp only [List.length_cons, Word.length_packPairs]
    omega
  | execute | insert | insertLink | insertXor =>
    obtain ⟨first, second, footer, rfl, -⟩ :=
      exists_of_instructions hl (by simp [type, CodeType.insertions]) short h
    have := footer.length_close_even (Word.pack bytes)
    simp only [List.length_cons]
    omega

section

variable (hl : p.codeType.layout? = some layout) (short : bytes.length < 2 ^ 32)
  (digits : Hex.encode bytes = p.payloadDigits) (h : p.frameWords layout bytes = .ok words)
include hl digits h

theorem rows_of_writes (writes : p.codeType = .write32) :
    let rows := Row.ofGroups (words.map Word.digits)
    rows.map Row.second = p.payloadGroups ∧
      rows.length = (p.payloadDigits.length / 2 + 3) / 4 := by
  intro rows
  have hrows : rows.map Row.second = p.payloadGroups := by
    rw [writes] at hl
    cases hl
    obtain ⟨a, -, hw⟩ := bind_eq_ok h
    cases hw
    rw [payloadGroups_eq digits]
    exact (ofGroups_writeWords _ a _).2
  refine ⟨hrows, ?_⟩
  rw [← List.length_map Row.second, hrows, payloadGroups_eq digits, List.length_map,
    Word.length_pack, length_payloadDigits digits]

include short

theorem rows_of_instructions (instructions : p.codeType ∈ .execute :: CodeType.insertions) :
    ∃ header body, Row.ofGroups (words.map Word.digits) = header :: body ∧
      Text.readDigits? 16 (Text.limit 32) (countDigits p.codeType header.second) =
        some body.length ∧
      ∃ closing ∈ closings p.codeType, body.flatMap Row.groups = p.payloadGroups ++ closing := by
  obtain ⟨first, second, footer, rfl, hclosings, hcount⟩ :=
    exists_of_instructions hl instructions short h
  obtain ⟨closing, mem, hclose⟩ := footer.exists_close_eq (Word.pack bytes)
  have even := footer.length_close_even (Word.pack bytes)
  refine ⟨_, _, rfl, ?_, closing.map Word.digits, ?_, ?_⟩
  · rw [hcount, Row.length_ofGroups, List.length_map]
  · rw [← hclosings]
    exact List.mem_map_of_mem mem
  · rw [Row.flatMap_groups_ofGroups (by rwa [List.length_map]), hclose, List.map_append,
      payloadGroups_eq digits]

theorem rows_of_run (run : p.codeType = .writeString) :
    ∃ header body, Row.ofGroups (words.map Word.digits) = header :: body ∧
      Text.readDigits? 16 (Text.limit 32) header.second = some (p.payloadDigits.length / 2) ∧
      body.length = (p.payloadDigits.length / 2 + 7) / 8 ∧
      ∃ zeros, (body.flatMap Row.groups).flatten =
        p.payloadDigits ++ List.replicate zeros '0' := by
  have length := length_payloadDigits digits
  have pairs := Word.length_packPairs bytes
  obtain ⟨zeros, hzeros⟩ := Word.exists_unpack_packPairs bytes
  rw [run] at hl
  cases hl
  obtain ⟨a, -, hw⟩ := bind_eq_ok h
  cases hw
  refine ⟨_, _, rfl, ?_, ?_, 2 * zeros, ?_⟩
  · rw [length]
    exact readDigits?_word short
  · rw [Row.length_ofGroups, List.length_map, pairs, length]
    omega
  · rw [Row.flatMap_groups_ofGroups (by rw [List.length_map]; omega), Word.flatten_map_digits,
      hzeros, Hex.encode_append, Hex.encode_replicate_zero, digits]

end

/-- A frame is lines of two groups, and the header of the first one tells how many there
are. -/
theorem frame_hasRows {framed : Text} (framable : p.Framable) (h : p.frame = .ok framed) :
    ∃ rows : List Row, framed = Text.unlines (rows.map Row.text) ∧ p.HasRows rows := by
  obtain ⟨layout, bytes, words, hl, -, nonempty, short, digits, hwords, rfl⟩ :=
    framable.exists_words h
  have even := length_frameWords_even hl short hwords
  refine ⟨Row.ofGroups (words.map Word.digits), Row.layout_eq_unlines (by rwa [List.length_map]),
    ?_, rows_of_instructions hl short digits hwords, rows_of_run hl short digits hwords,
    rows_of_writes hl digits hwords⟩
  intro row hrow
  obtain ⟨hfirst, hsecond⟩ := Row.mem_ofGroups hrow
  obtain ⟨v, -, hv⟩ := List.mem_map.mp hfirst
  obtain ⟨w, -, hw⟩ := List.mem_map.mp hsecond
  rw [← hv, ← hw]
  exact ⟨isGroup_digits v, isGroup_digits w⟩

/-- A guarded insertion counts two lines in its last digits. -/
theorem frame_hasRows_guarded :
    let p : Packet := ⟨"4e800020 38600001 6000".toList, .insertXor,
      some ⟨.pointer, true, 0x1234⟩, some 0xABCD, some 0x7F⟩
    let framed := "F5001234 7FABCD02\n4E800020 38600001\n60000000 00000000".toList
    p.Framable ∧ p.frame = .ok framed ∧
      ∃ rows : List Row, framed = Text.unlines (rows.map Row.text) ∧ p.HasRows rows := by
  intro p framed
  have framable : p.Framable := ⟨by decide, by decide +kernel, by decide +kernel⟩
  have h : p.frame = .ok framed := by decide +kernel
  exact ⟨framable, h, frame_hasRows framable h⟩

end Packet

end CheatCode

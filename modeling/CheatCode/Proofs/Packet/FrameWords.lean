import CheatCode.Packet.Unframe
import CheatCode.Proofs.Word.Digits

/-!
# Frames as words

Every group of a frame is the digits of a word, so a frame is known by its words and
the text adds nothing but its layout. Both directions are brought to this form: what
framing writes are the digits of `frameWords`, and what unframing reads from the
layout of words are those words.

The first word of a frame tells the type of code and the address again, and what a
footer appends to a body can be taken off, except where a body that was completed by
a zero already ended like a closing line.
-/

namespace CheatCode

namespace Footer

variable {footer : Footer} {body : List Word}

theorem close_of_odd {body : List Word} (h : body.length % 2 = 1) (footer : Footer) :
    footer.close body = body ++ [footer.pad] :=
  if_pos h

theorem close_of_even {body : List Word} (h : body.length % 2 = 0) (footer : Footer) :
    footer.close body = (body ++ [footer.first]) ++ [footer.second] := by
  rw [close, if_neg (by omega), List.append_assoc]
  rfl

theorem endsFull_append_pair (front : List Word) (a b : Word) :
    footer.endsFull (front ++ [a, b]) = true ↔ a = footer.first ∧ b = footer.second := by
  rw [endsFull, List.isSuffixOf_iff_suffix]
  constructor
  · rintro ⟨before, h⟩
    obtain ⟨-, h⟩ := List.append_inj' h rfl
    cases h
    exact ⟨rfl, rfl⟩
  · rintro ⟨rfl, rfl⟩
    exact ⟨front, rfl⟩

/-- A closing line that was appended is taken off whole. -/
theorem remove_append_pair {front : List Word} {a b : Word}
    (h : ofSubroutine.endsFull (front ++ [a, b]) = true ∨
      ofInsertion.endsFull (front ++ [a, b]) = true) :
    footer.remove false (front ++ [a, b]) = front := by
  have : front ++ [a, b] = (front ++ [a]) ++ [b] := by simp
  rw [remove, if_pos (by simpa using h), this, List.dropLast_concat, List.dropLast_concat]

/-- Where there is no closing line, a word that completed the body is taken off. -/
theorem remove_append_pad {front : List Word} {a : Word}
    (hs : ¬ ofSubroutine.endsFull (front ++ [a, footer.pad]) = true)
    (hi : ¬ ofInsertion.endsFull (front ++ [a, footer.pad]) = true) :
    footer.remove false (front ++ [a, footer.pad]) = front ++ [a] := by
  have : front ++ [a, footer.pad] = (front ++ [a]) ++ [footer.pad] := by simp
  rw [remove, if_neg (by simp [hs, hi]), this, List.getLast?_concat]
  simp

/-- What closes a subroutine is told from its payload, whatever the payload ends in. -/
theorem remove_close_ofSubroutine (body : List Word) :
    ofSubroutine.remove false (ofSubroutine.close body) = body := by
  by_cases odd : body.length % 2 = 1
  · obtain ⟨front, last, rfl⟩ : ∃ front last, body = front ++ [last] :=
      ⟨_, _, (List.dropLast_concat_getLast (by rintro rfl; simp at odd)).symm⟩
    rw [close, if_pos odd, List.append_assoc, List.singleton_append]
    apply remove_append_pad
    · rw [endsFull_append_pair]
      intro h
      exact absurd h.2 (by decide)
    · rw [endsFull_append_pair]
      intro h
      exact absurd h.2 (by decide)
  · rw [close, if_neg odd]
    exact remove_append_pair (.inl ((endsFull_append_pair body _ _).mpr ⟨rfl, rfl⟩))

/-- The words that open a closing line. -/
def openers : List Word := [ofInsertion.first, ofSubroutine.first]

/-- Whether the zero that completes a body makes a closing line of its last word. -/
def hidesLast (body : List Word) : Bool :=
  body.length % 2 = 1 && body.getLast?.any openers.contains

/-- What closes an insertion takes one word of the payload with it exactly when it was
completed to a closing line. -/
theorem remove_close_ofInsertion (body : List Word) :
    ofInsertion.remove false (ofInsertion.close body) =
      if hidesLast body then body.dropLast else body := by
  by_cases odd : body.length % 2 = 1
  · obtain ⟨front, last, rfl⟩ : ∃ front last, body = front ++ [last] :=
      ⟨_, _, (List.dropLast_concat_getLast (by rintro rfl; simp at odd)).symm⟩
    have hides : hidesLast (front ++ [last]) = openers.contains last := by
      simp only [hidesLast, odd, List.getLast?_concat, Option.any_some, decide_true, Bool.true_and]
    rw [close, if_pos odd, List.append_assoc, List.singleton_append, hides]
    by_cases opens : openers.contains last = true
    · rw [if_pos opens, List.dropLast_concat]
      apply remove_append_pair
      rw [endsFull_append_pair, endsFull_append_pair]
      simp only [openers, List.contains_cons, List.contains_nil, Bool.or_false, Bool.or_eq_true,
        beq_iff_eq] at opens
      exact opens.symm.imp (⟨·, rfl⟩) (⟨·, rfl⟩)
    · rw [if_neg opens]
      simp only [openers, List.contains_cons, List.contains_nil, Bool.or_false, Bool.or_eq_true,
        beq_iff_eq, not_or] at opens
      apply remove_append_pad
      · rw [endsFull_append_pair]
        intro h
        exact opens.2 h.1
      · rw [endsFull_append_pair]
        intro h
        exact opens.1 h.1
  · have : hidesLast body = false := by simp [hidesLast, odd]
    rw [close, if_neg odd, this]
    exact remove_append_pair (.inr ((endsFull_append_pair body _ _).mpr ⟨rfl, rfl⟩))

end Footer

namespace Address

variable (a : Address) (layout : Layout)

theorem toNat_leadWord :
    (a.leadWord layout).toNat = (a.leadByte layout).toNat * 0x1000000 + a.offset.toNat := by
  have hb := (a.leadByte layout).toNat_lt
  have ho := a.offset.isLt
  rw [leadWord, BitVec.toNat_ofNat]
  omega

@[simp] theorem byte_leadWord : (a.leadWord layout).byte 3 = a.leadByte layout := by
  have hb := (a.leadByte layout).toNat_lt
  have ho := a.offset.isLt
  rw [← UInt8.toNat_inj, Word.byte, UInt8.toNat_ofNat', toNat_leadWord,
    Nat.shiftRight_eq_div_pow]
  omega

/-- The first word of a frame holds the whole offset. -/
@[simp] theorem ofWord_leadWord : ofWord a.region a.high (a.leadWord layout) = a := by
  have ho := a.offset.isLt
  have offset : (a.leadWord layout).setWidth 24 = a.offset := by
    apply BitVec.eq_of_toNat_eq
    rw [BitVec.toNat_setWidth, toNat_leadWord]
    omega
  rw [ofWord, offset]

end Address

namespace Lead

/-- A leading byte is read as the type, region and half it was made of: the leading
bytes of two types, regions or halves never coincide. -/
theorem ofByte?_leadByte {type : CodeType} {layout : Layout} (h : type.layout? = some layout)
    (address : type.needsAddress = true) (a : Address) :
    ofByte? (a.leadByte layout) = some ⟨type, layout, some (a.region, a.high)⟩ := by
  change ofByte? (Address.leadByte ⟨a.region, a.high, 0⟩ layout) = _
  generalize a.region = region
  generalize a.high = high
  cases type with
  | raw => cases h
  | execute => cases address
  | write32 | writeString | insert | insertLink | insertXor =>
    cases h
    cases region <;> cases high <;> decide

end Lead

namespace Packet

/-- The words of writes, each at the address after the one before. -/
def writeWords (layout : Layout) (a : Address) : List Word → List Word
  | [] => []
  | w :: rest => a.leadWord layout :: w :: writeWords layout (a.advance 4) rest

/-- The second word of a guarded header. -/
def guardWord (checksum : BitVec 8) (xor : BitVec 16) (lines : Nat) : Word :=
  BitVec.ofNat 32 ((checksum.toNat * 0x10000 + xor.toNat) * 0x100 + lines)

/-- The words of the frame around some bytes. -/
def frameWords (p : Packet) (layout : Layout) (bytes : List UInt8) :
    Except CodeError (List Word) :=
  match layout.header with
  | .perWord => do
    let a ← p.needAddress
    return writeWords layout a (Word.pack bytes)
  | .byteCount => do
    let a ← p.needAddress
    return a.leadWord layout :: BitVec.ofNat 32 bytes.length :: Word.packPairs bytes
  | .subroutine =>
    let body := Footer.ofSubroutine.close (Word.pack bytes)
    .ok (0xC0000000 :: BitVec.ofNat 32 (body.length / 2) :: body)
  | .lineCount => do
    let body := Footer.ofInsertion.close (Word.pack bytes)
    let a ← p.needAddress
    return a.leadWord layout :: BitVec.ofNat 32 (body.length / 2) :: body
  | .checksummed => do
    let body := Footer.ofInsertion.close (Word.pack bytes)
    let a ← p.needAddress
    let _ ← p.guard (body.length / 2)
    return a.leadWord layout ::
      guardWord (p.checksum.getD 0) (p.xor.getD 0) (body.length / 2) :: body

theorem writes_eq_map_digits (layout : Layout) (a : Address) (words : List Word) :
    writes layout a words = (writeWords layout a words).map Word.digits := by
  induction words generalizing a with
  | nil => rfl
  | cons w words ih => rw [writes, writeWords, ih, List.map_cons, List.map_cons]

/-- Every second word of the writes is a word of the payload. -/
theorem alternate_writeWords (layout : Layout) (a : Address) (words : List Word) :
    alternate (writeWords layout a words) = words := by
  induction words generalizing a with
  | nil => rfl
  | cons w words ih => rw [writeWords, alternate, ih]

theorem toNat_guardWord (checksum : BitVec 8) (xor : BitVec 16) {lines : Nat}
    (h : lines ≤ 0xFF) : (guardWord checksum xor lines).toNat =
      (checksum.toNat * 0x10000 + xor.toNat) * 0x100 + lines := by
  have hc := checksum.isLt
  have hx := xor.isLt
  rw [guardWord, BitVec.toNat_ofNat]
  omega

theorem checksum_guardWord (checksum : BitVec 8) (xor : BitVec 16) {lines : Nat}
    (h : lines ≤ 0xFF) : (guardWord checksum xor lines).extractLsb' 24 8 = checksum := by
  have hc := checksum.isLt
  have hx := xor.isLt
  apply BitVec.eq_of_toNat_eq
  rw [BitVec.extractLsb'_toNat, toNat_guardWord checksum xor h, Nat.shiftRight_eq_div_pow]
  omega

theorem xor_guardWord (checksum : BitVec 8) (xor : BitVec 16) {lines : Nat}
    (h : lines ≤ 0xFF) : (guardWord checksum xor lines).extractLsb' 8 16 = xor := by
  have hx := xor.isLt
  apply BitVec.eq_of_toNat_eq
  rw [BitVec.extractLsb'_toNat, toNat_guardWord checksum xor h, Nat.shiftRight_eq_div_pow]
  omega

/-- A guard is written only for both its values and a number of lines of one byte. -/
theorem guard_eq_ok {p : Packet} {lines : Nat} {second : Text} (h : p.guard lines = .ok second) :
    ∃ checksum xor, p.checksum = some checksum ∧ p.xor = some xor ∧ lines ≤ 0xFF ∧
      second = (guardWord checksum xor lines).digits := by
  rw [guard] at h
  split at h
  · cases h
  · next few =>
    split at h
    · cases h
    · cases h
    · next checksum xor hc hx =>
      have hlines : lines ≤ 0xFF := by omega
      have hxor := xor.isLt
      refine ⟨checksum, xor, hc, hx, hlines, ?_⟩
      cases h
      rw [List.append_assoc, Hex.fixed_append 4 2 _ _ (by omega),
        Hex.fixed_append 2 6 _ _ (by omega), Word.digits, toNat_guardWord checksum xor hlines]
      exact congrArg (Hex.fixed 8) (by omega)

theorem length_close_lt {footer : Footer} {bytes : List UInt8} (h : bytes.length < 2 ^ 32) :
    (footer.close (Word.pack bytes)).length / 2 < 2 ^ 32 := by
  have hpack := Word.length_pack bytes
  rw [Footer.close]
  split
  · rw [List.length_append, List.length_singleton]
    omega
  · simp only [List.length_append, List.length_cons, List.length_nil]
    omega

/-- The groups of a frame are the digits of its words. -/
theorem frameGroups_eq (p : Packet) (layout : Layout) {bytes : List UInt8}
    (h : bytes.length < 2 ^ 32) :
    p.frameGroups layout bytes = (p.frameWords layout bytes).map (·.map Word.digits) := by
  rw [frameGroups, frameWords]
  cases layout.header with
  | perWord =>
    cases p.needAddress with
    | error e => rfl
    | ok a => exact congrArg Except.ok (writes_eq_map_digits layout a _)
  | byteCount =>
    cases p.needAddress with
    | error e => rfl
    | ok a => simp [bind, Except.bind, pure, Except.pure, Except.map, Word.padded_eq_digits h]
  | subroutine => simp [Except.map, Word.padded_eq_digits (length_close_lt h)]
  | lineCount =>
    cases p.needAddress with
    | error e => rfl
    | ok a =>
      simp [bind, Except.bind, pure, Except.pure, Except.map,
        Word.padded_eq_digits (length_close_lt h)]
  | checksummed =>
    cases p.needAddress with
    | error e => rfl
    | ok a =>
      cases hg : p.guard ((Footer.ofInsertion.close (Word.pack bytes)).length / 2) with
      | error e => simp [bind, Except.bind, Except.map, hg]
      | ok second =>
        obtain ⟨checksum, xor, hc, hx, -, rfl⟩ := guard_eq_ok hg
        simp [bind, Except.bind, pure, Except.pure, Except.map, hg, hc, hx]

/-- Framing writes the layout of the words of the frame. -/
theorem frame_eq {p : Packet} {layout : Layout} (hl : p.codeType.layout? = some layout)
    {b : UInt8} {bytes : List UInt8} (hb : p.bytes = .ok (b :: bytes))
    (h : (b :: bytes).length < 2 ^ 32) :
    p.frame = (p.frameWords layout (b :: bytes)).map
      fun words => RawHex.layout (words.map Word.digits) := by
  simp only [frame, hl, hb, frameGroups_eq p layout h]
  cases p.frameWords layout (b :: bytes) with
  | error e => rfl
  | ok words => rfl

/-- Unframing reads the words of a layout again. -/
theorem unframe_layout {first : Word} {lead : Lead} (h : Lead.ofByte? (first.byte 3) = some lead)
    (second : Word) (body : List Word) (keepReturn : Bool) :
    unframe (RawHex.layout ((first :: second :: body).map Word.digits)) keepReturn =
      ofWords lead keepReturn first second body := by
  have noBlanks : ∀ g ∈ (first :: second :: body).map Word.digits, ∀ c ∈ g,
      Text.isBlank c = false := by
    intro g hg c hc
    obtain ⟨w, -, rfl⟩ := List.mem_map.mp hg
    exact Word.isBlank_of_mem_digits hc
  have hparse := Hex.parse_of_compact_eq
    ((RawHex.compact_layout noBlanks).trans (Word.flatten_map_digits _))
  simp only [unframe, hparse, Except.toOption, Option.bind_some, Word.whole?_unpack, h]

end Packet

end CheatCode

import CheatCode.Proofs.Packet.RoundTrip

/-!
# What a frame is made of

Except for single writes, which repeat their address on every line, a frame is a header
of two groups in front of a body. The header depends on the parameters of the packet and
on one count, the body on the payload alone. Two packets are therefore framed alike as
soon as they have the parameters of their type in common and their payloads give the
same count and body.
-/

namespace CheatCode

/-- The types whose code is inserted at an address. -/
def CodeType.insertions : List CodeType := [insert, insertLink, insertXor]

/-- Every type but bare instructions has a layout. -/
theorem CodeType.exists_layout {type : CodeType} (framed : type ≠ .raw) :
    ∃ layout, type.layout? = some layout := by
  cases type with
  | raw => exact absurd rfl framed
  | write32 | writeString | execute | insert | insertLink | insertXor => exact ⟨_, rfl⟩

namespace Packet

/-- A packet whose payload can be framed: hexadecimal text of fewer bytes than a word
can count. -/
structure Framable (p : Packet) : Prop where
  /-- There is a frame for the type. -/
  type : p.codeType ≠ .raw
  /-- The payload is the hexadecimal form of at least one byte. -/
  hex : RawHex.isHex (Text.compact p.payload) = true
  /-- The number of bytes fits into a word. -/
  short : (Text.compact p.payload).length < 2 * 2 ^ 32

/-- Two packets that agree in what the header of a frame is made of. -/
structure SameParameters (p q : Packet) : Prop where
  /-- The types are the same. -/
  codeType : p.codeType = q.codeType
  /-- The addresses are the same, unless frames of the type carry none. -/
  address : p.codeType ≠ .execute → p.address = q.address
  /-- The guards are the same, if frames of the type carry one. -/
  guard : p.codeType = .insertXor → p.checksum = q.checksum ∧ p.xor = q.xor

/-- The two groups in front of a body that is counted as `count`. -/
def headerGroups (p : Packet) (layout : Layout) (count : Nat) : Except CodeError (List Text) :=
  match layout.header with
  | .subroutine => .ok [Word.digits 0xC0000000, Hex.padded 8 count]
  | .perWord | .byteCount | .lineCount => do
    let a ← p.needAddress
    return [(a.leadWord layout).digits, Hex.padded 8 count]
  | .checksummed => do
    let a ← p.needAddress
    let second ← p.guard count
    return [(a.leadWord layout).digits, second]

/-- The count in the header of a frame around some bytes, and the words after it. -/
def countedBody (header : Header) (bytes : List UInt8) : Nat × List Word :=
  match header with
  | .perWord => (0, Word.pack bytes)
  | .byteCount => (bytes.length, Word.packPairs bytes)
  | .subroutine =>
    let body := Footer.ofSubroutine.close (Word.pack bytes)
    (body.length / 2, body)
  | .lineCount | .checksummed =>
    let body := Footer.ofInsertion.close (Word.pack bytes)
    (body.length / 2, body)

variable {p q : Packet} {layout : Layout} {bytes : List UInt8} {framed : Text}

/-- A frame is a header in front of a body. -/
theorem frameGroups_eq_headerGroups (h : layout.header ≠ .perWord) :
    p.frameGroups layout bytes =
      (p.headerGroups layout (countedBody layout.header bytes).1).map
        (· ++ (countedBody layout.header bytes).2.map Word.digits) := by
  rw [frameGroups, headerGroups]
  cases hheader : layout.header with
  | perWord => exact absurd hheader h
  | subroutine => rfl
  | byteCount | lineCount =>
    cases p.needAddress with
    | error e => rfl
    | ok a => rfl
  | checksummed =>
    cases p.needAddress with
    | error e => rfl
    | ok a =>
      simp only [bind, Except.bind, countedBody]
      cases p.guard _ with
      | error e => rfl
      | ok second => rfl

/-- The header of a body that can be counted is two words. -/
theorem exists_of_headerGroups_eq_ok {count : Nat} {header : List Text} (short : count < 2 ^ 32)
    (h : p.headerGroups layout count = .ok header) :
    ∃ first second : Word, header = [first.digits, second.digits] := by
  have counted := Word.padded_eq_digits short
  rw [headerGroups] at h
  cases hheader : layout.header with
  | subroutine =>
    rw [hheader] at h
    cases h
    exact ⟨_, _, by rw [counted]⟩
  | perWord | byteCount | lineCount =>
    rw [hheader] at h
    obtain ⟨a, -, h⟩ := bind_eq_ok h
    cases h
    exact ⟨_, _, by rw [counted]⟩
  | checksummed =>
    rw [hheader] at h
    obtain ⟨a, -, h⟩ := bind_eq_ok h
    obtain ⟨second, hguard, h⟩ := bind_eq_ok h
    obtain ⟨checksum, xor, -, -, -, rfl⟩ := guard_eq_ok hguard
    cases h
    exact ⟨_, _, rfl⟩

namespace SameParameters

theorem needAddress_eq (same : SameParameters p q) (h : p.codeType ≠ .execute) :
    p.needAddress = q.needAddress := by
  rw [needAddress, needAddress, same.address h, same.codeType]

theorem guard_eq (same : SameParameters p q) (h : p.codeType = .insertXor) (lines : Nat) :
    p.guard lines = q.guard lines := by
  obtain ⟨hchecksum, hxor⟩ := same.guard h
  rw [Packet.guard, Packet.guard, hchecksum, hxor, same.codeType]

/-- The parameters of a type decide the headers of its frames. -/
theorem headerGroups_eq (same : SameParameters p q) (hl : p.codeType.layout? = some layout)
    (count : Nat) : p.headerGroups layout count = q.headerGroups layout count := by
  have address := same.needAddress_eq
  have guard := same.guard_eq
  rw [headerGroups, headerGroups]
  cases hp : p.codeType with
  | raw => simp [hp, CodeType.layout?] at hl
  | execute =>
    rw [hp] at hl
    cases hl
    rfl
  | write32 | writeString | insert | insertLink =>
    rw [hp] at hl
    cases hl
    rw [address (by simp [hp])]
  | insertXor =>
    rw [hp] at hl
    cases hl
    simp only [address (by simp [hp]), guard hp]

/-- Packets with the same parameters, count and body have the same frame. -/
theorem frameGroups_eq (same : SameParameters p q) (hl : p.codeType.layout? = some layout)
    {bytes' : List UInt8}
    (content : countedBody layout.header bytes = countedBody layout.header bytes') :
    p.frameGroups layout bytes = q.frameGroups layout bytes' := by
  by_cases writes : layout.header = .perWord
  · have other : p.codeType ≠ .execute := by
      intro execute
      rw [execute] at hl
      cases hl
      cases writes
    rw [writes, countedBody, countedBody, Prod.mk.injEq] at content
    simp only [frameGroups, writes, content.2, same.needAddress_eq other]
  · rw [frameGroups_eq_headerGroups writes, frameGroups_eq_headerGroups writes, content,
      same.headerGroups_eq hl]

end SameParameters

/-- A payload of at least one byte is framed by its groups. -/
theorem frame_eq_map (hl : p.codeType.layout? = some layout) (hb : p.bytes = .ok bytes)
    (nonempty : bytes ≠ []) : p.frame = (p.frameGroups layout bytes).map RawHex.layout := by
  obtain ⟨b, rest, rfl⟩ := List.exists_cons_of_ne_nil nonempty
  simp only [frame, hl, hb]

/-- The same in words, for bytes that a word can count. -/
theorem frame_eq_map_words (hl : p.codeType.layout? = some layout) (hb : p.bytes = .ok bytes)
    (nonempty : bytes ≠ []) (short : bytes.length < 2 ^ 32) :
    p.frame = (p.frameWords layout bytes).map
      fun words => RawHex.layout (words.map Word.digits) := by
  obtain ⟨b, rest, rfl⟩ := List.exists_cons_of_ne_nil nonempty
  exact frame_eq hl hb short

/-- Without payload there is nothing to frame. -/
theorem frame_of_no_bytes (h : p.bytes = .ok []) : p.frame = .ok p.payload := by
  rw [frame, h]
  cases p.codeType.layout? with
  | none => rfl
  | some layout => rfl

/-- The bytes of a payload that can be framed can be counted in a word. -/
theorem Framable.exists_bytes (framable : p.Framable) :
    ∃ bytes, p.bytes = .ok bytes ∧ bytes ≠ [] ∧ bytes.length < 2 ^ 32 ∧
      Hex.encode bytes = p.payloadDigits := by
  obtain ⟨b, bytes, hparse, hdigits⟩ := Hex.parse_of_isHex framable.hex
  have hlength := congrArg List.length hdigits
  rw [Hex.length_encode, List.length_map] at hlength
  have := framable.short
  exact ⟨b :: bytes, hparse, by simp, by omega, hdigits⟩

/-- What a frame was made of: the bytes of the payload and the words that were laid out. -/
theorem Framable.exists_words (framable : p.Framable) (h : p.frame = .ok framed) :
    ∃ layout bytes words, p.codeType.layout? = some layout ∧ p.bytes = .ok bytes ∧
      bytes ≠ [] ∧ bytes.length < 2 ^ 32 ∧ Hex.encode bytes = p.payloadDigits ∧
      p.frameWords layout bytes = .ok words ∧
      framed = RawHex.layout (words.map Word.digits) := by
  obtain ⟨bytes, hbytes, nonempty, short, hdigits⟩ := framable.exists_bytes
  obtain ⟨layout, hl⟩ := CodeType.exists_layout framable.type
  rw [frame_eq_map_words hl hbytes nonempty short] at h
  cases hwords : p.frameWords layout bytes with
  | error e => simp [hwords, Except.map] at h
  | ok words =>
    rw [hwords] at h
    cases h
    exact ⟨layout, bytes, words, hl, hbytes, nonempty, short, hdigits, hwords, rfl⟩

end Packet

end CheatCode

import CheatCode.Proofs.Packet.Contents

/-!
# Which packets are refused

A payload that cannot be framed is handed back, whatever else is wrong with the packet.
A payload that can be is refused only for what its type needs, and of several reasons the
first is given: the address is missing, a guarded body has more lines than one byte can
count, the checksum is missing, the exclusive-or value is missing. The number of lines
comes before the guard, so a body that is too long is refused for its length even when
there is no guard at all.
-/

namespace CheatCode

namespace Footer

/-- A closed body has one line more than the words fill, or one word more. -/
theorem lines_close (footer : Footer) (body : List Word) :
    (footer.close body).length / 2 = body.length / 2 + 1 := by
  obtain even | odd := Nat.mod_two_eq_zero_or_one body.length
  · rw [close_of_even even]
    simp
  · rw [close_of_odd odd, List.length_append, List.length_singleton]
    omega

end Footer

namespace Packet

variable {p q : Packet} {layout : Layout} {bytes : List UInt8}

/-- Why a packet with so many words of payload is refused: the first thing that its type
needs and that it does not have. -/
def refusal? (p : Packet) (words : Nat) : Option CodeError :=
  if p.codeType ≠ .execute ∧ p.address = none then some (.missing p.codeType .address)
  else if p.codeType ≠ .insertXor then none
  else if 0xFF < words / 2 + 1 then some (.tooManyLines (words / 2 + 1))
  else if p.checksum = none then some (.missing p.codeType .checksum)
  else if p.xor = none then some (.missing p.codeType .xor)
  else none

theorem refusal?_of_no_address (carried : p.codeType ≠ .execute) (h : p.address = none)
    (words : Nat) : p.refusal? words = some (.missing p.codeType .address) :=
  if_pos ⟨carried, h⟩

theorem refusal?_of_unguarded (h : p.codeType = .execute ∨ p.address.isSome = true)
    (unguarded : p.codeType ≠ .insertXor) (words : Nat) : p.refusal? words = none := by
  have given : ¬(p.codeType ≠ .execute ∧ p.address = none) := by
    rintro ⟨carried, none⟩
    simp [carried, none] at h
  rw [refusal?, if_neg given, if_pos unguarded]

/-- The guard of a header is refused for the same reasons. -/
theorem guard_eq_error_iff (guarded : p.codeType = .insertXor) (h : p.address.isSome = true)
    (words : Nat) (e : CodeError) :
    p.guard (words / 2 + 1) = .error e ↔ p.refusal? words = some e := by
  have given : ¬(p.codeType ≠ .execute ∧ p.address = none) := by
    rintro ⟨-, none⟩
    simp [none] at h
  rw [refusal?, if_neg given, if_neg (not_not.mpr guarded), guard]
  by_cases many : 0xFF < words / 2 + 1
  · rw [if_pos many, if_pos many, Except.error.injEq, Option.some.injEq]
  · rw [if_neg many, if_neg many]
    cases p.checksum with
    | none => simp
    | some checksum =>
      cases p.xor with
      | none => simp
      | some xor => simp

/-- Without the address that its type needs a packet is refused before anything else. -/
theorem frameGroups_of_no_address (hl : p.codeType.layout? = some layout)
    (carried : p.codeType ≠ .execute) (h : p.address = none) :
    p.frameGroups layout bytes = .error (.missing p.codeType .address) := by
  have missing : p.needAddress = .error (.missing p.codeType .address) := by
    rw [needAddress, h]
  cases type : p.codeType with
  | raw =>
    rw [type] at hl
    cases hl
  | execute => exact absurd type carried
  | write32 | writeString | insert | insertLink | insertXor =>
    rw [type] at hl missing
    cases hl
    simp only [frameGroups, missing]
    rfl

/-- The groups of a frame are refused for the reasons of the packet. -/
theorem frameGroups_eq_error_iff (hl : p.codeType.layout? = some layout) (e : CodeError) :
    p.frameGroups layout bytes = .error e ↔ p.refusal? (Word.pack bytes).length = some e := by
  by_cases missing : p.codeType ≠ .execute ∧ p.address = none
  · obtain ⟨carried, none⟩ := missing
    rw [frameGroups_of_no_address hl carried none, refusal?_of_no_address carried none,
      Except.error.injEq, Option.some.injEq]
  have given : p.codeType = .execute ∨ p.address.isSome = true := by
    rwa [not_and_or, not_not, ← ne_eq, ← Option.isSome_iff_ne_none] at missing
  cases type : p.codeType with
  | raw =>
    rw [type] at hl
    cases hl
  | execute =>
    rw [refusal?_of_unguarded given (by simp [type])]
    rw [type] at hl
    cases hl
    simp [frameGroups]
  | write32 | writeString | insert | insertLink =>
    obtain ⟨a, ha⟩ := Option.isSome_iff_exists.mp (given.resolve_left (by simp [type]))
    rw [refusal?_of_unguarded given (by simp [type])]
    rw [type] at hl
    cases hl
    simp [frameGroups, needAddress, ha, bind, Except.bind, pure, Except.pure]
  | insertXor =>
    have address := given.resolve_left (by simp [type])
    obtain ⟨a, ha⟩ := Option.isSome_iff_exists.mp address
    rw [← guard_eq_error_iff type address, ← Footer.lines_close Footer.ofInsertion]
    rw [type] at hl
    cases hl
    simp only [frameGroups, needAddress, ha, bind, Except.bind]
    cases p.guard _ with
    | error e' => simp
    | ok second => simp [pure, Except.pure]

/-- A payload of at least one byte is framed unless the packet is refused. -/
theorem frame_eq_error_iff (hl : p.codeType.layout? = some layout) (hbytes : p.bytes = .ok bytes)
    (nonempty : bytes ≠ []) (e : CodeError) :
    p.frame = .error e ↔ p.refusal? (Word.pack bytes).length = some e := by
  rw [frame_eq_map hl hbytes nonempty, ← frameGroups_eq_error_iff hl]
  cases p.frameGroups layout bytes with
  | error e' => simp [Except.map]
  | ok groups => simp [Except.map]

/-! ### The outcome for every packet -/

/-- A packet whose payload is handed back as it is: there is no frame for its type, or the
payload is not the hexadecimal form of at least one byte. -/
def HandedBack (p : Packet) : Prop :=
  p.codeType = .raw ∨ Text.compact p.payload = [] ∨
    (Text.utf8 (Text.compact p.payload)).length % 2 = 1 ∨
    ∃ c ∈ Text.compact p.payload, Hex.isDigit c = false

theorem handedBack_iff :
    p.HandedBack ↔ p.codeType = .raw ∨ RawHex.isHex (Text.compact p.payload) = false := by
  rw [HandedBack]
  by_cases digits : ∀ c ∈ Text.compact p.payload, Hex.isDigit c = true
  · have none : ¬∃ c ∈ Text.compact p.payload, Hex.isDigit c = false := by
      rintro ⟨c, hc, bad⟩
      rw [digits c hc] at bad
      cases bad
    have all : (Text.compact p.payload).all Hex.isDigit = true := List.all_eq_true.mpr digits
    rw [Hex.utf8_length_of_isDigit digits, RawHex.isHex, all]
    by_cases empty : Text.compact p.payload = []
    · simp [empty]
    · simp [empty, none]
  · have some : ∃ c ∈ Text.compact p.payload, Hex.isDigit c = false := by
      simpa only [not_forall, exists_prop, Bool.not_eq_true] using digits
    have not_all : (Text.compact p.payload).all Hex.isDigit = false := by
      simpa [List.all_eq_false] using some
    simp [RawHex.isHex, not_all, some]

theorem frame_of_handedBack (h : p.HandedBack) : p.frame = .ok p.payload := by
  rw [handedBack_iff] at h
  cases hbytes : p.bytes with
  | error e => simp [frame, hbytes]
  | ok bytes =>
    cases bytes with
    | nil => exact frame_of_no_bytes hbytes
    | cons b bytes =>
      have raw : p.codeType = .raw := h.resolve_right (by simp [Hex.isHex_of_parse hbytes])
      simp [frame, raw, CodeType.layout?]

/-- The packets of a type that are not handed back are those whose payload is words. -/
theorem exists_bytes_of_not_handedBack (h : ¬p.HandedBack) :
    ∃ layout bytes, p.codeType.layout? = some layout ∧ p.bytes = .ok bytes ∧ bytes ≠ [] ∧
      Hex.encode bytes = p.payloadDigits := by
  rw [handedBack_iff, not_or, Bool.not_eq_false] at h
  obtain ⟨type, hex⟩ := h
  obtain ⟨layout, hl⟩ := CodeType.exists_layout type
  obtain ⟨b, bytes, hparse, hdigits⟩ := Hex.parse_of_isHex hex
  exact ⟨layout, b :: bytes, hl, hparse, by simp, hdigits⟩

/-- What framing comes to, for every packet. A payload that is not framed is handed back,
whatever else the packet holds. Any other packet is refused for the first reason there is
and framed when there is none; a guarded body is too long from 510 words on, which are
2037 bytes. What the type does not use makes no difference. -/
theorem frame_outcome (p : Packet) :
    let words := p.payloadGroups.length
    (p.HandedBack → p.frame = .ok p.payload) ∧
    (¬p.HandedBack →
      (∀ e, p.frame = .error e ↔ p.refusal? words = some e) ∧
      (p.refusal? words = none → ∃ framed, p.frame = .ok framed) ∧
      (0xFF < words / 2 + 1 ↔ 510 ≤ words) ∧
      (510 ≤ words ↔ 2037 ≤ (Text.compact p.payload).length / 2)) ∧
    ∀ q, SameParameters p q → p.payload = q.payload → p.frame = q.frame := by
  intro words
  refine ⟨frame_of_handedBack, ?_, ?_⟩
  · intro framed
    obtain ⟨layout, bytes, hl, hbytes, nonempty, digits⟩ := exists_bytes_of_not_handedBack framed
    have count : words = (Word.pack bytes).length :=
      (congrArg List.length (payloadGroups_eq digits)).trans (List.length_map ..)
    have length : 2 * bytes.length = (Text.compact p.payload).length := by
      rw [← Hex.length_encode, digits, payloadDigits, List.length_map]
    have refused := frame_eq_error_iff hl hbytes nonempty
    rw [count]
    refine ⟨refused, ?_, by omega, by rw [Word.length_pack]; omega⟩
    intro none
    cases h : p.frame with
    | ok text => exact ⟨text, rfl⟩
    | error e =>
      rw [(refused e).mp h] at none
      cases none
  · intro q same payload
    by_cases back : p.HandedBack
    · have back' : q.HandedBack := by
        rwa [HandedBack, same.codeType, payload] at back
      rw [frame_of_handedBack back, frame_of_handedBack back', payload]
    · obtain ⟨layout, bytes, hl, hbytes, nonempty, -⟩ := exists_bytes_of_not_handedBack back
      have hbytes' : q.bytes = .ok bytes := by rw [Packet.bytes, ← payload, ← hbytes]; rfl
      rw [frame_eq_map hl hbytes nonempty, frame_eq_map (same.codeType ▸ hl) hbytes' nonempty,
        same.frameGroups_eq hl rfl]

/-- The checksum is asked for before the exclusive-or value. -/
example : frame ⟨"3860 0001".toList, .insertXor, some ⟨.base, false, 0x1234⟩, none, none⟩ =
    .error (.missing .insertXor .checksum) := by
  decide +kernel

end Packet

end CheatCode

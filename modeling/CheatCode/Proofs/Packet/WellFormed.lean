import CheatCode.Proofs.Packet.Recognition
import CheatCode.Proofs.Packet.Refusal

/-!
# What is taken apart is well formed

Whatever text is taken apart, the packet has the parameters that its type asks for and no
others, and its payload is in the layout of raw hex. Where frames of the type have an end,
the payload lacks nothing of the body but such an end. The packet can therefore be framed
again without a parameter missing, and the only thing in the way is a guarded body with
more lines than its header can count.
-/

namespace CheatCode

namespace Footer

/-- What may be taken off the end of a body. -/
def endings (footer : Footer) (keepFirst : Bool) : List (List Word) :=
  [] :: [footer.pad] :: if keepFirst then [[footer.second]]
    else [[ofSubroutine.first, ofSubroutine.second], [ofInsertion.first, ofInsertion.second]]

theorem eq_of_endsFull {footer : Footer} {body : List Word} (h : footer.endsFull body = true) :
    body = body.dropLast.dropLast ++ [footer.first, footer.second] := by
  obtain ⟨front, rfl⟩ := List.isSuffixOf_iff_suffix.mp h
  have : front ++ [footer.first, footer.second] =
      (front ++ [footer.first]) ++ [footer.second] := by simp
  rw [this, List.dropLast_concat, List.dropLast_concat, ← this]

/-- Nothing but an ending is taken off a body. -/
theorem exists_remove_append (footer : Footer) (keepFirst : Bool) (body : List Word) :
    ∃ ending ∈ footer.endings keepFirst, body = footer.remove keepFirst body ++ ending := by
  rw [remove]
  split
  · next full =>
    simp only [Bool.and_eq_true, Bool.not_eq_true', Bool.or_eq_true] at full
    obtain ⟨rfl, full | full⟩ := full
    · exact ⟨_, by simp [endings], eq_of_endsFull full⟩
    · exact ⟨_, by simp [endings], eq_of_endsFull full⟩
  · split
    · exact ⟨[], by simp [endings], by simp⟩
    · next last hlast =>
      split
      · next ends =>
        refine ⟨[last], ?_, (List.dropLast_append_getLast? last hlast).symm⟩
        simp only [Bool.or_eq_true, Bool.and_eq_true, decide_eq_true_eq] at ends
        obtain rfl | ⟨rfl, rfl⟩ := ends
        · simp [endings]
        · simp [endings]
      · exact ⟨[], by simp [endings], by simp⟩

end Footer

theorem CodeType.needsAddress_of_framed {type : CodeType} (framed : type ≠ .raw)
    (carried : type ≠ .execute) : type.needsAddress = true := by
  cases type with
  | raw => exact absurd rfl framed
  | execute => exact absurd rfl carried
  | write32 | writeString | insert | insertLink | insertXor => rfl

theorem CodeType.eq_insertXor_of_needsChecksum {type : CodeType}
    (h : type.needsChecksum = true) : type = .insertXor := by
  cases type with
  | insertXor => rfl
  | raw | write32 | writeString | execute | insert | insertLink => cases h

namespace Packet

variable {p : Packet} {bytes : List UInt8}

/-! ### Framing with all parameters -/

/-- A packet with the parameters that its type asks for. -/
structure Complete (p : Packet) : Prop where
  /-- There is an address. -/
  address : p.codeType.needsAddress = true → p.address.isSome = true
  /-- There is a checksum. -/
  checksum : p.codeType.needsChecksum = true → p.checksum.isSome = true
  /-- There is an exclusive-or value. -/
  xor : p.codeType.needsChecksum = true → p.xor.isSome = true

/-- A complete packet of a framed type is refused only as a guarded code of too many words. -/
theorem Complete.refusal?_eq_some_iff (complete : p.Complete) (framed : p.codeType ≠ .raw)
    (words : Nat) (e : CodeError) :
    p.refusal? words = some e ↔
      p.codeType = .insertXor ∧ 510 ≤ words ∧ e = .tooManyLines (words / 2 + 1) := by
  have given : p.codeType = .execute ∨ p.address.isSome = true := by
    by_cases execute : p.codeType = .execute
    · exact Or.inl execute
    · exact Or.inr (complete.address (CodeType.needsAddress_of_framed framed execute))
  by_cases guarded : p.codeType = .insertXor
  · have needed : p.codeType.needsChecksum = true := by rw [guarded]; rfl
    obtain ⟨c, hc⟩ := Option.isSome_iff_exists.mp (complete.checksum needed)
    obtain ⟨x, hx⟩ := Option.isSome_iff_exists.mp (complete.xor needed)
    have address := given.resolve_left (by simp [guarded])
    rw [← guard_eq_error_iff guarded address, guard, hc, hx]
    by_cases many : 0xFF < words / 2 + 1
    · have : 510 ≤ words := by omega
      simp [many, guarded, this, eq_comm]
    · have : ¬510 ≤ words := by omega
      simp [many, this]
  · rw [refusal?_of_unguarded given guarded]
    simp [guarded]

/-- A complete packet fails to be framed only when a guarded body is too long. -/
theorem Complete.frame_eq_error_iff (complete : p.Complete) (hbytes : p.bytes = .ok bytes)
    (e : CodeError) :
    p.frame = .error e ↔ p.codeType = .insertXor ∧ 510 ≤ (Word.pack bytes).length ∧
      e = .tooManyLines ((Word.pack bytes).length / 2 + 1) := by
  by_cases nonempty : bytes = []
  · rw [nonempty] at hbytes ⊢
    rw [frame_of_no_bytes hbytes]
    simp
  by_cases raw : p.codeType = .raw
  · simp [frame, raw, CodeType.layout?]
  · obtain ⟨layout, hl⟩ := CodeType.exists_layout raw
    rw [Packet.frame_eq_error_iff hl hbytes nonempty, complete.refusal?_eq_some_iff raw]

/-! ### The packet in whole words -/

section

variable (lead : Lead) (keepReturn : Bool) (first second : Word) (body : List Word)

theorem codeType_ofWords :
    (ofWords lead keepReturn first second body).codeType = lead.codeType := by
  rw [ofWords]
  cases lead.layout.header <;> rfl

theorem address_ofWords : (ofWords lead keepReturn first second body).address =
    lead.half.map fun (region, high) => .ofWord region high first := by
  rw [ofWords]
  cases lead.layout.header <;> rfl

/-- A guard is found under a header that has one. -/
theorem guard_ofWords : let q := ofWords lead keepReturn first second body
    (q.checksum.isSome = true ↔ lead.layout.header = .checksummed) ∧
      (q.xor.isSome = true ↔ lead.layout.header = .checksummed) := by
  rw [ofWords]
  cases lead.layout.header <;> simp [guarded]

/-- The payload is always raw hex. -/
theorem exists_payload_ofWords :
    ∃ bytes, (ofWords lead keepReturn first second body).payload = RawHex.ofBytes bytes := by
  rw [ofWords]
  cases lead.layout.header <;> exact ⟨_, rfl⟩

/-- Under a header whose bodies have an end the payload is the body without it. -/
theorem payload_ofWords {footer : Footer} (h : lead.layout.header.footer? = some footer) :
    (ofWords lead keepReturn first second body).payload = RawHex.ofBytes (Word.unpack
      (footer.remove (lead.layout.header = .subroutine && keepReturn) body)) := by
  rw [ofWords]
  cases hheader : lead.layout.header with
  | perWord | byteCount =>
    rw [hheader] at h
    cases h
  | subroutine | lineCount | checksummed =>
    rw [hheader] at h
    cases h
    rfl

end

theorem payloadDigits_of_payload (h : p.payload = RawHex.ofBytes bytes) :
    Hex.encode bytes = p.payloadDigits := by
  rw [payloadDigits, h, RawHex.compact_ofBytes, Hex.map_toUpper_encode]

/-- The groups that may be missing from the end of a body. -/
def endings (type : CodeType) (keepReturn : Bool) : List (List Text) :=
  match type, keepReturn with
  | .execute, true => [[], ["4E800020".toList], ["00000000".toList]]
  | .execute, false => [[], ["4E800020".toList], ["4E800020".toList, "00000000".toList],
    ["60000000".toList, "00000000".toList]]
  | _, _ => [[], ["00000000".toList], ["4E800020".toList, "00000000".toList],
    ["60000000".toList, "00000000".toList]]

/-- The packet `q` is what a frame holds whose words are `first`, one more and `body`. -/
structure Holds (q : Packet) (keepReturn : Bool) (first : Word) (body : List Word) : Prop where
  /-- The first two digits tell the type, and the region and half of the address. -/
  lead : (first.digits.take 2, q.codeType, q.address.map fun a => (a.region, a.high)) ∈
    Lead.prefixes
  /-- There is an address unless the code runs as a subroutine. -/
  address : q.address.isSome = true ↔ q.codeType ≠ .execute
  /-- The offset of the address is in the low 24 bits of the first word. -/
  offset : ∀ a ∈ q.address, a.offset.toNat = first.toNat % 2 ^ 24
  /-- There is a checksum in guarded codes only. -/
  checksum : q.checksum.isSome = true ↔ q.codeType = .insertXor
  /-- There is an exclusive-or value in guarded codes only. -/
  xor : q.xor.isSome = true ↔ q.codeType = .insertXor
  /-- The payload is in the layout of raw hex. -/
  payload : q.payload = [] ∨ RawHex.normalize? q.payload = some q.payload
  /-- The payload lacks nothing of a body of instructions but its end. -/
  body : q.codeType ∈ .execute :: CodeType.insertions →
    ∃ ending ∈ endings q.codeType keepReturn,
      body.map Word.digits = RawHex.groups q.payloadDigits ++ ending

theorem Holds.complete {q : Packet} {keepReturn : Bool} {first : Word} {body : List Word}
    (holds : q.Holds keepReturn first body) : q.Complete where
  address needed := holds.address.mpr fun execute => by
    rw [execute] at needed
    cases needed
  checksum needed := holds.checksum.mpr (CodeType.eq_insertXor_of_needsChecksum needed)
  xor needed := holds.xor.mpr (CodeType.eq_insertXor_of_needsChecksum needed)

/-- The groups that may be missing are those of what may be taken off. -/
theorem endings_eq {type : CodeType} {layout : Layout} (hl : type.layout? = some layout)
    (ended : type ∈ .execute :: CodeType.insertions) (keepReturn : Bool) :
    ∃ footer, layout.header.footer? = some footer ∧ endings type keepReturn =
      (footer.endings (layout.header = .subroutine && keepReturn)).map (·.map Word.digits) := by
  cases type with
  | raw | write32 | writeString => simp [CodeType.insertions] at ended
  | execute =>
    cases hl
    refine ⟨_, rfl, ?_⟩
    cases keepReturn <;> decide
  | insert | insertLink | insertXor =>
    cases hl
    refine ⟨_, rfl, ?_⟩
    cases keepReturn <;> decide

/-- A frame is taken apart into what its words hold. -/
theorem holds_ofWords {lead : Lead} (keepReturn : Bool) {first : Word} (second : Word)
    (body : List Word) (h : Lead.ofByte? (first.byte 3) = some lead) :
    (ofWords lead keepReturn first second body).Holds keepReturn first body := by
  obtain ⟨listed, hl⟩ := Lead.of_ofByte?_eq_some h
  obtain ⟨-, half⟩ := Lead.half_of_mem_prefixes listed
  have guarded : lead.layout.header = .checksummed ↔ lead.codeType = .insertXor := by
    obtain ⟨type, layout, half⟩ := lead
    cases type with
    | raw => cases hl
    | write32 | writeString | execute | insert | insertLink | insertXor =>
      cases hl
      simp
  constructor
  · have digits : first.digits.take 2 = Hex.byteDigits (first.byte 3) := by
      rw [Word.digits_eq_encode]
      rfl
    have both : (lead.half.map fun (region, high) =>
        Address.ofWord region high first).map (fun a => (a.region, a.high)) = lead.half := by
      cases lead.half <;> rfl
    rwa [digits, codeType_ofWords, address_ofWords, both]
  · rw [address_ofWords, Option.isSome_map, codeType_ofWords]
    exact half
  · intro a ha
    rw [address_ofWords, Option.mem_def, Option.map_eq_some_iff] at ha
    obtain ⟨⟨region, high⟩, -, rfl⟩ := ha
    exact BitVec.toNat_setWidth ..
  · rw [(guard_ofWords ..).1, guarded, codeType_ofWords]
  · rw [(guard_ofWords ..).2, guarded, codeType_ofWords]
  · obtain ⟨bytes, hpayload⟩ := exists_payload_ofWords lead keepReturn first second body
    rw [hpayload]
    by_cases none : bytes = []
    · rw [none]
      exact Or.inl rfl
    · exact Or.inr (RawHex.normalize?_ofBytes none)
  · rw [codeType_ofWords]
    intro ended
    obtain ⟨footer, hfooter, hendings⟩ := endings_eq hl ended keepReturn
    obtain ⟨ending, mem, hbody⟩ := footer.exists_remove_append
      (lead.layout.header = .subroutine && keepReturn) body
    have digits := payloadDigits_of_payload
      (payload_ofWords lead keepReturn first second body hfooter)
    refine ⟨ending.map Word.digits, ?_, ?_⟩
    · rw [hendings]
      exact List.mem_map_of_mem mem
    · rw [← digits, RawHex.groups_encode_unpack, ← List.map_append, ← hbody]

/-- Whatever text is taken apart gives a well-formed packet. A text that is no frame is kept
as it is; a frame is taken apart into what its words hold. In either case the packet can
be framed again without a parameter missing, and fails to be framed only as a guarded
code of too many words. -/
theorem unframe_wellFormed (t : Text) (keepReturn : Bool) :
    let q := unframe t keepReturn
    (q.codeType = .raw ↔ Text.compact t = [] ∨ (∃ c ∈ Text.compact t, Hex.isDigit c = false) ∨
      (upperDigits t).take 2 ∉ Lead.prefixes.map (·.1) ∨ (Text.compact t).length < 16 ∨
      (Text.compact t).length % 8 ≠ 0) ∧
    (q.codeType = .raw → q = raw t) ∧
    (q.codeType ≠ .raw → ∃ first second body,
      RawHex.groups (upperDigits t) = (first :: second :: body).map Word.digits ∧
        q.Holds keepReturn first body) ∧
    (∀ type parameter, q.frame ≠ .error (.missing type parameter)) ∧
    ((∃ lines, q.frame = .error (.tooManyLines lines)) ↔
      q.codeType = .insertXor ∧ 510 ≤ q.payloadGroups.length) := by
  intro q
  by_cases frame : IsFrame t
  · obtain ⟨lead, first, second, body, hlead, hwords, hunframe⟩ := frame.exists_ofWords
    have hq : q = ofWords lead keepReturn first second body := hunframe keepReturn
    have holds := holds_ofWords keepReturn second body hlead
    obtain ⟨bytes, hpayload⟩ := exists_payload_ofWords lead keepReturn first second body
    rw [← hq] at holds hpayload
    have type : q.codeType ≠ .raw := (Lead.half_of_mem_prefixes holds.lead).1
    have hbytes : q.bytes = .ok bytes := by
      rw [Packet.bytes, hpayload, RawHex.parse_ofBytes]
    have failed := holds.complete.frame_eq_error_iff hbytes
    have count : q.payloadGroups.length = (Word.pack bytes).length := by
      rw [payloadGroups_eq (payloadDigits_of_payload hpayload), List.length_map]
    refine ⟨?_, fun raw => absurd raw type, fun _ => ⟨first, second, body, ?_, holds⟩, ?_, ?_⟩
    · rw [← IsFrame.not_iff]
      exact iff_of_false type (not_not.mpr frame)
    · rw [hwords, RawHex.groups_encode_unpack]
    · intro type parameter missing
      obtain ⟨-, -, h⟩ := (failed _).mp missing
      cases h
    · rw [count]
      constructor
      · rintro ⟨lines, h⟩
        obtain ⟨guarded, many, -⟩ := (failed _).mp h
        exact ⟨guarded, many⟩
      · rintro ⟨guarded, many⟩
        exact ⟨_, (failed _).mpr ⟨guarded, many, rfl⟩⟩
  · have hq : q = raw t := unframe_of_not_isFrame frame keepReturn
    have ok : q.frame = .ok t := by
      rw [hq]
      rfl
    rw [ok, hq]
    refine ⟨?_, fun _ => rfl, fun type => absurd rfl type, ?_, ?_⟩
    · rw [← IsFrame.not_iff]
      exact iff_of_true rfl frame
    · simp
    · simp [raw]

/-- A frame that claims more lines than it has still loses nothing but its closing line. -/
example : unframe "f3001234 0112340a\n38600001 38800002\n4e800020 00000000".toList true =
    ⟨"38600001 38800002".toList, .insertXor, some ⟨.base, true, 0x1234⟩, some 0x1234,
      some 0x01⟩ := by
  decide +kernel

end Packet

end CheatCode

import CheatCode.Proofs.Packet.WellFormed

/-!
# Layout and case make no difference

A hexadecimal text matters by its digits alone: where blanks stand between them and which
case they have is decided before anything else is done with it. Two texts with the same
digits are therefore taken apart alike, laid out alike and framed alike. Only a text that
is kept as it is, because it is no frame, keeps its own layout.
-/

namespace CheatCode.Packet

variable {a b t : Text}

/-- Whether a text is hexadecimal shows in its digits. -/
theorem isHex_upperDigits (t : Text) :
    RawHex.isHex (upperDigits t) = RawHex.isHex (Text.compact t) := by
  have digits : (upperDigits t).all Hex.isDigit = (Text.compact t).all Hex.isDigit := by
    rw [upperDigits, List.all_map]
    exact congrArg _ (funext Hex.isDigit_toUpper)
  rw [RawHex.isHex, RawHex.isHex, digits]
  simp [upperDigits]

/-- Raw hex is laid out from the digits alone. -/
theorem normalize?_eq (t : Text) : RawHex.normalize? t =
    if RawHex.isHex (upperDigits t) then some (RawHex.ofDigits (upperDigits t)) else none := by
  rw [isHex_upperDigits]
  rfl

/-- What is taken apart into a raw packet is kept as it is. -/
theorem unframe_eq_raw {keepReturn : Bool} (h : (unframe t keepReturn).codeType = .raw) :
    unframe t keepReturn = raw t := by
  by_cases frame : IsFrame t
  · obtain ⟨lead, first, second, body, hlead, -, hunframe⟩ := frame.exists_ofWords
    rw [hunframe, codeType_ofWords] at h
    have listed := (Lead.of_ofByte?_eq_some hlead).1
    exact absurd h (Lead.half_of_mem_prefixes listed).1
  · exact unframe_of_not_isFrame frame keepReturn

/-- A hexadecimal payload is framed by its digits alone. -/
theorem frame_eq_of_upperDigits_eq (same : upperDigits a = upperDigits b) {p : Packet}
    (framed : p.codeType ≠ .raw) (hex : RawHex.isHex (Text.compact a) = true) :
    frame { p with payload := a } = frame { p with payload := b } := by
  obtain ⟨layout, hl⟩ := CodeType.exists_layout framed
  obtain ⟨c, bytes, read, -⟩ := Hex.parse_of_isHex hex
  have read' : Hex.parse b = .ok (c :: bytes) := by
    rw [parse_eq_ok_iff, ← same]
    exact parse_eq_ok_iff.mp read
  have left := frame_eq_map (p := { p with payload := a }) hl read (by simp)
  have right := frame_eq_map (p := { p with payload := b }) hl read' (by simp)
  rw [left, right]
  rfl

/-- Texts with the same digits are taken apart into the same packet unless both are kept as
they are, have the same layout as raw hex if they have one, and are framed alike under every
type if they are hexadecimal. -/
theorem alike_of_upperDigits_eq (same : upperDigits a = upperDigits b) :
    (∀ keepReturn,
      let p := unframe a keepReturn
      let q := unframe b keepReturn
      if p.codeType = .raw ∧ q.codeType = .raw then p = raw a ∧ q = raw b else p = q) ∧
    RawHex.normalize? a = RawHex.normalize? b ∧
    ∀ p : Packet, p.codeType ≠ .raw → RawHex.isHex (Text.compact a) = true →
      frame { p with payload := a } = frame { p with payload := b } := by
  refine ⟨?_, ?_, fun p => frame_eq_of_upperDigits_eq same⟩
  · intro keepReturn p q
    by_cases kept : p.codeType = .raw ∧ q.codeType = .raw
    · rw [if_pos kept]
      exact ⟨unframe_eq_raw kept.1, unframe_eq_raw kept.2⟩
    · rw [if_neg kept]
      obtain alike | ⟨left, right⟩ := unframe_eq_or same keepReturn
      · exact alike
      · exact absurd ⟨congrArg codeType left, congrArg codeType right⟩ kept
  · rw [normalize?_eq, normalize?_eq, same]

/-- A frame in two layouts, one of them with an ideographic space and broken lines. -/
theorem alike_of_upperDigits_eq_loose :
    let a := "c2001234 00000001\r\n38600001   0000\n0000".toList
    let b := "C200\u300012340000000138600001 00000000".toList
    let p : Packet := ⟨[], .insertXor, some ⟨.base, true, 0x1234⟩, some 0xABCD, some 0x7F⟩
    upperDigits a = upperDigits b ∧ a ≠ b ∧
      unframe a false = ⟨"38600001".toList, .insert, some ⟨.base, false, 0x1234⟩, none, none⟩ ∧
      unframe a false = unframe b false ∧
      frame { p with payload := a } = frame { p with payload := b } := by
  intro a b p
  have same : upperDigits a = upperDigits b := by decide +kernel
  have framed : (unframe a false).codeType ≠ .raw := by decide +kernel
  obtain ⟨unframed, -, frames⟩ := alike_of_upperDigits_eq same
  have alike := unframed false
  rw [if_neg fun raw => framed raw.1] at alike
  exact ⟨same, by decide, by decide +kernel, alike, frames p (by decide) (by decide +kernel)⟩

end CheatCode.Packet

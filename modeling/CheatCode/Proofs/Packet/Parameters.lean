import CheatCode.Proofs.Packet.WellFormed
import CheatCode.Proofs.Text.Numeral

/-!
# Parameters given as text

The parameters of a frame are given as digits: eight for an address, of which the first
two name its region and half, four for an exclusive-or value and two for a checksum, with
blanks around them or none. Such texts are always read, so a payload of at least one byte
is framed whenever the texts that its type asks for are given, unless a guarded body is
too long. What is taken apart again then has the type and the bytes that were framed.
-/

namespace CheatCode

/-- A text of so many hexadecimal digits, blanks around them aside. -/
structure Hex.IsField (width : Nat) (t : Text) : Prop where
  /-- The digits fill the width. -/
  length : (Text.trim t).length = width
  /-- There is nothing else. -/
  digits : ∀ c ∈ Text.trim t, isDigit c = true

/-- A text of eight digits whose first two name a region and a half. -/
structure Address.IsText (t : Text) : Prop extends Hex.IsField 8 t where
  /-- The region and the half. -/
  lead : (Text.trim t).take 2 ∈ ["80", "81", "00", "01"].map String.toList

/-- The first two digits of an address are those of a region and a half. -/
theorem Address.IsText.exists_ofText? {t : Text} (h : IsText t) :
    ∃ a, ofText? t = some a := by
  obtain ⟨⟨length, digits⟩, lead⟩ := h
  match htrim : Text.trim t with
  | [] | [_] => simp [htrim] at length
  | region :: half :: rest =>
    simp only [htrim, List.length_cons, Nat.reduceEqDiff] at length
    simp only [htrim, List.mem_cons, forall_eq_or_imp] at digits
    have nonempty : rest ≠ [] := List.ne_nil_of_length_pos (by omega)
    have room : 16 ^ rest.length ≤ Text.limit 24 := by simp [length, Text.limit]
    obtain ⟨offset, read⟩ := Text.exists_readDigits? nonempty digits.2.2 room
    simp only [htrim, List.take_succ_cons, List.take_zero, List.map_cons, List.map_nil,
      List.mem_cons, List.not_mem_nil, or_false, String.reduceToList, List.cons.injEq,
      and_true] at lead
    obtain ⟨rfl, rfl⟩ | ⟨rfl, rfl⟩ | ⟨rfl, rfl⟩ | ⟨rfl, rfl⟩ := lead
    all_goals simp [ofText?, htrim, length, read]

namespace Packet

variable {type : CodeType} {address xor checksum : Option Text} {payload : Text}
  {bytes : List UInt8}

theorem exists_readParameter {width : Nat} {t : Text} (pos : 0 < width)
    (h : Hex.IsField width t) (parameter : Parameter) :
    ∃ n, readParameter parameter width t = .ok n := by
  have nonempty : Text.trim t ≠ [] := List.ne_nil_of_length_pos (by rwa [h.length])
  have unsigned : '+' ∉ Text.trim t := fun plus => absurd (h.digits '+' plus) (by decide)
  have room : 16 ^ (Text.trim t).length ≤ Text.limit (4 * width) := by
    simp [h.length, Text.limit, Nat.one_shiftLeft, Nat.pow_mul]
  obtain ⟨n, read⟩ := Text.exists_readDigits? nonempty h.digits room
  exact ⟨n, by simp [readParameter, Text.readUnsigned?_of_no_sign unsigned, read, h.length]⟩

/-- The texts of the parameters for a type of code: whatever is given can be read, and what
the type asks for is given. -/
structure ParameterTexts (type : CodeType) (address xor checksum : Option Text) : Prop where
  /-- An address is eight digits. -/
  address_text : ∀ t ∈ address, Address.IsText t
  /-- An exclusive-or value is four digits. -/
  xor_text : ∀ t ∈ xor, Hex.IsField 4 t
  /-- A checksum is two digits. -/
  checksum_text : ∀ t ∈ checksum, Hex.IsField 2 t
  /-- A type with an address has one. -/
  addressed : type.needsAddress = true → address.isSome = true
  /-- A type with a guard has both its values. -/
  guarded : type.needsChecksum = true → xor.isSome = true ∧ checksum.isSome = true

/-- What can be read is read where it is given. -/
theorem exists_mapM {ε α β : Type} {f : α → Except ε β} {o : Option α}
    (h : ∀ a ∈ o, ∃ b, f a = .ok b) :
    ∃ o' : Option β, o.mapM f = .ok o' ∧ o'.isSome = o.isSome := by
  cases o with
  | none => exact ⟨none, rfl, rfl⟩
  | some a =>
    obtain ⟨b, hb⟩ := h a rfl
    have single : (some a).mapM f = (f a).map some := rfl
    exact ⟨some b, by rw [single, hb]; rfl, rfl⟩

/-- Texts of parameters are framed like a complete packet. -/
theorem ParameterTexts.exists_packet (given : ParameterTexts type address xor checksum)
    (payload : Text) :
    ∃ p : Packet, p.payload = payload ∧ p.codeType = type ∧ p.Complete ∧
      frameText payload type address xor checksum = p.frame := by
  have readable (t : Text) (ht : t ∈ address) : ∃ a, Address.read t = .ok a := by
    obtain ⟨a, ha⟩ := (given.address_text t ht).exists_ofText?
    exact ⟨a, by simp [Address.read, ha]⟩
  obtain ⟨a, hread, ha⟩ := exists_mapM readable
  obtain ⟨x, hxor, hx⟩ := exists_mapM
    fun t ht => exists_readParameter (by decide) (given.xor_text t ht) .xor
  obtain ⟨c, hchecksum, hc⟩ := exists_mapM
    fun t ht => exists_readParameter (by decide) (given.checksum_text t ht) .checksum
  refine ⟨⟨payload, type, a, x.map (BitVec.ofNat 16), c.map (BitVec.ofNat 8)⟩, rfl, rfl,
    ⟨?_, ?_, ?_⟩, ?_⟩
  · intro needed
    simpa [ha] using given.addressed needed
  · intro needed
    simpa [hc] using (given.guarded needed).2
  · intro needed
    simpa [hx] using (given.guarded needed).1
  · simp [frameText, hread, hxor, hchecksum, bind, Except.bind]

/-- A payload with the parameters that its type asks for is framed, and taken apart again
it has that type and those bytes. -/
theorem ParameterTexts.exists_frameText (given : ParameterTexts type address xor checksum)
    (framed : type ≠ .raw) (read : Hex.parse payload = .ok bytes) (nonempty : bytes ≠ [])
    (short : bytes.length < 2 ^ 32) (few : type = .insertXor → bytes.length ≤ 2036) :
    ∃ t, frameText payload type address xor checksum = .ok t ∧
      (unframe t false).codeType = type ∧
      (unframe t false).bytes = .ok (keptBytes type bytes) := by
  obtain ⟨p, rfl, rfl, complete, hframe⟩ := given.exists_packet payload
  obtain ⟨layout, hl⟩ := CodeType.exists_layout framed
  have words := frame_eq_map_words hl read nonempty short
  cases hw : p.frameWords layout bytes with
  | error e =>
    have refused : p.frame = .error e := by simp [words, hw, Except.map]
    obtain ⟨guarded, many, -⟩ := (complete.frame_eq_error_iff read e).mp refused
    have := few guarded
    have := Word.length_pack bytes
    omega
  | ok body =>
    have written : p.frame = .ok (RawHex.layout (body.map Word.digits)) := by
      simp [words, hw, Except.map]
    have found := unframe_frameWords hl nonempty short hw
    refine ⟨_, hframe.trans written, ?_, ?_⟩
    · rw [found]
      rfl
    · rw [found]
      exact RawHex.parse_ofBytes _

end Packet

end CheatCode

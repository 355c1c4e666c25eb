import CheatCode.Proofs.Packet.FrameWords
import Mathlib.Data.List.Basic

/-!
# Taking apart what was framed

A frame does not record how long its payload was, yet unframing finds it again for
every type of code: the parameters come back as they were given and the payload
comes back in the layout of raw hex, filled with zeros to whole words unless its
bytes are counted.

One payload word can be lost, and only from an insertion: with an odd number of words
the body is completed by a zero, and after a word that opens a closing line that zero
makes the closing line full.
-/

namespace CheatCode.Packet

variable {p : Packet} {layout : Layout} {bytes : List UInt8} {words : List Word}

/-- The bytes of a payload that are found again in its frame. -/
def keptBytes (type : CodeType) (bytes : List UInt8) : List UInt8 :=
  match type with
  | .writeString => bytes
  | .insert | .insertLink | .insertXor =>
    let body := Word.pack bytes
    Word.unpack (if Footer.hidesLast body then body.dropLast else body)
  | .raw | .write32 | .execute => Word.unpack (Word.pack bytes)

/-- The packet that is found again in the frame around some bytes. -/
def kept (p : Packet) (bytes : List UInt8) : Packet where
  payload := RawHex.ofBytes (keptBytes p.codeType bytes)
  codeType := p.codeType
  address := if p.codeType = .execute then none else p.address
  xor := if p.codeType = .insertXor then p.xor else none
  checksum := if p.codeType = .insertXor then p.checksum else none

/-- A computation that succeeds succeeded in its first step. -/
theorem bind_eq_ok {ε α β : Type} {x : Except ε α} {f : α → Except ε β} {r : β}
    (h : (x >>= f) = .ok r) : ∃ a, x = .ok a ∧ f a = .ok r := by
  cases x with
  | error e => cases h
  | ok a => exact ⟨a, rfl, h⟩

theorem needAddress_eq_ok {a : Address} (h : p.needAddress = .ok a) : p.address = some a := by
  rw [needAddress] at h
  split at h
  · next b hb =>
    cases h
    exact hb
  · cases h

/-- The first word of a frame with an address tells how the rest is taken apart. -/
theorem unframe_leadWord (type : CodeType) (hl : type.layout? = some layout)
    (address : type.needsAddress = true) (a : Address) (second : Word) (body : List Word) :
    unframe (RawHex.layout ((a.leadWord layout :: second :: body).map Word.digits)) false =
      ofWords ⟨type, layout, some (a.region, a.high)⟩ false (a.leadWord layout) second body := by
  apply unframe_layout
  rw [Address.byte_leadWord]
  exact Lead.ofByte?_leadByte hl address a

/-- The words of a frame are taken apart into what was framed. -/
theorem unframe_frameWords (hl : p.codeType.layout? = some layout) (nonempty : bytes ≠ [])
    (short : bytes.length < 2 ^ 32) (h : p.frameWords layout bytes = .ok words) :
    unframe (RawHex.layout (words.map Word.digits)) false = p.kept bytes := by
  obtain ⟨payload, type, address, xor, checksum⟩ := p
  cases type with
  | raw => cases hl
  | execute =>
    cases hl
    cases h
    have lead : Lead.ofByte? (Word.byte 0xC0000000 3) =
        some ⟨.execute, ⟨0xC0, 0xC0, .subroutine⟩, none⟩ := by decide
    rw [unframe_layout lead]
    simp [ofWords, Footer.remove_close_ofSubroutine, kept, keptBytes]
  | write32 =>
    cases hl
    obtain ⟨a, ha, hw⟩ := bind_eq_ok h
    cases needAddress_eq_ok ha
    cases hw
    obtain ⟨w, rest, hpack⟩ : ∃ w rest, Word.pack bytes = w :: rest :=
      List.exists_cons_of_ne_nil fun hnil => nonempty (Word.pack_eq_nil hnil)
    rw [hpack, writeWords, unframe_leadWord .write32 rfl rfl, ofWords, ← writeWords,
      alternate_writeWords]
    simp [kept, keptBytes, hpack]
  | writeString =>
    cases hl
    obtain ⟨a, ha, hw⟩ := bind_eq_ok h
    cases needAddress_eq_ok ha
    cases hw
    rw [unframe_leadWord .writeString rfl rfl]
    have counted : (BitVec.ofNat 32 bytes.length).toNat = bytes.length := by
      rw [BitVec.toNat_ofNat]
      exact Nat.mod_eq_of_lt short
    simp only [ofWords, kept, keptBytes]
    rw [counted, Word.take_unpack_packPairs]
    simp
  | insert | insertLink =>
    have taken := unframe_leadWord _ hl rfl
    cases hl
    obtain ⟨a, ha, hw⟩ := bind_eq_ok h
    cases needAddress_eq_ok ha
    cases hw
    rw [taken]
    simp [ofWords, Footer.remove_close_ofInsertion, kept, keptBytes]
  | insertXor =>
    cases hl
    obtain ⟨a, ha, hw⟩ := bind_eq_ok h
    cases needAddress_eq_ok ha
    obtain ⟨second, hg, hw⟩ := bind_eq_ok hw
    obtain ⟨c, x, hc, hx, few, rfl⟩ := guard_eq_ok hg
    cases hc
    cases hx
    cases hw
    rw [unframe_leadWord .insertXor rfl rfl]
    simp [ofWords, Footer.remove_close_ofInsertion, kept, keptBytes, guarded,
      checksum_guardWord _ _ few, xor_guardWord _ _ few]

/-! ### The payload as text -/

/-- The digits of the payload in upper case, blanks aside. -/
def payloadDigits (p : Packet) : Text := (Text.compact p.payload).map Char.toUpper

/-- The digits of the payload in groups of eight, the last group filled with zeros. -/
def payloadGroups (p : Packet) : List Text := RawHex.groups (RawHex.fillWord p.payloadDigits)

/-- Whether the frame is an insertion that hides the last word of the payload. -/
def hidesLastGroup (p : Packet) : Bool :=
  [CodeType.insert, .insertLink, .insertXor].contains p.codeType &&
    p.payloadGroups.length % 2 = 1 &&
    p.payloadGroups.getLast?.any (["60000000".toList, "4E800020".toList].contains ·)

/-- The payload that is found again in a frame: the layout of its words, or of its
very digits when the frame counts bytes. -/
def keptPayload (p : Packet) : Text :=
  if p.codeType = .writeString then RawHex.layout (RawHex.groups p.payloadDigits)
  else if p.hidesLastGroup then RawHex.layout p.payloadGroups.dropLast
  else RawHex.layout p.payloadGroups

theorem payloadGroups_eq (h : Hex.encode bytes = p.payloadDigits) :
    p.payloadGroups = (Word.pack bytes).map Word.digits := by
  rw [payloadGroups, ← h, RawHex.groups_fillWord_encode]

/-- Whether the last word is hidden shows in the text of the payload. -/
theorem hidesLast_pack (h : Hex.encode bytes = p.payloadDigits)
    (insertion : p.codeType ∈ [CodeType.insert, .insertLink, .insertXor]) :
    p.hidesLastGroup = Footer.hidesLast (Word.pack bytes) := by
  have openers : ["60000000".toList, "4E800020".toList] = Footer.openers.map Word.digits := by
    decide
  have sameLast : ∀ w : Word, (Footer.openers.map Word.digits).contains w.digits =
      Footer.openers.contains w := by
    intro w
    rw [Bool.eq_iff_iff, List.contains_iff_mem, List.contains_iff_mem,
      List.mem_map_of_injective Word.digits_injective]
  rw [hidesLastGroup, payloadGroups_eq h, openers, Footer.hidesLast, List.length_map,
    List.getLast?_map, List.contains_iff_mem.mpr insertion, Bool.true_and, Option.any_map]
  exact congrArg _ (congrArg (Option.any · _) (funext sameLast))

theorem keptPayload_eq (framed : p.codeType ≠ .raw) (h : Hex.encode bytes = p.payloadDigits) :
    RawHex.ofBytes (keptBytes p.codeType bytes) = p.keptPayload := by
  have words := payloadGroups_eq h
  have insertion := hidesLast_pack h
  rw [keptPayload]
  cases hp : p.codeType with
  | raw => exact absurd hp framed
  | writeString => rw [if_pos rfl, keptBytes, RawHex.ofBytes, RawHex.ofDigits, h]
  | write32 | execute =>
    have : p.hidesLastGroup = false := by rw [hidesLastGroup, hp]; rfl
    rw [if_neg (by decide), this, words, keptBytes, RawHex.ofBytes_unpack]
    rfl
  | insert | insertLink | insertXor =>
    rw [if_neg (by decide), insertion (by simp [hp]), words, keptBytes, RawHex.ofBytes_unpack,
      ← List.map_dropLast]
    split <;> rfl

/-- Unframing a frame gives the packet again: its type, the parameters that its type
uses, and its payload in the layout of raw hex. Of the payload only its last word can
be missing, exactly when it is hidden. -/
theorem unframe_frame (framed : Text) (type : p.codeType ≠ .raw)
    (hex : RawHex.isHex (Text.compact p.payload) = true)
    (short : (Text.compact p.payload).length < 2 * 2 ^ 32) (h : p.frame = .ok framed) :
    unframe framed false =
      { payload := p.keptPayload
        codeType := p.codeType
        address := if p.codeType = .execute then none else p.address
        xor := if p.codeType = .insertXor then p.xor else none
        checksum := if p.codeType = .insertXor then p.checksum else none } := by
  obtain ⟨b, bytes, hparse, hdigits⟩ := Hex.parse_of_isHex hex
  have hshort : (b :: bytes).length < 2 ^ 32 := by
    have hlength := congrArg List.length hdigits
    rw [Hex.length_encode, List.length_map] at hlength
    omega
  obtain ⟨layout, hl⟩ : ∃ layout, p.codeType.layout? = some layout := by
    cases hp : p.codeType with
    | raw => exact absurd hp type
    | write32 | writeString | execute | insert | insertLink | insertXor => exact ⟨_, rfl⟩
  rw [frame_eq hl hparse hshort] at h
  cases hw : p.frameWords layout (b :: bytes) with
  | error e => simp [hw, Except.map] at h
  | ok words =>
    rw [hw] at h
    cases h
    rw [unframe_frameWords hl (by simp) hshort hw, kept, keptPayload_eq type hdigits]

/-- A guarded insertion whose last word is hidden, its payload in any layout and case. -/
theorem unframe_frame_hidden :
    let p : Packet := ⟨"4e800020\n3860 0001 600000".toList, .insertXor,
      some ⟨.pointer, true, 0x1234⟩, some 0xABCD, some 0x7F⟩
    let framed := "F5001234 7FABCD02\n4E800020 38600001\n60000000 00000000".toList
    p.codeType ≠ .raw ∧ RawHex.isHex (Text.compact p.payload) = true ∧
      (Text.compact p.payload).length < 2 * 2 ^ 32 ∧ p.frame = .ok framed ∧
      unframe framed false = ⟨"4E800020 38600001".toList, .insertXor,
        some ⟨.pointer, true, 0x1234⟩, some 0xABCD, some 0x7F⟩ := by
  intro p framed
  have type : p.codeType ≠ .raw := by decide
  have hex : RawHex.isHex (Text.compact p.payload) = true := by decide +kernel
  have short : (Text.compact p.payload).length < 2 * 2 ^ 32 := by decide +kernel
  have h : p.frame = .ok framed := by decide +kernel
  refine ⟨type, hex, short, h, (unframe_frame framed type hex short h).trans ?_⟩
  decide +kernel

end CheatCode.Packet

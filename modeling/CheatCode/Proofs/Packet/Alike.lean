import CheatCode.Proofs.Packet.Contents

/-!
# When two packets are framed alike

A frame tells its packet as far as the packet matters: type, address and guard are found
again, and so is the payload up to its layout and the zeros that fill its last word.
Only insertions frame two payloads alike that differ in more. An open last line is
completed by the zero that also ends a closing line, so the word that opens a closing
line may as well be the last word of the payload.
-/

namespace CheatCode

namespace Footer

/-- What closes a subroutine never hides where its payload ends. -/
theorem close_ofSubroutine_injective : Function.Injective ofSubroutine.close := by
  intro v w h
  have removed := congrArg (ofSubroutine.remove false) h
  rwa [remove_close_ofSubroutine, remove_close_ofSubroutine] at removed

/-- The words `longer` are those of a full body and the word that opens its closing line. -/
def AddsOpener (longer full : List Word) : Prop :=
  full.length % 2 = 0 ∧ longer = full ++ [ofInsertion.first]

theorem AddsOpener.close_eq {longer full : List Word} (h : AddsOpener longer full) :
    ofInsertion.close longer = ofInsertion.close full := by
  obtain ⟨even, rfl⟩ := h
  have odd : (full ++ [ofInsertion.first]).length % 2 = 1 := by
    rw [List.length_append, List.length_singleton]
    omega
  rw [close_of_odd odd, close_of_even even]
  rfl

/-- An odd body that is closed like an even one has one word more. -/
theorem addsOpener_of_close_eq {longer full : List Word} (odd : longer.length % 2 = 1)
    (even : full.length % 2 = 0) (h : ofInsertion.close longer = ofInsertion.close full) :
    AddsOpener longer full := by
  rw [close_of_odd odd, close_of_even even] at h
  exact ⟨even, List.append_inj_left' h rfl⟩

/-- Two insertions are closed alike only if they are the same or one has as its last word
what opens the closing line of the other. -/
theorem close_ofInsertion_eq_iff (v w : List Word) :
    ofInsertion.close v = ofInsertion.close w ↔ v = w ∨ AddsOpener v w ∨ AddsOpener w v := by
  constructor
  · intro h
    obtain hv | hv := Nat.mod_two_eq_zero_or_one v.length <;>
      obtain hw | hw := Nat.mod_two_eq_zero_or_one w.length
    · rw [close_of_even hv, close_of_even hw] at h
      exact Or.inl (List.append_cancel_right (List.append_cancel_right h))
    · exact Or.inr (Or.inr (addsOpener_of_close_eq hw hv h.symm))
    · exact Or.inr (Or.inl (addsOpener_of_close_eq hv hw h))
    · rw [close_of_odd hv, close_of_odd hw] at h
      exact Or.inl (List.append_cancel_right h)
  · rintro (rfl | h | h)
    · rfl
    · exact h.close_eq
    · exact h.close_eq.symm

end Footer

namespace Packet

variable {p q : Packet} {layout : Layout} {bytes bytes' : List UInt8} {words : List Word}

/-- The payload of `p` has the words of that of `q`, which fill whole lines, and one that
does nothing. -/
def AddsNop (p q : Packet) : Prop :=
  q.payloadGroups.length % 2 = 0 ∧ p.payloadGroups = q.payloadGroups ++ ["60000000".toList]

/-- Payloads that a frame of the type of `p` does not tell apart. -/
def SamePayload (p q : Packet) : Prop :=
  if p.codeType = .writeString then p.bytes = q.bytes
  else p.payloadGroups = q.payloadGroups ∨
    p.codeType ∈ CodeType.insertions ∧ (p.AddsNop q ∨ q.AddsNop p)

theorem addsNop_iff (hp : Hex.encode bytes = p.payloadDigits)
    (hq : Hex.encode bytes' = q.payloadDigits) :
    p.AddsNop q ↔ Footer.AddsOpener (Word.pack bytes) (Word.pack bytes') := by
  have nop : "60000000".toList = Word.digits Footer.ofInsertion.first := by decide
  rw [AddsNop, Footer.AddsOpener, payloadGroups_eq hp, payloadGroups_eq hq, List.length_map, nop,
    ← List.map_singleton, ← List.map_append,
    (List.map_injective_iff.mpr Word.digits_injective).eq_iff]

/-- The words of a frame tell its count and body. -/
theorem countedBody_eq_of_frameWords (short : bytes.length < 2 ^ 32)
    (short' : bytes'.length < 2 ^ 32) (hp : p.frameWords layout bytes = .ok words)
    (hq : q.frameWords layout bytes' = .ok words) :
    countedBody layout.header bytes = countedBody layout.header bytes' := by
  rw [frameWords] at hp hq
  cases hheader : layout.header with
  | perWord =>
    rw [hheader] at hp hq
    obtain ⟨a, -, hp⟩ := bind_eq_ok hp
    obtain ⟨b, -, hq⟩ := bind_eq_ok hq
    have same : writeWords layout a (Word.pack bytes) = writeWords layout b (Word.pack bytes') :=
      (Except.ok.inj hp).trans (Except.ok.inj hq).symm
    have every := congrArg alternate same
    rw [alternate_writeWords, alternate_writeWords] at every
    rw [countedBody, countedBody, every]
  | byteCount =>
    rw [hheader] at hp hq
    obtain ⟨a, -, hp⟩ := bind_eq_ok hp
    obtain ⟨b, -, hq⟩ := bind_eq_ok hq
    cases hp
    obtain ⟨-, hrest⟩ := List.cons.inj (Except.ok.inj hq)
    obtain ⟨hcount, hbody⟩ := List.cons.inj hrest
    have count := congrArg BitVec.toNat hcount
    rw [BitVec.toNat_ofNat, BitVec.toNat_ofNat, Nat.mod_eq_of_lt short,
      Nat.mod_eq_of_lt short'] at count
    rw [countedBody, countedBody, count, hbody]
  | subroutine =>
    rw [hheader] at hp hq
    cases hp
    obtain ⟨-, hrest⟩ := List.cons.inj (Except.ok.inj hq)
    obtain ⟨-, hbody⟩ := List.cons.inj hrest
    rw [countedBody, countedBody, hbody]
  | lineCount =>
    rw [hheader] at hp hq
    obtain ⟨a, -, hp⟩ := bind_eq_ok hp
    obtain ⟨b, -, hq⟩ := bind_eq_ok hq
    cases hp
    obtain ⟨-, hrest⟩ := List.cons.inj (Except.ok.inj hq)
    obtain ⟨-, hbody⟩ := List.cons.inj hrest
    rw [countedBody, countedBody, hbody]
  | checksummed =>
    rw [hheader] at hp hq
    obtain ⟨a, -, hp⟩ := bind_eq_ok hp
    obtain ⟨b, -, hq⟩ := bind_eq_ok hq
    obtain ⟨_, -, hp⟩ := bind_eq_ok hp
    obtain ⟨_, -, hq⟩ := bind_eq_ok hq
    cases hp
    obtain ⟨-, hrest⟩ := List.cons.inj (Except.ok.inj hq)
    obtain ⟨-, hbody⟩ := List.cons.inj hrest
    rw [countedBody, countedBody, hbody]

/-- Count and body tell the payload as far as its type of frame does. -/
theorem countedBody_eq_iff (hl : p.codeType.layout? = some layout)
    (hp : p.bytes = .ok bytes) (hq : q.bytes = .ok bytes')
    (digits : Hex.encode bytes = p.payloadDigits) (digits' : Hex.encode bytes' = q.payloadDigits) :
    countedBody layout.header bytes = countedBody layout.header bytes' ↔ SamePayload p q := by
  have words : p.payloadGroups = q.payloadGroups ↔ Word.pack bytes = Word.pack bytes' := by
    rw [payloadGroups_eq digits, payloadGroups_eq digits',
      (List.map_injective_iff.mpr Word.digits_injective).eq_iff]
  have insertion : Footer.ofInsertion.close (Word.pack bytes) =
      Footer.ofInsertion.close (Word.pack bytes') ↔
        p.payloadGroups = q.payloadGroups ∨ p.AddsNop q ∨ q.AddsNop p := by
    rw [Footer.close_ofInsertion_eq_iff, words, addsNop_iff digits digits',
      addsNop_iff digits' digits]
  have lines : ∀ v w : List Word, (v.length / 2, v) = (w.length / 2, w) ↔ v = w := by
    intro v w
    constructor
    · exact fun h => (Prod.mk.inj h).2
    · rintro rfl
      rfl
  rw [SamePayload]
  cases type : p.codeType with
  | raw => simp [type, CodeType.layout?] at hl
  | write32 =>
    rw [type] at hl
    cases hl
    simp [countedBody, words, CodeType.insertions]
  | writeString =>
    rw [type] at hl
    cases hl
    rw [if_pos rfl, hp, hq, Except.ok.injEq]
    constructor
    · intro h
      obtain ⟨hcount, hbody⟩ := Prod.mk.inj h
      rw [← Word.take_unpack_packPairs bytes, ← Word.take_unpack_packPairs bytes', hcount, hbody]
    · rintro rfl
      rfl
  | execute =>
    rw [type] at hl
    cases hl
    simp [countedBody, lines, Footer.close_ofSubroutine_injective.eq_iff, words,
      CodeType.insertions]
  | insert | insertLink | insertXor =>
    rw [type] at hl
    cases hl
    simp [countedBody, lines, insertion, CodeType.insertions]

theorem sameParameters_of_kept_eq (h : p.kept bytes = q.kept bytes') : SameParameters p q := by
  simp only [kept, Packet.mk.injEq] at h
  obtain ⟨-, codeType, address, xor, checksum⟩ := h
  refine ⟨codeType, ?_, ?_⟩
  · intro carried
    rwa [if_neg carried, if_neg (codeType ▸ carried)] at address
  · intro guarded
    rw [if_pos guarded, if_pos (codeType ▸ guarded)] at checksum xor
    exact ⟨checksum, xor⟩

/-- Two packets have the same frame exactly when they have the parameters of their type in
common and payloads that a frame of that type does not tell apart. -/
theorem frame_eq_frame_iff {f g : Text} (hp : p.Framable) (hq : q.Framable)
    (hf : p.frame = .ok f) (hg : q.frame = .ok g) :
    f = g ↔ SameParameters p q ∧ SamePayload p q := by
  obtain ⟨layout, bytes, words, hl, hbytes, nonempty, short, digits, hwords, rfl⟩ :=
    hp.exists_words hf
  obtain ⟨layout', bytes', words', hl', hbytes', nonempty', short', digits', hwords', rfl⟩ :=
    hq.exists_words hg
  constructor
  · intro h
    have found := unframe_frameWords hl nonempty short hwords
    rw [h, unframe_frameWords hl' nonempty' short' hwords'] at found
    have same := sameParameters_of_kept_eq found.symm
    rw [← same.codeType, hl] at hl'
    cases hl'
    rw [← RawHex.layout_digits_injective h] at hwords'
    have content := countedBody_eq_of_frameWords short short' hwords hwords'
    exact ⟨same, (countedBody_eq_iff hl hbytes hbytes' digits digits').mp content⟩
  · rintro ⟨same, payload⟩
    have content := (countedBody_eq_iff hl hbytes hbytes' digits digits').mpr payload
    rw [← same.codeType, hl] at hl'
    cases hl'
    rw [frame_eq_map hl hbytes nonempty, same.frameGroups_eq hl content,
      ← frame_eq_map (same.codeType ▸ hl) hbytes' nonempty', hg] at hf
    exact (Except.ok.inj hf).symm

/-- An insertion that ends in a word that does nothing, and another one without it. -/
theorem frame_eq_frame_nop :
    let p : Packet := ⟨"38600001 3880000260000000".toList, .insert,
      some ⟨.base, true, 0x1234⟩, none, none⟩
    let q : Packet := ⟨"3860 0001\n3880 0002".toList, .insert,
      some ⟨.base, true, 0x1234⟩, some 0xABCD, none⟩
    let framed := "C3001234 00000002\n38600001 38800002\n60000000 00000000".toList
    p.Framable ∧ q.Framable ∧ p.frame = .ok framed ∧ q.frame = .ok framed ∧
      p.payloadGroups ≠ q.payloadGroups ∧ SameParameters p q ∧ SamePayload p q := by
  intro p q framed
  have hp : p.Framable := ⟨by decide, by decide +kernel, by decide +kernel⟩
  have hq : q.Framable := ⟨by decide, by decide +kernel, by decide +kernel⟩
  have hf : p.frame = .ok framed := by decide +kernel
  have hg : q.frame = .ok framed := by decide +kernel
  have longer : p.payloadGroups ≠ q.payloadGroups := by decide +kernel
  exact ⟨hp, hq, hf, hg, longer, (frame_eq_frame_iff hp hq hf hg).mp rfl⟩

end Packet

end CheatCode

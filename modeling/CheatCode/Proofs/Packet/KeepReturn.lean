import CheatCode.Proofs.Packet.WellFormed

/-!
# Keeping the return of a subroutine

Whether the return that closes a subroutine is kept in its payload makes no difference to
any other type of code, and to a subroutine at most a difference of one word. The return
of a full closing line is kept, so the payload gains a word. Where the body ends in a zero
that belongs to no closing line the payload loses it instead, since only what follows a
return is looked at.

From a frame of its own a subroutine comes back with a return exactly when its words fill
whole lines: the return that completes an open line is taken off in either case.
-/

namespace CheatCode

namespace Footer

/-- A body that ends in a closing line ends in a zero after a word that opens one. -/
theorem endsFull_concat {footer : Footer} {front : List Word} {last : Word}
    (h : footer.endsFull (front ++ [last]) = true) :
    front.getLast? = some footer.first ∧ last = footer.second := by
  rw [endsFull, List.isSuffixOf_iff_suffix] at h
  obtain ⟨before, h⟩ := h
  rw [List.append_cons] at h
  obtain ⟨hfront, hlast⟩ := List.append_inj' h rfl
  rw [← hfront, ← (List.cons.inj hlast).1]
  exact ⟨List.getLast?_concat, rfl⟩

/-- With the first closing word kept, a return or a zero is taken off. -/
theorem remove_keepFirst_concat (front : List Word) (last : Word) :
    ofSubroutine.remove true (front ++ [last]) =
      if last = ofSubroutine.pad ∨ last = ofSubroutine.second then front
      else front ++ [last] := by
  simp [remove]

/-- Where there is no closing line, only a return is taken off. -/
theorem remove_concat {front : List Word} {last : Word}
    (h : last = 0 → ∀ opener ∈ openers, front.getLast? ≠ some opener) :
    ofSubroutine.remove false (front ++ [last]) =
      if last = ofSubroutine.pad then front else front ++ [last] := by
  have subroutine : ofSubroutine.endsFull (front ++ [last]) = false := by
    rw [Bool.eq_false_iff]
    intro full
    obtain ⟨hfront, zero⟩ := endsFull_concat full
    exact h zero _ (by decide) hfront
  have insertion : ofInsertion.endsFull (front ++ [last]) = false := by
    rw [Bool.eq_false_iff]
    intro full
    obtain ⟨hfront, zero⟩ := endsFull_concat full
    exact h zero _ (by decide) hfront
  simp [remove, subroutine, insertion]

/-- The body without its end, and the same with its first closing word kept: a closing line
leaves one word more behind, a zero of no closing line one word less, and anything else no
difference. -/
theorem remove_keepFirst (body : List Word) :
    let whole := ofSubroutine.remove false body
    let kept := ofSubroutine.remove true body
    (∀ front, ∀ opener ∈ openers, body = front ++ [opener, 0] →
      whole = front ∧ kept = front ++ [opener]) ∧
    (∀ front, (∀ opener ∈ openers, front.getLast? ≠ some opener) → body = front ++ [0] →
      whole = front ++ [0] ∧ kept = front) ∧
    (body.getLast? ≠ some 0 → kept = whole) := by
  refine ⟨?_, ?_, ?_⟩
  · rintro front opener mem rfl
    simp only [openers, List.mem_cons, List.not_mem_nil, or_false] at mem
    refine ⟨remove_append_pair ?_, ?_⟩
    · rw [endsFull_append_pair, endsFull_append_pair]
      exact mem.symm.imp (⟨·, rfl⟩) (⟨·, rfl⟩)
    · rw [List.append_cons, remove_keepFirst_concat, if_pos (by decide)]
  · rintro front others rfl
    refine ⟨?_, ?_⟩
    · rw [remove_concat fun _ => others, if_neg (by decide)]
    · rw [remove_keepFirst_concat, if_pos (by decide)]
  · intro other
    obtain rfl | ⟨front, last, rfl⟩ := List.eq_nil_or_concat body
    · rfl
    · rw [List.concat_eq_append] at other ⊢
      rw [List.getLast?_concat, ne_eq, Option.some.injEq] at other
      have noZero : last ≠ ofSubroutine.second := other
      rw [remove_keepFirst_concat, remove_concat fun zero => absurd zero other]
      simp only [noZero, or_false]

/-- A closed subroutine keeps its return exactly when its words fill whole lines. -/
theorem remove_keepFirst_close (body : List Word) :
    ofSubroutine.remove true (ofSubroutine.close body) =
      if body.length % 2 = 0 then body ++ [ofSubroutine.first] else body := by
  obtain even | odd := Nat.mod_two_eq_zero_or_one body.length
  · rw [close_of_even even, remove_keepFirst_concat, if_pos (by decide), if_pos even]
  · rw [close_of_odd odd, remove_keepFirst_concat, if_pos (by decide), if_neg (by omega)]

end Footer

theorem Lead.header_eq_subroutine_iff {lead : Lead}
    (h : lead.codeType.layout? = some lead.layout) :
    lead.layout.header = .subroutine ↔ lead.codeType = .execute := by
  obtain ⟨type, layout, half⟩ := lead
  cases type with
  | raw => cases h
  | write32 | writeString | execute | insert | insertLink | insertXor =>
    cases h
    simp

namespace Packet

/-- Only the frame of a subroutine has a return to keep. -/
theorem ofWords_keepReturn {lead : Lead} (h : lead.layout.header ≠ .subroutine)
    (first second : Word) (body : List Word) :
    ofWords lead true first second body = ofWords lead false first second body := by
  rw [ofWords, ofWords]
  cases hheader : lead.layout.header with
  | subroutine => exact absurd hheader h
  | perWord | byteCount | lineCount | checksummed => rfl

theorem payload_ofWords_of_subroutine {lead : Lead} (h : lead.layout.header = .subroutine)
    (keepReturn : Bool) (first second : Word) (body : List Word) :
    (ofWords lead keepReturn first second body).payload =
      RawHex.layout ((Footer.ofSubroutine.remove keepReturn body).map Word.digits) := by
  have ended : lead.layout.header.footer? = some .ofSubroutine := by rw [h]; rfl
  rw [payload_ofWords lead keepReturn first second body ended, RawHex.ofBytes_unpack, h]
  rfl

/-- Nothing but the payload depends on whether the return is kept. -/
theorem ofWords_eq_of_keepReturn (lead : Lead) (first second : Word) (body : List Word) :
    ofWords lead true first second body =
      { ofWords lead false first second body with
        payload := (ofWords lead true first second body).payload } := by
  rw [ofWords, ofWords]
  cases lead.layout.header <;> rfl

/-- From its own frame a subroutine comes back with a return exactly when its words fill
whole lines. -/
theorem exists_unframe_keepReturn {p : Packet} (framable : p.Framable)
    (execute : p.codeType = .execute) :
    ∃ framed, p.frame = .ok framed ∧ (unframe framed true).payload = RawHex.layout
      (p.payloadGroups ++ if p.payloadGroups.length % 2 = 0 then ["4E800020".toList] else []) := by
  obtain ⟨bytes, hbytes, nonempty, short, digits⟩ := framable.exists_bytes
  have hl : p.codeType.layout? = some ⟨0xC0, 0xC0, .subroutine⟩ := by rw [execute]; rfl
  have lead : Lead.ofByte? (Word.byte 0xC0000000 3) =
      some ⟨.execute, ⟨0xC0, 0xC0, .subroutine⟩, none⟩ := by decide
  refine ⟨_, frame_eq_map_words hl hbytes nonempty short, ?_⟩
  rw [unframe_layout lead, payload_ofWords_of_subroutine rfl, Footer.remove_keepFirst_close,
    payloadGroups_eq digits, List.length_map]
  split
  · rw [List.map_append]
    rfl
  · rw [List.append_nil]

/-- Keeping the return makes a difference to a subroutine only, and to its payload only. The
payload gains the word that opens its closing line, or loses the zero that it ends in
otherwise. -/
theorem unframe_keepReturn (t : Text) :
    let whole := unframe t false
    let kept := unframe t true
    kept = { whole with payload := kept.payload } ∧
    (whole.codeType ≠ .execute → kept = whole) ∧
    (whole.codeType = .execute → ∃ first second body,
      RawHex.groups (upperDigits t) = (first :: second :: body).map Word.digits ∧
      (∀ front, ∀ opener ∈ [0x60000000, 0x4E800020], body = front ++ [opener, 0] →
        whole.payload = RawHex.layout (front.map Word.digits) ∧
        kept.payload = RawHex.layout ((front ++ [opener]).map Word.digits)) ∧
      (∀ front, (∀ opener ∈ [0x60000000, 0x4E800020], front.getLast? ≠ some opener) →
        body = front ++ [0] →
        whole.payload = RawHex.layout ((front ++ [0]).map Word.digits) ∧
        kept.payload = RawHex.layout (front.map Word.digits)) ∧
      (body.getLast? ≠ some 0 → kept = whole)) ∧
    ∀ p : Packet, p.Framable → p.codeType = .execute → ∃ framed, p.frame = .ok framed ∧
      (unframe framed true).payload = RawHex.layout (p.payloadGroups ++
        if p.payloadGroups.length % 2 = 0 then ["4E800020".toList] else []) := by
  intro whole kept
  by_cases frame : IsFrame t
  · obtain ⟨lead, first, second, body, hlead, hwords, hunframe⟩ := frame.exists_ofWords
    obtain ⟨-, hl⟩ := Lead.of_ofByte?_eq_some hlead
    have header := Lead.header_eq_subroutine_iff hl
    have hwhole : whole = ofWords lead false first second body := hunframe false
    have hkept : kept = ofWords lead true first second body := hunframe true
    have same : kept = { whole with payload := kept.payload } := by
      rw [hwhole, hkept]
      exact ofWords_eq_of_keepReturn lead first second body
    have type : whole.codeType = lead.codeType := by rw [hwhole, codeType_ofWords]
    refine ⟨same, ?_, ?_, fun p => exists_unframe_keepReturn⟩
    · intro other
      rw [type, ne_eq, ← header] at other
      rw [hwhole, hkept, ofWords_keepReturn other]
    · intro execute
      rw [type, ← header] at execute
      obtain ⟨closed, zero, neither⟩ := Footer.remove_keepFirst body
      have left := payload_ofWords_of_subroutine execute false first second body
      have left' := payload_ofWords_of_subroutine execute true first second body
      rw [← hwhole] at left
      rw [← hkept] at left'
      refine ⟨first, second, body, by rw [hwords, RawHex.groups_encode_unpack], ?_, ?_, ?_⟩
      · intro front opener mem hbody
        obtain ⟨h, h'⟩ := closed front opener mem hbody
        rw [left, left', h, h']
        exact ⟨rfl, rfl⟩
      · intro front others hbody
        obtain ⟨h, h'⟩ := zero front others hbody
        rw [left, left', h, h']
        exact ⟨rfl, rfl⟩
      · intro other
        rw [same, left', neither other, ← left]
  · have hwhole : whole = raw t := unframe_of_not_isFrame frame false
    have hkept : kept = raw t := unframe_of_not_isFrame frame true
    rw [hwhole, hkept]
    have other : (raw t).codeType ≠ .execute := by simp [raw]
    exact ⟨rfl, fun _ => rfl, fun execute => absurd execute other,
      fun p => exists_unframe_keepReturn⟩

/-- A zero that ends an unclosed body is lost where the return is kept. -/
example : (unframe "C000000000000001 38600001 00000000".toList false).payload =
      "38600001 00000000".toList ∧
    (unframe "C000000000000001 38600001 00000000".toList true).payload = "38600001".toList := by
  decide +kernel

end Packet

end CheatCode

import CheatCode.Proofs.Packet.Alike

/-!
# Framing again what was taken apart

A frame that is taken apart and framed again is the same frame: whatever was filled in
around the payload is filled in once more. This holds even where the payload came back
without its last word, as long as that word is the one that opens a closing line anyway.
Where the last word was a return it is replaced by that word, and where it was the only
one there is no payload left to frame.
-/

namespace CheatCode

namespace Footer

theorem hidesLast_concat (front : List Word) (last : Word) :
    hidesLast (front ++ [last]) = true ↔ front.length % 2 = 0 ∧ last ∈ openers := by
  have parity : (front.length + 1) % 2 = 1 ↔ front.length % 2 = 0 := by omega
  simp [hidesLast, parity]

/-- A hidden word is the last of its body. -/
theorem exists_of_hidesLast {body : List Word} (h : hidesLast body = true) :
    ∃ front last, body = front ++ [last] ∧ front.length % 2 = 0 ∧ last ∈ openers := by
  obtain rfl | ⟨front, last, rfl⟩ := List.eq_nil_or_concat body
  · cases h
  · rw [List.concat_eq_append] at h ⊢
    exact ⟨front, last, rfl, (hidesLast_concat front last).mp h⟩

end Footer

namespace Packet

variable {p : Packet} {type : CodeType} {layout : Layout} {bytes : List UInt8}
  {front : List Word} {last : Word} {framed : Text}

theorem bytes_kept : (p.kept bytes).bytes = .ok (keptBytes p.codeType bytes) :=
  RawHex.parse_ofBytes _

/-- The parameters of its type are found again in a frame. -/
theorem sameParameters_kept : SameParameters p (p.kept bytes) where
  codeType := rfl
  address carried := (if_neg carried).symm
  guard guarded := ⟨(if_pos guarded).symm, (if_pos guarded).symm⟩

/-- A packet is framed like one with the same count and body found in its frame. -/
theorem frame_kept_eq (hl : p.codeType.layout? = some layout) (hbytes : p.bytes = .ok bytes)
    (nonempty : bytes ≠ []) (left : keptBytes p.codeType bytes ≠ [])
    (content : countedBody layout.header (keptBytes p.codeType bytes) =
      countedBody layout.header bytes) :
    (p.kept bytes).frame = p.frame := by
  have again : (p.kept bytes).codeType.layout? = some layout := hl
  rw [frame_eq_map hl hbytes nonempty, frame_eq_map again bytes_kept left,
    sameParameters_kept.frameGroups_eq hl content.symm]

theorem countedBody_of_insertion (hl : type.layout? = some layout)
    (insertion : type ∈ CodeType.insertions) (bytes : List UInt8) :
    layout.header ≠ .perWord ∧ countedBody layout.header bytes =
      let body := Footer.ofInsertion.close (Word.pack bytes)
      (body.length / 2, body) := by
  simp only [CodeType.insertions, List.mem_cons, List.not_mem_nil, or_false] at insertion
  obtain rfl | rfl | rfl := insertion
  all_goals
    cases hl
    exact ⟨by decide, rfl⟩

theorem keptBytes_of_insertion (insertion : type ∈ CodeType.insertions) (bytes : List UInt8) :
    keptBytes type bytes = Word.unpack
      (if Footer.hidesLast (Word.pack bytes) then (Word.pack bytes).dropLast
        else Word.pack bytes) := by
  simp only [CodeType.insertions, List.mem_cons, List.not_mem_nil, or_false] at insertion
  obtain rfl | rfl | rfl := insertion
  all_goals rfl

theorem keptBytes_of_hidden (insertion : type ∈ CodeType.insertions)
    (hpack : Word.pack bytes = front ++ [last]) (even : front.length % 2 = 0)
    (opener : last ∈ Footer.openers) : keptBytes type bytes = Word.unpack front := by
  rw [keptBytes_of_insertion insertion, hpack,
    if_pos ((Footer.hidesLast_concat front last).mpr ⟨even, opener⟩), List.dropLast_concat]

/-- Where no word is hidden the payload comes back with all its words. -/
theorem keptBytes_of_not_hidden (bytes : List UInt8)
    (shown : type ∈ CodeType.insertions → Footer.hidesLast (Word.pack bytes) = false) :
    keptBytes type bytes = bytes ∨ type ≠ .writeString ∧
      keptBytes type bytes = Word.unpack (Word.pack bytes) := by
  by_cases insertion : type ∈ CodeType.insertions
  · refine Or.inr ⟨?_, ?_⟩
    · rintro rfl
      simp [CodeType.insertions] at insertion
    · rw [keptBytes_of_insertion insertion, shown insertion]
      rfl
  · cases type with
    | writeString => exact Or.inl rfl
    | raw | write32 | execute => exact Or.inr ⟨by decide, rfl⟩
    | insert | insertLink | insertXor => simp [CodeType.insertions] at insertion

theorem unpack_ne_nil {words : List Word} (h : words ≠ []) : Word.unpack words ≠ [] := by
  obtain ⟨w, rest, rfl⟩ := List.exists_cons_of_ne_nil h
  simp [Word.bytes]

/-- Only a header that counts bytes tells a payload from its filled words. -/
theorem countedBody_unpack_pack {header : Header} (h : header ≠ .byteCount)
    (bytes : List UInt8) :
    countedBody header (Word.unpack (Word.pack bytes)) = countedBody header bytes := by
  cases header with
  | byteCount => exact absurd rfl h
  | perWord | subroutine | lineCount | checksummed => simp only [countedBody, Word.pack_unpack]

theorem frame_kept_of_not_hidden (hl : p.codeType.layout? = some layout)
    (hbytes : p.bytes = .ok bytes) (nonempty : bytes ≠ [])
    (shown : p.codeType ∈ CodeType.insertions → Footer.hidesLast (Word.pack bytes) = false) :
    (p.kept bytes).frame = p.frame := by
  obtain same | ⟨uncounted, same⟩ := keptBytes_of_not_hidden bytes shown
  · exact frame_kept_eq hl hbytes nonempty (by rwa [same]) (by rw [same])
  · have header : layout.header ≠ .byteCount := by
      cases type : p.codeType with
      | writeString => exact absurd type uncounted
      | raw => simp [type, CodeType.layout?] at hl
      | write32 | execute | insert | insertLink | insertXor =>
        rw [type] at hl
        cases hl
        decide
    have left : Word.pack bytes ≠ [] := fun none => nonempty (Word.pack_eq_nil none)
    apply frame_kept_eq hl hbytes nonempty
    · rw [same]
      exact unpack_ne_nil left
    · rw [same, countedBody_unpack_pack header]

/-- The frame of an insertion is a header, which depends on the number of lines, and the
closed body. -/
theorem frame_of_insertion (hl : p.codeType.layout? = some layout)
    (insertion : p.codeType ∈ CodeType.insertions) (hbytes : p.bytes = .ok bytes)
    (nonempty : bytes ≠ []) :
    let body := Footer.ofInsertion.close (Word.pack bytes)
    p.frame = (p.headerGroups layout (body.length / 2)).map
      fun header => RawHex.layout (header ++ body.map Word.digits) := by
  intro body
  obtain ⟨header, content⟩ := countedBody_of_insertion hl insertion bytes
  rw [frame_eq_map hl hbytes nonempty, frameGroups_eq_headerGroups header, content]
  cases p.headerGroups layout (body.length / 2) with
  | error e => rfl
  | ok groups => rfl

/-- The text of an insertion whose last line holds `last` and a zero. -/
def closedBy (first second : Word) (front : List Word) (last : Word) : Text :=
  RawHex.layout ((first :: second :: front ++ [last, 0]).map Word.digits)

theorem closedBy_eq_groups (first second : Word) (front : List Word) (last : Word) :
    closedBy first second front last = RawHex.layout
      (first.digits :: second.digits :: front.map Word.digits ++
        [last.digits, "00000000".toList]) := by
  have zero : Word.digits 0 = "00000000".toList := by decide
  rw [closedBy, List.map_append, List.map_cons, List.map_cons, List.map_cons, List.map_singleton,
    zero]

theorem closedBy_eq_iff {first second : Word} {a b : Word} :
    closedBy first second front a = closedBy first second front b ↔ a = b := by
  constructor
  · intro h
    have line := List.append_cancel_left (RawHex.layout_digits_injective h)
    exact (List.cons.inj line).1
  · rintro rfl
    rfl

/-- An insertion that comes back without its last word is framed again with the word that
opens a closing line in its place. -/
theorem frame_kept_of_hidden (hl : p.codeType.layout? = some layout)
    (insertion : p.codeType ∈ CodeType.insertions) (hbytes : p.bytes = .ok bytes)
    (short : bytes.length < 2 ^ 32) (hpack : Word.pack bytes = front ++ [last])
    (even : front.length % 2 = 0) (opener : last ∈ Footer.openers) (more : front ≠ [])
    (h : p.frame = .ok framed) :
    ∃ first second : Word, framed = closedBy first second front last ∧
      (p.kept bytes).frame = .ok (closedBy first second front Footer.ofInsertion.first) := by
  have nonempty : bytes ≠ [] := by
    rintro rfl
    simp [Word.pack] at hpack
  have left : keptBytes p.codeType bytes = Word.unpack front :=
    keptBytes_of_hidden insertion hpack even opener
  have nonempty' : keptBytes p.codeType bytes ≠ [] := by
    rw [left]
    exact unpack_ne_nil more
  have closed : Footer.ofInsertion.close (Word.pack bytes) = front ++ [last, 0] := by
    rw [hpack, Footer.close_of_odd (by rw [List.length_append, List.length_singleton]; omega),
      List.append_assoc]
    rfl
  have closed' : Footer.ofInsertion.close (Word.pack (keptBytes p.codeType bytes)) =
      front ++ [Footer.ofInsertion.first, 0] := by
    rw [left, Word.pack_unpack, Footer.close_of_even even, List.append_assoc]
    rfl
  have again : (p.kept bytes).frame = _ :=
    frame_of_insertion (p := p.kept bytes) hl insertion bytes_kept nonempty'
  rw [frame_of_insertion hl insertion hbytes nonempty, closed] at h
  rw [closed', ← sameParameters_kept.headerGroups_eq hl] at again
  have count : (front ++ [last, 0]).length / 2 < 2 ^ 32 := by
    rw [← closed]
    exact length_close_lt short
  cases hheader : p.headerGroups layout ((front ++ [last, 0]).length / 2) with
  | error e =>
    rw [hheader] at h
    cases h
  | ok header =>
    obtain ⟨first, second, rfl⟩ := exists_of_headerGroups_eq_ok count hheader
    have sameLength : (front ++ [Footer.ofInsertion.first, 0]).length / 2 =
        (front ++ [last, 0]).length / 2 := by
      simp
    rw [hheader] at h
    rw [sameLength, hheader] at again
    exact ⟨first, second, (Except.ok.inj h).symm, again⟩

/-- An insertion of one word, a word that opens a closing line. -/
def Vanishes (p : Packet) : Prop :=
  p.codeType ∈ CodeType.insertions ∧
    (p.payloadGroups = ["60000000".toList] ∨ p.payloadGroups = ["4E800020".toList])

/-- An insertion of an odd number of words, more than one, that ends in a return. -/
def EndsInReturn (p : Packet) : Prop :=
  p.codeType ∈ CodeType.insertions ∧ p.payloadGroups.length % 2 = 1 ∧
    1 < p.payloadGroups.length ∧ p.payloadGroups.getLast? = some "4E800020".toList

/-- In both cases the last word of the payload is hidden in the frame. -/
theorem hidesLastGroup_of_exception (h : p.Vanishes ∨ p.EndsInReturn) :
    p.codeType ∈ CodeType.insertions ∧ p.hidesLastGroup = true := by
  have insertion : p.codeType ∈ CodeType.insertions := h.elim (·.1) (·.1)
  have contained : [CodeType.insert, .insertLink, .insertXor].contains p.codeType = true :=
    List.contains_iff_mem.mpr insertion
  refine ⟨insertion, ?_⟩
  rw [hidesLastGroup, contained]
  obtain ⟨-, alone | alone⟩ | ⟨-, odd, -, last⟩ := h
  · rw [alone]
    decide
  · rw [alone]
    decide
  · rw [odd, last]
    decide

theorem vanishes_iff (insertion : p.codeType ∈ CodeType.insertions)
    (hgroups : p.payloadGroups = (front ++ [last]).map Word.digits)
    (opener : last ∈ Footer.openers) : p.Vanishes ↔ front = [] := by
  constructor
  · rintro ⟨-, h⟩
    have length : p.payloadGroups.length = 1 := by
      obtain h | h := h <;> rw [h] <;> rfl
    rw [hgroups, List.length_map, List.length_append, List.length_singleton] at length
    exact List.eq_nil_of_length_eq_zero (by omega)
  · rintro rfl
    refine ⟨insertion, ?_⟩
    rw [hgroups]
    simp only [Footer.openers, List.mem_cons, List.not_mem_nil, or_false] at opener
    obtain rfl | rfl := opener
    · exact Or.inl (by decide)
    · exact Or.inr (by decide)

theorem endsInReturn_iff (insertion : p.codeType ∈ CodeType.insertions)
    (hgroups : p.payloadGroups = (front ++ [last]).map Word.digits)
    (even : front.length % 2 = 0) :
    p.EndsInReturn ↔ front ≠ [] ∧ last = Footer.ofSubroutine.first := by
  have word : "4E800020".toList = Word.digits Footer.ofSubroutine.first := by decide
  rw [EndsInReturn, hgroups, List.length_map, List.length_append, List.length_singleton,
    List.getLast?_map, List.getLast?_concat, Option.map_some, word, Option.some.injEq,
    Word.digits_injective.eq_iff, ← List.length_pos_iff]
  constructor
  · rintro ⟨-, -, more, same⟩
    exact ⟨by omega, same⟩
  · rintro ⟨more, same⟩
    exact ⟨insertion, by omega, by omega, same⟩

/-- No frame is empty: it is taken apart into a packet that is not raw. -/
theorem frame_ne_nil (framable : p.Framable) (h : p.frame = .ok framed) : framed ≠ [] := by
  obtain ⟨layout, bytes, words, hl, -, nonempty, short, -, hwords, rfl⟩ :=
    framable.exists_words h
  intro empty
  have found := unframe_frameWords hl nonempty short hwords
  rw [empty] at found
  exact framable.type (congrArg Packet.codeType found).symm

section

variable (hl : p.codeType.layout? = some layout) (hbytes : p.bytes = .ok bytes)
  (nonempty : bytes ≠ []) (short : bytes.length < 2 ^ 32)
  (digits : Hex.encode bytes = p.payloadDigits) (h : p.frame = .ok framed)
include digits

theorem frame_kept_of_vanishes (vanishes : p.Vanishes) : (p.kept bytes).frame = .ok [] := by
  obtain ⟨insertion, hides⟩ := hidesLastGroup_of_exception (.inl vanishes)
  rw [hidesLast_pack digits insertion] at hides
  obtain ⟨front, last, hpack, even, opener⟩ := Footer.exists_of_hidesLast hides
  have groups := payloadGroups_eq digits
  rw [hpack] at groups
  have none : keptBytes p.codeType bytes = [] := by
    rw [keptBytes_of_hidden insertion hpack even opener,
      (vanishes_iff insertion groups opener).mp vanishes]
    rfl
  rw [frame_of_no_bytes (by rw [bytes_kept, none]), kept, none]
  rfl

include hl hbytes short h

theorem frame_kept_of_endsInReturn (ends : p.EndsInReturn) :
    ∃ first second front, p.payloadGroups.dropLast = front.map Word.digits ∧
      framed = closedBy first second front Footer.ofSubroutine.first ∧
      (p.kept bytes).frame = .ok (closedBy first second front Footer.ofInsertion.first) := by
  obtain ⟨insertion, hides⟩ := hidesLastGroup_of_exception (.inr ends)
  rw [hidesLast_pack digits insertion] at hides
  obtain ⟨front, last, hpack, even, opener⟩ := Footer.exists_of_hidesLast hides
  have groups := payloadGroups_eq digits
  rw [hpack] at groups
  obtain ⟨more, rfl⟩ := (endsInReturn_iff insertion groups even).mp ends
  obtain ⟨first, second, hframed, hagain⟩ :=
    frame_kept_of_hidden hl insertion hbytes short hpack even opener more h
  refine ⟨first, second, front, ?_, hframed, hagain⟩
  rw [groups, ← List.map_dropLast, List.dropLast_concat]

include nonempty

/-- In all other cases the frame is found again, also where its last word was hidden. -/
theorem frame_kept_of_regular (stays : ¬p.Vanishes) (opens : ¬p.EndsInReturn) :
    (p.kept bytes).frame = .ok framed := by
  by_cases hidden : p.codeType ∈ CodeType.insertions ∧
      Footer.hidesLast (Word.pack bytes) = true
  · obtain ⟨insertion, hides⟩ := hidden
    obtain ⟨front, last, hpack, even, opener⟩ := Footer.exists_of_hidesLast hides
    have groups := payloadGroups_eq digits
    rw [hpack] at groups
    have more : front ≠ [] := fun none =>
      stays ((vanishes_iff insertion groups opener).mpr none)
    have nop : last = Footer.ofInsertion.first := by
      simp only [Footer.openers, List.mem_cons, List.not_mem_nil, or_false] at opener
      exact opener.resolve_right fun same =>
        opens ((endsInReturn_iff insertion groups even).mpr ⟨more, same⟩)
    obtain ⟨first, second, hframed, hagain⟩ :=
      frame_kept_of_hidden hl insertion hbytes short hpack even opener more h
    rw [hagain, hframed, nop]
  · rw [← h]
    apply frame_kept_of_not_hidden hl hbytes nonempty
    intro insertion
    simpa [insertion] using hidden

end

/-- A frame that is taken apart is framed again as it was, with two exceptions among the
insertions: a payload that vanishes leaves nothing to frame, and a return at the end of
an odd number of words is replaced. -/
theorem frame_unframe_frame (framable : p.Framable) (h : p.frame = .ok framed) :
    let again := (unframe framed false).frame
    (again = .ok framed ↔ ¬p.Vanishes ∧ ¬p.EndsInReturn) ∧
      (p.Vanishes → again = .ok []) ∧
      (p.EndsInReturn → ∃ first second : Word,
        let frame (last : Text) := RawHex.layout
          (first.digits :: second.digits :: p.payloadGroups.dropLast ++ [last, "00000000".toList])
        framed = frame "4E800020".toList ∧ again = .ok (frame "60000000".toList)) := by
  obtain ⟨layout, bytes, words, hl, hbytes, nonempty, short, digits, hwords, hframed⟩ :=
    framable.exists_words h
  intro again
  have found : again = (p.kept bytes).frame := by
    rw [← unframe_frameWords hl nonempty short hwords, ← hframed]
  rw [found]
  refine ⟨⟨fun same => ⟨?_, ?_⟩, ?_⟩, frame_kept_of_vanishes digits, ?_⟩
  · intro vanishes
    rw [frame_kept_of_vanishes digits vanishes] at same
    exact frame_ne_nil framable h (Except.ok.inj same).symm
  · intro ends
    obtain ⟨first, second, front, -, rfl, hagain⟩ :=
      frame_kept_of_endsInReturn hl hbytes short digits h ends
    rw [hagain, Except.ok.injEq, closedBy_eq_iff] at same
    exact absurd same (by decide)
  · rintro ⟨stays, opens⟩
    exact frame_kept_of_regular hl hbytes nonempty short digits h stays opens
  · intro ends
    obtain ⟨first, second, front, hfront, hold, hagain⟩ :=
      frame_kept_of_endsInReturn hl hbytes short digits h ends
    have words : "60000000".toList = Footer.ofInsertion.first.digits ∧
        "4E800020".toList = Footer.ofSubroutine.first.digits := by decide
    rw [hold, hagain, hfront, words.1, words.2]
    exact ⟨first, second, closedBy_eq_groups .., congrArg Except.ok (closedBy_eq_groups ..)⟩

/-- A return in an open last line is not found again. -/
theorem frame_unframe_frame_return :
    let p : Packet := ⟨"3860 0001\n60000000 4e800020".toList, .insertLink,
      some ⟨.pointer, true, 0x1234⟩, none, none⟩
    let framed := "D5001234 00000002\n38600001 60000000\n4E800020 00000000".toList
    let again := (unframe framed false).frame
    p.Framable ∧ p.frame = .ok framed ∧ p.EndsInReturn ∧ again ≠ .ok framed ∧
      ∃ first second : Word, again = .ok (RawHex.layout [first.digits, second.digits,
        "38600001".toList, "60000000".toList, "60000000".toList, "00000000".toList]) := by
  intro p framed again
  have framable : p.Framable := ⟨by decide, by decide +kernel, by decide +kernel⟩
  have h : p.frame = .ok framed := by decide +kernel
  have ends : p.EndsInReturn :=
    ⟨by decide, by decide +kernel, by decide +kernel, by decide +kernel⟩
  have front : p.payloadGroups.dropLast = ["38600001".toList, "60000000".toList] := by
    decide +kernel
  obtain ⟨regular, -, replaced⟩ := frame_unframe_frame framable h
  obtain ⟨first, second, -, hagain⟩ := replaced ends
  rw [front] at hagain
  exact ⟨framable, h, ends, fun same => (regular.mp same).2 ends, first, second, hagain⟩

end Packet

end CheatCode

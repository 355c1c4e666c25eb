import CheatCode.Proofs.Packet.FrameLines
import CheatCode.Proofs.Packet.Recognition
import CheatCode.Proofs.Text.Lines

/-!
# Single writes

Single writes are framed without a header in front of them: a frame is a line for every
word of the payload, and each line names the address it writes at. Two frames can
therefore be put one behind the other, and a long payload may be cut between any two
words.

What makes this delicate is the end of a half of memory. The half is in the leading byte,
which is the same on all lines, and only the offset moves on. Behind the last word of a
half the writes start again at its first word and not in the other half.
-/

namespace CheatCode

namespace Address

variable (a b : Address)

theorem toNat_offset_advance (n : Nat) :
    (a.advance n).offset.toNat = (a.offset.toNat + n) % 2 ^ 24 := by
  rw [advance, BitVec.toNat_add, BitVec.toNat_ofNat]
  omega

theorem advance_eq (n : Nat) :
    a.advance n = ⟨a.region, a.high, BitVec.ofNat 24 (a.offset.toNat + n)⟩ := by
  simp [advance, BitVec.ofNat_add]

@[simp] theorem advance_zero : a.advance 0 = a := by simp [advance]

@[simp] theorem advance_advance (m n : Nat) : (a.advance m).advance n = a.advance (m + n) := by
  simp [advance, BitVec.add_assoc, BitVec.ofNat_add]

/-- Addresses past the end of a half are those that were left behind. -/
theorem advance_eq_advance_iff (m n : Nat) :
    a.advance m = a.advance n ↔ m % 2 ^ 24 = n % 2 ^ 24 := by
  have hm := a.toNat_offset_advance m
  have hn := a.toNat_offset_advance n
  constructor
  · intro h
    rw [h, hn] at hm
    omega
  · intro h
    have offset : (a.advance m).offset = (a.advance n).offset := by
      apply BitVec.eq_of_toNat_eq
      rw [hm, hn]
      omega
    exact congrArg (Address.mk a.region a.high) offset

/-- The place of an address in its region, in which the upper half follows the lower. -/
def position : Nat := (if a.high then 2 ^ 24 else 0) + a.offset.toNat

variable {a b}

/-- Moving on inside of a half moves the place on by as much, and only that does: past the
end of the half the place falls back. -/
theorem position_eq_add_iff {n : Nat} (half : a.high = b.high)
    (offset : a.offset.toNat = (b.offset.toNat + n) % 2 ^ 24) :
    a.position = b.position + n ↔ b.offset.toNat + n < 2 ^ 24 := by
  rw [position, position, half, offset]
  omega

/-- The first word of a frame is the leading byte in front of the offset. -/
theorem digits_leadWord (a : Address) (layout : Layout) :
    (a.leadWord layout).digits =
      Hex.byteDigits (a.leadByte layout) ++ Hex.fixed 6 a.offset.toNat := by
  rw [Word.digits, toNat_leadWord, Hex.byteDigits_eq_fixed, Hex.fixed_append 2 6 _ _ a.offset.isLt]
  rfl

end Address

namespace Packet

variable {layout : Layout} {a : Address}

/-- The lines of writes from `a` on. -/
def writeRows (layout : Layout) (a : Address) (words : List Word) : List Row :=
  words.mapIdx fun i w => ⟨((a.advance (4 * i)).leadWord layout).digits, w.digits⟩

theorem writeRows_cons (w : Word) (words : List Word) :
    writeRows layout a (w :: words) =
      ⟨(a.leadWord layout).digits, w.digits⟩ :: writeRows layout (a.advance 4) words := by
  have next : ∀ i, 4 + 4 * i = 4 * (i + 1) := by omega
  simp [writeRows, List.mapIdx_cons, next]

/-- Writes go on where the ones before them end. -/
theorem writeRows_append (v w : List Word) :
    writeRows layout a (v ++ w) =
      writeRows layout a v ++ writeRows layout (a.advance (4 * v.length)) w := by
  have next : ∀ i, 4 * (i + v.length) = 4 * v.length + 4 * i := by omega
  simp [writeRows, List.mapIdx_append, next]

theorem ofGroups_writes (words : List Word) :
    Row.ofGroups (writes layout a words) = writeRows layout a words := by
  induction words generalizing a with
  | nil => rfl
  | cons w words ih => rw [writes, Row.ofGroups_cons_cons, ih, writeRows_cons]

/-- The second groups are the words that are written. -/
theorem map_second_writeRows (words : List Word) :
    (writeRows layout a words).map Row.second = words.map Word.digits := by
  rw [← ofGroups_writes, writes_eq_map_digits]
  exact (ofGroups_writeWords layout a words).2

/-- Writes are laid out as their lines. -/
theorem layout_writes (words : List Word) :
    RawHex.layout (writes layout a words) =
      Text.unlines ((writeRows layout a words).map Row.text) := by
  have even : (writes layout a words).length % 2 = 0 := by
    rw [writes_eq_map_digits, List.length_map]
    exact (ofGroups_writeWords layout a words).1
  rw [Row.layout_eq_unlines even, ofGroups_writes]

end Packet

namespace Row

/-- A line that writes at `a`. -/
structure WritesAt (row : Row) (a : Address) : Prop where
  /-- The leading byte stands for a single write in the region and half of `a`, and the
  offset of `a` follows. -/
  digits : ∃ byte layout,
    Lead.ofByte? byte = some ⟨.write32, layout, some (a.region, a.high)⟩ ∧
      row.first = Hex.byteDigits byte ++ Hex.fixed 6 a.offset.toNat
  /-- Taken on its own, the line is a single write at `a`. -/
  alone : ∀ keepReturn, Packet.unframe row.text keepReturn =
    ⟨row.second, .write32, some a, none, none⟩

/-- A line writes at one address only. -/
theorem WritesAt.unique {row : Row} {a b : Address} (ha : row.WritesAt a)
    (hb : row.WritesAt b) : a = b := by
  have same := (ha.alone false).symm.trans (hb.alone false)
  simpa using same

/-- Lines that write words one after another from `start` on. -/
structure Successive (rows : List Row) (start : Address) : Prop where
  /-- Every line writes in the region and half of `start`, as far behind it as the words of
  the lines before take, where the end of the half is followed by its beginning. -/
  line : ∀ i row, rows[i]? = some row → ∃ a, row.WritesAt a ∧ a.region = start.region ∧
    a.high = start.high ∧ a.offset.toNat = (start.offset.toNat + 4 * i) % 2 ^ 24
  /-- Two lines write at the same address only when whole rounds of the half lie between
  them. -/
  same : ∀ i j row other a b, rows[i]? = some row → rows[j]? = some other →
    row.WritesAt a → other.WritesAt b → (a = b ↔ i % 2 ^ 22 = j % 2 ^ 22)
  /-- The place of a line in the region is the one that follows from its number, unless the
  end of the half comes before it. -/
  position : ∀ i row a, rows[i]? = some row → row.WritesAt a →
    (a.position = start.position + 4 * i ↔ start.offset.toNat + 4 * i < 2 ^ 24)

end Row

namespace Packet

/-- The layout of single writes. -/
def writeLayout : Layout := ⟨0x04, 0x14, .perWord⟩

theorem ofByte?_leadByte_writes (a : Address) :
    Lead.ofByte? (a.leadByte writeLayout) =
      some ⟨.write32, writeLayout, some (a.region, a.high)⟩ :=
  Lead.ofByte?_leadByte rfl rfl a

/-- The first word of a write makes its line write at that address. -/
theorem writesAt_leadWord (a : Address) (w : Word) :
    Row.WritesAt ⟨(a.leadWord writeLayout).digits, w.digits⟩ a where
  digits := ⟨_, _, ofByte?_leadByte_writes a, a.digits_leadWord _⟩
  alone := by
    intro keepReturn
    have lead := ofByte?_leadByte_writes a
    rw [← Address.byte_leadWord] at lead
    have read := unframe_layout lead w [] keepReturn
    have payload : RawHex.ofBytes (Word.unpack [w]) = w.digits := RawHex.ofBytes_unpack [w]
    rw [ofWords, Option.map_some] at read
    simp only [writeLayout, alternate, payload, a.ofWord_leadWord] at read
    exact read

theorem successive_writeRows (start : Address) (words : List Word) :
    Row.Successive (writeRows writeLayout start words) start := by
  have line : ∀ i (row : Row), (writeRows writeLayout start words)[i]? = some row →
      row.WritesAt (start.advance (4 * i)) := by
    intro i row h
    rw [writeRows, List.getElem?_mapIdx] at h
    obtain ⟨w, -, rfl⟩ := Option.map_eq_some_iff.mp h
    exact writesAt_leadWord _ w
  have offset := start.toNat_offset_advance
  -- A line tells its address, so what is said of addresses is said of offsets.
  constructor
  · intro i row h
    exact ⟨_, line i row h, rfl, rfl, offset _⟩
  · intro i j row other a b hrow hother ha hb
    obtain rfl := ha.unique (line i row hrow)
    obtain rfl := hb.unique (line j other hother)
    rw [Address.advance_eq_advance_iff]
    omega
  · intro i row a hrow ha
    obtain rfl := ha.unique (line i row hrow)
    exact Address.position_eq_add_iff rfl (offset _)

section

variable {start : Address} {xor : Option (BitVec 16)} {checksum : Option (BitVec 8)}

/-- A frame of single writes is their lines. -/
theorem frame_writes {payload : Text} {bytes : List UInt8} (h : Hex.parse payload = .ok bytes)
    (nonempty : bytes ≠ []) :
    frame ⟨payload, .write32, some start, xor, checksum⟩ =
      .ok (Text.unlines ((writeRows writeLayout start (Word.pack bytes)).map Row.text)) := by
  rw [← layout_writes]
  exact frame_eq_map (p := ⟨payload, .write32, some start, xor, checksum⟩) rfl h nonempty

theorem writeRows_pack_ne_nil {bytes : List UInt8} (nonempty : bytes ≠ []) :
    (writeRows layout start (Word.pack bytes)).map Row.text ≠ [] := by
  have words : Word.pack bytes ≠ [] := fun none => nonempty (Word.pack_eq_nil none)
  simpa [writeRows] using words

/-- A payload cut between two words is framed as two payloads, one line feed between their
frames. -/
theorem frame_writes_append {front gap back : Text} {k : Nat}
    (hex : RawHex.isHex (Text.compact front) = true)
    (words : (Text.compact front).length = 8 * k) (blank : Text.Blank gap)
    (more : RawHex.isHex (Text.compact back) = true) :
    ∃ f g, frame ⟨front, .write32, some start, xor, checksum⟩ = .ok f ∧
      frame ⟨back, .write32, some (start.advance (4 * k)), xor, checksum⟩ = .ok g ∧
      frame ⟨front ++ gap ++ back, .write32, some start, xor, checksum⟩ =
        .ok (f ++ '\n' :: g) := by
  obtain ⟨a, as, readFront, writtenFront⟩ := Hex.parse_of_isHex hex
  obtain ⟨b, bs, readBack, writtenBack⟩ := Hex.parse_of_isHex more
  have length : (a :: as).length = 4 * k := by
    have := congrArg List.length writtenFront
    rw [Hex.length_encode, List.length_map, words] at this
    omega
  -- The front is whole words, so its last word takes no bytes from the back.
  have whole : (a :: as).length % 4 = 0 := by omega
  have read : Hex.parse (front ++ gap ++ back) = .ok ((a :: as) ++ (b :: bs)) := by
    rw [parse_eq_ok_iff, upperDigits, Text.compact_append, Text.compact_append,
      Text.compact_eq_nil_iff.mpr blank, List.append_nil, List.map_append, ← writtenFront,
      ← writtenBack, ← Hex.encode_append]
  have count : (Word.pack (a :: as)).length = k := by
    rw [Word.length_pack, length]
    omega
  refine ⟨_, _, frame_writes readFront (by simp), frame_writes readBack (by simp), ?_⟩
  rw [frame_writes read (by simp), Word.pack_append whole, writeRows_append, count,
    List.map_append, Text.unlines_append (writeRows_pack_ne_nil (by simp))
      (writeRows_pack_ne_nil (by simp))]

/-- The lines of single writes, whatever the payload. -/
theorem exists_successive {payload : Text} (hex : RawHex.isHex (Text.compact payload) = true) :
    let p : Packet := ⟨payload, .write32, some start, xor, checksum⟩
    ∃ rows : List Row, p.frame = .ok (Text.unlines (rows.map Row.text)) ∧
      rows.map Row.second = p.payloadGroups ∧ Row.Successive rows start := by
  intro p
  obtain ⟨b, bytes, read, written⟩ := Hex.parse_of_isHex hex
  refine ⟨_, frame_writes read (by simp), ?_, successive_writeRows start _⟩
  rw [map_second_writeRows, payloadGroups_eq (p := p) written]

end

/-- Frames of single writes are put one behind the other, the second one written for where
the first one ends. Line by line such a frame writes the words of its payload from its
address on; the writes never leave the half they start in. -/
theorem frame_singleWrites (start : Address) (xor : Option (BitVec 16))
    (checksum : Option (BitVec 8)) :
    let writes (a : Address) (payload : Text) : Packet :=
      ⟨payload, .write32, some a, xor, checksum⟩
    (∀ (front gap back : Text) (k : Nat), RawHex.isHex (Text.compact front) = true →
      (Text.compact front).length = 8 * k → Text.Blank gap →
      RawHex.isHex (Text.compact back) = true →
      ∃ f g, (writes start front).frame = .ok f ∧
        (writes ⟨start.region, start.high, BitVec.ofNat 24 (start.offset.toNat + 4 * k)⟩
          back).frame = .ok g ∧
        (writes start (front ++ gap ++ back)).frame = .ok (f ++ '\n' :: g)) ∧
    ∀ payload, RawHex.isHex (Text.compact payload) = true →
      ∃ rows : List Row, (writes start payload).frame = .ok (Text.unlines (rows.map Row.text)) ∧
        rows.map Row.second = (writes start payload).payloadGroups ∧
        Row.Successive rows start := by
  refine ⟨?_, fun payload hex => exists_successive hex⟩
  intro front gap back k hex words blank more
  rw [← Address.advance_eq]
  exact frame_writes_append hex words blank more

/-- Two words at the end of the upper half: the second one is written at its beginning. -/
theorem frame_singleWrites_wrapped :
    let start : Address := ⟨.pointer, true, 0xFFFFFC⟩
    let writes (a : Address) (payload : Text) : Packet := ⟨payload, .write32, some a, none, none⟩
    let front := "38600001".toList
    let back := "4e80 0020".toList
    let framed := "15FFFFFC 38600001\n15000000 4E800020".toList
    RawHex.isHex (Text.compact front) = true ∧ (Text.compact front).length = 8 * 1 ∧
      Text.Blank ['\n'] ∧ RawHex.isHex (Text.compact back) = true ∧
      (∃ f g, (writes start front).frame = .ok f ∧
        (writes ⟨.pointer, true, 0⟩ back).frame = .ok g ∧
        (writes start (front ++ ['\n'] ++ back)).frame = .ok (f ++ '\n' :: g)) ∧
      (writes start (front ++ ['\n'] ++ back)).frame = .ok framed ∧
      ∃ rows : List Row, framed = Text.unlines (rows.map Row.text) ∧
        Row.Successive rows start := by
  intro start writes front back framed
  have hex : RawHex.isHex (Text.compact front) = true := by decide +kernel
  have words : (Text.compact front).length = 8 * 1 := by decide +kernel
  have blank : Text.Blank ['\n'] := Text.compact_eq_nil_iff.mp (by decide)
  have more : RawHex.isHex (Text.compact back) = true := by decide +kernel
  have both : RawHex.isHex (Text.compact (front ++ ['\n'] ++ back)) = true := by decide +kernel
  have h : (writes start (front ++ ['\n'] ++ back)).frame = .ok framed := by decide +kernel
  have next : (⟨start.region, start.high, BitVec.ofNat 24 (start.offset.toNat + 4 * 1)⟩ : Address) =
      ⟨.pointer, true, 0⟩ := by decide
  obtain ⟨append, lines⟩ := frame_singleWrites start none none
  obtain ⟨f, g, hf, hg, hfg⟩ := append front ['\n'] back 1 hex words blank more
  obtain ⟨rows, hrows, -, successive⟩ := lines _ both
  rw [next] at hg
  rw [h] at hrows
  exact ⟨hex, words, blank, more, ⟨f, g, hf, hg, hfg⟩, h, rows, Except.ok.inj hrows, successive⟩

end Packet

end CheatCode

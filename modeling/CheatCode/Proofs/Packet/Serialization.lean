import CheatCode.Packet.Json
import CheatCode.Proofs.Packet.Acceptance

/-!
# Addresses and packets in data

An address goes into data as its text form and is read from it. A text is read as an
address exactly if it is eight digits of which the first two name a region and a half, and
the address is then written with these digits in upper case, so that no bit of the offset
is lost. A packet goes into data as an object, and each member of the object is read as
the value that it was written for.
-/

namespace CheatCode

namespace Json

/-- A character is no half of a surrogate pair. -/
theorem not_half (c : Char) : isHighHalf c.toNat = false ∧ isLowHalf c.toNat = false := by
  have valid : c.toNat < 0xD800 ∨ 0xDFFF < c.toNat ∧ c.toNat < 0x110000 := c.valid
  simp only [isHighHalf, isLowHalf, Bool.and_eq_false_iff, decide_eq_false_iff_not]
  omega

/-- The code points of a text have it as their text. -/
theorem textOf?_points (t : Text) : textOf? (points t) = some t := by
  induction t with
  | nil => rfl
  | cons c t ih =>
    obtain ⟨high, low⟩ := not_half c
    have head : points (c :: t) = c.toNat :: points t := rfl
    rw [head, textOf?.eq_def]
    simp [high, low, ih]

@[simp] theorem text?_ofText (t : Text) : (ofText t).text? = some t := textOf?_points t

@[simp] theorem nat?_ofNat {n limit : Nat} (h : n < limit) : (ofNat n).nat? limit = some n :=
  Text.readDigits?_decimal h

end Json

namespace CodeType

/-- Names tell the types of codes apart. -/
@[simp] theorem ofJson?_name (type : CodeType) : ofJson? (.ofText type.name) = some type := by
  have named : ofName? type.name = some type := by cases type <;> decide
  have text : ofJson? (.ofText type.name) = (Json.ofText type.name).text?.bind ofName? := rfl
  simp [text, named]

end CodeType

namespace Address

/-- The text form of an address is digits. -/
theorem isDigit_of_mem_toText {a : Address} {c : Char} (h : c ∈ a.toText) :
    Hex.isDigit c = true := by
  obtain ⟨whole, lead⟩ := a.toText_eq
  have plain : ∀ front ∈ ["80", "81", "00", "01"].map String.toList,
      front.all Hex.isDigit = true := by decide
  rw [whole, List.mem_append] at h
  obtain h | h := h
  · exact List.all_eq_true.mp (plain _ lead) c h
  · exact Text.isDigit_of_mem_fixed h

/-- An address is read from its text form. -/
theorem ofText?_toText (a : Address) : ofText? a.toText = some a := by
  have trimmed : Text.trim a.toText = a.toText :=
    Text.trim_eq_self (.of_isBlank fun c hc => Hex.isBlank_of_isDigit (isDigit_of_mem_toText hc))
  have whole : a.offset.toNat % 16 ^ 6 = a.offset.toNat := Nat.mod_eq_of_lt a.offset.isLt
  have fits : a.offset.toNat % 16 ^ 6 < Text.limit 24 := by
    rw [whole]
    exact a.offset.isLt
  have read := Text.readDigits?_fixed (by decide) fits
  rw [whole] at read
  obtain ⟨region, high, offset⟩ := a
  rw [ofText?, trimmed, toText]
  cases region <;> cases high <;> simp_all

end Address

namespace Packet

/-- What may be absent is read as it was written. -/
theorem ofOptional?_ofOption {α β : Type} {read : Json → Option β} {write : α → Json}
    {value : α → β} (given : ∀ a, write a ≠ .null) (reads : ∀ a, read (write a) = some (value a))
    (o : Option α) : ofOptional? read (.ofOption write o) = some (o.map value) := by
  cases o with
  | none => rfl
  | some a => simp [Json.ofOption, ofOptional?, reads a, given a]

theorem ofOptional?_address (o : Option Address) :
    ofOptional? (fun value => value.text?.bind Address.ofText?)
      (.ofOption (fun a => .ofText a.toText) o) = some o := by
  have found : ofOptional? (fun value => value.text?.bind Address.ofText?)
      (.ofOption (fun a : Address => .ofText a.toText) o) = some (o.map id) :=
    ofOptional?_ofOption (by simp [Json.ofText]) (by simp [Address.ofText?_toText]) o
  simpa using found

theorem ofOptional?_number {width : Nat} (o : Option (BitVec width)) :
    ofOptional? (Json.nat? (Text.limit width)) (.ofOption (fun n => .ofNat n.toNat) o) =
      some (o.map BitVec.toNat) := by
  have fits (n : BitVec width) : n.toNat < Text.limit width := by
    simpa [Text.limit, Nat.one_shiftLeft] using n.isLt
  exact ofOptional?_ofOption (by simp [Json.ofNat]) (fun n => Json.nat?_ofNat (fits n)) o

/-- A packet is read from the object that was written for it. -/
theorem ofJson?_toJson (p : Packet) : ofJson? p.toJson = some p := by
  have values : ofJson? p.toJson = ofValues? (.ofText p.payload) (.ofText p.codeType.name)
      (.ofOption (fun a => .ofText a.toText) p.address)
      (.ofOption (fun x => .ofNat x.toNat) p.xor)
      (.ofOption (fun c => .ofNat c.toNat) p.checksum) := by
    simp [ofJson?, toJson, Json.member?, Json.points]
  have number (width : Nat) : BitVec.ofNat width ∘ BitVec.toNat = id := by
    funext n
    simp
  rw [values]
  simp [ofValues?, ofOptional?_address, ofOptional?_number, number]

/-- A text is read as an address exactly if it has the form of one, and the address is
written with the same digits in upper case; any other text is refused. Addresses, and packets
with any address or none, are found again in what is written for them. -/
theorem address_survives (t : Text) (a : Address) (p : Packet) :
    ((∃ b, Address.read t = .ok b) ↔ Address.IsText t) ∧
      (∀ b, Address.read t = .ok b → b.toText = (Text.trim t).map Char.toUpper) ∧
      Address.read a.toText = .ok a ∧
      ofJson? p.toJson = some p := by
  have form : ∀ b, Address.read t = .ok b → Address.IsText t := by
    intro b read
    by_contra other
    rw [reads_address.refuses t other] at read
    cases read
  refine ⟨⟨fun ⟨b, read⟩ => form b read, fun h => ?_⟩, fun b read => ?_, ?_, p.ofJson?_toJson⟩
  · obtain ⟨b, read, -⟩ := reads_address.accepts t h
    exact ⟨b, read⟩
  · obtain ⟨found, again, written⟩ := reads_address.accepts t (form b read)
    rw [read] at again
    cases again
    exact written
  · simp [Address.read, Address.ofText?_toText]

/-- Digits of both cases among blanks of two kinds, and a packet with every parameter. -/
theorem address_survives_mixed :
    let t := "\u3000 81abCDef\n".toList
    let a : Address := ⟨.base, true, 0xABCDEF⟩
    let p : Packet := ⟨"60000000 \"?\u00e9".toList, .insertXor, some a, some 0xABCD, none⟩
    Address.read t = .ok a ∧ Address.IsText t ∧ a.toText = "81ABCDEF".toList ∧
      Address.read "81ABCDEF".toList = .ok a ∧ ofJson? p.toJson = some p := by
  intro t a p
  obtain ⟨form, written, again, packet⟩ := address_survives t a p
  have read : Address.read t = .ok a := by decide
  have text : a.toText = "81ABCDEF".toList := by
    rw [written a read]
    decide
  rw [text] at again
  exact ⟨read, form.mp ⟨a, read⟩, text, again, packet⟩

end Packet

end CheatCode

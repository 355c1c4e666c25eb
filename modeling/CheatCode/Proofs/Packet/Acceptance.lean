import CheatCode.Proofs.Packet.Parameters
import CheatCode.Proofs.Packet.Refusal
import Mathlib.Data.Option.Basic

/-!
# Which texts of parameters are accepted

The texts of parameters are read in the order address, exclusive-or value, checksum, and
the first that lacks the form of its parameter is the reason why nothing is framed, for
every type of code. An address is accepted exactly when it is eight digits whose first two
name a region and a half. The values of a guard are read by a numeral that may carry a plus
sign, so a text of the right length is accepted with a sign in place of its first digit and
is framed as if a zero stood there.
-/

namespace CheatCode

namespace Hex

/-- A text of so many characters, a plus sign and digits, blanks around them aside. -/
structure IsSignedField (width : Nat) (t : Text) : Prop where
  /-- The plus sign comes first. -/
  plus : (Text.trim t).head? = some '+'
  /-- Sign and digits fill the width. -/
  length : (Text.trim t).length = width
  /-- There are only digits behind the sign. -/
  digits : ∀ c ∈ (Text.trim t).tail, isDigit c = true

/-- A field whose first digit may be given up for a plus sign. -/
def IsLooseField (width : Nat) (t : Text) : Prop := IsField width t ∨ IsSignedField width t

/-- The digits that a field stands for in upper case, zero for a plus sign. -/
def fieldDigits (t : Text) : Text :=
  (Text.trim t).map fun c => if c = '+' then '0' else c.toUpper

instance (width : Nat) (t : Text) : Decidable (IsField width t) :=
  decidable_of_iff ((Text.trim t).length = width ∧ (Text.trim t).all isDigit = true)
    ⟨fun ⟨length, digits⟩ => ⟨length, List.all_eq_true.mp digits⟩,
      fun ⟨length, digits⟩ => ⟨length, List.all_eq_true.mpr digits⟩⟩

instance (width : Nat) (t : Text) : Decidable (IsSignedField width t) :=
  decidable_of_iff ((Text.trim t).head? = some '+' ∧ (Text.trim t).length = width ∧
      (Text.trim t).tail.all isDigit = true)
    ⟨fun ⟨plus, length, digits⟩ => ⟨plus, length, List.all_eq_true.mp digits⟩,
      fun ⟨plus, length, digits⟩ => ⟨plus, length, List.all_eq_true.mpr digits⟩⟩

instance (width : Nat) (t : Text) : Decidable (IsLooseField width t) :=
  inferInstanceAs (Decidable (_ ∨ _))

variable {width n : Nat} {t : Text}

theorem ne_plus_of_isDigit {c : Char} (h : isDigit c = true) : c ≠ '+' := by
  rintro rfl
  exact absurd h (by decide)

/-- Digits stand for themselves. -/
theorem map_plus_of_isDigit {t : Text} (h : ∀ c ∈ t, isDigit c = true) :
    t.map (fun c => if c = '+' then '0' else c.toUpper) = t.map Char.toUpper :=
  List.map_congr_left fun c hc => if_neg (ne_plus_of_isDigit (h c hc))

theorem IsSignedField.exists_cons (h : IsSignedField width t) :
    ∃ digits, Text.trim t = '+' :: digits ∧ digits.length + 1 = width ∧
      ∀ c ∈ digits, isDigit c = true := by
  obtain ⟨plus, length, digits⟩ := h
  obtain ⟨rest, htrim⟩ := List.head?_eq_some_iff.mp plus
  rw [htrim] at length digits
  exact ⟨rest, htrim, length, digits⟩

/-- A field has no plus sign. -/
theorem IsSignedField.not_isField (h : IsSignedField width t) : ¬IsField width t := by
  intro field
  exact ne_plus_of_isDigit (field.digits '+' (List.mem_of_head? h.plus)) rfl

end Hex

namespace Address

instance (t : Text) : Decidable (IsText t) :=
  decidable_of_iff (Hex.IsField 8 t ∧
      (Text.trim t).take 2 ∈ ["80", "81", "00", "01"].map String.toList)
    ⟨fun ⟨field, lead⟩ => ⟨field, lead⟩, fun ⟨field, lead⟩ => ⟨field, lead⟩⟩

/-- The text form of an address starts with two digits for its region and half. -/
theorem toText_eq (a : Address) :
    a.toText = a.toText.take 2 ++ Hex.fixed 6 a.offset.toNat ∧
      a.toText.take 2 ∈ ["80", "81", "00", "01"].map String.toList := by
  obtain ⟨region, high, offset⟩ := a
  cases region <;> cases high <;> simp [toText]

/-- An address is read from the two digits of its region and half and six digits of its
offset. -/
theorem exists_of_ofText?_eq_some {t : Text} {a : Address} (h : ofText? t = some a) :
    ∃ digits, Text.trim t = a.toText.take 2 ++ digits ∧ digits.length = 6 ∧
      Text.readDigits? 16 (Text.limit 24) digits = some a.offset.toNat := by
  rw [ofText?] at h
  split at h
  · next region half digits htrim =>
    split at h
    · next length =>
      obtain ⟨offset, read, h⟩ := Option.bind_eq_some_iff.mp h
      obtain ⟨-, small, -⟩ := Text.of_readDigits?_eq_some read
      rw [length] at small
      have value : (BitVec.ofNat 24 offset).toNat = offset := by
        rw [BitVec.toNat_ofNat]
        exact Nat.mod_eq_of_lt small
      have offsetRead : Text.readDigits? 16 (Text.limit 24) digits =
          some (BitVec.ofNat 24 offset).toNat := by rw [read, value]
      -- Four pairs of a region and a half are read, each from the digits it is written with.
      dsimp only [Option.bind_eq_bind, Option.bind_some, Option.bind_none] at h
      split_ifs at h <;> cases h <;>
        exact ⟨digits, by simp_all [toText], length, offsetRead⟩
    · cases h
  · cases h

/-- An address is read from a text of its form, which is the text form of the address
in either case. -/
theorem of_ofText?_eq_some {t : Text} {a : Address} (h : ofText? t = some a) :
    IsText t ∧ a.toText = (Text.trim t).map Char.toUpper := by
  obtain ⟨digits, htrim, length, read⟩ := exists_of_ofText?_eq_some h
  obtain ⟨whole, lead⟩ := a.toText_eq
  obtain ⟨isDigit, -, written⟩ := Text.of_readDigits?_eq_some read
  rw [length] at written
  have plain : ∀ front ∈ ["80", "81", "00", "01"].map String.toList,
      front.length = 2 ∧ front.all Hex.isDigit = true ∧ front.map Char.toUpper = front := by
    decide
  obtain ⟨two, frontDigits, upper⟩ := plain _ lead
  refine ⟨⟨⟨?_, ?_⟩, ?_⟩, ?_⟩
  · rw [htrim, List.length_append, two, length]
  · rw [htrim]
    exact List.forall_mem_append.mpr ⟨List.all_eq_true.mp frontDigits, isDigit⟩
  · rwa [htrim, List.take_left' two]
  · rw [htrim, List.map_append, upper, ← written, ← whole]

end Address

namespace Packet

variable {type : CodeType} {payload : Text} {address xor checksum : Option Text} {p : Packet}

/-! ### Single texts -/

/-- How texts are read: those of a form to the values they stand for, and all others are
refused with an error that shows them. -/
structure Reads {α : Type} (read : Text → Except CodeError α) (form : Text → Prop)
    (value : Text → α → Prop) (error : Text → CodeError) : Prop where
  /-- A text of the form is read. -/
  accepts : ∀ t, form t → ∃ a, read t = .ok a ∧ value t a
  /-- Any other text is refused. -/
  refuses : ∀ t, ¬form t → read t = .error (error t)

theorem reads_address : Reads Address.read Address.IsText
    (fun t a => a.toText = (Text.trim t).map Char.toUpper) .badAddress where
  accepts := by
    intro t form
    obtain ⟨a, ha⟩ := form.exists_ofText?
    exact ⟨a, by simp [Address.read, ha], (Address.of_ofText?_eq_some ha).2⟩
  refuses := by
    intro t other
    cases h : Address.ofText? t with
    | none => simp [Address.read, h]
    | some a => exact absurd (Address.of_ofText?_eq_some h).1 other

/-- What is read has the form of a field, apart from a plus sign. -/
theorem of_readParameter_eq_ok {parameter : Parameter} {width n : Nat} {t : Text}
    (h : readParameter parameter width t = .ok n) :
    Hex.IsLooseField width t ∧ n < 16 ^ width ∧ Hex.fixed width n = Hex.fieldDigits t := by
  simp only [readParameter] at h
  split at h
  · next m read =>
    split at h
    · next length =>
      cases h
      rw [Text.readUnsigned?.eq_def] at read
      split at read
      · next rest htrim =>
        obtain ⟨digits, small, written⟩ := Text.of_readDigits?_eq_some read
        have filled : rest.length + 1 = width := by rw [← length, htrim]; rfl
        have zero := Hex.fixed_append 1 rest.length 0 n small
        rw [Nat.zero_mul, Nat.zero_add, Nat.add_comm 1, filled] at zero
        refine ⟨Or.inr ⟨by simp [htrim], length, by simpa [htrim] using digits⟩, ?_, ?_⟩
        · exact Nat.lt_of_lt_of_le small (Nat.pow_le_pow_right (by decide) (by omega))
        · rw [← zero, written, Hex.fieldDigits, htrim, List.map_cons,
            Hex.map_plus_of_isDigit digits]
          rfl
      · obtain ⟨digits, small, written⟩ := Text.of_readDigits?_eq_some read
        rw [length] at small written
        exact ⟨Or.inl ⟨length, digits⟩, small,
          written.trans (Hex.map_plus_of_isDigit digits).symm⟩
    · cases h
  · cases h

/-- Digits behind a plus sign are read as well. -/
theorem exists_readParameter_of_signed {width : Nat} {t : Text} (more : 1 < width)
    (h : Hex.IsSignedField width t) (parameter : Parameter) :
    ∃ n, readParameter parameter width t = .ok n := by
  obtain ⟨digits, htrim, length, isDigit⟩ := h.exists_cons
  have nonempty : digits ≠ [] := List.ne_nil_of_length_pos (by omega)
  have room : 16 ^ digits.length ≤ Text.limit (4 * width) := by
    rw [Text.limit, Nat.one_shiftLeft, Nat.pow_mul]
    exact Nat.pow_le_pow_right (by decide) (by omega)
  obtain ⟨n, read⟩ := Text.exists_readDigits? nonempty isDigit room
  have unsigned : Text.readUnsigned? 16 (Text.limit (4 * width)) (Text.trim t) = some n := by
    rw [htrim]
    exact read
  exact ⟨n, by simp [readParameter, unsigned, h.length]⟩

theorem reads_parameter (parameter : Parameter) {width : Nat} (more : 1 < width) :
    Reads (readParameter parameter width) (Hex.IsLooseField width)
      (fun t n => n < 16 ^ width ∧ Hex.fixed width n = Hex.fieldDigits t)
      (.invalid parameter) where
  accepts := by
    intro t form
    have readable : ∃ n, readParameter parameter width t = .ok n := by
      obtain field | signed := form
      · exact exists_readParameter (by omega) field parameter
      · exact exists_readParameter_of_signed more signed parameter
    obtain ⟨n, read⟩ := readable
    exact ⟨n, read, (of_readParameter_eq_ok read).2⟩
  refuses := by
    intro t other
    cases h : readParameter parameter width t with
    | ok n => exact absurd (of_readParameter_eq_ok h).1 other
    | error e =>
      simp only [readParameter] at h
      split at h
      · split at h
        · cases h
        · exact h.symm
      · exact h.symm

/-! ### Texts that may be given or not -/

section

variable {α β : Type} {read : Text → Except CodeError α} {form form' : Text → Prop}
  [DecidablePred form] [DecidablePred form'] {value : Text → α → Prop}
  {error : Text → CodeError} {given : Option Text} {e : CodeError}

/-- The error for a text that was given without the form it must have. -/
def refused? (form : Text → Prop) [DecidablePred form] (error : Text → CodeError)
    (given : Option Text) : Option CodeError :=
  (given.filter fun t => ¬form t).map error

theorem refused?_eq_none_iff : refused? form error given = none ↔ ∀ t ∈ given, form t := by
  cases given with
  | none => simp [refused?]
  | some t => simp [refused?, Option.filter]

theorem refused?_eq_some_iff :
    refused? form error given = some e ↔ ∃ t ∈ given, ¬form t ∧ error t = e := by
  cases given with
  | none => simp [refused?]
  | some t => by_cases h : form t <;> simp [refused?, Option.filter, h]

/-- Only the text that was given matters for what is refused. -/
theorem refused?_congr (same : ∀ t ∈ given, form t ↔ form' t) :
    refused? form error given = refused? form' error given := by
  cases given with
  | none => rfl
  | some t => simp [refused?, Option.filter, same t rfl]

namespace Reads

theorem mapM_of_refused (reads : Reads read form value error)
    (h : refused? form error given = some e) : given.mapM read = .error e := by
  obtain ⟨t, ht, other, rfl⟩ := refused?_eq_some_iff.mp h
  cases ht
  have single : (some t).mapM read = (read t).map some := rfl
  rw [single, reads.refuses t other]
  rfl

theorem mapM_of_accepted (reads : Reads read form value error)
    (h : refused? form error given = none) :
    ∃ values, given.mapM read = .ok values ∧ Option.Rel value given values := by
  have accepted := refused?_eq_none_iff.mp h
  cases given with
  | none => exact ⟨none, rfl, .none⟩
  | some t =>
    obtain ⟨a, hread, ha⟩ := reads.accepts t (accepted t rfl)
    have single : (some t).mapM read = (read t).map some := rfl
    exact ⟨some a, by rw [single, hread]; rfl, .some ha⟩

end Reads

/-- Values that texts stand for are the same values after being converted. -/
theorem rel_map {value' : Text → β → Prop} {f : α → β} {values : Option α}
    (h : Option.Rel value given values) (keeps : ∀ t a, value t a → value' t (f a)) :
    Option.Rel value' given (values.map f) := by
  cases h with
  | none => exact .none
  | some ha => exact .some (keeps _ _ ha)

/-- A number that fits into a field keeps its digits as a value of that many bits. -/
theorem fixed_ofNat {width bits n : Nat} (room : 16 ^ width = 2 ^ bits) (h : n < 16 ^ width) :
    Hex.fixed width (BitVec.ofNat bits n).toNat = Hex.fixed width n := by
  rw [BitVec.toNat_ofNat, Nat.mod_eq_of_lt (room ▸ h)]

end

/-! ### All texts of a code -/

/-- The packet of a payload, a type and the values that the texts of parameters stand for. -/
structure HasTexts (p : Packet) (payload : Text) (type : CodeType)
    (address xor checksum : Option Text) : Prop where
  /-- The payload is taken as it is. -/
  payload : p.payload = payload
  /-- So is the type. -/
  codeType : p.codeType = type
  /-- An address is written as its text, in upper case. -/
  address : Option.Rel (fun t (a : Address) => a.toText = (Text.trim t).map Char.toUpper)
    address p.address
  /-- An exclusive-or value has the four digits of its text. -/
  xor : Option.Rel (fun t (x : BitVec 16) => Hex.fixed 4 x.toNat = Hex.fieldDigits t) xor p.xor
  /-- A checksum has the two digits of its text. -/
  checksum : Option.Rel (fun t (c : BitVec 8) => Hex.fixed 2 c.toNat = Hex.fieldDigits t)
    checksum p.checksum

/-- The error for the first text that lacks its form, when `form` tells which texts fill a
width of a guard. -/
def firstRefused? (form : Nat → Text → Prop) [∀ width, DecidablePred (form width)]
    (address xor checksum : Option Text) : Option CodeError :=
  (refused? Address.IsText .badAddress address).or <|
    (refused? (form 4) (.invalid .xor) xor).or (refused? (form 2) (.invalid .checksum) checksum)

/-- What framing with texts comes to if the texts of a guard have to be of a form: the first
text that lacks its form is the error, and if there is none the packet with the values of
the texts is framed. -/
def AcceptsBy (form : Nat → Text → Prop) [∀ width, DecidablePred (form width)] (payload : Text)
    (type : CodeType) (address xor checksum : Option Text) : Prop :=
  match firstRefused? form address xor checksum with
  | some e => frameText payload type address xor checksum = .error e
  | none => ∃ p : Packet, p.HasTexts payload type address xor checksum ∧
      frameText payload type address xor checksum = p.frame

/-- Every text is read in its turn, and the first that is refused ends the reading. -/
theorem acceptsBy_isLooseField (payload : Text) (type : CodeType)
    (address xor checksum : Option Text) :
    AcceptsBy Hex.IsLooseField payload type address xor checksum := by
  have four : 1 < 4 := by decide
  have two : 1 < 2 := by decide
  have readsXor := reads_parameter .xor four
  have readsChecksum := reads_parameter .checksum two
  rw [AcceptsBy, firstRefused?]
  cases ha : refused? Address.IsText .badAddress address with
  | some e => simp [frameText, reads_address.mapM_of_refused ha, bind, Except.bind]
  | none =>
    obtain ⟨a, readAddress, isAddress⟩ := reads_address.mapM_of_accepted ha
    cases hx : refused? (Hex.IsLooseField 4) (.invalid .xor) xor with
    | some e => simp [frameText, readAddress, readsXor.mapM_of_refused hx, bind, Except.bind]
    | none =>
      obtain ⟨x, readXor, isXor⟩ := readsXor.mapM_of_accepted hx
      cases hc : refused? (Hex.IsLooseField 2) (.invalid .checksum) checksum with
      | some e =>
        simp [frameText, readAddress, readXor, readsChecksum.mapM_of_refused hc, bind, Except.bind]
      | none =>
        obtain ⟨c, readChecksum, isChecksum⟩ := readsChecksum.mapM_of_accepted hc
        refine ⟨⟨payload, type, a, x.map (BitVec.ofNat 16), c.map (BitVec.ofNat 8)⟩,
          ⟨rfl, rfl, isAddress, ?_, ?_⟩, ?_⟩
        · apply rel_map isXor
          intro t n h
          rw [fixed_ofNat (by decide) h.1]
          exact h.2
        · apply rel_map isChecksum
          intro t n h
          rw [fixed_ofNat (by decide) h.1]
          exact h.2
        · simp [frameText, readAddress, readXor, readChecksum, bind, Except.bind]

/-- Framing a packet never complains about the text of a parameter. -/
theorem frame_ne_invalid (p : Packet) (parameter : Parameter) (t : Text) :
    p.frame ≠ .error (.invalid parameter t) := by
  intro h
  by_cases back : p.HandedBack
  · rw [frame_of_handedBack back] at h
    cases h
  · obtain ⟨layout, bytes, hl, hbytes, nonempty, -⟩ := exists_bytes_of_not_handedBack back
    have refused := (frame_eq_error_iff hl hbytes nonempty _).mp h
    rw [refusal?] at refused
    split_ifs at refused <;> cases refused

/-- Texts that are read without fault are not refused as the value of a guard. -/
theorem frameText_ne_invalid {parameter : Parameter} {t : Text}
    (h : firstRefused? Hex.IsLooseField address xor checksum ≠ some (.invalid parameter t)) :
    frameText payload type address xor checksum ≠ .error (.invalid parameter t) := by
  have outcome := acceptsBy_isLooseField payload type address xor checksum
  rw [AcceptsBy] at outcome
  split at outcome
  · next e first =>
    rw [outcome]
    rintro ⟨⟩
    exact h first
  · obtain ⟨p, -, framed⟩ := outcome
    rw [framed]
    exact p.frame_ne_invalid parameter t

/-- A plus sign in the text of a guard that is read decides what framing comes to: it is in
the text of the exclusive-or value, or in that of the checksum after an exclusive-or value
that is read. -/
def SignDecides (address xor checksum : Option Text) : Prop :=
  (∀ t ∈ address, Address.IsText t) ∧
    ((∃ t ∈ xor, Hex.IsSignedField 4 t) ∨
      (∀ t ∈ xor, Hex.IsField 4 t) ∧ ∃ t ∈ checksum, Hex.IsSignedField 2 t)

/-- Without a plus sign that decides, plain fields are refused where fields as they are read
are. -/
theorem firstRefused?_isField (h : ¬SignDecides address xor checksum) :
    firstRefused? Hex.IsField address xor checksum =
      firstRefused? Hex.IsLooseField address xor checksum := by
  have plain {width : Nat} {given : Option Text}
      (unsigned : ¬∃ t ∈ given, Hex.IsSignedField width t) :
      ∀ t ∈ given, Hex.IsField width t ↔ Hex.IsLooseField width t := by
    intro t ht
    exact ⟨Or.inl, fun loose => loose.resolve_right fun signed => unsigned ⟨t, ht, signed⟩⟩
  rw [firstRefused?, firstRefused?]
  cases ha : refused? Address.IsText .badAddress address with
  | some e => rfl
  | none =>
    rw [SignDecides, not_and, not_or, not_and] at h
    obtain ⟨unsigned, later⟩ := h (refused?_eq_none_iff.mp ha)
    rw [refused?_congr (plain unsigned)]
    cases hx : refused? (Hex.IsLooseField 4) (.invalid .xor) xor with
    | some e => rfl
    | none =>
      rw [← refused?_congr (plain unsigned)] at hx
      rw [refused?_congr (plain (later (refused?_eq_none_iff.mp hx)))]

/-- With a plus sign that decides, the text it stands in is no plain field but is read. -/
theorem exists_firstRefused?_of_signDecides (h : SignDecides address xor checksum) :
    ∃ parameter t, firstRefused? Hex.IsField address xor checksum = some (.invalid parameter t) ∧
      firstRefused? Hex.IsLooseField address xor checksum ≠ some (.invalid parameter t) := by
  obtain ⟨addressRead, signs⟩ := h
  have ha : refused? Address.IsText .badAddress address = none :=
    refused?_eq_none_iff.mpr addressRead
  have refuses {parameter : Parameter} {width : Nat} {t : Text}
      (signed : Hex.IsSignedField width t) :
      refused? (Hex.IsField width) (.invalid parameter) (some t) = some (.invalid parameter t) :=
    refused?_eq_some_iff.mpr ⟨t, rfl, signed.not_isField, rfl⟩
  have accepts {parameter : Parameter} {width : Nat} {given : Option Text}
      (loose : ∀ t ∈ given, Hex.IsLooseField width t) :
      refused? (Hex.IsLooseField width) (.invalid parameter) given = none :=
    refused?_eq_none_iff.mpr loose
  obtain ⟨t, rfl, signed⟩ | ⟨fields, t, rfl, signed⟩ := signs
  · refine ⟨.xor, t, by simp [firstRefused?, ha, refuses signed], ?_⟩
    have hx : refused? (Hex.IsLooseField 4) (.invalid .xor) (some t) = none :=
      accepts (by rintro _ ⟨⟩; exact Or.inr signed)
    rw [firstRefused?, ha, hx, Option.none_or, Option.none_or, ne_eq, refused?_eq_some_iff]
    rintro ⟨u, -, -, ⟨⟩⟩
  · have hx : refused? (Hex.IsField 4) (.invalid .xor) xor = none := refused?_eq_none_iff.mpr fields
    have hx' : refused? (Hex.IsLooseField 4) (.invalid .xor) xor = none :=
      accepts fun t ht => Or.inl (fields t ht)
    have hc : refused? (Hex.IsLooseField 2) (.invalid .checksum) (some t) = none :=
      accepts (by rintro _ ⟨⟩; exact Or.inr signed)
    refine ⟨.checksum, t, by simp [firstRefused?, ha, hx, refuses signed], ?_⟩
    rw [firstRefused?, ha, hx', hc]
    simp

/-- What framing with texts comes to. A text of a guard is accepted exactly when it is a field
or a plus sign and digits that fill the field; so fields alone are accepted exactly as long
as no plus sign decides. -/
theorem frameText_outcome (payload : Text) (type : CodeType)
    (address xor checksum : Option Text) :
    AcceptsBy Hex.IsLooseField payload type address xor checksum ∧
      (AcceptsBy Hex.IsField payload type address xor checksum ↔
        ¬SignDecides address xor checksum) := by
  have loose := acceptsBy_isLooseField payload type address xor checksum
  refine ⟨loose, ?_, ?_⟩
  · intro strict signs
    obtain ⟨parameter, t, first, others⟩ := exists_firstRefused?_of_signDecides signs
    rw [AcceptsBy, first] at strict
    exact frameText_ne_invalid others strict
  · intro unsigned
    rwa [AcceptsBy, firstRefused?_isField unsigned]

/-- A plus sign in an exclusive-or value is framed as a zero. -/
theorem frameText_signed :
    let xor := some "+12F".toList
    frameText "38600001".toList .insertXor (some "80001234".toList) xor (some "AB".toList) =
        .ok "F2001234 AB012F01\n38600001 00000000".toList ∧
      ¬AcceptsBy Hex.IsField "38600001".toList .insertXor (some "80001234".toList) xor
        (some "AB".toList) := by
  intro xor
  have framed : frameText "38600001".toList .insertXor (some "80001234".toList) xor
      (some "AB".toList) = .ok "F2001234 AB012F01\n38600001 00000000".toList := by
    decide +kernel
  have refused : firstRefused? Hex.IsField (some "80001234".toList) xor (some "AB".toList) =
      some (.invalid .xor "+12F".toList) := by decide +kernel
  refine ⟨framed, ?_⟩
  rw [AcceptsBy, refused, framed]
  rintro ⟨⟩

end Packet

end CheatCode

import AmpmGsm.Gsm.Septets
import Mathlib.Tactic.IntervalCases

/-!
# The layout of an SMS-SUBMIT message

What `pdu_encode` and `pdu16_encode` are for is said by a parser of the layout: the service centre's
address, the type of the message, the destination's digits, three octets of parameters, and the
text behind its length.

* `semiOctet`, `HoldsNumber`, `encodePhoneNumber_packed` — numbers, two digits an octet.
* `parseSubmit`, `Submitted` — the parser, and what is asked of the two functions.
* `HeaderLaid`, **`HeaderLaid.parseSubmit_eq`** — what the parser makes of the octets in front of
  the text.
-/

namespace Ampm

open BitStream

/-! ## Numbers -/

/-- Half an octet, low halves first, of the octets from `start` on. -/
def semiOctet (buffer : ℕ → UInt8) (start k : ℕ) : UInt8 :=
  if k % 2 = 0 then buffer (start + k / 2) &&& 0x0F else buffer (start + k / 2) >>> 4

/-- The digits that the first `n` half-octets stand for. -/
def semiDigits (buffer : ℕ → UInt8) (start n : ℕ) : List UInt8 :=
  (List.range n).map fun k => semiOctet buffer start k + 48

/-- A string of decimal digits. -/
def IsDigits (number : List UInt8) : Prop := ∀ c ∈ number, 48 ≤ c ∧ c ≤ 57

/-- The octets that a number needs. -/
def numberOctets (number : List UInt8) : ℕ := (number.length + 1) / 2

/-- The number is in the octets from `start` on, with a filler behind an odd number of digits. -/
structure HoldsNumber (buffer : ℕ → UInt8) (start : ℕ) (number : List UInt8) : Prop where
  digits : ∀ k < number.length, semiOctet buffer start k = (number.getD k 0 - 48) &&& 0x0F
  filler : number.length % 2 = 1 → semiOctet buffer start number.length = 0x0F

section Number

variable {number : List UInt8} {start : ℕ} {outputBuffer : ℕ → UInt8}

lemma low_of_first (d : UInt8) : (0xF0 ||| d) &&& 0x0F = d &&& 0x0F := by
  apply UInt8.toBitVec_inj.1
  ext i hi
  interval_cases i <;> simp

lemma high_of_first (d : UInt8) : (0xF0 ||| d) >>> 4 = 0x0F := by
  apply UInt8.toBitVec_inj.1
  ext i hi
  interval_cases i <;> simp

lemma low_of_second (x d : UInt8) :
    ((x &&& (0x0F : UInt8)) ||| (d <<< 4)) &&& 0x0F = x &&& 0x0F := by
  apply UInt8.toBitVec_inj.1
  ext i hi
  interval_cases i <;> simp

lemma high_of_second (x d : UInt8) :
    ((x &&& (0x0F : UInt8)) ||| (d <<< 4)) >>> 4 = d &&& 0x0F := by
  apply UInt8.toBitVec_inj.1
  ext i hi
  interval_cases i <;> simp

/-- A digit is its own low half-octet. -/
lemma digit_of_low {c : UInt8} (h : 48 ≤ c ∧ c ≤ 57) : ((c - 48) &&& 0x0F) + 48 = c := by
  have hall : ∀ c : Fin 256, 48 ≤ c ∧ c ≤ 57 →
      ((UInt8.ofNat c - 48) &&& 0x0F) + 48 = UInt8.ofNat c := by decide +kernel
  have hc := hall ⟨c.toNat, c.toNat_lt⟩ ⟨h.1, h.2⟩
  simpa using hc

lemma digit_ne_filler {c : UInt8} (h : 48 ≤ c ∧ c ≤ 57) : (c - 48) &&& 0x0F ≠ 0x0F := by
  intro heq
  have hc := digit_of_low h
  rw [heq] at hc
  rw [← hc] at h
  exact absurd h.2 (by decide)

lemma semiOctet_congr {buffer buffer' : ℕ → UInt8} {k : ℕ}
    (h : buffer (start + k / 2) = buffer' (start + k / 2)) :
    semiOctet buffer start k = semiOctet buffer' start k := by
  unfold semiOctet
  rw [h]

/-- The buffer after `n` rounds of `EncodePhoneNumber`: the digits so far, a filler behind an odd
number of them, and nothing else. -/
structure NumberPacked (number : List UInt8) (start : ℕ) (outputBuffer : ℕ → UInt8) (n : ℕ)
    (buffer : ℕ → UInt8) : Prop where
  digits : ∀ k < n, semiOctet buffer start k = (number.getD k 0 - 48) &&& 0x0F
  filler : n % 2 = 1 → semiOctet buffer start n = 0x0F
  others : ∀ a, (a < start ∨ start + (n + 1) / 2 ≤ a) → buffer a = outputBuffer a

/-- **A round** adds a digit. -/
lemma NumberPacked.round {n : ℕ} {buffer : ℕ → UInt8}
    (h : NumberPacked number start outputBuffer n buffer) :
    NumberPacked number start outputBuffer (n + 1) (encodePhoneDigit number start buffer n) := by
  by_cases heven : n % 2 = 0
  · have hdigit : encodePhoneDigit number start buffer n =
        Function.update buffer (start + n / 2) (0xF0 ||| (number.getD n 0 - 48)) := by
      rw [encodePhoneDigit]
      exact if_pos heven
    have hsame : (n + 1) / 2 = n / 2 := by omega
    rw [hdigit]
    refine ⟨fun k hk => ?_, fun hodd => ?_, fun a ha => ?_⟩
    · rcases Nat.lt_succ_iff_lt_or_eq.mp hk with hlt | rfl
      · rw [← h.digits k hlt]
        exact semiOctet_congr (Function.update_of_ne (by omega) _ _)
      · rw [semiOctet, if_pos heven, Function.update_self, low_of_first]
    · rw [semiOctet, if_neg (by omega), hsame, Function.update_self, high_of_first]
    · rw [Function.update_of_ne (by omega)]
      exact h.others a (by omega)
  · have hdigit : encodePhoneDigit number start buffer n =
        Function.update buffer (start + n / 2)
          ((buffer (start + n / 2) &&& (0x0F : UInt8)) ||| ((number.getD n 0 - 48) <<< 4)) := by
      rw [encodePhoneDigit]
      exact if_neg heven
    rw [hdigit]
    refine ⟨fun k hk => ?_, fun hodd => by omega, fun a ha => ?_⟩
    · rcases Nat.lt_succ_iff_lt_or_eq.mp hk with hlt | rfl
      · rw [← h.digits k hlt]
        by_cases hlast : k + 1 = n
        · have hk2 : k / 2 = n / 2 := by omega
          rw [semiOctet, semiOctet, if_pos (by omega), if_pos (by omega), hk2,
            Function.update_self, low_of_second]
        · exact semiOctet_congr (Function.update_of_ne (by omega) _ _)
      · rw [semiOctet, if_neg heven, Function.update_self, high_of_second]
    · rw [Function.update_of_ne (by omega)]
      exact h.others a (by omega)

/-- **The loop of `EncodePhoneNumber`.** -/
theorem numberPacked_foldl (number : List UInt8) (start : ℕ) (outputBuffer : ℕ → UInt8) (n : ℕ) :
    NumberPacked number start outputBuffer n
      ((List.range n).foldl (encodePhoneDigit number start) outputBuffer) := by
  induction n with
  | zero => exact ⟨by simp, by simp, by simp⟩
  | succ n ih =>
      rw [List.range_succ, List.foldl_append, List.foldl_cons, List.foldl_nil]
      exact ih.round

/-- What `EncodePhoneNumber` does, whatever the characters are. -/
lemma encodePhoneNumber_packed (number : List UInt8) (outputBuffer : ℕ → UInt8) (start : ℕ)
    {bufferSize : ℤ} (hfits : (numberOctets number : ℤ) ≤ bufferSize) :
    (encodePhoneNumber number outputBuffer start bufferSize).1 = numberOctets number ∧
      NumberPacked number start outputBuffer number.length
        (encodePhoneNumber number outputBuffer start bufferSize).2 := by
  have hsize : ¬ ((number.length + 1) / 2 : ℕ) > bufferSize := Int.not_lt.mpr hfits
  rw [encodePhoneNumber, if_neg hsize]
  exact ⟨rfl, numberPacked_foldl number start outputBuffer number.length⟩

lemma encodePhoneNumber_fails (number : List UInt8) (outputBuffer : ℕ → UInt8) (start : ℕ)
    {bufferSize : ℤ} (hfits : ¬ (numberOctets number : ℤ) ≤ bufferSize) :
    encodePhoneNumber number outputBuffer start bufferSize = (-1, outputBuffer) := by
  have hsize : ((number.length + 1) / 2 : ℕ) > bufferSize := Int.not_le.mp hfits
  rw [encodePhoneNumber, if_pos hsize]

lemma NumberPacked.holds {buffer : ℕ → UInt8}
    (h : NumberPacked number start outputBuffer number.length buffer) :
    HoldsNumber buffer start number := ⟨h.digits, h.filler⟩

/-- The number stays where it is while other octets are written. -/
lemma HoldsNumber.congr {buffer buffer' : ℕ → UInt8} (h : HoldsNumber buffer start number)
    (hsame : ∀ a, start ≤ a → a < start + numberOctets number → buffer' a = buffer a) :
    HoldsNumber buffer' start number := by
  unfold numberOctets at hsame
  refine ⟨fun k hk => ?_, fun hodd => ?_⟩
  · rw [← h.digits k hk]
    exact semiOctet_congr (hsame _ (by omega) (by omega))
  · rw [← h.filler hodd]
    exact semiOctet_congr (hsame _ (by omega) (by omega))

/-- A number of digits is read back. -/
lemma HoldsNumber.semiDigits_eq {buffer : ℕ → UInt8} (h : HoldsNumber buffer start number)
    (hdigits : IsDigits number) : semiDigits buffer start number.length = number := by
  refine List.ext_getElem (by simp [semiDigits]) fun k hk hk' => ?_
  have hc := hdigits _ (List.getElem_mem hk')
  have hget : number.getD k 0 = number[k] := by
    rw [List.getD_eq_getElem?_getD, List.getElem?_eq_getElem hk', Option.getD_some]
  simp only [semiDigits, List.getElem_map, List.getElem_range]
  rw [h.digits k hk', hget, digit_of_low hc]

end Number

/-! ## The layout -/

/-- The numbers and the text of a message. -/
structure Submit where
  serviceCenterNumber : List UInt8
  phoneNumber : List UInt8
  smsText : List UInt8

/-- The digits of the service centre's address, whose length counts octets. -/
def smscDigits (buffer : ℕ → UInt8) : ℕ :=
  let octets := (buffer 0).toNat - 1
  if octets ≠ 0 ∧ semiOctet buffer 2 (2 * octets - 1) = 0x0F then 2 * octets - 1 else 2 * octets

/-- A character of seven bits in the octets from `start` on. -/
def septetAt (buffer : ℕ → UInt8) (start k : ℕ) : UInt8 :=
  (((octetsFrom start buffer (7 * k / 8) >>> (7 * k % 8)) |||
    (octetsFrom start buffer (7 * k / 8 + 1) <<< (8 - 7 * k % 8))) % 2 ^ 7).toUInt8

/-- The number of octets of a text of the length `n`, and the text. -/
def userData (dcs : UInt8) (buffer : ℕ → UInt8) (start n : ℕ) : Option (ℕ × List UInt8) :=
  if dcs = 0x00 then some (packedOctets n, (List.range n).map (septetAt buffer start))
  else if dcs = 0x08 then some (n, (List.range n).map fun k => buffer (start + k))
  else none

/-- A parser of the whole layout: it accepts a message that ends where its text does. -/
def parseSubmit (buffer : ℕ → UInt8) (length : ℕ) : Option Submit :=
  let smsc := (buffer 0).toNat
  let digits := (buffer (smsc + 3)).toNat
  let pid := smsc + 5 + (digits + 1) / 2
  match userData (buffer (pid + 1)) buffer (pid + 4) (buffer (pid + 3)).toNat with
  | none => none
  | some (octets, smsText) =>
      if (smsc = 0 ∨ buffer 1 = 0x91) ∧ buffer (smsc + 1) = 0x11 ∧ buffer (smsc + 4) = 0x91 ∧
          length = pid + 4 + octets then
        some ⟨semiDigits buffer 2 (smscDigits buffer), semiDigits buffer (smsc + 5) digits, smsText⟩
      else none

/-- The octets of the service centre's address behind its length. -/
def smscOctets (serviceCenterNumber : List UInt8) : ℕ :=
  if serviceCenterNumber.length > 0 then numberOctets serviceCenterNumber + 1 else 0

/-- The octets in front of the text. -/
def headerOctets (serviceCenterNumber phoneNumber : List UInt8) : ℕ :=
  smscOctets serviceCenterNumber + numberOctets phoneNumber + 9

/-- What is asked of a function that encodes a message whose text takes `octets` octets: nothing is
stored outside the buffer, a number that is none and a message that does not fit are refused, and
any other message is parsed back. -/
structure Submitted (serviceCenterNumber phoneNumber smsText : List UInt8) (octets : ℕ)
    (outputBuffer : ℕ → UInt8) (bufferSize : ℕ) (r : ℤ × (ℕ → UInt8)) : Prop where
  frame : ∀ a, bufferSize ≤ a → r.2 a = outputBuffer a
  refuses : (¬ IsDigits serviceCenterNumber ∨ ¬ IsDigits phoneNumber ∨
    bufferSize < headerOctets serviceCenterNumber phoneNumber + octets ∨
    smsMax7BitTextLength < smsText.length) → r.1 < 0
  parses : IsDigits serviceCenterNumber → IsDigits phoneNumber →
    headerOctets serviceCenterNumber phoneNumber + octets ≤ bufferSize →
    smsText.length ≤ smsMax7BitTextLength →
    ∃ n : ℕ, r.1 = n ∧
      parseSubmit r.2 n = some ⟨serviceCenterNumber, phoneNumber, smsText⟩

/-! ## The header -/

/-- What stands in front of the text. -/
structure HeaderLaid (serviceCenterNumber phoneNumber : List UInt8) (dcs : UInt8)
    (buffer : ℕ → UInt8) : Prop where
  smscLength : buffer 0 = (smscOctets serviceCenterNumber).toUInt8
  smscType : serviceCenterNumber.length > 0 → buffer 1 = 0x91
  smsc : HoldsNumber buffer 2 serviceCenterNumber
  type : buffer (smscOctets serviceCenterNumber + 1) = 0x11
  digits : buffer (smscOctets serviceCenterNumber + 3) = phoneNumber.length.toUInt8
  phoneType : buffer (smscOctets serviceCenterNumber + 4) = 0x91
  phone : HoldsNumber buffer (smscOctets serviceCenterNumber + 5) phoneNumber
  dcs : buffer (headerOctets serviceCenterNumber phoneNumber - 3) = dcs

section Parse

variable {sc phone : List UInt8} {dcs : UInt8} {buffer : ℕ → UInt8} {length : ℕ}

/-- The lengths of the numbers that a message can hold. -/
lemma parseSubmit_lengths {s : Submit} (h : parseSubmit buffer length = some s) :
    s.serviceCenterNumber.length ≤ 508 ∧ s.phoneNumber.length ≤ 255 := by
  unfold parseSubmit at h
  dsimp only at h
  split at h
  · cases h
  · split_ifs at h
    obtain rfl := Option.some_inj.mp h
    have hsmsc : smscDigits buffer ≤ 508 := by
      have hlt := (buffer 0).toNat_lt
      unfold smscDigits
      dsimp only
      split_ifs <;> omega
    have hdigits := (buffer ((buffer 0).toNat + 3)).toNat_lt
    simp only [semiDigits, List.length_map, List.length_range]
    exact ⟨hsmsc, by omega⟩

/-- The service centre's number of digits can be told from its octets. -/
lemma HeaderLaid.smscDigits_eq (h : HeaderLaid sc phone dcs buffer) (hdigits : IsDigits sc)
    (hlength : sc.length ≤ 508) : smscDigits buffer = sc.length := by
  have hoctets : (buffer 0).toNat = smscOctets sc := by
    rw [h.smscLength]
    refine Nat.mod_eq_of_lt ?_
    unfold smscOctets numberOctets
    split_ifs <;> omega
  unfold smscDigits
  dsimp only
  rw [hoctets]
  by_cases hnone : sc.length > 0
  · have hcount : smscOctets sc - 1 = (sc.length + 1) / 2 := by
      rw [smscOctets, if_pos hnone]
      rfl
    rw [hcount]
    by_cases hodd : sc.length % 2 = 1
    · have hlast : 2 * ((sc.length + 1) / 2) - 1 = sc.length := by omega
      rw [hlast, if_pos ⟨by omega, h.smsc.filler hodd⟩]
    · have hlast : 2 * ((sc.length + 1) / 2) - 1 = sc.length - 1 := by omega
      rw [hlast, if_neg ?_]
      · omega
      · rintro ⟨-, hfiller⟩
        have hlt : sc.length - 1 < sc.length := by omega
        rw [h.smsc.digits _ hlt, List.getD_eq_getElem?_getD, List.getElem?_eq_getElem hlt]
          at hfiller
        exact digit_ne_filler (hdigits _ (List.getElem_mem hlt)) hfiller
  · have hzero : smscOctets sc = 0 := by rw [smscOctets, if_neg hnone]
    rw [hzero]
    simp
    omega

/-- **What is laid out is read back**, as far as it is in front of the text. -/
theorem HeaderLaid.parseSubmit_eq (h : HeaderLaid sc phone dcs buffer) (hsc : IsDigits sc)
    (hphone : IsDigits phone) (hlengths : sc.length ≤ 508 ∧ phone.length ≤ 255) :
    parseSubmit buffer length =
      match userData dcs buffer (headerOctets sc phone)
        (buffer (headerOctets sc phone - 1)).toNat with
      | none => none
      | some (octets, smsText) =>
          if length = headerOctets sc phone + octets then some ⟨sc, phone, smsText⟩ else none := by
  have hoctets : (buffer 0).toNat = smscOctets sc := by
    rw [h.smscLength]
    refine Nat.mod_eq_of_lt ?_
    unfold smscOctets numberOctets
    split_ifs <;> omega
  have hdigits : (buffer (smscOctets sc + 3)).toNat = phone.length := by
    rw [h.digits]
    exact Nat.mod_eq_of_lt (by omega)
  have hpid : smscOctets sc + 5 + (phone.length + 1) / 2 = headerOctets sc phone - 4 := by
    unfold headerOctets numberOctets
    omega
  have hheader : 4 ≤ headerOctets sc phone := by
    unfold headerOctets
    omega
  have htype : smscOctets sc = 0 ∨ buffer 1 = 0x91 := by
    by_cases hnone : sc.length > 0
    · exact Or.inr (h.smscType hnone)
    · exact Or.inl (if_neg hnone)
  unfold parseSubmit
  dsimp only
  rw [hoctets, hdigits, hpid, h.smscDigits_eq hsc hlengths.1, h.smsc.semiDigits_eq hsc,
    h.phone.semiDigits_eq hphone, h.type, h.phoneType]
  have h3 : headerOctets sc phone - 4 + 1 = headerOctets sc phone - 3 := by omega
  have h1 : headerOctets sc phone - 4 + 3 = headerOctets sc phone - 1 := by omega
  have h0 : headerOctets sc phone - 4 + 4 = headerOctets sc phone := by omega
  rw [h3, h1, h0, h.dcs]
  simp only [htype, true_and]

end Parse

end Ampm

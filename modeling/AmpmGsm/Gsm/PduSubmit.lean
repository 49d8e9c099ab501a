import AmpmGsm.Gsm.PduLayout

/-!
# SMS-SUBMIT encoding is right or not

`pdu_encode` and `pdu16_encode` first lay out what stands in front of the text.  A number that does
not fit is left out, and nobody looks at what `EncodePhoneNumber` returns; a character that is no
digit is never noticed.

* `laidHeader`, `pduHeader_fst`, **`pduHeader_laid`** — the octets in front of the text.
* `EncodesText`, `EncodesBytes` — the inputs for which the functions do what is asked.
* **`pduEncode_submits_iff`**, **`pdu16Encode_submits_iff`** — they do it for these only.
-/

namespace Ampm

open BitStream

/-! ## Laying out the header -/

/-- The octets of the service centre's address that are laid out: none if they do not fit. -/
def laidSmsc (serviceCenterNumber : List UInt8) (bufferSize : ℕ) : ℕ :=
  if numberOctets serviceCenterNumber + 2 ≤ bufferSize then smscOctets serviceCenterNumber else 0

/-- The octets that are laid out in front of the text: if the destination's number does not fit,
the octets behind overwrite its type. -/
def laidHeader (serviceCenterNumber phoneNumber : List UInt8) (bufferSize : ℕ) : ℕ :=
  let smsc := laidSmsc serviceCenterNumber bufferSize
  if smsc + numberOctets phoneNumber + 5 ≤ bufferSize then smsc + numberOctets phoneNumber + 9
  else smsc + 8

/-- Step 1 of the two functions. -/
def smscStage (serviceCenterNumber : List UInt8) (outputBuffer : ℕ → UInt8) (bufferSize : ℕ) :
    ℤ × (ℕ → UInt8) :=
  if serviceCenterNumber.length > 0 then
    let r := encodePhoneNumber serviceCenterNumber (Function.update outputBuffer 1 0x91) 2
      (bufferSize - 2)
    (r.1 + 1, r.2)
  else (0, outputBuffer)

/-- Steps 2 to 4, from index `n` on. -/
def destinationStage (phoneNumber : List UInt8) (dcs : UInt8) (outputBuffer : ℕ → UInt8) (n : ℕ)
    (bufferSize : ℕ) : Option ℕ × (ℕ → UInt8) :=
  let out := Function.update outputBuffer n 0x11
  let out := Function.update out (n + 1) 0x00
  let n := n + 2
  let out := Function.update out n phoneNumber.length.toUInt8
  let out := Function.update out (n + 1) 0x91
  let r := encodePhoneNumber phoneNumber out (n + 2) (bufferSize - n - 2)
  let n := (n + r.1 + 2).toNat
  if n + 4 > bufferSize then (none, r.2)
  else
    let out := Function.update r.2 n 0x00
    let out := Function.update out (n + 1) dcs
    let out := Function.update out (n + 2) 0xB0
    (some (n + 3), out)

section Header

variable {sc phone : List UInt8} {dcs : UInt8} {out : ℕ → UInt8} {bufferSize n : ℕ}

lemma pduHeader_eq (sc phone : List UInt8) (dcs : UInt8) (out : ℕ → UInt8) (bufferSize : ℕ) :
    pduHeader sc phone dcs out bufferSize =
      if bufferSize < 2 then (none, out)
      else
        let r := smscStage sc out bufferSize
        let buffer := Function.update r.2 0 r.1.toNat.toUInt8
        if r.1.toNat + 1 + 4 > bufferSize then (none, buffer)
        else destinationStage phone dcs buffer (r.1.toNat + 1) bufferSize := rfl

lemma smscStage_spec (sc : List UInt8) (out : ℕ → UInt8) (hsize : 2 ≤ bufferSize) :
    (smscStage sc out bufferSize).1.toNat = laidSmsc sc bufferSize ∧
      (∀ a, bufferSize ≤ a → (smscStage sc out bufferSize).2 a = out a) ∧
      (numberOctets sc + 2 ≤ bufferSize →
        (sc.length > 0 → (smscStage sc out bufferSize).2 1 = 0x91) ∧
          HoldsNumber (smscStage sc out bufferSize).2 2 sc) := by
  unfold smscStage laidSmsc smscOctets
  by_cases hsome : sc.length > 0
  · rw [if_pos hsome]
    dsimp only
    by_cases hfits : numberOctets sc + 2 ≤ bufferSize
    · obtain ⟨hreturn, hpacked⟩ := encodePhoneNumber_packed sc (Function.update out 1 0x91) 2
        (by omega : (numberOctets sc : ℤ) ≤ bufferSize - 2)
      refine ⟨?_, fun a ha => ?_, fun _ => ⟨fun _ => ?_, hpacked.holds⟩⟩
      · rw [if_pos hfits, if_pos hsome, hreturn]
        rfl
      · have hbehind : a < 2 ∨ 2 + (sc.length + 1) / 2 ≤ a := by
          unfold numberOctets at hfits
          omega
        exact (hpacked.others a hbehind).trans (Function.update_of_ne (by omega) _ _)
      · exact (hpacked.others 1 (Or.inl (by decide))).trans (Function.update_self _ _ _)
    · have hfails := encodePhoneNumber_fails sc (Function.update out 1 0x91) 2
        (by omega : ¬ (numberOctets sc : ℤ) ≤ bufferSize - 2)
      rw [hfails, if_neg hfits]
      exact ⟨rfl, fun a ha => Function.update_of_ne (by omega) _ _, fun h => absurd h hfits⟩
  · have hempty : sc.length = 0 := by omega
    rw [if_neg hsome, if_neg hsome]
    refine ⟨by split_ifs <;> rfl, fun _ _ => rfl, fun _ => ⟨fun h => absurd h hsome, ?_, ?_⟩⟩
    · rw [hempty]
      exact fun k hk => absurd hk (Nat.not_lt_zero k)
    · rw [hempty]
      exact fun h => absurd h (by decide)

/-- The four octets in front of the destination's digits. -/
def destinationPrefix (phoneNumber : List UInt8) (outputBuffer : ℕ → UInt8) (n : ℕ) : ℕ → UInt8 :=
  Function.update (Function.update (Function.update (Function.update outputBuffer n 0x11)
    (n + 1) 0x00) (n + 2) phoneNumber.length.toUInt8) (n + 3) 0x91

/-- The three octets behind them. -/
def destinationSuffix (dcs : UInt8) (outputBuffer : ℕ → UInt8) (n : ℕ) : ℕ → UInt8 :=
  Function.update (Function.update (Function.update outputBuffer n 0x00) (n + 1) dcs) (n + 2) 0xB0

/-- The digits: what `EncodePhoneNumber` returns there. -/
def destinationDigits (phoneNumber : List UInt8) (outputBuffer : ℕ → UInt8) (n bufferSize : ℕ) :
    ℤ × (ℕ → UInt8) :=
  encodePhoneNumber phoneNumber (destinationPrefix phoneNumber outputBuffer n) (n + 4)
    (bufferSize - (n + 2 : ℕ) - 2)

/-- The index behind the destination's address. -/
def destinationEnd (phoneNumber : List UInt8) (n bufferSize : ℕ) : ℕ :=
  if n + numberOctets phoneNumber + 4 ≤ bufferSize then n + numberOctets phoneNumber + 4 else n + 3

lemma destinationPrefix_of_ne {a : ℕ} (ha : a < n ∨ n + 4 ≤ a) :
    destinationPrefix phone out n a = out a := by
  unfold destinationPrefix
  rw [Function.update_of_ne (by omega), Function.update_of_ne (by omega),
    Function.update_of_ne (by omega), Function.update_of_ne (by omega)]

lemma destinationPrefix_eq (phone : List UInt8) (out : ℕ → UInt8) (n : ℕ) :
    destinationPrefix phone out n n = 0x11 ∧
      destinationPrefix phone out n (n + 2) = phone.length.toUInt8 ∧
      destinationPrefix phone out n (n + 3) = 0x91 := by
  unfold destinationPrefix
  refine ⟨?_, ?_, Function.update_self _ _ _⟩
  · rw [Function.update_of_ne (by omega), Function.update_of_ne (by omega),
      Function.update_of_ne (by omega), Function.update_self]
  · rw [Function.update_of_ne (by omega), Function.update_self]

lemma destinationSuffix_of_ne {a : ℕ} (ha : a < n ∨ n + 3 ≤ a) :
    destinationSuffix dcs out n a = out a := by
  unfold destinationSuffix
  rw [Function.update_of_ne (by omega), Function.update_of_ne (by omega),
    Function.update_of_ne (by omega)]

lemma destinationSuffix_dcs : destinationSuffix dcs out n (n + 1) = dcs := by
  unfold destinationSuffix
  rw [Function.update_of_ne (by omega), Function.update_self]

lemma destinationDigits_packed (hfits : n + numberOctets phone + 4 ≤ bufferSize) :
    (destinationDigits phone out n bufferSize).1 = numberOctets phone ∧
      NumberPacked phone (n + 4) (destinationPrefix phone out n) phone.length
        (destinationDigits phone out n bufferSize).2 :=
  encodePhoneNumber_packed phone _ (n + 4) (by omega)

lemma destinationDigits_fails (hfits : ¬ n + numberOctets phone + 4 ≤ bufferSize) :
    destinationDigits phone out n bufferSize = (-1, destinationPrefix phone out n) :=
  encodePhoneNumber_fails phone _ (n + 4) (by omega)

/-- The digits and what is in front of them stay in the buffer. -/
lemma destinationDigits_frame (hn : n + 4 ≤ bufferSize) {a : ℕ} (ha : a < n ∨ bufferSize ≤ a) :
    (destinationDigits phone out n bufferSize).2 a = out a := by
  by_cases hfits : n + numberOctets phone + 4 ≤ bufferSize
  · have hbehind : a < n + 4 ∨ n + 4 + (phone.length + 1) / 2 ≤ a := by
      unfold numberOctets at hfits
      omega
    rw [(destinationDigits_packed hfits).2.others a hbehind, destinationPrefix_of_ne (by omega)]
  · rw [destinationDigits_fails hfits]
    exact destinationPrefix_of_ne (by omega)

/-- **Steps 2 to 4.** -/
lemma destinationStage_eq (phone : List UInt8) (dcs : UInt8) (out : ℕ → UInt8) (n bufferSize : ℕ) :
    destinationStage phone dcs out n bufferSize =
      if bufferSize < destinationEnd phone n bufferSize + 4 then
        (none, (destinationDigits phone out n bufferSize).2)
      else
        (some (destinationEnd phone n bufferSize + 3),
          destinationSuffix dcs (destinationDigits phone out n bufferSize).2
            (destinationEnd phone n bufferSize)) := by
  have hend : ((n + 2 : ℕ) + (destinationDigits phone out n bufferSize).1 + 2).toNat =
      destinationEnd phone n bufferSize := by
    unfold destinationEnd
    by_cases hfits : n + numberOctets phone + 4 ≤ bufferSize
    · rw [(destinationDigits_packed hfits).1, if_pos hfits]
      omega
    · rw [destinationDigits_fails hfits, if_neg hfits]
      show ((n + 2 : ℕ) + (-1 : ℤ) + 2).toNat = n + 3
      omega
  rw [← hend]
  rfl

lemma destinationStage_frame (hn : n + 4 ≤ bufferSize) {a : ℕ} (ha : a < n ∨ bufferSize ≤ a) :
    (destinationStage phone dcs out n bufferSize).2 a = out a := by
  have hend : n ≤ destinationEnd phone n bufferSize := by
    unfold destinationEnd
    split_ifs <;> omega
  rw [destinationStage_eq]
  by_cases hroom : bufferSize < destinationEnd phone n bufferSize + 4
  · rw [if_pos hroom]
    exact destinationDigits_frame hn ha
  · rw [if_neg hroom]
    exact (destinationSuffix_of_ne (by omega)).trans (destinationDigits_frame hn ha)

/-- **The destination as it is laid out** if there is room for it. -/
lemma destinationStage_laid (phone : List UInt8) (dcs : UInt8) (out : ℕ → UInt8)
    (hroom : n + numberOctets phone + 8 ≤ bufferSize) :
    let buffer := (destinationStage phone dcs out n bufferSize).2
    (buffer n = 0x11 ∧ buffer (n + 2) = phone.length.toUInt8 ∧ buffer (n + 3) = 0x91) ∧
      HoldsNumber buffer (n + 4) phone ∧ buffer (n + numberOctets phone + 5) = dcs := by
  have hend : destinationEnd phone n bufferSize = n + numberOctets phone + 4 := if_pos (by omega)
  have hpacked : NumberPacked phone (n + 4) (destinationPrefix phone out n) phone.length
      (destinationDigits phone out n bufferSize).2 := (destinationDigits_packed (by omega)).2
  rw [destinationStage_eq, hend, if_neg (by omega)]
  dsimp only
  generalize (destinationDigits phone out n bufferSize).2 = buffer at hpacked ⊢
  have hfront {a : ℕ} (ha : a < n + 4) :
      destinationSuffix dcs buffer (n + numberOctets phone + 4) a =
        destinationPrefix phone out n a := by
    rw [destinationSuffix_of_ne (by omega), hpacked.others a (Or.inl ha)]
  obtain ⟨htype, hlength, hphone⟩ := destinationPrefix_eq phone out n
  refine ⟨⟨?_, ?_, ?_⟩, ?_, destinationSuffix_dcs⟩
  · rw [hfront (by omega), htype]
  · rw [hfront (by omega), hlength]
  · rw [hfront (by omega), hphone]
  · exact hpacked.holds.congr fun a _ ha => destinationSuffix_of_ne (Or.inl (by omega))

lemma laidHeader_eq (sc phone : List UInt8) (bufferSize : ℕ) :
    laidHeader sc phone bufferSize =
      destinationEnd phone (laidSmsc sc bufferSize + 1) bufferSize + 4 := by
  unfold laidHeader destinationEnd
  dsimp only
  split_ifs <;> omega

lemma laidHeader_ge (sc phone : List UInt8) (bufferSize : ℕ) :
    laidSmsc sc bufferSize + 8 ≤ laidHeader sc phone bufferSize := by
  unfold laidHeader
  dsimp only
  split_ifs <;> omega

/-- What fits is laid out as it should be. -/
lemma laid_of_fits (hfits : headerOctets sc phone ≤ bufferSize) :
    laidSmsc sc bufferSize = smscOctets sc ∧
      laidHeader sc phone bufferSize = headerOctets sc phone := by
  have hsmsc : laidSmsc sc bufferSize = smscOctets sc := by
    unfold headerOctets at hfits
    unfold laidSmsc
    refine if_pos ?_
    unfold smscOctets at hfits
    split_ifs at hfits with hsome
    · omega
    · unfold numberOctets at hfits ⊢
      omega
  refine ⟨hsmsc, ?_⟩
  unfold headerOctets at hfits ⊢
  unfold laidHeader
  dsimp only
  rw [hsmsc, if_pos (by omega)]

lemma pduHeader_fst (sc phone : List UInt8) (dcs : UInt8) (out : ℕ → UInt8) (bufferSize : ℕ) :
    (pduHeader sc phone dcs out bufferSize).1 =
      if bufferSize < laidHeader sc phone bufferSize then none
      else some (laidHeader sc phone bufferSize - 1) := by
  have hge := laidHeader_ge sc phone bufferSize
  rw [pduHeader_eq]
  by_cases hsize : bufferSize < 2
  · rw [if_pos hsize, if_pos (by omega)]
  · obtain ⟨hsmsc, -⟩ := smscStage_spec sc out (Nat.not_lt.mp hsize)
    rw [if_neg hsize]
    dsimp only
    rw [hsmsc]
    by_cases hroom : laidSmsc sc bufferSize + 1 + 4 > bufferSize
    · rw [if_pos hroom, if_pos (by omega)]
    · rw [if_neg hroom, destinationStage_eq, ← laidHeader_eq]
      split_ifs
      · rfl
      · rw [laidHeader_eq]
        rfl

lemma pduHeader_frame (sc phone : List UInt8) (dcs : UInt8) (out : ℕ → UInt8) {a : ℕ}
    (ha : bufferSize ≤ a) :
    (pduHeader sc phone dcs out bufferSize).2 a = out a := by
  rw [pduHeader_eq]
  by_cases hsize : bufferSize < 2
  · rw [if_pos hsize]
  · obtain ⟨-, hframe, -⟩ := smscStage_spec sc out (Nat.not_lt.mp hsize)
    rw [if_neg hsize]
    dsimp only
    generalize (smscStage sc out bufferSize).1.toNat = smsc
    have hfirst : Function.update (smscStage sc out bufferSize).2 0 smsc.toUInt8 a = out a := by
      rw [Function.update_of_ne (by omega), hframe a ha]
    split_ifs with hroom
    · exact hfirst
    · rw [destinationStage_frame (by omega) (Or.inr ha), hfirst]

/-- **The header is laid out** if it fits. -/
theorem pduHeader_laid (out : ℕ → UInt8) (hfits : headerOctets sc phone ≤ bufferSize) :
    HeaderLaid sc phone dcs (pduHeader sc phone dcs out bufferSize).2 := by
  have hbound : smscOctets sc + numberOctets phone + 9 ≤ bufferSize := hfits
  have hsmscFits : numberOctets sc + 2 ≤ bufferSize := by
    unfold smscOctets numberOctets at *
    split_ifs at hbound <;> omega
  obtain ⟨hsmsc, -, hlaid⟩ := smscStage_spec sc out (by omega : 2 ≤ bufferSize)
  obtain ⟨htype, hnumber⟩ := hlaid hsmscFits
  rw [(laid_of_fits hfits).1] at hsmsc
  rw [pduHeader_eq, if_neg (by omega)]
  dsimp only
  rw [hsmsc, if_neg (by omega)]
  generalize (smscStage sc out bufferSize).2 = buffer at htype hnumber
  generalize hfirst : Function.update buffer 0 (smscOctets sc).toUInt8 = first
  have hkeep {a : ℕ} (ha : a ≤ smscOctets sc) :
      (destinationStage phone dcs first (smscOctets sc + 1) bufferSize).2 a = first a :=
    destinationStage_frame (by omega) (Or.inl (by omega))
  obtain ⟨⟨hsubmit, hlength, hphoneType⟩, hphone, hdcs⟩ := destinationStage_laid phone dcs first
    (by omega : smscOctets sc + 1 + numberOctets phone + 8 ≤ bufferSize)
  have hoctets (hsome : sc.length > 0) : smscOctets sc = numberOctets sc + 1 := if_pos hsome
  refine ⟨?_, fun hsome => ?_, ?_, hsubmit, hlength, hphoneType, hphone, ?_⟩
  · rw [hkeep (Nat.zero_le _), ← hfirst, Function.update_self]
  · rw [hkeep (by rw [hoctets hsome]; omega), ← hfirst, Function.update_of_ne (by decide)]
    exact htype hsome
  · refine hnumber.congr fun a hle hlt => ?_
    have hsome : sc.length > 0 := by
      unfold numberOctets at hlt
      omega
    rw [hkeep (by rw [hoctets hsome]; omega), ← hfirst, Function.update_of_ne (by omega)]
  · have hindex : headerOctets sc phone - 3 = smscOctets sc + 1 + numberOctets phone + 5 := by
      unfold headerOctets
      omega
    rw [hindex]
    exact hdcs

/-- What is behind the header does not matter to it. -/
lemma HeaderLaid.congr {buffer buffer' : ℕ → UInt8} (h : HeaderLaid sc phone dcs buffer)
    (hsame : ∀ a, a + 1 < headerOctets sc phone → buffer' a = buffer a) :
    HeaderLaid sc phone dcs buffer' := by
  have hheader : headerOctets sc phone = smscOctets sc + numberOctets phone + 9 := rfl
  have hoctets (hsome : sc.length > 0) : smscOctets sc = numberOctets sc + 1 := if_pos hsome
  refine ⟨?_, fun hsome => ?_, ?_, ?_, ?_, ?_, ?_, ?_⟩
  · rw [hsame _ (by omega), h.smscLength]
  · rw [hsame _ (by omega), h.smscType hsome]
  · refine h.smsc.congr fun a hle hlt => hsame a ?_
    have hsome : sc.length > 0 := by
      unfold numberOctets at hlt
      omega
    have := hoctets hsome
    omega
  · rw [hsame _ (by omega), h.type]
  · rw [hsame _ (by omega), h.digits]
  · rw [hsame _ (by omega), h.phoneType]
  · exact h.phone.congr fun a _ hlt => hsame a (by omega)
  · rw [hsame _ (by omega), h.dcs]

end Header

/-! ## The text -/

section Text

variable {sc phone smsText : List UInt8} {out buffer : ℕ → UInt8} {bufferSize start : ℕ}

/-- The bits of a character that is read. -/
lemma testBit_septetAt (buffer : ℕ → UInt8) (start k j : ℕ) :
    (septetAt buffer start k).toNat.testBit j =
      (decide (j < 7) && bitAt 8 (octetsFrom start buffer) (7 * k + j)) := by
  have hoctets : ∀ i, octetsFrom start buffer i < 2 ^ 8 := fun i => (buffer (start + i)).toNat_lt
  unfold septetAt
  have hmod (x : ℕ) : (x % 2 ^ 7).toUInt8.toNat = x % 2 ^ 7 :=
    Nat.mod_eq_of_lt (Nat.lt_trans (Nat.mod_lt x (by decide)) (by decide))
  rw [hmod, Nat.testBit_mod_two_pow]
  by_cases hj : j < 7
  · rw [testBit_window hoctets (Nat.mod_lt _ (by decide)) (by omega), ← Nat.add_assoc,
      Nat.div_add_mod]
  · simp [hj]

/-- A character that is read has seven bits. -/
lemma septetAt_lt (buffer : ℕ → UInt8) (start k : ℕ) : septetAt buffer start k < 128 := by
  have hlt : (septetAt buffer start k).toNat < 2 ^ 7 := by
    refine Nat.lt_pow_two_of_testBit _ fun j hj => ?_
    rw [testBit_septetAt, decide_eq_false (Nat.not_lt.mpr hj), Bool.false_and]
  exact hlt

/-- Characters of seven bits that are packed are read back. -/
lemma septetAt_of_packed {k : ℕ} (hk : k < smsText.length) (hseven : ∀ c ∈ smsText, c < 128)
    (hpacked : ∀ j < 7, bitAt 8 (octetsFrom start buffer) (7 * k + j) =
      (smsText.getD k 0).toNat.testBit j) :
    septetAt buffer start k = smsText[k] := by
  have hget : smsText.getD k 0 = smsText[k] := by
    rw [List.getD_eq_getElem?_getD, List.getElem?_eq_getElem hk, Option.getD_some]
  refine UInt8.toNat_inj.mp (Nat.eq_of_testBit_eq fun j => ?_)
  rw [testBit_septetAt]
  by_cases hj : j < 7
  · rw [hpacked j hj, hget, decide_eq_true hj, Bool.true_and]
  · have hlt : (smsText[k]).toNat < 2 ^ 7 := hseven _ (List.getElem_mem hk)
    rw [decide_eq_false hj, Bool.false_and]
    exact (Nat.testBit_lt_two_pow (Nat.lt_of_lt_of_le hlt
      (Nat.pow_le_pow_right (by decide) (Nat.not_lt.mp hj)))).symm

/-- **A text of seven-bit characters is parsed back.** -/
lemma userData_septets (hseven : ∀ c ∈ smsText, c < 128)
    (hpacked : ∀ k < smsText.length, ∀ j < 7, bitAt 8 (octetsFrom start buffer) (7 * k + j) =
      (smsText.getD k 0).toNat.testBit j) :
    userData 0x00 buffer start smsText.length = some (packedOctets smsText.length, smsText) := by
  have htext : (List.range smsText.length).map (septetAt buffer start) = smsText := by
    refine List.ext_getElem (by simp) fun k hk hk' => ?_
    simp only [List.getElem_map, List.getElem_range]
    exact septetAt_of_packed hk' hseven (hpacked k hk')
  rw [userData, if_pos rfl, htext]

lemma encodePduMessage_refuses
    {size : ℤ} (hsize : ¬ (packedOctets smsText.length : ℤ) ≤ size) :
    encodePduMessage smsText out start size = (-1, out) := by
  have hfits : ((smsText.length * 7 + 7) / 8 : ℕ) > size := by
    rw [packedOctets, Nat.mul_comm] at hsize
    omega
  rw [encodePduMessage, if_pos hfits]

/-- The condition under which `pdu_encode` does what it is for. -/
def EncodesText (serviceCenterNumber phoneNumber smsText : List UInt8) (bufferSize : ℕ) : Prop :=
  laidHeader serviceCenterNumber phoneNumber bufferSize + packedOctets smsText.length ≤
      bufferSize →
    smsText.length ≤ smsMax7BitTextLength →
    IsDigits serviceCenterNumber ∧ IsDigits phoneNumber ∧
      (serviceCenterNumber.length ≤ 508 ∧ phoneNumber.length ≤ 255) ∧
      headerOctets serviceCenterNumber phoneNumber ≤ bufferSize ∧
      (∀ c ∈ smsText, c < 128) ∧ smsText.length % 8 ≠ 0

/-- A message that is laid out, but refused, is refused for its length. -/
lemma pduEncode_refuses (out : ℕ → UInt8) (hrefused :
      laidHeader sc phone bufferSize + packedOctets smsText.length ≤ bufferSize →
        ¬ smsText.length ≤ smsMax7BitTextLength) :
    (pduEncode sc phone smsText out bufferSize).1 = -1 ∧
      ∀ a, bufferSize ≤ a → (pduEncode sc phone smsText out bufferSize).2 a = out a := by
  have hge := laidHeader_ge sc phone bufferSize
  have hfst := pduHeader_fst sc phone 0x00 out bufferSize
  have hframe := fun a (ha : bufferSize ≤ a) =>
    pduHeader_frame sc phone 0x00 out ha
  unfold pduEncode
  generalize pduHeader sc phone 0x00 out bufferSize = header at hfst hframe
  obtain ⟨n, buffer⟩ := header
  by_cases hroom : bufferSize < laidHeader sc phone bufferSize
  · rw [if_pos hroom] at hfst
    obtain rfl : n = none := hfst
    exact ⟨rfl, hframe⟩
  · rw [if_neg hroom] at hfst
    obtain rfl : n = some (laidHeader sc phone bufferSize - 1) := hfst
    dsimp only
    by_cases hlong : smsText.length > smsMax7BitTextLength
    · rw [if_pos hlong]
      exact ⟨rfl, hframe⟩
    · have hpast : ¬ (packedOctets smsText.length : ℤ) ≤
          (bufferSize : ℤ) - ((laidHeader sc phone bufferSize - 1 : ℕ) + 1) := by
        intro hfits
        exact hrefused (by omega) (Nat.not_lt.mp hlong)
      rw [if_neg hlong, encodePduMessage_refuses hpast, if_pos (show (-1 : ℤ) < 0 by decide)]
      refine ⟨rfl, fun a ha => ?_⟩
      show Function.update buffer _ _ a = _
      rw [Function.update_of_ne (by omega)]
      exact hframe a ha

/-- A message that is accepted. -/
lemma pduEncode_accepts (out : ℕ → UInt8)
    (haccept : laidHeader sc phone bufferSize + packedOctets smsText.length ≤ bufferSize)
    (hshort : smsText.length ≤ smsMax7BitTextLength) :
    let m := encodePduMessage smsText
      (Function.update (pduHeader sc phone 0x00 out bufferSize).2
        (laidHeader sc phone bufferSize - 1) smsText.length.toUInt8)
      (laidHeader sc phone bufferSize) (bufferSize - laidHeader sc phone bufferSize)
    pduEncode sc phone smsText out bufferSize = (laidHeader sc phone bufferSize + m.1, m.2) := by
  have hge := laidHeader_ge sc phone bufferSize
  have hfst := pduHeader_fst sc phone 0x00 out bufferSize
  rw [if_neg (by omega)] at hfst
  have hlast : laidHeader sc phone bufferSize - 1 + 1 = laidHeader sc phone bufferSize := by omega
  have hsize : (bufferSize : ℤ) - ((laidHeader sc phone bufferSize - 1 : ℕ) + 1) =
      bufferSize - laidHeader sc phone bufferSize := by omega
  unfold pduEncode
  generalize pduHeader sc phone 0x00 out bufferSize = header at hfst
  obtain ⟨n, buffer⟩ := header
  obtain rfl : n = some (laidHeader sc phone bufferSize - 1) := hfst
  dsimp only
  rw [if_neg (Nat.not_lt.mpr hshort), hsize, hlast]
  obtain ⟨o, hreturn, -⟩ := encodePduMessage_spec smsText
    (Function.update buffer (laidHeader sc phone bufferSize - 1) smsText.length.toUInt8)
    (laidHeader sc phone bufferSize)
    (by omega : (packedOctets smsText.length : ℤ) ≤
      bufferSize - laidHeader sc phone bufferSize)
  rw [hreturn, if_neg (by omega)]

/-- Octets that are windows of the septets hold the text. -/
lemma bitAt_windows {buffer : ℕ → UInt8} {start o : ℕ} (hfits : 7 * smsText.length ≤ 8 * (o + 1))
    (hoctets : ∀ k < o + 1, ∀ j < 8,
      (octetsFrom start buffer k).testBit j = bitAt 7 (septets smsText) (8 * k + j)) :
    ∀ k < smsText.length, ∀ j < 7,
      bitAt 8 (octetsFrom start buffer) (7 * k + j) = (smsText.getD k 0).toNat.testBit j := by
  intro k hk j hj
  have hwindow := hoctets ((7 * k + j) / 8) (by omega) ((7 * k + j) % 8) (by omega)
  rw [Nat.div_add_mod, bitAt_mul_add hj, testBit_septets smsText k hj] at hwindow
  exact hwindow

/-- What is in the buffer then: `o + 1` octets of text, as many as it needs unless its length is a
multiple of eight. -/
lemma pduEncode_spec (out : ℕ → UInt8)
    (haccept : laidHeader sc phone bufferSize + packedOctets smsText.length ≤ bufferSize)
    (hshort : smsText.length ≤ smsMax7BitTextLength) :
    ∃ (o : ℕ) (buffer : ℕ → UInt8),
      pduEncode sc phone smsText out bufferSize =
        (((laidHeader sc phone bufferSize + (o + 1) : ℕ) : ℤ), buffer) ∧
      (o + 1 = packedOctets smsText.length ↔ smsText.length % 8 ≠ 0) ∧
      (∀ a, (a < laidHeader sc phone bufferSize ∨ laidHeader sc phone bufferSize + (o + 1) ≤ a) →
        buffer a = Function.update (pduHeader sc phone 0x00 out bufferSize).2
          (laidHeader sc phone bufferSize - 1) smsText.length.toUInt8 a) ∧
      (smsText.length % 8 ≠ 0 → ∀ k < smsText.length, ∀ j < 7,
        bitAt 8 (octetsFrom (laidHeader sc phone bufferSize) buffer) (7 * k + j) =
          (smsText.getD k 0).toNat.testBit j) := by
  have hsize : (packedOctets smsText.length : ℤ) ≤
      bufferSize - laidHeader sc phone bufferSize := by omega
  have hresult := pduEncode_accepts out haccept hshort
  obtain ⟨o, hreturn, hlt, hle, hge, hoctets, hothers⟩ := encodePduMessage_spec smsText
    (Function.update (pduHeader sc phone 0x00 out bufferSize).2
      (laidHeader sc phone bufferSize - 1) smsText.length.toUInt8)
    (laidHeader sc phone bufferSize) hsize
  dsimp only at hresult
  rw [hreturn] at hresult
  refine ⟨o, _, hresult, ?_, hothers, fun hmod => bitAt_windows (by omega) hoctets⟩
  unfold packedOctets
  constructor
  · intro hneeded hmod
    omega
  · intro hmod
    have hlength : smsText.length = 8 * (o / 7) + o % 7 + 1 := by omega
    omega

/-- What stands in front of the text when a message is accepted. -/
lemma headerLaid_of_others {o : ℕ} (hfits : headerOctets sc phone ≤ bufferSize)
    {buffer : ℕ → UInt8} (hshort : smsText.length ≤ smsMax7BitTextLength)
    (hothers : ∀ a, (a < headerOctets sc phone ∨ headerOctets sc phone + (o + 1) ≤ a) →
      buffer a = Function.update (pduHeader sc phone 0x00 out bufferSize).2
        (headerOctets sc phone - 1) smsText.length.toUInt8 a) :
    HeaderLaid sc phone 0x00 buffer ∧
      (buffer (headerOctets sc phone - 1)).toNat = smsText.length := by
  have hheader : headerOctets sc phone = smscOctets sc + numberOctets phone + 9 := rfl
  unfold smsMax7BitTextLength at hshort
  constructor
  · refine (pduHeader_laid out hfits).congr fun a ha => ?_
    rw [hothers a (Or.inl (by omega)), Function.update_of_ne (by omega)]
  · rw [hothers _ (Or.inl (by omega)), Function.update_self]
    exact Nat.mod_eq_of_lt (by omega)

/-- The condition is necessary. -/
lemma encodesText_of_submitted (haccept : laidHeader sc phone bufferSize +
      packedOctets smsText.length ≤ bufferSize) (hshort : smsText.length ≤ smsMax7BitTextLength)
    (h : Submitted sc phone smsText (packedOctets smsText.length) out bufferSize
      (pduEncode sc phone smsText out bufferSize)) :
    EncodesText sc phone smsText bufferSize := by
  obtain ⟨o, buffer, hresult, hcount, hothers, -⟩ := pduEncode_spec out haccept hshort
  rw [hresult] at h
  have hnonneg : ¬ ((laidHeader sc phone bufferSize + (o + 1) : ℕ) : ℤ) < 0 := by omega
  have hsc : IsDigits sc := by_contra fun hno => hnonneg (h.refuses (Or.inl hno))
  have hphone : IsDigits phone := by_contra fun hno => hnonneg (h.refuses (Or.inr (Or.inl hno)))
  have hfits : headerOctets sc phone + packedOctets smsText.length ≤ bufferSize :=
    Nat.not_lt.mp fun hno => hnonneg (h.refuses (Or.inr (Or.inr (Or.inl hno))))
  have hheader : headerOctets sc phone ≤ bufferSize := by omega
  obtain ⟨n, hn, hparse⟩ := h.parses hsc hphone hfits hshort
  obtain rfl : laidHeader sc phone bufferSize + (o + 1) = n := Int.ofNat_inj.mp hn
  have hlengths := parseSubmit_lengths hparse
  rw [(laid_of_fits hheader).2] at hothers hparse
  obtain ⟨hlaid, htext⟩ := headerLaid_of_others hheader hshort hothers
  rw [hlaid.parseSubmit_eq hsc hphone hlengths, htext, userData, if_pos rfl] at hparse
  dsimp only at hparse
  split_ifs at hparse with hlength
  have hdata := congrArg Submit.smsText (Option.some_inj.mp hparse)
  dsimp only at hdata
  refine fun _ _ => ⟨hsc, hphone, hlengths, hheader, fun c hc => ?_, hcount.mp (by omega)⟩
  rw [← hdata] at hc
  obtain ⟨k, -, rfl⟩ := List.mem_map.mp hc
  exact septetAt_lt buffer _ k

/-- The condition is sufficient. -/
lemma submitted_of_encodesText (haccept : laidHeader sc phone bufferSize +
      packedOctets smsText.length ≤ bufferSize) (hshort : smsText.length ≤ smsMax7BitTextLength)
    (h : EncodesText sc phone smsText bufferSize) :
    Submitted sc phone smsText (packedOctets smsText.length) out bufferSize
      (pduEncode sc phone smsText out bufferSize) := by
  obtain ⟨hsc, hphone, hlengths, hheader, hseven, hmod⟩ := h haccept hshort
  obtain ⟨o, buffer, hresult, hcount, hothers, hbits⟩ := pduEncode_spec out haccept hshort
  have hge := laidHeader_ge sc phone bufferSize
  have hlaid : laidHeader sc phone bufferSize = headerOctets sc phone := (laid_of_fits hheader).2
  have ho := hcount.mpr hmod
  rw [hresult]
  refine ⟨fun a ha => ?_, fun hbad => ?_, fun _ _ _ _ => ⟨_, rfl, ?_⟩⟩
  · show buffer a = out a
    rw [hothers a (Or.inr (by omega)), Function.update_of_ne (by omega)]
    exact pduHeader_frame sc phone 0x00 out ha
  · rcases hbad with hno | hno | hno | hno
    · exact absurd hsc hno
    · exact absurd hphone hno
    · omega
    · exact absurd hshort (Nat.not_le.mpr hno)
  · rw [hlaid] at hothers hbits ⊢
    obtain ⟨hheaderLaid, htext⟩ := headerLaid_of_others hheader hshort hothers
    rw [hheaderLaid.parseSubmit_eq hsc hphone hlengths, htext,
      userData_septets hseven (hbits hmod)]
    exact if_pos (by rw [ho])

/-- **`pdu_encode` does what it is for exactly under the condition.** -/
theorem pduEncode_submits_iff (sc phone smsText : List UInt8) (out : ℕ → UInt8) (bufferSize : ℕ) :
    Submitted sc phone smsText (packedOctets smsText.length) out bufferSize
        (pduEncode sc phone smsText out bufferSize) ↔
      EncodesText sc phone smsText bufferSize := by
  by_cases haccept : laidHeader sc phone bufferSize + packedOctets smsText.length ≤ bufferSize ∧
      smsText.length ≤ smsMax7BitTextLength
  · exact ⟨encodesText_of_submitted haccept.1 haccept.2,
      submitted_of_encodesText haccept.1 haccept.2⟩
  · have hrefused : laidHeader sc phone bufferSize + packedOctets smsText.length ≤ bufferSize →
        ¬ smsText.length ≤ smsMax7BitTextLength := fun hroom hshort => haccept ⟨hroom, hshort⟩
    obtain ⟨hreturn, hframe⟩ := pduEncode_refuses out hrefused
    refine iff_of_true ⟨hframe, fun _ => by rw [hreturn]; decide, fun _ _ hfits hshort => ?_⟩
      fun hroom hshort => absurd hshort (hrefused hroom)
    have hheader : headerOctets sc phone ≤ bufferSize := by omega
    rw [← (laid_of_fits hheader).2] at hfits
    exact absurd hshort (hrefused hfits)

end Text

/-! ## Bytes -/

section Bytes

variable {sc phone smsText : List UInt8} {smsLen : UInt8} {out : ℕ → UInt8} {bufferSize : ℕ}

/-- The bytes at the message pointer. -/
def smsBytes (smsText : List UInt8) (smsLen : UInt8) : List UInt8 :=
  (List.range smsLen.toNat).map fun i => smsText.getD i 0

/-- The condition under which `pdu16_encode` does what it is for. -/
def EncodesBytes (serviceCenterNumber phoneNumber : List UInt8) (smsLen : UInt8)
    (bufferSize : ℕ) : Prop :=
  laidHeader serviceCenterNumber phoneNumber bufferSize ≤ bufferSize →
    smsLen.toNat ≤ smsMax7BitTextLength →
    IsDigits serviceCenterNumber ∧ IsDigits phoneNumber ∧
      (serviceCenterNumber.length ≤ 508 ∧ phoneNumber.length ≤ 255) ∧
      headerOctets serviceCenterNumber phoneNumber + smsLen.toNat ≤ bufferSize

/-- What `memcpy` does. -/
lemma foldl_update_eq (value : ℕ → UInt8) (out : ℕ → UInt8) (start n a : ℕ) :
    (List.range n).foldl (fun out i => Function.update out (start + i) (value i)) out a =
      if start ≤ a ∧ a < start + n then value (a - start) else out a := by
  induction n with
  | zero => simp
  | succ n ih =>
      rw [List.range_succ, List.foldl_append, List.foldl_cons, List.foldl_nil]
      by_cases hlast : a = start + n
      · rw [hlast, Function.update_self, if_pos (by omega), Nat.add_sub_cancel_left]
      · rw [Function.update_of_ne hlast, ih]
        exact if_congr (by omega) rfl rfl

lemma userData_bytes {buffer : ℕ → UInt8} {start : ℕ} (h : ∀ k < smsLen.toNat,
    buffer (start + k) = smsText.getD k 0) :
    userData 0x08 buffer start smsLen.toNat = some (smsLen.toNat, smsBytes smsText smsLen) := by
  have htext : (List.range smsLen.toNat).map (fun k => buffer (start + k)) =
      smsBytes smsText smsLen :=
    List.map_congr_left fun k hk => h k (List.mem_range.mp hk)
  rw [userData, if_neg (by decide), if_pos rfl, htext]

lemma pdu16Encode_refuses (out : ℕ → UInt8) (smsText : List UInt8)
    (hrefused : laidHeader sc phone bufferSize ≤ bufferSize →
      ¬ smsLen.toNat ≤ smsMax7BitTextLength) :
    (pdu16Encode sc phone smsText smsLen out bufferSize).1 = -1 ∧
      ∀ a, bufferSize ≤ a → (pdu16Encode sc phone smsText smsLen out bufferSize).2 a = out a := by
  have hfst := pduHeader_fst sc phone 0x08 out bufferSize
  have hframe := fun a (ha : bufferSize ≤ a) => pduHeader_frame sc phone 0x08 out ha
  unfold pdu16Encode
  generalize pduHeader sc phone 0x08 out bufferSize = header at hfst hframe
  obtain ⟨n, buffer⟩ := header
  by_cases hroom : bufferSize < laidHeader sc phone bufferSize
  · rw [if_pos hroom] at hfst
    obtain rfl : n = none := hfst
    exact ⟨rfl, hframe⟩
  · rw [if_neg hroom] at hfst
    obtain rfl : n = some (laidHeader sc phone bufferSize - 1) := hfst
    dsimp only
    rw [if_pos (Nat.not_le.mp (hrefused (Nat.not_lt.mp hroom)))]
    exact ⟨rfl, hframe⟩

/-- A message that is accepted. -/
lemma pdu16Encode_spec (out : ℕ → UInt8) (smsText : List UInt8)
    (haccept : laidHeader sc phone bufferSize ≤ bufferSize)
    (hshort : smsLen.toNat ≤ smsMax7BitTextLength) :
    ∃ buffer : ℕ → UInt8,
      pdu16Encode sc phone smsText smsLen out bufferSize =
        (((laidHeader sc phone bufferSize + smsLen.toNat : ℕ) : ℤ), buffer) ∧
      ∀ a, buffer a =
        if laidHeader sc phone bufferSize ≤ a ∧
            a < laidHeader sc phone bufferSize + smsLen.toNat then
          smsText.getD (a - laidHeader sc phone bufferSize) 0
        else Function.update (pduHeader sc phone 0x08 out bufferSize).2
          (laidHeader sc phone bufferSize - 1) smsLen a := by
  have hge := laidHeader_ge sc phone bufferSize
  have hfst := pduHeader_fst sc phone 0x08 out bufferSize
  rw [if_neg (Nat.not_lt.mpr haccept)] at hfst
  have hlast : laidHeader sc phone bufferSize - 1 + 1 = laidHeader sc phone bufferSize := by omega
  unfold pdu16Encode
  generalize pduHeader sc phone 0x08 out bufferSize = header at hfst
  obtain ⟨n, buffer⟩ := header
  obtain rfl : n = some (laidHeader sc phone bufferSize - 1) := hfst
  dsimp only
  rw [if_neg (Nat.not_lt.mpr hshort), hlast]
  exact ⟨_, rfl, fun a => foldl_update_eq _ _ _ _ a⟩

lemma smsBytes_length (smsText : List UInt8) (smsLen : UInt8) :
    (smsBytes smsText smsLen).length = smsLen.toNat := by simp [smsBytes]

/-- **`pdu16_encode` does what it is for exactly under the condition.** -/
theorem pdu16Encode_submits_iff (sc phone smsText : List UInt8) (smsLen : UInt8)
    (out : ℕ → UInt8) (bufferSize : ℕ) :
    Submitted sc phone (smsBytes smsText smsLen) smsLen.toNat out bufferSize
        (pdu16Encode sc phone smsText smsLen out bufferSize) ↔
      EncodesBytes sc phone smsLen bufferSize := by
  by_cases haccept : laidHeader sc phone bufferSize ≤ bufferSize ∧
      smsLen.toNat ≤ smsMax7BitTextLength
  · obtain ⟨hroom, hshort⟩ := haccept
    have hge := laidHeader_ge sc phone bufferSize
    obtain ⟨buffer, hresult, hbuffer⟩ := pdu16Encode_spec out smsText hroom hshort
    rw [hresult]
    have hnonneg : ¬ ((laidHeader sc phone bufferSize + smsLen.toNat : ℕ) : ℤ) < 0 := by omega
    constructor
    · intro h
      have hsc : IsDigits sc := by_contra fun hno => hnonneg (h.refuses (Or.inl hno))
      have hphone : IsDigits phone :=
        by_contra fun hno => hnonneg (h.refuses (Or.inr (Or.inl hno)))
      have hfits : headerOctets sc phone + smsLen.toNat ≤ bufferSize :=
        Nat.not_lt.mp fun hno => hnonneg (h.refuses (Or.inr (Or.inr (Or.inl hno))))
      obtain ⟨n, -, hparse⟩ := h.parses hsc hphone hfits (by rwa [smsBytes_length])
      exact fun _ _ => ⟨hsc, hphone, parseSubmit_lengths hparse, hfits⟩
    · intro h
      obtain ⟨hsc, hphone, hlengths, hfits⟩ := h hroom hshort
      have hheader : headerOctets sc phone ≤ bufferSize := by omega
      rw [(laid_of_fits hheader).2] at hbuffer hge ⊢
      refine ⟨fun a ha => ?_, fun hbad => ?_, fun _ _ _ _ => ⟨_, rfl, ?_⟩⟩
      · show buffer a = out a
        rw [hbuffer, if_neg (by omega), Function.update_of_ne (by omega)]
        exact pduHeader_frame sc phone 0x08 out ha
      · rw [smsBytes_length] at hbad
        rcases hbad with hno | hno | hno | hno
        · exact absurd hsc hno
        · exact absurd hphone hno
        · omega
        · exact absurd hshort (Nat.not_le.mpr hno)
      · have hlaid : HeaderLaid sc phone 0x08 buffer := by
          refine (pduHeader_laid out hheader).congr fun a ha => ?_
          rw [hbuffer, if_neg (by omega), Function.update_of_ne (by omega)]
        have hlength : buffer (headerOctets sc phone - 1) = smsLen := by
          rw [hbuffer, if_neg (by omega), Function.update_self]
        have htext : userData 0x08 buffer (headerOctets sc phone) smsLen.toNat =
            some (smsLen.toNat, smsBytes smsText smsLen) :=
          userData_bytes fun k hk => by
            rw [hbuffer, if_pos (by omega), Nat.add_sub_cancel_left]
        rw [hlaid.parseSubmit_eq hsc hphone hlengths, hlength, htext]
        exact if_pos rfl
  · have hrefused : laidHeader sc phone bufferSize ≤ bufferSize →
        ¬ smsLen.toNat ≤ smsMax7BitTextLength := fun hroom hshort => haccept ⟨hroom, hshort⟩
    obtain ⟨hreturn, hframe⟩ := pdu16Encode_refuses out smsText hrefused
    refine iff_of_true ⟨hframe, fun _ => by rw [hreturn]; decide, fun _ _ hfits hshort => ?_⟩
      fun hroom hshort => absurd hshort (hrefused hroom)
    have hheader : headerOctets sc phone ≤ bufferSize := by omega
    rw [smsBytes_length] at hshort
    exact absurd hshort (hrefused ((laid_of_fits hheader).2 ▸ hheader))

end Bytes

/-- **The two functions do what they are for exactly for these inputs.** -/
theorem pdu_submits_iff (serviceCenterNumber phoneNumber smsText : List UInt8) (smsLen : UInt8)
    (outputBuffer : ℕ → UInt8) (bufferSize : ℕ) :
    (Submitted serviceCenterNumber phoneNumber smsText (packedOctets smsText.length) outputBuffer
        bufferSize (pduEncode serviceCenterNumber phoneNumber smsText outputBuffer bufferSize) ↔
      EncodesText serviceCenterNumber phoneNumber smsText bufferSize) ∧
    (Submitted serviceCenterNumber phoneNumber (smsBytes smsText smsLen) smsLen.toNat outputBuffer
        bufferSize
        (pdu16Encode serviceCenterNumber phoneNumber smsText smsLen outputBuffer bufferSize) ↔
      EncodesBytes serviceCenterNumber phoneNumber smsLen bufferSize) :=
  ⟨pduEncode_submits_iff .., pdu16Encode_submits_iff ..⟩

/-- A number with a letter is encoded. -/
theorem pduEncode_letter_accepted :
    ¬ Submitted [] [48, 65] [104, 105] (packedOctets 2) (fun _ => 0) 256
      (pduEncode [] [48, 65] [104, 105] (fun _ => 0) 256) := by
  intro h
  have hletter : ¬ IsDigits [48, 65] := fun hdigits => absurd (hdigits 65 (by simp)).2 (by decide)
  have hnegative := h.refuses (Or.inr (Or.inl hletter))
  revert hnegative
  decide +kernel

end Ampm

import AmpmGsm.Lib.BitStream
import AmpmGsm.Gsm.Pdu
import Mathlib.Data.List.GetD

/-!
# Septet packing

`EncodePDUMessage` moves a text, as a stream of seven bits a character, to octets.  Every eighth
character is packed away with the one before it, so its loop skips that one; what it does after the
loop is right unless it has just skipped the last character, or there is none.

* `septets`, `octetsFrom` — the two streams.
* `Packed` — the invariant of the loop: the octets so far are windows of the septets.
* **`encodePduMessage_packs_iff`** — the octets hold the text and nothing else is written exactly
  if the number of characters is no multiple of eight.
-/

namespace Ampm

open BitStream

/-- The text as seven-bit cells; there are zeros behind it. -/
def septets (smsText : List UInt8) (i : ℕ) : ℕ := (septet smsText i).toNat

/-- The octets of a buffer from an index on. -/
def octetsFrom (start : ℕ) (outputBuffer : ℕ → UInt8) (i : ℕ) : ℕ :=
  (outputBuffer (start + i)).toNat

/-- The octets that `n` characters need. -/
def packedOctets (n : ℕ) : ℕ := (7 * n + 7) / 8

/-- What `EncodePDUMessage` is for: it returns the number of octets, writes these only, bit `j` of
character `k` is bit `7 * k + j` of the octets, and the bits behind the text are zero. -/
def PacksSeptets (smsText : List UInt8) (outputBuffer : ℕ → UInt8) (start : ℕ) (bufferSize : ℤ) :
    Prop :=
  let r := encodePduMessage smsText outputBuffer start bufferSize
  r.1 = packedOctets smsText.length ∧
  (∀ a, (a < start ∨ start + packedOctets smsText.length ≤ a) → r.2 a = outputBuffer a) ∧
  (∀ k < smsText.length, ∀ j < 7,
    bitAt 8 (octetsFrom start r.2) (7 * k + j) = (smsText.getD k 0).toNat.testBit j) ∧
  ∀ m, 7 * smsText.length ≤ m → m < 8 * packedOctets smsText.length →
    bitAt 8 (octetsFrom start r.2) m = false

/-! ## Septets -/

lemma septets_eq (smsText : List UInt8) (i : ℕ) :
    septets smsText i = (smsText.getD i 0).toNat &&& 127 := by
  simp [septets, septet]

lemma septets_lt (smsText : List UInt8) (i : ℕ) : septets smsText i < 2 ^ 7 := by
  rw [septets_eq]
  exact Nat.lt_of_le_of_lt Nat.and_le_right (by decide)

lemma septets_eq_zero {smsText : List UInt8} {i : ℕ} (h : smsText.length ≤ i) :
    septets smsText i = 0 := by
  rw [septets_eq, List.getD_eq_default _ _ h]
  rfl

lemma testBit_septets (smsText : List UInt8) (k : ℕ) {j : ℕ} (hj : j < 7) :
    (septets smsText k).testBit j = (smsText.getD k 0).toNat.testBit j := by
  have h127 : (127 : ℕ) = 2 ^ 7 - 1 := rfl
  rw [septets_eq, Nat.testBit_and, h127, Nat.testBit_two_pow_sub_one]
  simp [hj]

/-! ## One octet -/

/-- The octet that the loop makes of characters `i` and `i + 1`. -/
def mergedOctet (smsText : List UInt8) (i : ℕ) (carryOnBits : UInt8) : UInt8 :=
  (septet smsText i >>> (carryOnBits - 1)) ||| (septet smsText (i + 1) <<< (8 - carryOnBits))

lemma carry_shifts {r : ℕ} (hr : r < 7) :
    (UInt8.ofNat (r + 1) - 1).toNat % 8 = r ∧ (8 - UInt8.ofNat (r + 1)).toNat % 8 = 7 - r := by
  have h : ∀ r : Fin 7, (UInt8.ofNat (r + 1) - 1).toNat % 8 = r ∧
      (8 - UInt8.ofNat (r + 1)).toNat % 8 = 7 - r := by decide
  exact h ⟨r, hr⟩

/-- The octet is the window of the septets that begins at bit `r` of character `i`. -/
lemma testBit_mergedOctet (smsText : List UInt8) (i : ℕ) {r j : ℕ} (hr : r < 7) (hj : j < 8) :
    (mergedOctet smsText i (UInt8.ofNat (r + 1))).toNat.testBit j =
      bitAt 7 (septets smsText) (7 * i + (r + j)) := by
  obtain ⟨hright, hleft⟩ := carry_shifts hr
  rw [← testBit_window (septets_lt smsText) hr (by omega)]
  simp only [mergedOctet, UInt8.toNat_or, UInt8.toNat_shiftRight, UInt8.toNat_shiftLeft, hright,
    hleft, Nat.testBit_or, Nat.testBit_mod_two_pow, hj, decide_true, Bool.true_and, septets]

/-- The octet after the loop is such a window too if there are no characters behind. -/
lemma lastOctet_eq_mergedOctet {smsText : List UInt8} {i : ℕ} (h : smsText.length ≤ i + 1)
    (carryOnBits : UInt8) :
    septet smsText i >>> (carryOnBits - 1) = mergedOctet smsText i carryOnBits := by
  have hzero : septet smsText (i + 1) = 0 := UInt8.toNat_inj.1 (septets_eq_zero h)
  simp [mergedOctet, hzero]

/-! ## The loop -/

/-- After `o` octets the loop stands at bit `o % 7` of character `8 * (o / 7) + o % 7`, and these
octets are windows of the septets. -/
structure Packed (smsText : List UInt8) (start : ℕ) (outputBuffer : ℕ → UInt8) (o : ℕ)
    (s : PduLoop) : Prop where
  i_eq : s.i = 8 * (o / 7) + o % 7
  i_le : s.i ≤ smsText.length
  -- only the skipped character can be the last one
  i_lt : s.i < smsText.length ∨ o % 7 = 0
  length_eq : s.outputBufferLength = start + o
  carry_eq : s.carryOnBits = UInt8.ofNat (o % 7 + 1)
  octets : ∀ k < o, ∀ j < 8,
    (octetsFrom start s.outputBuffer k).testBit j = bitAt 7 (septets smsText) (8 * k + j)
  others : ∀ a, (a < start ∨ start + o ≤ a) → s.outputBuffer a = outputBuffer a

section Loop

variable {smsText : List UInt8} {start o : ℕ} {outputBuffer : ℕ → UInt8} {s : PduLoop}

lemma packed_start (smsText : List UInt8) (start : ℕ) (outputBuffer : ℕ → UInt8) :
    Packed smsText start outputBuffer 0 ⟨0, start, 1, outputBuffer⟩ where
  i_eq := rfl
  i_le := Nat.zero_le _
  i_lt := Or.inr rfl
  length_eq := rfl
  carry_eq := rfl
  octets := by simp
  others := by simp

/-- Writing the octet of the place where the loop stands. -/
lemma Packed.octets_update (h : Packed smsText start outputBuffer o s) {k : ℕ} (hk : k < o + 1)
    {j : ℕ} (hj : j < 8) :
    (octetsFrom start (Function.update s.outputBuffer s.outputBufferLength
      (mergedOctet smsText s.i s.carryOnBits)) k).testBit j =
      bitAt 7 (septets smsText) (8 * k + j) := by
  by_cases hko : k = o
  · have hpos : 8 * o + j = 7 * s.i + (o % 7 + j) := by
      have := h.i_eq
      omega
    subst hko
    rw [octetsFrom, h.length_eq, Function.update_self, h.carry_eq, hpos]
    exact testBit_mergedOctet smsText s.i (Nat.mod_lt _ (by decide)) hj
  · have hne : start + k ≠ s.outputBufferLength := by
      have := h.length_eq
      omega
    rw [octetsFrom, Function.update_of_ne hne]
    exact h.octets k (by omega) j hj

lemma Packed.others_update (h : Packed smsText start outputBuffer o s) (b : UInt8) {a : ℕ}
    (ha : a < start ∨ start + (o + 1) ≤ a) :
    Function.update s.outputBuffer s.outputBufferLength b a = outputBuffer a := by
  have hne : a ≠ s.outputBufferLength := by
    have := h.length_eq
    omega
  rw [Function.update_of_ne hne]
  exact h.others a (by omega)

lemma carry_wraps {r : ℕ} (hr : r < 7) : UInt8.ofNat (r + 1) + 1 = 8 ↔ r = 6 := by
  have h : ∀ r : Fin 7, UInt8.ofNat (r + 1) + 1 = 8 ↔ (r : ℕ) = 6 := by decide
  exact h ⟨r, hr⟩

lemma carry_succ {r : ℕ} (hr : r < 7) : UInt8.ofNat (r + 1) + 1 = UInt8.ofNat (r + 2) := by
  have h : ∀ r : Fin 7, UInt8.ofNat (r + 1) + 1 = UInt8.ofNat (r + 2) := by decide
  exact h ⟨r, hr⟩

/-- One round of the loop. -/
def encodePduRound (smsText : List UInt8) (s : PduLoop) : PduLoop :=
  { i := if s.carryOnBits + 1 = 8 then s.i + 2 else s.i + 1
    outputBufferLength := s.outputBufferLength + 1
    carryOnBits := if s.carryOnBits + 1 = 8 then 1 else s.carryOnBits + 1
    outputBuffer := Function.update s.outputBuffer s.outputBufferLength
      (mergedOctet smsText s.i s.carryOnBits) }

lemma encodePduLoop_succ (smsText : List UInt8) (rounds : ℕ) (s : PduLoop) :
    encodePduLoop smsText (rounds + 1) s =
      if s.i + 1 < smsText.length then encodePduLoop smsText rounds (encodePduRound smsText s)
      else s := rfl

/-- One round makes one more octet. -/
lemma Packed.round (h : Packed smsText start outputBuffer o s) (hi : s.i + 1 < smsText.length) :
    Packed smsText start outputBuffer (o + 1) (encodePduRound smsText s) := by
  have hr : o % 7 < 7 := Nat.mod_lt _ (by decide)
  have hwraps : s.carryOnBits + 1 = 8 ↔ o % 7 = 6 := by
    rw [h.carry_eq]
    exact carry_wraps hr
  have hnext : (if s.carryOnBits + 1 = 8 then s.i + 2 else s.i + 1) =
      8 * ((o + 1) / 7) + (o + 1) % 7 := by
    have := h.i_eq
    simp only [hwraps]
    split <;> omega
  constructor
  · exact hnext
  · show (if s.carryOnBits + 1 = 8 then s.i + 2 else s.i + 1) ≤ smsText.length
    split <;> omega
  · show (if s.carryOnBits + 1 = 8 then s.i + 2 else s.i + 1) < smsText.length ∨ (o + 1) % 7 = 0
    simp only [hwraps]
    split <;> omega
  · show s.outputBufferLength + 1 = start + (o + 1)
    rw [h.length_eq]
    rfl
  · show (if s.carryOnBits + 1 = 8 then 1 else s.carryOnBits + 1) = _
    simp only [hwraps]
    by_cases h6 : o % 7 = 6
    · have hzero : (o + 1) % 7 = 0 := by omega
      simp [h6, hzero]
    · have hsucc : (o + 1) % 7 = o % 7 + 1 := by omega
      rw [if_neg h6, hsucc, h.carry_eq]
      exact carry_succ hr
  · intro k hk j hj
    exact h.octets_update hk hj
  · intro a ha
    exact h.others_update _ ha

/-- The loop ends where no two characters are left. -/
theorem Packed.loop (rounds : ℕ) (h : Packed smsText start outputBuffer o s)
    (hrounds : smsText.length ≤ s.i + rounds) :
    ∃ o', Packed smsText start outputBuffer o' (encodePduLoop smsText rounds s) ∧
      smsText.length ≤ (encodePduLoop smsText rounds s).i + 1 := by
  induction rounds generalizing o s with
  | zero => exact ⟨o, h, by simpa [encodePduLoop] using Nat.le_succ_of_le hrounds⟩
  | succ rounds ih =>
      rw [encodePduLoop_succ]
      by_cases hi : s.i + 1 < smsText.length
      · rw [if_pos hi]
        refine ih (h.round hi) ?_
        have hstep : s.i + 1 ≤ (encodePduRound smsText s).i := by
          simp only [encodePduRound]
          split <;> omega
        omega
      · rw [if_neg hi]
        exact ⟨o, h, by omega⟩

end Loop

/-! ## The function -/

/-- What `EncodePDUMessage` leaves behind: it returns one octet more than the `o` of its loop, these
are windows of the septets, and the loop stopped at the last character or one behind. -/
lemma encodePduMessage_spec (smsText : List UInt8) (outputBuffer : ℕ → UInt8) (start : ℕ)
    {bufferSize : ℤ} (hsize : (packedOctets smsText.length : ℤ) ≤ bufferSize) :
    ∃ o, (encodePduMessage smsText outputBuffer start bufferSize).1 = (o + 1 : ℕ) ∧
      (8 * (o / 7) + o % 7 < smsText.length ∨ o % 7 = 0) ∧
      8 * (o / 7) + o % 7 ≤ smsText.length ∧ smsText.length ≤ 8 * (o / 7) + o % 7 + 1 ∧
      (∀ k < o + 1, ∀ j < 8,
        (octetsFrom start (encodePduMessage smsText outputBuffer start bufferSize).2 k).testBit j =
          bitAt 7 (septets smsText) (8 * k + j)) ∧
      ∀ a, (a < start ∨ start + (o + 1) ≤ a) →
        (encodePduMessage smsText outputBuffer start bufferSize).2 a = outputBuffer a := by
  obtain ⟨o, h, hend⟩ := (packed_start smsText start outputBuffer).loop smsText.length (by simp)
  have hfits : ¬ ((smsText.length * 7 + 7) / 8 : ℕ) > bufferSize := by
    rw [packedOctets, Nat.mul_comm] at hsize
    omega
  rw [encodePduMessage, if_neg hfits]
  simp only [h.i_le, if_true, lastOctet_eq_mergedOctet hend]
  refine ⟨o, ?_, ?_, ?_, ?_, fun k hk j hj => h.octets_update hk hj,
    fun a ha => h.others_update _ ha⟩
  · rw [h.length_eq]
    omega
  · rw [← h.i_eq]
    exact h.i_lt
  · rw [← h.i_eq]
    exact h.i_le
  · rw [← h.i_eq]
    exact hend

/-- **A text is packed exactly if its length is no multiple of eight**: otherwise the character
behind it, or the terminator of an empty text, becomes one octet more. -/
theorem encodePduMessage_packs_iff (smsText : List UInt8) (outputBuffer : ℕ → UInt8) (start : ℕ)
    (bufferSize : ℤ) (hsize : (packedOctets smsText.length : ℤ) ≤ bufferSize) :
    PacksSeptets smsText outputBuffer start bufferSize ↔ smsText.length % 8 ≠ 0 := by
  obtain ⟨o, hreturn, hlt, hle, hge, hoctets, hothers⟩ :=
    encodePduMessage_spec smsText outputBuffer start hsize
  constructor
  · rintro ⟨hcount, -⟩ hmod
    rw [hreturn, packedOctets] at hcount
    omega
  · intro hmod
    have hlength : smsText.length = 8 * (o / 7) + o % 7 + 1 := by
      omega
    have ho : o + 1 = packedOctets smsText.length := by
      rw [packedOctets]
      omega
    have hstream (m : ℕ) (hm : m < 8 * (o + 1)) :
        bitAt 8 (octetsFrom start (encodePduMessage smsText outputBuffer start bufferSize).2) m =
          bitAt 7 (septets smsText) m := by
      have := hoctets (m / 8) (by omega) (m % 8) (by omega)
      rwa [Nat.div_add_mod] at this
    refine ⟨by rw [hreturn, ho], ?_, ?_, ?_⟩
    · rw [← ho]
      exact hothers
    · intro k hk j hj
      have hlast : 7 * smsText.length ≤ 8 * (o + 1) := by
        rw [ho, packedOctets]
        omega
      rw [hstream _ (by omega), bitAt_mul_add hj]
      exact testBit_septets smsText k hj
    · intro m hm hbound
      rw [hstream m (by omega)]
      exact bitAt_eq_false (septets_eq_zero (by omega))

/-- The ten characters of the source's own test. -/
theorem encodePduMessage_packs_hellohello :
    PacksSeptets [104, 101, 108, 108, 111, 104, 101, 108, 108, 111] (fun _ => 0) 0 9 :=
  (encodePduMessage_packs_iff _ _ _ _ (by decide)).2 (by decide)

/-- Eight characters become eight octets, not seven. -/
theorem encodePduMessage_not_packs_eight :
    ¬ PacksSeptets [104, 101, 108, 108, 111, 104, 101, 108] (fun _ => 0) 0 8 := by
  rintro ⟨hcount, -⟩
  revert hcount
  decide +kernel

end Ampm

import AmpmGsm.Lib.ShiftRegister
import AmpmGsm.Proto.Protocol
import Mathlib.Tactic.SplitIfs

/-!
# Bursts of errors in a frame

`lib/fcs.c`: the table stands for eight shifts of a register with the polynomial `0x8408`, so the
check sequence finds every burst of errors that is not longer than itself.

* `bitwiseFcs` — the check sequence bit by bit; `fcsGet_eq_bitwiseFcs` says that it is the same.
* `fcsAccepts` — the test of the receiver; `fcsAccepts_iff` states it of the whole string.
* `fcs_detects_bursts` — no burst within sixteen bits is accepted.
-/

namespace Ampm

open ShiftRegister

/-! ## The table -/

/-- The polynomial, lowest power first. -/
def fcsPoly : BitVec 16 := 0x8408#16

/-- One byte, bit by bit. -/
def bitwiseByte (fcs : BitVec 16) (val : UInt8) : BitVec 16 :=
  (shift fcsPoly)^[8] (fcs ^^^ val.toBitVec.setWidth 16)

/-- The reflected check sequence with the initial value `0xFFFF` and a final complement. -/
def bitwiseFcs (cp : List UInt8) : BitVec 16 := ~~~ cp.foldl bitwiseByte 0xFFFF#16

/-- An entry of the table is its index after eight shifts. -/
lemma fcstab_toList : fcstab.toList.map UInt16.toBitVec =
    (List.range 256).map (fun i => (shift fcsPoly)^[8] (BitVec.ofNat 16 i)) := by
  decide +kernel

lemma fcstab_eq {i : ℕ} (hi : i < 256) :
    (fcstab.getD i 0).toBitVec = (shift fcsPoly)^[8] (BitVec.ofNat 16 i) := by
  have h := congrArg (fun l => l[i]?) fcstab_toList
  simp only [List.getElem?_map, List.getElem?_range hi, Array.getElem?_toList,
    Option.map_some] at h
  obtain ⟨entry, hentry, hvalue⟩ := Option.map_eq_some_iff.mp h
  rw [Array.getD_eq_getD_getElem?, hentry]
  exact hvalue

/-- A bit of the low byte. -/
lemma getLsbD_lowMask (i : ℕ) : (0xFF#16).getLsbD i = decide (i < 8) := by
  have hmask : 0xFF#16 = BitVec.ofNat 16 (2 ^ 8 - 1) := rfl
  rw [hmask, BitVec.getLsbD_ofNat, Nat.testBit_two_pow_sub_one]
  by_cases hi : i < 8
  · simp [hi, Nat.lt_of_lt_of_le hi (by decide : 8 ≤ 16)]
  · simp [hi]

lemma fcsCalculate_eq (val : UInt8) (fcs : UInt16) :
    (fcsCalculate val fcs).toBitVec = bitwiseByte fcs.toBitVec val := by
  have hindex : ((fcs ^^^ val.toUInt16) &&& 0xff).toBitVec =
      (fcs.toBitVec ^^^ val.toBitVec.setWidth 16) &&& 0xFF#16 := rfl
  have hlt : ((fcs ^^^ val.toUInt16) &&& 0xff).toNat < 256 := by
    rw [UInt16.toNat_and]
    exact Nat.lt_succ_of_le Nat.and_le_right
  have hentry := fcstab_eq hlt
  have hofNat : BitVec.ofNat 16 ((fcs ^^^ val.toUInt16) &&& 0xff).toNat =
      ((fcs ^^^ val.toUInt16) &&& 0xff).toBitVec := by
    rw [← UInt16.toNat_toBitVec, BitVec.ofNat_toNat, BitVec.setWidth_eq]
  have hmove : (fcs.toBitVec ^^^ val.toBitVec.setWidth 16) >>> 8 = fcs.toBitVec >>> 8 := by
    refine BitVec.eq_of_getLsbD_eq fun i _ => ?_
    simp
  rw [bitwiseByte, iterate_shift_eq fcsPoly 8 _
    ((fcs.toBitVec ^^^ val.toBitVec.setWidth 16) &&& 0xFF#16), hmove, ← hindex, ← hofNat, ← hentry]
  · rfl
  · intro i hi
    rw [BitVec.getLsbD_and, getLsbD_lowMask, decide_eq_true hi, Bool.and_true]
  · refine BitVec.eq_of_getLsbD_eq fun i _ => ?_
    rw [BitVec.getLsbD_ushiftRight, BitVec.getLsbD_and, getLsbD_lowMask]
    simp

/-- **The table is right.** -/
theorem fcsGet_eq_bitwiseFcs (cp : List UInt8) : (fcsGet cp).toBitVec = bitwiseFcs cp := by
  have hfold : ∀ fcs : UInt16, (cp.foldl (fun fcs val => fcsCalculate val fcs) fcs).toBitVec =
      cp.foldl bitwiseByte fcs.toBitVec := by
    induction cp with
    | nil => exact fun _ => rfl
    | cons val cp ih =>
        intro fcs
        rw [List.foldl_cons, ih, fcsCalculate_eq]
        rfl
  exact congrArg (~~~ ·) (hfold 0xFFFF)

/-! ## Bits -/

/-- The bits of a byte, lowest first. -/
def byteBits (v : UInt8) : List Bool := (List.range 8).map v.toBitVec.getLsbD

/-- The bits of a string in the order in which they are fed. -/
def bitsOf (s : List UInt8) : List Bool := s.flatMap byteBits

/-- The string with the errors `e`. -/
def corrupt (s e : List UInt8) : List UInt8 := List.zipWith (· ^^^ ·) s e

lemma length_byteBits (v : UInt8) : (byteBits v).length = 8 := rfl

lemma ofBits_byteBits (v : UInt8) : (ofBits (byteBits v) : BitVec 16) = v.toBitVec.setWidth 16 := by
  refine BitVec.eq_of_getLsbD_eq fun i hi => ?_
  rw [getLsbD_ofBits, BitVec.getLsbD_setWidth, byteBits, List.getD_eq_getElem?_getD,
    List.getElem?_map]
  rcases Nat.lt_or_ge i 8 with hlt | hge
  · rw [List.getElem?_range hlt]
    rfl
  · rw [List.getElem?_eq_none (by rw [List.length_range]; exact hge),
      BitVec.getLsbD_of_ge v.toBitVec i hge]
    rfl

/-- A byte is fed as its bits. -/
lemma bitwiseByte_eq_feedAll (fcs : BitVec 16) (val : UInt8) :
    bitwiseByte fcs val = feedAll fcsPoly fcs (byteBits val) := by
  rw [feedAll_eq_iterate fcsPoly _ _ (by rw [length_byteBits]; decide), ofBits_byteBits]
  rfl

/-- The register after a string. -/
def fcsRegister (s : List UInt8) : BitVec 16 := feedAll fcsPoly 0xFFFF#16 (bitsOf s)

lemma foldl_bitwiseByte (s : List UInt8) :
    ∀ fcs : BitVec 16, s.foldl bitwiseByte fcs = feedAll fcsPoly fcs (bitsOf s) := by
  induction s with
  | nil => exact fun _ => rfl
  | cons v s ih =>
      intro fcs
      rw [List.foldl_cons, ih, bitwiseByte_eq_feedAll, bitsOf, bitsOf, List.flatMap_cons,
        feedAll_append]

lemma fcsGet_eq_register (cp : List UInt8) : (fcsGet cp).toBitVec = ~~~ fcsRegister cp := by
  rw [fcsGet_eq_bitwiseFcs, bitwiseFcs, foldl_bitwiseByte, fcsRegister]

lemma byteBits_xor (a b : UInt8) :
    byteBits (a ^^^ b) = List.zipWith xor (byteBits a) (byteBits b) := by
  rw [byteBits, byteBits, byteBits, List.zipWith_map, List.zipWith_self]
  exact List.map_congr_left fun i _ => BitVec.getLsbD_xor

lemma bitsOf_corrupt :
    ∀ s e : List UInt8, s.length = e.length →
      bitsOf (corrupt s e) = List.zipWith xor (bitsOf s) (bitsOf e) ∧
        (bitsOf s).length = (bitsOf e).length
  | [], [], _ => ⟨rfl, rfl⟩
  | a :: s, b :: e, hlen => by
      obtain ⟨hbits, hsame⟩ := bitsOf_corrupt s e (Nat.succ.inj hlen)
      have hab : (byteBits a).length = (byteBits b).length := rfl
      constructor
      · show byteBits (a ^^^ b) ++ bitsOf (corrupt s e) = List.zipWith xor
          (byteBits a ++ bitsOf s) (byteBits b ++ bitsOf e)
        rw [List.zipWith_append hab, byteBits_xor, hbits]
      · show (byteBits a ++ bitsOf s).length = (byteBits b ++ bitsOf e).length
        rw [List.length_append, List.length_append, hab, hsame]

/-! ## The test of the receiver -/

/-- `FCS_Get` over all but the last two bytes equals the last two bytes. -/
def fcsAccepts (s : List UInt8) : Prop :=
  fcsGet (s.take (s.length - 2)) =
    fcsJoin (s.getD (s.length - 2) 0) (s.getD (s.length - 1) 0)

instance (s : List UInt8) : Decidable (fcsAccepts s) := inferInstanceAs (Decidable (_ = _))

lemma fcsPoly_top : fcsPoly.getLsbD (16 - 1) = true := by decide

/-- The two bytes of a check sequence, as they are fed. -/
lemma ofBits_fcsJoin (low high : UInt8) :
    (ofBits (byteBits low ++ byteBits high) : BitVec 16) = (fcsJoin low high).toBitVec := by
  refine BitVec.eq_of_getLsbD_eq fun i hi => ?_
  have hjoin : (fcsJoin low high).toBitVec =
      (high.toBitVec.setWidth 16 <<< 8) ||| low.toBitVec.setWidth 16 := rfl
  rw [getLsbD_ofBits, hjoin, BitVec.getLsbD_or, BitVec.getLsbD_shiftLeft, BitVec.getLsbD_setWidth,
    BitVec.getLsbD_setWidth, List.getD_eq_getElem?_getD]
  rcases Nat.lt_or_ge i 8 with hlt | hge
  · rw [List.getElem?_append_left (by rw [length_byteBits]; exact hlt), byteBits,
      List.getElem?_map, List.getElem?_range hlt]
    simp [hi, hlt]
  · have hhigh : i - 8 < 8 := by omega
    rw [List.getElem?_append_right (by rw [length_byteBits]; exact hge), length_byteBits, byteBits,
      List.getElem?_map, List.getElem?_range hhigh, BitVec.getLsbD_of_ge low.toBitVec i hge]
    simp [hi, Nat.not_lt.mpr hge, Nat.lt_of_lt_of_le hhigh]

/-- The test of the whole string: the register comes to the same value after every string that is
accepted. -/
lemma fcsAccepts_iff (body : List UInt8) (low high : UInt8) :
    fcsAccepts (body ++ [low, high]) ↔
      fcsRegister (body ++ [low, high]) = (shift fcsPoly)^[16] 0xFFFF#16 := by
  have hbits : bitsOf (body ++ [low, high]) = bitsOf body ++ (byteBits low ++ byteBits high) := by
    simp [bitsOf]
  have hregister : fcsRegister (body ++ [low, high]) =
      (shift fcsPoly)^[16] (fcsRegister body ^^^ (fcsJoin low high).toBitVec) := by
    rw [fcsRegister, hbits, feedAll_append, feedAll_eq_iterate fcsPoly
      (byteBits low ++ byteBits high) _ (by simp [length_byteBits]), ofBits_fcsJoin]
    rfl
  have hinj : Function.Injective (shift fcsPoly)^[16] :=
    (shift_injective fcsPoly fcsPoly_top).iterate 16
  have htest : fcsAccepts (body ++ [low, high]) ↔
      (fcsGet body).toBitVec = (fcsJoin low high).toBitVec := by
    rw [fcsAccepts, UInt16.toBitVec_inj]
    simp
  rw [htest, hregister, hinj.eq_iff, fcsGet_eq_register]
  have hones : 0xFFFF#16 = BitVec.allOnes 16 := rfl
  rw [← BitVec.xor_allOnes, hones]
  constructor
  · intro h
    rw [← h, ← BitVec.xor_assoc, BitVec.xor_self, BitVec.zero_xor]
  · intro h
    rw [← h, ← BitVec.xor_assoc, BitVec.xor_self, BitVec.zero_xor]

/-- What the sender appends is accepted. -/
lemma fcsAccepts_append_fcsBytes (d : List UInt8) : fcsAccepts (d ++ fcsBytes d) := by
  have hjoin : fcsGet d = fcsJoin (fcsLow (fcsGet d)) (fcsHigh (fcsGet d)) :=
    (fcsJoin_eq_iff _ _ _).mpr ⟨rfl, rfl⟩
  rw [fcsAccepts]
  simp [fcsBytes, ← hjoin]

/-- What the parser does at the end of a frame that it does not accept. -/
lemma protoParseByte_of_not_fcsAccepts (p : ProtoParser) (h : ¬ fcsAccepts p.data) :
    (protoParseByte p 0x7F).2 = ⟨0, none⟩ := by
  show (protoEndFcs p).2 = ⟨0, none⟩
  rw [protoEndFcs]
  by_cases hlen : p.dataLen ≥ 4
  · have htest : ¬ fcsGet ((List.range (p.dataLen - 2)).map p.buf) =
        fcsJoin (p.buf (p.dataLen - 2)) (p.buf (p.dataLen - 1)) := by
      intro heq
      refine h ?_
      rw [fcsAccepts, ProtoParser.data, List.length_map, List.length_range, ← List.map_take,
        List.take_range, Nat.min_eq_left (Nat.sub_le _ _), heq]
      simp [show p.dataLen - 2 < p.dataLen by omega, show p.dataLen - 1 < p.dataLen by omega]
    rw [if_pos hlen, if_neg htest]
  · rw [if_neg hlen]

/-! ## Bursts -/

/-- **Bursts of errors are found.**  For every string with its check sequence, and every pattern of
errors that is not empty and within sixteen consecutive bits, lowest bit of a byte first: the
corrupted string does not pass the test of the receiver, and a parser that holds it calls nothing at
the end of the frame.  The check sequence is the reflected one with the polynomial `0x8408`, the
initial value `0xFFFF` and a final complement. -/
theorem fcs_detects_bursts (d e : List UInt8) (hlen : e.length = d.length + 2) (k : ℕ)
    (hburst : ∀ i, (bitsOf e).getD i false = true → k ≤ i ∧ i < k + 16) (hset : true ∈ bitsOf e) :
    ¬ fcsAccepts (corrupt (d ++ fcsBytes d) e) ∧
    (∀ p : ProtoParser, p.data = corrupt (d ++ fcsBytes d) e →
      (protoParseByte p 0x7F).2 = ⟨0, none⟩) ∧
    ∀ cp, (fcsGet cp).toBitVec = bitwiseFcs cp := by
  have hsame : (d ++ fcsBytes d).length = e.length := by
    rw [hlen, List.length_append]
    rfl
  obtain ⟨hbits, hbitsLen⟩ := bitsOf_corrupt (d ++ fcsBytes d) e hsame
  have hregister : fcsRegister (corrupt (d ++ fcsBytes d) e) =
      fcsRegister (d ++ fcsBytes d) ^^^ feedAll fcsPoly 0#16 (bitsOf e) := by
    rw [fcsRegister, fcsRegister, hbits, ← feedAll_xor fcsPoly _ _ _ _ hbitsLen, BitVec.xor_zero]
  have hne : feedAll fcsPoly 0#16 (bitsOf e) ≠ 0#16 :=
    feedAll_ne_zero_of_burst fcsPoly fcsPoly_top hburst hset
  have hgood := (fcsAccepts_iff d (fcsLow (fcsGet d)) (fcsHigh (fcsGet d))).mp
    (fcsAccepts_append_fcsBytes d)
  have hrejects : ¬ fcsAccepts (corrupt (d ++ fcsBytes d) e) := by
    have htwo : ((corrupt (d ++ fcsBytes d) e).drop d.length).length = 2 := by
      rw [List.length_drop, corrupt, List.length_zipWith, hsame, Nat.min_self, hlen]
      exact Nat.add_sub_cancel_left _ _
    obtain ⟨low, high, hlast⟩ := List.length_eq_two.mp htwo
    have hends : corrupt (d ++ fcsBytes d) e =
        (corrupt (d ++ fcsBytes d) e).take d.length ++ [low, high] := by
      rw [← hlast, List.take_append_drop]
    intro haccepts
    rw [hends, fcsAccepts_iff, ← hends, hregister] at haccepts
    refine hne ((BitVec.xor_right_inj (fcsRegister (d ++ fcsBytes d))).mp ?_)
    rw [haccepts, BitVec.xor_zero]
    exact hgood.symm
  refine ⟨hrejects, fun p hp => protoParseByte_of_not_fcsAccepts p ?_, fcsGet_eq_bitwiseFcs⟩
  rwa [hp]

/-- The hypotheses are met by one wrong bit. -/
theorem fcs_detects_bursts_one :
    ¬ fcsAccepts (corrupt ([1] ++ fcsBytes [1]) [1, 0, 0]) ∧
    (∀ p : ProtoParser, p.data = corrupt ([1] ++ fcsBytes [1]) [1, 0, 0] →
      (protoParseByte p 0x7F).2 = ⟨0, none⟩) ∧
    ∀ cp, (fcsGet cp).toBitVec = bitwiseFcs cp :=
  fcs_detects_bursts [1] [1, 0, 0] rfl 0
    (fun i hi => by
      have hbits : bitsOf [1, 0, 0] = true :: List.replicate 23 false := by decide
      cases i with
      | zero => decide
      | succ i =>
          rw [hbits, List.getD_cons_succ, List.getD_eq_getElem?_getD, List.getElem?_replicate] at hi
          split_ifs at hi <;> exact absurd hi Bool.false_ne_true)
    (by decide)

end Ampm

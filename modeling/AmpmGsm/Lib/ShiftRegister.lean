import Mathlib.Data.List.Basic
import Mathlib.Data.List.GetD
import Mathlib.Logic.Function.Iterate

/-!
# Linear feedback shift registers

A register of `w` bits moves down one bit at a time; if the bit that leaves it is set, a polynomial
is added.  Check sequences are what such a register holds after the bits of a message, lowest bit of
a byte first.

* `shift`, `feed`, `feedAll` — one bit and many.
* `feedAll_xor` — the register is linear in what it holds and in what it is fed.
* `shift_injective` — it forgets nothing if the top bit of the polynomial is set.
* `feedAll_eq_iterate` — bits that fit into the register may be added to it all at once.
* `feedAll_ne_zero_of_burst` — a burst that fits into the register leaves its mark for ever.
-/

namespace ShiftRegister

variable {w : ℕ} (poly : BitVec w)

/-- One bit leaves the register. -/
def shift (x : BitVec w) : BitVec w := if x.getLsbD 0 then (x >>> 1) ^^^ poly else x >>> 1

/-- A bit at the low end. -/
def lowBit (b : Bool) : BitVec w := (BitVec.ofBool b).setWidth w

/-- One bit is added to the register and leaves it. -/
def feed (x : BitVec w) (b : Bool) : BitVec w := shift poly (x ^^^ lowBit b)

def feedAll (x : BitVec w) (bs : List Bool) : BitVec w := bs.foldl (feed poly) x

@[simp] lemma feedAll_nil (x : BitVec w) : feedAll poly x [] = x := rfl

@[simp] lemma feedAll_cons (x : BitVec w) (b : Bool) (bs : List Bool) :
    feedAll poly x (b :: bs) = feedAll poly (feed poly x b) bs := rfl

lemma feedAll_append (x : BitVec w) (as bs : List Bool) :
    feedAll poly x (as ++ bs) = feedAll poly (feedAll poly x as) bs := List.foldl_append

/-! ## Linearity -/

lemma shift_xor (x y : BitVec w) : shift poly (x ^^^ y) = shift poly x ^^^ shift poly y := by
  unfold shift
  rw [BitVec.getLsbD_xor, BitVec.ushiftRight_xor_distrib]
  ext i hi
  cases x.getLsbD 0 <;> cases y.getLsbD 0 <;> simp [Bool.xor_comm, Bool.xor_left_comm]

lemma shift_zero : shift poly 0#w = 0#w := by
  simp [shift]

lemma lowBit_xor (a b : Bool) : lowBit (a ^^ b) = (lowBit a ^^^ lowBit b : BitVec w) := by
  cases a <;> cases b <;> simp [lowBit]

lemma feed_xor (x y : BitVec w) (a b : Bool) :
    feed poly (x ^^^ y) (a ^^ b) = feed poly x a ^^^ feed poly y b := by
  have hsum : x ^^^ y ^^^ lowBit (a ^^ b) = (x ^^^ lowBit a) ^^^ (y ^^^ lowBit b) := by
    rw [lowBit_xor]
    ext i hi
    simp [Bool.xor_left_comm]
  rw [feed, hsum, shift_xor, feed, feed]

lemma feedAll_xor : ∀ (as bs : List Bool) (x y : BitVec w), as.length = bs.length →
    feedAll poly (x ^^^ y) (List.zipWith xor as bs) = feedAll poly x as ^^^ feedAll poly y bs
  | [], [], _, _, _ => rfl
  | a :: as, b :: bs, x, y, hlen => by
      rw [List.zipWith_cons_cons, feedAll_cons, feed_xor,
        feedAll_xor as bs _ _ (Nat.succ.inj hlen), feedAll_cons, feedAll_cons]

lemma feedAll_false (n : ℕ) :
    ∀ x : BitVec w, feedAll poly x (List.replicate n false) = (shift poly)^[n] x := by
  induction n with
  | zero => exact fun _ => rfl
  | succ n ih =>
      intro x
      rw [List.replicate_succ, feedAll_cons, ih, Function.iterate_succ_apply]
      simp [feed, lowBit]

lemma iterate_shift_xor (n : ℕ) :
    ∀ x y : BitVec w, (shift poly)^[n] (x ^^^ y) = (shift poly)^[n] x ^^^ (shift poly)^[n] y := by
  induction n with
  | zero => exact fun _ _ => rfl
  | succ n ih =>
      intro x y
      rw [Function.iterate_succ_apply, shift_xor, ih]
      rfl

lemma iterate_shift_zero (n : ℕ) : (shift poly)^[n] 0#w = 0#w :=
  Function.iterate_fixed (shift_zero poly) n

/-- While the low bits are clear nothing is added. -/
lemma iterate_shift_of_clear :
    ∀ (n : ℕ) (x : BitVec w), (∀ i < n, x.getLsbD i = false) → (shift poly)^[n] x = x >>> n
  | 0, x, _ => by simp
  | n + 1, x, h => by
      have hshift : shift poly x = x >>> 1 := by
        rw [shift, h 0 (Nat.succ_pos n), if_neg Bool.false_ne_true]
      have hclear : ∀ i < n, (x >>> 1).getLsbD i = false := by
        intro i hi
        rw [BitVec.getLsbD_ushiftRight]
        exact h (1 + i) (by omega)
      rw [Function.iterate_succ_apply, hshift, iterate_shift_of_clear n _ hclear,
        ← BitVec.shiftRight_add, Nat.add_comm]

/-- The low bits leave on their own, and the others only move down. -/
lemma iterate_shift_eq (n : ℕ) (x low : BitVec w)
    (hlow : ∀ i < n, low.getLsbD i = x.getLsbD i) (hhigh : low >>> n = 0#w) :
    (shift poly)^[n] x = (x >>> n) ^^^ (shift poly)^[n] low := by
  have hsplit : x = (x ^^^ low) ^^^ low := by
    rw [BitVec.xor_assoc, BitVec.xor_self, BitVec.xor_zero]
  have hclear : ∀ i < n, (x ^^^ low).getLsbD i = false := by
    intro i hi
    rw [BitVec.getLsbD_xor, hlow i hi, Bool.xor_self]
  have hmove : (x ^^^ low) >>> n = x >>> n := by
    rw [BitVec.ushiftRight_xor_distrib, hhigh, BitVec.xor_zero]
  calc (shift poly)^[n] x = (shift poly)^[n] ((x ^^^ low) ^^^ low) := by rw [← hsplit]
    _ = (x >>> n) ^^^ (shift poly)^[n] low := by
      rw [iterate_shift_xor, iterate_shift_of_clear poly n _ hclear, hmove]

/-! ## Nothing is forgotten -/

lemma eq_zero_of_shift_eq_zero (htop : poly.getLsbD (w - 1) = true) {x : BitVec w}
    (h : shift poly x = 0#w) : x = 0#w := by
  have hw : 0 < w := by
    by_contra hzero
    rw [BitVec.getLsbD_of_ge _ _ (by omega)] at htop
    exact Bool.false_ne_true htop
  have hbit : ∀ i, (shift poly x).getLsbD i = false := by
    simp [h]
  have hlow : x.getLsbD 0 = false := by
    by_contra hset
    rw [Bool.not_eq_false] at hset
    have hlast := hbit (w - 1)
    rw [shift, if_pos hset, BitVec.getLsbD_xor, htop, BitVec.getLsbD_ushiftRight,
      BitVec.getLsbD_of_ge x _ (by omega)] at hlast
    exact absurd hlast (by decide)
  refine BitVec.eq_of_getLsbD_eq fun i hi => ?_
  cases i with
  | zero => simpa using hlow
  | succ i =>
      have hnext := hbit i
      rw [shift, hlow, if_neg Bool.false_ne_true, BitVec.getLsbD_ushiftRight] at hnext
      simpa [Nat.add_comm] using hnext

lemma shift_injective (htop : poly.getLsbD (w - 1) = true) : Function.Injective (shift poly) := by
  intro x y h
  have hzero : shift poly (x ^^^ y) = 0#w := by
    rw [shift_xor, h, BitVec.xor_self]
  exact BitVec.xor_eq_zero_iff.mp (eq_zero_of_shift_eq_zero poly htop hzero)

lemma iterate_shift_eq_zero_iff (htop : poly.getLsbD (w - 1) = true) (n : ℕ) {x : BitVec w} :
    (shift poly)^[n] x = 0#w ↔ x = 0#w := by
  constructor
  · intro h
    exact (shift_injective poly htop).iterate n (h.trans (iterate_shift_zero poly n).symm)
  · rintro rfl
    exact iterate_shift_zero poly n

/-! ## Bits that fit into the register -/

/-- The bits, lowest first. -/
def ofBits : List Bool → BitVec w
  | [] => 0#w
  | b :: bs => lowBit b ^^^ (ofBits bs <<< 1)

lemma getLsbD_lowBit (b : Bool) (i : ℕ) :
    (lowBit b : BitVec w).getLsbD i = (decide (i < w) && decide (i = 0) && b) := by
  cases b <;> simp [lowBit, BitVec.getLsbD_setWidth, BitVec.getLsbD_one]

lemma getLsbD_ofBits :
    ∀ (bs : List Bool) (i : ℕ), (ofBits bs : BitVec w).getLsbD i =
      (decide (i < w) && bs.getD i false)
  | [], i => by simp [ofBits]
  | b :: bs, 0 => by
      simp [ofBits, getLsbD_lowBit]
  | b :: bs, i + 1 => by
      rw [ofBits, BitVec.getLsbD_xor, getLsbD_lowBit, BitVec.getLsbD_shiftLeft, Nat.add_sub_cancel,
        getLsbD_ofBits bs i]
      by_cases hi : i + 1 < w
      · simp [hi, Nat.lt_of_succ_lt hi]
      · simp [hi]

/-- Bits above the low end only move down. -/
lemma shift_ofBits_shiftLeft {bs : List Bool} (hlen : bs.length < w) :
    shift poly (ofBits bs <<< 1) = ofBits bs := by
  have hlow : (ofBits bs <<< 1 : BitVec w).getLsbD 0 = false := by
    simp
  rw [shift, hlow, if_neg Bool.false_ne_true]
  refine BitVec.eq_of_getLsbD_eq fun i hi => ?_
  rw [BitVec.getLsbD_ushiftRight, BitVec.getLsbD_shiftLeft, Nat.add_sub_cancel_left,
    getLsbD_ofBits]
  by_cases hnext : 1 + i < w
  · simp [hnext]
  · have hout : bs.getD i false = false := by
      rw [List.getD_eq_getElem?_getD, List.getElem?_eq_none (by omega), Option.getD_none]
    rw [hout, Bool.and_false, decide_eq_false hnext, Bool.false_and, Bool.false_and]

lemma feedAll_eq_iterate :
    ∀ (bs : List Bool) (x : BitVec w), bs.length ≤ w →
      feedAll poly x bs = (shift poly)^[bs.length] (x ^^^ ofBits bs)
  | [], x, _ => by simp [ofBits]
  | b :: bs, x, hlen => by
      have hshift : shift poly (x ^^^ ofBits (b :: bs)) = feed poly x b ^^^ ofBits bs := by
        rw [ofBits, ← BitVec.xor_assoc, shift_xor, shift_ofBits_shiftLeft poly hlen, feed]
      rw [feedAll_cons, feedAll_eq_iterate bs _ (Nat.le_of_succ_le hlen), List.length_cons,
        Function.iterate_succ_apply, hshift]

/-! ## Bursts -/

lemma eq_replicate_false {bs : List Bool} (h : true ∉ bs) :
    bs = List.replicate bs.length false := by
  refine List.eq_replicate_of_mem fun b hb => ?_
  cases b with
  | false => rfl
  | true => exact absurd hb h

/-- **Bursts.**  If the set bits of a stream lie within as many consecutive places as the register
has bits, then a register that was zero is not zero after it. -/
theorem feedAll_ne_zero_of_burst (htop : poly.getLsbD (w - 1) = true) {bs : List Bool} {k : ℕ}
    (hburst : ∀ i, bs.getD i false = true → k ≤ i ∧ i < k + w) (hset : true ∈ bs) :
    feedAll poly 0#w bs ≠ 0#w := by
  have hbefore : true ∉ bs.take k := by
    intro hmem
    obtain ⟨i, hi, hget⟩ := List.mem_iff_getElem.mp hmem
    rw [List.length_take] at hi
    rw [List.getElem_take] at hget
    have hin := hburst i (by rw [List.getD_eq_getElem _ _ (by omega), hget])
    omega
  have hafter : true ∉ (bs.drop k).drop w := by
    intro hmem
    rw [List.drop_drop] at hmem
    obtain ⟨i, hi, hget⟩ := List.mem_iff_getElem.mp hmem
    rw [List.length_drop] at hi
    rw [List.getElem_drop] at hget
    have hin := hburst (k + w + i) (by rw [List.getD_eq_getElem _ _ (by omega), hget])
    omega
  have hsplit : bs = bs.take k ++ ((bs.drop k).take w ++ (bs.drop k).drop w) := by
    rw [List.take_append_drop, List.take_append_drop]
  have hinside : true ∈ (bs.drop k).take w := by
    rw [hsplit, List.mem_append, List.mem_append] at hset
    rcases hset with h | h | h
    · exact absurd h hbefore
    · exact h
    · exact absurd h hafter
  have hlen : ((bs.drop k).take w).length ≤ w := List.length_take_le _ _
  have hne : (ofBits ((bs.drop k).take w) : BitVec w) ≠ 0#w := by
    intro hzero
    obtain ⟨i, hi, hget⟩ := List.mem_iff_getElem.mp hinside
    have hbit := getLsbD_ofBits (w := w) ((bs.drop k).take w) i
    rw [hzero, List.getD_eq_getElem _ _ hi, hget, decide_eq_true (Nat.lt_of_lt_of_le hi hlen)] at hbit
    simp at hbit
  rw [hsplit, feedAll_append, feedAll_append, eq_replicate_false hbefore, feedAll_false,
    iterate_shift_zero, eq_replicate_false hafter, feedAll_false,
    feedAll_eq_iterate poly _ _ hlen, BitVec.zero_xor]
  intro hzero
  exact hne ((iterate_shift_eq_zero_iff poly htop _).mp
    ((iterate_shift_eq_zero_iff poly htop _).mp hzero))

end ShiftRegister

import Mathlib.Algebra.Group.Nat.Defs
import Mathlib.Data.Int.Notation
import Mathlib.Data.List.Basic
import Mathlib.Tactic.SplitIfs

/-!
# UTF-8 and UCS-2

`lib/encoding.c`: the conversions between UTF-8 strings and strings of 16-bit units.  A string is
the list of its bytes; behind them stands its terminator.

* `ucs2ToUtf8` — one code point.
* `utf8ToUcs2`, `utf8sToUcs2s` — one character, and a whole string.
* `utf8ToUcs2_utf8Bytes` — the decoder reads a code point of up to three bytes back.
* `utf8sToUcs2s_encode_iff` — which lists of code points it reads back.
-/

namespace Ampm

/-! ## The code -/

/-- `ucs2_to_utf8`: what it returns, and the bytes it writes. -/
def ucs2ToUtf8 (ucs2 : ℤ) : ℤ × List UInt8 :=
  let u := ucs2.toNat
  if ucs2 < 0x80 then (1, [UInt8.ofInt ucs2, 0])
  else if 0x80 ≤ ucs2 ∧ ucs2 < 0x800 then
    (2, [UInt8.ofNat (u >>> 6 ||| 0xC0), UInt8.ofNat (u &&& 0x3F ||| 0x80), 0])
  else if 0x800 ≤ ucs2 ∧ ucs2 < 0xFFFF then
    if 0xD800 ≤ ucs2 ∧ ucs2 ≤ 0xDFFF then (0, [])
    else
      (3, [UInt8.ofNat (u >>> 12 ||| 0xE0), UInt8.ofNat (u >>> 6 &&& 0x3F ||| 0x80),
        UInt8.ofNat (u &&& 0x3F ||| 0x80), 0])
  else if 0x10000 ≤ ucs2 ∧ ucs2 < 0x10FFFF then
    (4, [UInt8.ofNat (0xF0 ||| u >>> 18), UInt8.ofNat (0x80 ||| u >>> 12 &&& 0x3F),
      UInt8.ofNat (0x80 ||| u >>> 6 &&& 0x3F), UInt8.ofNat (0x80 ||| u &&& 0x3F), 0])
  else (-1, [])

/-- `utf8_to_ucs2`: what it returns, and what `end_ptr` is set to. -/
def utf8ToUcs2 (input : List UInt8) : ℤ × List UInt8 :=
  let b k := (input.getD k 0).toNat
  if b 0 = 0 then (-1, input)
  else if b 0 < 0x80 then (b 0, input.drop 1)
  else if b 0 &&& 0xE0 = 0xE0 then
    if b 1 = 0 ∨ b 2 = 0 then (-1, input)
    else
      (((b 0 &&& 0x0F) <<< 12 ||| (b 1 &&& 0x3F) <<< 6 ||| (b 2 &&& 0x3F) : ℕ), input.drop 3)
  else if b 0 &&& 0xC0 = 0xC0 then
    if b 1 = 0 then (-1, input)
    else (((b 0 &&& 0x1F) <<< 6 ||| (b 1 &&& 0x3F) : ℕ), input.drop 2)
  else (-1, input)

/-- The loop of `utf8s_to_ucs2s`: the length and the units written.  Every character takes a byte,
so that `fuel` for one round more than there are bytes is enough. -/
def utf8sToUcs2sLoop : ℕ → List UInt8 → UInt16 → UInt16 × List Int16
  | 0, _, len => (len, [])
  | fuel + 1, input, len =>
      let r := utf8ToUcs2 input
      let out := Int16.ofInt r.1
      if out = -1 then (len, [0])
      else
        let s := utf8sToUcs2sLoop fuel r.2 (len + 1)
        (s.1, out :: s.2)

/-- `utf8s_to_ucs2s`: what it returns, and the units it writes. -/
def utf8sToUcs2s (input : List UInt8) : ℕ × List Int16 :=
  let r := utf8sToUcs2sLoop (input.length + 1) input 0
  (r.1.toNat, r.2)

/-! ## One character -/

/-- The bytes of a code point, without the terminator. -/
def utf8Bytes (ucs2 : ℤ) : List UInt8 := (ucs2ToUtf8 ucs2).2.take (ucs2ToUtf8 ucs2).1.toNat

/-- The lead bytes of three and four bytes. -/
lemma and_0xE0_iff : ∀ b < 256, (b &&& 0xE0 = 0xE0 ↔ 0xE0 ≤ b) := by
  decide +kernel

/-- The lead bytes of two, three and four bytes. -/
lemma and_0xC0_iff : ∀ b < 256, (b &&& 0xC0 = 0xC0 ↔ 0xC0 ≤ b) := by
  decide +kernel

lemma and_0x3F (n : ℕ) : n &&& 0x3F = n % 64 := Nat.and_two_pow_sub_one_eq_mod n 6

/-- A byte behind the lead byte. -/
lemma toNat_tail (n : ℕ) : (UInt8.ofNat (n &&& 0x3F ||| 0x80)).toNat = n % 64 + 128 := by
  have hor := Nat.shiftLeft_add_eq_or_of_lt (show n % 64 < 2 ^ 7 by omega) 1
  rw [and_0x3F, Nat.or_comm, ← (show 1 <<< 7 = 0x80 from rfl), ← hor, UInt8.toNat_ofNat']
  show (128 + n % 64) % 256 = _
  omega

lemma toNat_lead2 {u : ℕ} (hu : u < 0x800) :
    (UInt8.ofNat (u >>> 6 ||| 0xC0)).toNat = u / 64 + 0xC0 := by
  have hor := Nat.shiftLeft_add_eq_or_of_lt (show u / 64 < 2 ^ 6 by omega) 3
  rw [Nat.shiftRight_eq_div_pow, Nat.or_comm, ← (show 3 <<< 6 = 0xC0 from rfl), ← hor,
    UInt8.toNat_ofNat']
  show (192 + u / 64) % 256 = _
  omega

lemma toNat_lead3 {u : ℕ} (hu : u < 0x10000) :
    (UInt8.ofNat (u >>> 12 ||| 0xE0)).toNat = u / 4096 + 0xE0 := by
  have hor := Nat.shiftLeft_add_eq_or_of_lt (show u / 4096 < 2 ^ 5 by omega) 7
  rw [Nat.shiftRight_eq_div_pow, Nat.or_comm, ← (show 7 <<< 5 = 0xE0 from rfl), ← hor,
    UInt8.toNat_ofNat']
  show (224 + u / 4096) % 256 = _
  omega

/-- The bits of two bytes, put together. -/
lemma join2 (hi lo : ℕ) : (hi <<< 6 ||| (lo &&& 0x3F)) = hi * 64 + lo % 64 := by
  rw [and_0x3F, ← Nat.shiftLeft_add_eq_or_of_lt (Nat.mod_lt lo (by decide)), Nat.shiftLeft_eq]

/-- The bits of three bytes, put together. -/
lemma join3 (hi mid lo : ℕ) :
    (hi <<< 12 ||| (mid &&& 0x3F) <<< 6 ||| (lo &&& 0x3F)) = hi * 4096 + mid % 64 * 64 + lo % 64 := by
  have hshift : hi <<< 12 ||| (mid &&& 0x3F) <<< 6 = (hi <<< 6 ||| (mid &&& 0x3F)) <<< 6 := by
    rw [Nat.shiftLeft_or_distrib, ← Nat.shiftLeft_add]
  rw [hshift, join2, join2]
  omega

/-- What the decoder makes of a lead byte of three bytes. -/
lemma utf8ToUcs2_three {b0 b1 b2 : UInt8} (rest : List UInt8) (h0 : 0xE0 ≤ b0.toNat)
    (h1 : b1.toNat ≠ 0) (h2 : b2.toNat ≠ 0) :
    utf8ToUcs2 (b0 :: b1 :: b2 :: rest)
      = (((b0.toNat % 16 * 4096 + b1.toNat % 64 * 64 + b2.toNat % 64 : ℕ) : ℤ), rest) := by
  have hlead := (and_0xE0_iff b0.toNat b0.toNat_lt).mpr h0
  have hlow : b0.toNat &&& 0x0F = b0.toNat % 16 := Nat.and_two_pow_sub_one_eq_mod b0.toNat 4
  have hne : b0.toNat ≠ 0 := by omega
  have hge : ¬b0.toNat < 0x80 := by omega
  have hnot : ¬(b1.toNat = 0 ∨ b2.toNat = 0) := not_or.mpr ⟨h1, h2⟩
  simp only [utf8ToUcs2, List.getD_cons_zero, List.getD_cons_succ, hne, hge, hlead, hnot, if_false,
    if_true, hlow, join3]
  rfl

/-- What the decoder makes of a lead byte of two bytes. -/
lemma utf8ToUcs2_two {b0 b1 : UInt8} (rest : List UInt8) (h0 : 0xC0 ≤ b0.toNat)
    (h0' : b0.toNat < 0xE0) (h1 : b1.toNat ≠ 0) :
    utf8ToUcs2 (b0 :: b1 :: rest) = (((b0.toNat % 32 * 64 + b1.toNat % 64 : ℕ) : ℤ), rest) := by
  have hlead := (and_0xC0_iff b0.toNat b0.toNat_lt).mpr h0
  have hnot3 : ¬b0.toNat &&& 0xE0 = 0xE0 := fun h =>
    Nat.not_le_of_lt h0' ((and_0xE0_iff b0.toNat b0.toNat_lt).mp h)
  have hlow : b0.toNat &&& 0x1F = b0.toNat % 32 := Nat.and_two_pow_sub_one_eq_mod b0.toNat 5
  have hne : b0.toNat ≠ 0 := by omega
  have hge : ¬b0.toNat < 0x80 := by omega
  simp only [utf8ToUcs2, List.getD_cons_zero, List.getD_cons_succ, hne, hge, hlead, hnot3, h1,
    if_false, if_true, hlow, join2]
  rfl

/-- What the decoder makes of a byte that is a character. -/
lemma utf8ToUcs2_one {b0 : UInt8} (rest : List UInt8) (h0 : b0.toNat ≠ 0) (h0' : b0.toNat < 0x80) :
    utf8ToUcs2 (b0 :: rest) = ((b0.toNat : ℤ), rest) := by
  simp only [utf8ToUcs2, List.getD_cons_zero, h0, h0', if_false, if_true]
  rfl

lemma utf8Bytes_ne_nil {ucs2 : ℤ} (hok : 0 < (ucs2ToUtf8 ucs2).1) : utf8Bytes ucs2 ≠ [] := by
  rw [utf8Bytes]
  rw [ucs2ToUtf8] at hok ⊢
  split_ifs at hok ⊢
  all_goals first | exact List.cons_ne_nil _ _ | exact absurd hok (by decide)

lemma utf8Bytes_one {u : ℕ} (hu : u < 0x80) : utf8Bytes u = [UInt8.ofInt u] := by
  have hlt : (u : ℤ) < 0x80 := by omega
  simp only [utf8Bytes, ucs2ToUtf8, if_pos hlt]
  rfl

lemma utf8Bytes_two {u : ℕ} (hu : 0x80 ≤ u) (hu' : u < 0x800) :
    utf8Bytes u = [UInt8.ofNat (u >>> 6 ||| 0xC0), UInt8.ofNat (u &&& 0x3F ||| 0x80)] := by
  have hge : ¬(u : ℤ) < 0x80 := by omega
  have hclass : (0x80 : ℤ) ≤ u ∧ (u : ℤ) < 0x800 := by omega
  simp only [utf8Bytes, ucs2ToUtf8, if_neg hge, if_pos hclass, Int.toNat_natCast]
  rfl

lemma utf8Bytes_three {u : ℕ} (hu : 0x800 ≤ u) (hu' : u < 0x10000)
    (hok : 0 < (ucs2ToUtf8 u).1) :
    utf8Bytes u = [UInt8.ofNat (u >>> 12 ||| 0xE0), UInt8.ofNat (u >>> 6 &&& 0x3F ||| 0x80),
      UInt8.ofNat (u &&& 0x3F ||| 0x80)] := by
  have hge : ¬(u : ℤ) < 0x80 := by omega
  have hge' : ¬((0x80 : ℤ) ≤ u ∧ (u : ℤ) < 0x800) := by omega
  have hlarge : ¬((0x10000 : ℤ) ≤ u ∧ (u : ℤ) < 0x10FFFF) := by omega
  simp only [ucs2ToUtf8, if_neg hge, if_neg hge', if_neg hlarge] at hok
  simp only [utf8Bytes, ucs2ToUtf8, if_neg hge, if_neg hge', if_neg hlarge, Int.toNat_natCast]
  split_ifs at hok ⊢ with hclass hsurrogate
  · exact absurd hok (by decide)
  · rfl
  · exact absurd hok (by decide)

/-- **One code point.**  The decoder reads a code point between 1 and 0xFFFE that the encoder
accepts back, and nothing of what follows. -/
theorem utf8ToUcs2_utf8Bytes {ucs2 : ℤ} (hpos : 0 < ucs2) (hlt : ucs2 < 0x10000)
    (hok : 0 < (ucs2ToUtf8 ucs2).1) (rest : List UInt8) :
    utf8ToUcs2 (utf8Bytes ucs2 ++ rest) = (ucs2, rest) := by
  obtain ⟨u, rfl⟩ := Int.eq_ofNat_of_zero_le (Int.le_of_lt hpos)
  have hu : u < 0x10000 := by omega
  rcases Nat.lt_or_ge u 0x80 with h1 | h1
  · have hbyte : (UInt8.ofInt u).toNat = u := by
      show (UInt8.ofNat ((u : ℤ) % 2 ^ 8).toNat).toNat = u
      rw [UInt8.toNat_ofNat']
      omega
    rw [utf8Bytes_one h1, List.singleton_append, utf8ToUcs2_one rest (by omega) (by omega), hbyte]
  · have htail := toNat_tail u
    rcases Nat.lt_or_ge u 0x800 with h2 | h2
    · have hlead := toNat_lead2 h2
      rw [utf8Bytes_two h1 h2, List.cons_append, List.singleton_append,
        utf8ToUcs2_two rest (by omega) (by omega) (by omega), hlead, htail]
      refine congrArg (fun n : ℕ => ((n : ℤ), rest)) ?_
      omega
    · have hlead := toNat_lead3 hu
      have hmid := toNat_tail (u >>> 6)
      have hshift : u >>> 6 = u / 64 := Nat.shiftRight_eq_div_pow u 6
      rw [utf8Bytes_three h2 hu hok, List.cons_append, List.cons_append, List.singleton_append,
        utf8ToUcs2_three rest (by omega) (by omega) (by omega), hlead, hmid, htail, hshift]
      refine congrArg (fun n : ℕ => ((n : ℤ), rest)) ?_
      omega

/-! ## A whole string -/

/-- The value of a unit. -/
def unitValue (out : Int16) : ℤ := out.toUInt16.toNat

/-- The bytes of a list of code points. -/
def utf8Encode (cps : List ℤ) : List UInt8 := cps.flatMap utf8Bytes

lemma unitValue_range (out : Int16) : 0 ≤ unitValue out ∧ unitValue out < 0x10000 :=
  ⟨Int.natCast_nonneg _, Int.ofNat_lt.mpr out.toUInt16.toNat_lt⟩

/-- A code point below 0x10000 is kept by its unit. -/
lemma unitValue_ofInt {ucs2 : ℤ} (hpos : 0 ≤ ucs2) (hlt : ucs2 < 0x10000) :
    unitValue (Int16.ofInt ucs2) = ucs2 := by
  obtain ⟨u, rfl⟩ := Int.eq_ofNat_of_zero_le hpos
  rw [unitValue, Int16.ofInt_eq_ofNat, Int16.toUInt16_ofNat', UInt16.toNat_ofNat',
    Nat.mod_eq_of_lt (Int.ofNat_lt.mp hlt)]

/-- The encoder does not accept the code point whose unit is the mark for the end. -/
lemma ofInt_ne_end {ucs2 : ℤ} (hpos : 0 < ucs2) (hlt : ucs2 < 0x10000)
    (hok : 0 < (ucs2ToUtf8 ucs2).1) : Int16.ofInt ucs2 ≠ -1 := by
  intro hend
  have hvalue := unitValue_ofInt (Int.le_of_lt hpos) hlt
  rw [hend] at hvalue
  have hmark : ucs2 = 0xFFFF := hvalue.symm
  rw [hmark] at hok
  exact absurd hok (by decide)

/-- The decoder reads code points between 1 and 0xFFFE off the front. -/
lemma utf8sToUcs2sLoop_append {cps : List ℤ} (rest : List UInt8)
    (hgood : ∀ ucs2 ∈ cps, 0 < ucs2 ∧ ucs2 < 0x10000)
    (hok : ∀ ucs2 ∈ cps, 0 < (ucs2ToUtf8 ucs2).1) : ∀ (fuel : ℕ) (len : UInt16),
    utf8sToUcs2sLoop (fuel + cps.length) (utf8Encode cps ++ rest) len =
      ((utf8sToUcs2sLoop fuel rest (len + UInt16.ofNat cps.length)).1,
        cps.map Int16.ofInt ++ (utf8sToUcs2sLoop fuel rest (len + UInt16.ofNat cps.length)).2) := by
  induction cps with
  | nil =>
      intro fuel len
      simp [utf8Encode]
  | cons ucs2 cps ih =>
      intro fuel len
      obtain ⟨hpos, hlt⟩ := hgood ucs2 List.mem_cons_self
      have hok1 := hok ucs2 List.mem_cons_self
      have hlen : len + 1 + UInt16.ofNat cps.length = len + UInt16.ofNat (cps.length + 1) := by
        rw [UInt16.ofNat_add, UInt16.add_assoc, UInt16.add_comm 1]
        rfl
      rw [List.length_cons, ← Nat.add_assoc, utf8Encode, List.flatMap_cons, List.append_assoc,
        utf8sToUcs2sLoop, utf8ToUcs2_utf8Bytes hpos hlt hok1]
      have ih' := ih (fun u hu => hgood u (List.mem_cons_of_mem _ hu))
        (fun u hu => hok u (List.mem_cons_of_mem _ hu)) fuel (len + 1)
      rw [utf8Encode, hlen] at ih'
      simp only [if_neg (ofInt_ne_end hpos hlt hok1), ih', List.map_cons, List.cons_append]

lemma length_le_utf8Encode {cps : List ℤ} (hok : ∀ ucs2 ∈ cps, 0 < (ucs2ToUtf8 ucs2).1) :
    cps.length ≤ (utf8Encode cps).length := by
  induction cps with
  | nil => exact Nat.le_refl 0
  | cons ucs2 cps ih =>
      have hrest := ih fun u hu => hok u (List.mem_cons_of_mem _ hu)
      have hone := utf8Bytes_ne_nil (hok ucs2 List.mem_cons_self)
      rw [utf8Encode, List.flatMap_cons, List.length_append, List.length_cons]
      rw [utf8Encode] at hrest
      have hpos := List.length_pos_iff.mpr hone
      omega

/-- What comes out as it went in consists of code points between 1 and 0xFFFE. -/
lemma good_of_utf8sToUcs2sLoop {cps : List ℤ} (hok : ∀ ucs2 ∈ cps, 0 < (ucs2ToUtf8 ucs2).1) :
    ∀ (fuel : ℕ) (len : UInt16),
      (utf8sToUcs2sLoop fuel (utf8Encode cps) len).2.map unitValue = cps ++ [0] →
        ∀ ucs2 ∈ cps, 0 < ucs2 ∧ ucs2 < 0x10000 := by
  induction cps with
  | nil => exact fun _ _ _ => nofun
  | cons ucs2 cps ih =>
      intro fuel len hout
      have hok1 := hok ucs2 List.mem_cons_self
      have hokRest : ∀ u ∈ cps, 0 < (ucs2ToUtf8 u).1 := fun u hu => hok u (List.mem_cons_of_mem _ hu)
      cases fuel with
      | zero => exact absurd hout (List.cons_ne_nil _ _).symm
      | succ fuel =>
          rw [utf8Encode, List.flatMap_cons, utf8sToUcs2sLoop] at hout
          by_cases hgood : 0 < ucs2 ∧ ucs2 < 0x10000
          · rw [utf8ToUcs2_utf8Bytes hgood.1 hgood.2 hok1] at hout
            simp only [if_neg (ofInt_ne_end hgood.1 hgood.2 hok1), List.map_cons, List.cons_append,
              List.cons.injEq] at hout
            intro u hu
            rcases List.mem_cons.mp hu with rfl | hu
            · exact hgood
            · exact ih hokRest fuel (len + 1) hout.2 u hu
          · have hvalue : ∃ out, unitValue out = ucs2 := by
              split at hout
              · exact ⟨_, (List.cons.inj hout).1⟩
              · exact ⟨_, (List.cons.inj hout).1⟩
            obtain ⟨out, hvalue⟩ := hvalue
            have hrange := unitValue_range out
            have hzero : ucs2 = 0 := by omega
            have hstop : utf8ToUcs2 (utf8Bytes ucs2 ++ cps.flatMap utf8Bytes)
                = (-1, utf8Bytes ucs2 ++ cps.flatMap utf8Bytes) := by
              rw [hzero]
              rfl
            have hend : Int16.ofInt (-1) = -1 := rfl
            rw [hstop] at hout
            simp only [hend, if_true] at hout
            have hlen := congrArg List.length hout
            simp at hlen

/-- A string of code points between 1 and 0xFFFE. -/
lemma utf8sToUcs2s_encode {cps : List ℤ} (hgood : ∀ ucs2 ∈ cps, 0 < ucs2 ∧ ucs2 < 0x10000)
    (hok : ∀ ucs2 ∈ cps, 0 < (ucs2ToUtf8 ucs2).1) :
    utf8sToUcs2s (utf8Encode cps) = (cps.length % 2 ^ 16, cps.map Int16.ofInt ++ [0]) := by
  have hlen := length_le_utf8Encode hok
  obtain ⟨fuel, hfuel⟩ := Nat.exists_eq_add_of_le hlen
  have hloop := utf8sToUcs2sLoop_append [] hgood hok (fuel + 1) 0
  rw [List.append_nil] at hloop
  have hrounds : (utf8Encode cps).length + 1 = fuel + 1 + cps.length := by omega
  have hend : ∀ len, utf8sToUcs2sLoop (fuel + 1) [] len = (len, [0]) := fun _ => rfl
  rw [utf8sToUcs2s, hrounds, hloop, UInt16.zero_add, hend, UInt16.toNat_ofNat']

/-- **UTF-8 read back as UCS-2.**  For every list of code points that the encoder accepts: the
decoder returns the length of the list and writes exactly these code points and a 0 behind them if
and only if there are fewer than 65536 of them, and all are between 1 and 0xFFFF. -/
theorem utf8sToUcs2s_encode_iff (cps : List ℤ) (hok : ∀ ucs2 ∈ cps, 0 < (ucs2ToUtf8 ucs2).1) :
    ((utf8sToUcs2s (utf8Encode cps)).1 = cps.length ∧
        (utf8sToUcs2s (utf8Encode cps)).2.map unitValue = cps ++ [0]) ↔
      cps.length < 2 ^ 16 ∧ ∀ ucs2 ∈ cps, 0 < ucs2 ∧ ucs2 < 0x10000 := by
  constructor
  · rintro ⟨hlen, hout⟩
    have hgood := good_of_utf8sToUcs2sLoop hok _ _ hout
    rw [utf8sToUcs2s_encode hgood hok] at hlen
    refine ⟨?_, hgood⟩
    have hmod := Nat.mod_lt cps.length (show 0 < 2 ^ 16 by decide)
    exact hlen ▸ hmod
  · rintro ⟨hlen, hgood⟩
    rw [utf8sToUcs2s_encode hgood hok]
    refine ⟨Nat.mod_eq_of_lt hlen, ?_⟩
    rw [List.map_append, List.map_map]
    refine congrArg (· ++ [(0 : ℤ)]) ?_
    refine (List.map_congr_left fun u hu => ?_).trans (List.map_id cps)
    exact unitValue_ofInt (Int.le_of_lt (hgood u hu).1) (hgood u hu).2

/-- The hypothesis is met by a string with a character of each class. -/
theorem utf8sToUcs2s_encode_three :
    ((utf8sToUcs2s (utf8Encode [0x41, 0xE9, 0x20AC])).1 = [(0x41 : ℤ), 0xE9, 0x20AC].length ∧
        (utf8sToUcs2s (utf8Encode [0x41, 0xE9, 0x20AC])).2.map unitValue
          = [0x41, 0xE9, 0x20AC] ++ [0]) ↔
      [(0x41 : ℤ), 0xE9, 0x20AC].length < 2 ^ 16 ∧
        ∀ ucs2 ∈ [(0x41 : ℤ), 0xE9, 0x20AC], 0 < ucs2 ∧ ucs2 < 0x10000 :=
  utf8sToUcs2s_encode_iff [0x41, 0xE9, 0x20AC] (by decide)

/-- The encoder writes four bytes for U+10348, and the decoder makes one unit of the first three. -/
theorem utf8sToUcs2s_four_bytes :
    0 < (ucs2ToUtf8 0x10348).1 ∧
      (utf8sToUcs2s (utf8Encode [0x10348])).2.map unitValue = [0x040D, 0] ∧
      (utf8sToUcs2s (utf8Encode [0x10348])).2.map unitValue ≠ [0x10348] ++ [0] := by
  decide

end Ampm

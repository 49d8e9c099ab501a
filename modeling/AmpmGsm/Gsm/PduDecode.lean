import AmpmGsm.Lib.BitStream
import AmpmGsm.Gsm.Septets

/-!
# Septet unpacking

`DecodePDUMessage` moves octets, as a stream of eight bits each, back to characters of seven.  One
octet more makes one character more, and every seventh octet ends with a character of its own.
Whether the text is complete is asked after every character but the first, and by an equality.

* `UnpackLoop`, `decodePduMessage` — the function, with the places it reads and writes.
* `Unpacks` — what is asked of it.
* `Unpacked` — the invariant of the loop: the characters so far are windows of the octets.
* **`decodePduMessage_unpacks_iff`** — the lengths for which it does.
* `decodePduMessage_inverts` — it does for a text packed without a gap.
-/

namespace Ampm

open BitStream

/-! ## The code -/

/-- The variables of `DecodePDUMessage`, the characters, and the indices that were read and
written. -/
structure UnpackLoop where
  i : ℕ
  carryOnBits : ℕ
  outputTextLength : ℕ
  outputSmsText : ℕ → UInt8
  reads : List ℕ
  writes : List ℕ

namespace UnpackLoop

/-- These octets are looked at. -/
@[simps]
def read (s : UnpackLoop) (indices : List ℕ) : UnpackLoop := { s with reads := indices ++ s.reads }

/-- `output_sms_text[output_text_length++] = c;` -/
@[simps]
def put (s : UnpackLoop) (c : ℕ) : UnpackLoop :=
  { s with
    outputSmsText := Function.update s.outputSmsText s.outputTextLength c.toUInt8
    outputTextLength := s.outputTextLength + 1
    writes := s.outputTextLength :: s.writes }

end UnpackLoop

/-- A round of the loop: whether it is left by a `break`, and the variables. -/
def decodePduRound (buffer : ℕ → UInt8) (smsTextLength : ℕ) (s : UnpackLoop) :
    Bool × UnpackLoop :=
  let s := (s.read [s.i, s.i - 1]).put
    (0x7F &&& ((buffer s.i).toNat <<< s.carryOnBits |||
      (buffer (s.i - 1)).toNat >>> (8 - s.carryOnBits)))
  if s.outputTextLength = smsTextLength then (true, s)
  else
    let s := { s with carryOnBits := s.carryOnBits + 1 }
    if s.carryOnBits = 8 then
      let s := ({ s with carryOnBits := 1 }.read [s.i]).put ((buffer s.i).toNat &&& 0x7F)
      (s.outputTextLength = smsTextLength, s)
    else (false, s)

/-- The loop of `DecodePDUMessage`; it runs at most `bufferLength` rounds. -/
def decodePduLoop (buffer : ℕ → UInt8) (bufferLength smsTextLength : ℕ) :
    ℕ → UnpackLoop → UnpackLoop
  | 0, s => s
  | rounds + 1, s =>
      if s.i < bufferLength then
        let r := decodePduRound buffer smsTextLength s
        if r.1 then r.2
        else decodePduLoop buffer bufferLength smsTextLength rounds { r.2 with i := r.2.i + 1 }
      else s

/-- `DecodePDUMessage`; it returns `outputTextLength`. -/
def decodePduMessage (buffer : ℕ → UInt8) (bufferLength : ℕ) (outputSmsText : ℕ → UInt8)
    (smsTextLength : ℕ) : UnpackLoop :=
  let s : UnpackLoop := ⟨1, 1, 0, outputSmsText, [], []⟩
  let s := if bufferLength > 0 then (s.read [0]).put (0x7F &&& (buffer 0).toNat) else s
  let s := decodePduLoop buffer bufferLength smsTextLength bufferLength s
  if s.outputTextLength < smsTextLength then
    (s.read [s.i - 1]).put ((buffer (s.i - 1)).toNat >>> (8 - s.carryOnBits))
  else s

/-! ## The property -/

/-- The octets as numbers. -/
def octets (buffer : ℕ → UInt8) (i : ℕ) : ℕ := (buffer i).toNat

/-- A character is the group of seven bits at its place. -/
def IsGroup (buffer : ℕ → UInt8) (k : ℕ) (c : UInt8) : Prop :=
  ∀ j, c.toNat.testBit j = (decide (j < 7) && bitAt 8 (octets buffer) (7 * k + j))

/-- What `DecodePDUMessage` is for: it writes `n` characters at most, returns `n` exactly if the
octets hold as many, and then the characters are the groups of seven bits. -/
def Unpacks (buffer : ℕ → UInt8) (b : ℕ) (text : ℕ → UInt8) (n : ℕ) : Prop :=
  let r := decodePduMessage buffer b text n
  (∀ a ∈ r.writes, a < n) ∧ (r.outputTextLength = n ↔ 7 * n ≤ 8 * b) ∧
    (7 * n ≤ 8 * b → ∀ k < n, IsGroup buffer k (r.outputSmsText k))

/-! ## One character -/

section Character

variable {buffer : ℕ → UInt8}

lemma octets_lt (buffer : ℕ → UInt8) (i : ℕ) : octets buffer i < 2 ^ 8 := (buffer i).toNat_lt

lemma testBit_masked (x j : ℕ) :
    (0x7F &&& x).toUInt8.toNat.testBit j = (decide (j < 7) && x.testBit j) := by
  have h127 : (0x7F : ℕ) = 2 ^ 7 - 1 := rfl
  have hlt : 0x7F &&& x < 256 := Nat.lt_of_le_of_lt Nat.and_le_left (by decide)
  rw [show (0x7F &&& x).toUInt8.toNat = 0x7F &&& x from Nat.mod_eq_of_lt hlt, Nat.testBit_and, h127,
    Nat.testBit_two_pow_sub_one]

/-- The character across the octets `i` and `i + 1`. -/
lemma isGroup_merged (buffer : ℕ → UInt8) {i c k : ℕ} (hc : 1 ≤ c ∧ c ≤ 7)
    (hk : 7 * k + c = 8 * (i + 1)) :
    IsGroup buffer k (0x7F &&& ((buffer (i + 1)).toNat <<< c |||
      (buffer i).toNat >>> (8 - c))).toUInt8 := by
  intro j
  rw [testBit_masked]
  by_cases hj : j < 7
  · have hwindow := testBit_window (octets_lt buffer) (i := i) (r := 8 - c) (j := j) (by omega)
      (by omega)
    have hshift : 8 - (8 - c) = c := by omega
    have hpos : 8 * i + (8 - c + j) = 7 * k + j := by omega
    rw [hshift, hpos] at hwindow
    rw [Nat.or_comm, ← hwindow]
    rfl
  · simp [hj]

/-- The character at the beginning of the octet `i`. -/
lemma isGroup_first {i k : ℕ} (hk : 7 * k = 8 * i) :
    IsGroup buffer k (0x7F &&& (buffer i).toNat).toUInt8 := by
  intro j
  rw [testBit_masked]
  by_cases hj : j < 7
  · rw [hk, bitAt_mul_add (by omega)]
    rfl
  · simp [hj]

/-- The character at the end of the octet `i`. -/
lemma isGroup_last {i k : ℕ} (hk : 7 * k = 8 * i + 1) :
    IsGroup buffer k ((buffer i).toNat >>> 1).toUInt8 := by
  intro j
  have hlt : (buffer i).toNat >>> 1 < 256 :=
    Nat.lt_of_le_of_lt (Nat.shiftRight_le _ _) (buffer i).toNat_lt
  rw [show ((buffer i).toNat >>> 1).toUInt8.toNat = (buffer i).toNat >>> 1 from
    Nat.mod_eq_of_lt hlt, Nat.testBit_shiftRight]
  by_cases hj : j < 7
  · have hpos : 7 * k + j = 8 * i + (1 + j) := by omega
    rw [hpos, bitAt_mul_add (by omega)]
    simp [hj, octets]
  · have hpast : (buffer i).toNat.testBit (1 + j) = false :=
      Nat.testBit_lt_two_pow (Nat.lt_of_lt_of_le (buffer i).toNat_lt
        (Nat.pow_le_pow_right (by decide) (by omega : 8 ≤ 1 + j)))
    simp [hj, hpast]

end Character

/-! ## The loop -/

/-- The characters so far are groups of the octets, each stored once, and the octets looked at are
among the first `seen`. -/
structure HoldsChars (buffer : ℕ → UInt8) (seen : ℕ) (s : UnpackLoop) : Prop where
  chars : ∀ k < s.outputTextLength, IsGroup buffer k (s.outputSmsText k)
  writes_eq : s.writes = (List.range s.outputTextLength).reverse
  reads : ∀ a ∈ s.reads, a < seen

/-- At the head of the loop: the octets before `i` are unpacked, but for `carryOnBits` bits. -/
structure Unpacked (buffer : ℕ → UInt8) (s : UnpackLoop) : Prop where
  one_le : 1 ≤ s.i
  carry_eq : s.carryOnBits = (s.i - 1) % 7 + 1
  length_eq : s.outputTextLength = s.i + (s.i - 1) / 7
  holds : HoldsChars buffer s.i s

section Loop

variable {buffer : ℕ → UInt8} {seen b n : ℕ} {s : UnpackLoop}

lemma HoldsChars.writes (h : HoldsChars buffer seen s) (a : ℕ) :
    a ∈ s.writes ↔ a < s.outputTextLength := by
  rw [h.writes_eq, List.mem_reverse, List.mem_range]

lemma HoldsChars.put (h : HoldsChars buffer seen s) {c : ℕ}
    (hc : IsGroup buffer s.outputTextLength c.toUInt8) : HoldsChars buffer seen (s.put c) := by
  refine ⟨fun k hk => ?_, ?_, h.reads⟩
  · rw [UnpackLoop.put_outputSmsText]
    by_cases hlast : k = s.outputTextLength
    · rw [hlast, Function.update_self]
      exact hc
    · rw [Function.update_of_ne hlast]
      exact h.chars k (Nat.lt_of_le_of_ne (Nat.le_of_lt_succ hk) hlast)
  · rw [UnpackLoop.put_writes, UnpackLoop.put_outputTextLength, List.range_succ,
      List.reverse_append, h.writes_eq]
    rfl

lemma HoldsChars.read (h : HoldsChars buffer seen s) {indices : List ℕ}
    (hlt : ∀ a ∈ indices, a < seen) :
    HoldsChars buffer seen (s.read indices) :=
  ⟨h.chars, h.writes_eq, List.forall_mem_append.mpr ⟨hlt, h.reads⟩⟩

lemma HoldsChars.mono (h : HoldsChars buffer seen s) {seen' : ℕ} (hle : seen ≤ seen') :
    HoldsChars buffer seen' s :=
  ⟨h.chars, h.writes_eq, fun a ha => Nat.lt_of_lt_of_le (h.reads a ha) hle⟩

/-- Other variables do not matter. -/
lemma HoldsChars.congr (h : HoldsChars buffer seen s) {i carryOnBits : ℕ} :
    HoldsChars buffer seen { s with i := i, carryOnBits := carryOnBits } :=
  ⟨h.chars, h.writes_eq, h.reads⟩

/-- The character of a round. -/
def mergedPut (buffer : ℕ → UInt8) (s : UnpackLoop) : UnpackLoop :=
  (s.read [s.i, s.i - 1]).put
    (0x7F &&& ((buffer s.i).toNat <<< s.carryOnBits |||
      (buffer (s.i - 1)).toNat >>> (8 - s.carryOnBits)))

/-- The character that every seventh round adds. -/
def firstPut (buffer : ℕ → UInt8) (s : UnpackLoop) : UnpackLoop :=
  ({ mergedPut buffer s with carryOnBits := 1 }.read [s.i]).put ((buffer s.i).toNat &&& 0x7F)

/-- A round in its three cases. -/
lemma decodePduRound_eq (buffer : ℕ → UInt8) (n : ℕ) (s : UnpackLoop) :
    decodePduRound buffer n s =
      if s.outputTextLength + 1 = n then (true, mergedPut buffer s)
      else if s.carryOnBits + 1 = 8 then
        (decide (s.outputTextLength + 2 = n), firstPut buffer s)
      else (false, { mergedPut buffer s with carryOnBits := s.carryOnBits + 1 }) := rfl

lemma Unpacked.mergedPut (h : Unpacked buffer s) :
    HoldsChars buffer (s.i + 1) (mergedPut buffer s) := by
  have hone := h.one_le
  have hcarry := h.carry_eq
  have hlength := h.length_eq
  have hseen : ∀ a ∈ [s.i, s.i - 1], a < s.i + 1 :=
    List.forall_mem_cons.mpr ⟨by omega, List.forall_mem_singleton.mpr (by omega)⟩
  refine ((h.holds.mono (Nat.le_succ _)).read hseen).put ?_
  have hgroup := isGroup_merged buffer (i := s.i - 1) (c := s.carryOnBits)
    (k := s.outputTextLength) (by omega) (by omega)
  rwa [Nat.sub_add_cancel hone] at hgroup

lemma Unpacked.firstPut (h : Unpacked buffer s) (hcarry : s.carryOnBits + 1 = 8) :
    HoldsChars buffer (s.i + 1) (firstPut buffer s) := by
  have hmod := h.carry_eq
  have hlength := h.length_eq
  have hseen : ∀ a ∈ [s.i], a < s.i + 1 := by simp
  refine (h.mergedPut.congr.read hseen).put ?_
  rw [Nat.and_comm]
  refine isGroup_first ?_
  show 7 * (s.outputTextLength + 1) = 8 * s.i
  omega

/-- **One round**: it is left with a complete text, or the next octet is unpacked as well. -/
lemma Unpacked.round (h : Unpacked buffer s) :
    let r := decodePduRound buffer n s
    if r.1 then
      HoldsChars buffer (s.i + 1) r.2 ∧ r.2.outputTextLength = n ∧ s.outputTextLength < n ∧
        n ≤ s.i + 1 + s.i / 7
    else Unpacked buffer { r.2 with i := r.2.i + 1 } ∧ r.2.i = s.i ∧
      (r.2.outputTextLength < n ↔ s.outputTextLength < n) := by
  have hone := h.one_le
  have hcarry := h.carry_eq
  have hlength := h.length_eq
  rw [decodePduRound_eq]
  by_cases hfull : s.outputTextLength + 1 = n
  · rw [if_pos hfull]
    exact ⟨h.mergedPut, hfull, by omega, by omega⟩
  · rw [if_neg hfull]
    by_cases hwrap : s.carryOnBits + 1 = 8
    · rw [if_pos hwrap]
      by_cases hfull' : s.outputTextLength + 2 = n
      · rw [decide_eq_true hfull']
        exact ⟨h.firstPut hwrap, hfull', by omega, by omega⟩
      · rw [decide_eq_false hfull']
        refine ⟨⟨Nat.succ_le_succ (Nat.zero_le _), ?_, ?_, (h.firstPut hwrap).congr⟩, rfl, ?_⟩
        · show 1 = s.i % 7 + 1
          omega
        · show s.outputTextLength + 2 = s.i + 1 + s.i / 7
          omega
        · show s.outputTextLength + 2 < n ↔ s.outputTextLength < n
          omega
    · rw [if_neg hwrap]
      refine ⟨⟨Nat.succ_le_succ (Nat.zero_le _), ?_, ?_, h.mergedPut.congr⟩, rfl, ?_⟩
      · show s.carryOnBits + 1 = s.i % 7 + 1
        omega
      · show s.outputTextLength + 1 = s.i + 1 + s.i / 7
        omega
      · show s.outputTextLength + 1 < n ↔ s.outputTextLength < n
        omega

/-- **The loop**: it is left with a complete text, or all octets are unpacked. -/
theorem Unpacked.loop (rounds : ℕ) (h : Unpacked buffer s) (hi : s.i ≤ b)
    (hrounds : b ≤ s.i + rounds) :
    let r := decodePduLoop buffer b n rounds s
    (HoldsChars buffer b r ∧ r.outputTextLength = n ∧ s.outputTextLength < n ∧
        n ≤ b + (b - 1) / 7) ∨
      (Unpacked buffer r ∧ r.i = b ∧ (r.outputTextLength < n ↔ s.outputTextLength < n)) := by
  induction rounds generalizing s with
  | zero => exact Or.inr ⟨h, Nat.le_antisymm hi hrounds, Iff.rfl⟩
  | succ rounds ih =>
      have hround := h.round (n := n)
      dsimp only [decodePduLoop] at hround ⊢
      by_cases hlt : s.i < b
      · rw [if_pos hlt]
        cases hbreak : (decodePduRound buffer n s).1 with
        | true =>
            rw [hbreak] at hround
            obtain ⟨hholds, hfull, hless, hle⟩ := hround
            exact Or.inl ⟨hholds.mono hlt, hfull, hless, by omega⟩
        | false =>
            rw [hbreak] at hround
            obtain ⟨hunpacked, hsame, hless⟩ := hround
            have hnext := ih hunpacked (by show _ + 1 ≤ b; omega)
              (by show b ≤ _ + 1 + rounds; omega)
            exact hnext.imp
              (fun ⟨hholds, hfull, hless', hle⟩ => ⟨hholds, hfull, hless.mp hless', hle⟩)
              fun ⟨hr, hb, hless'⟩ => ⟨hr, hb, hless'.trans hless⟩
      · rw [if_neg hlt]
        exact Or.inr ⟨h, by omega, Iff.rfl⟩

end Loop

/-! ## The function -/

section Message

variable (buffer : ℕ → UInt8) (b : ℕ) (text : ℕ → UInt8) (n : ℕ)

/-- The variables before the loop. -/
def unpackStart : UnpackLoop :=
  ((⟨1, 1, 0, text, [], []⟩ : UnpackLoop).read [0]).put (0x7F &&& (buffer 0).toNat)

lemma unpacked_start : Unpacked buffer (unpackStart buffer text) := by
  have hempty : HoldsChars buffer 1 ⟨1, 1, 0, text, [], []⟩ :=
    ⟨fun _ hk => absurd hk (Nat.not_lt_zero _), rfl, List.forall_mem_nil _⟩
  exact ⟨Nat.le_refl _, rfl, by simp [unpackStart],
    (hempty.read (by simp)).put (isGroup_first rfl)⟩

/-- What is left over when the octets have not been enough. -/
def remainderPut (s : UnpackLoop) : UnpackLoop :=
  (s.read [s.i - 1]).put ((buffer (s.i - 1)).toNat >>> (8 - s.carryOnBits))

lemma decodePduMessage_eq (hb : 0 < b) :
    decodePduMessage buffer b text n =
      let r := decodePduLoop buffer b n b (unpackStart buffer text)
      if r.outputTextLength < n then remainderPut buffer r else r := by
  unfold decodePduMessage
  simp only [gt_iff_lt, hb, if_true]
  rfl

lemma decodePduMessage_empty :
    decodePduMessage buffer 0 text n =
      if 0 < n then remainderPut buffer ⟨1, 1, 0, text, [], []⟩ else ⟨1, 1, 0, text, [], []⟩ := rfl

/-- **What the function leaves behind** if it is given octets: the text is complete, or all that the
octets hold has been stored, and what is left over as well if that was asked for. -/
theorem decodePduMessage_spec (hb : 0 < b) :
    let r := decodePduMessage buffer b text n
    (HoldsChars buffer b r ∧ r.outputTextLength = n ∧ 1 < n ∧ n ≤ b + (b - 1) / 7) ∨
      ∃ s, Unpacked buffer s ∧ s.i = b ∧ (s.outputTextLength < n ↔ 1 < n) ∧
        r = if 1 < n then remainderPut buffer s else s := by
  rw [decodePduMessage_eq buffer b text n hb]
  rcases (unpacked_start buffer text).loop (b := b) (n := n) b hb (Nat.le_add_left _ _) with
    ⟨hholds, hfull, hless, hle⟩ | ⟨hunpacked, hi, hless⟩
  · refine Or.inl ?_
    dsimp only
    rw [if_neg (by rw [hfull]; exact Nat.lt_irrefl n)]
    exact ⟨hholds, hfull, hless, hle⟩
  · refine Or.inr ⟨_, hunpacked, hi, hless, ?_⟩
    dsimp only
    exact if_congr hless rfl rfl

variable {buffer b text n}

/-- The lengths for which the function does what it is for. -/
def UnpacksLength (b n : ℕ) : Prop :=
  (n = 0 → b = 0) ∧ (n = 1 → b = 1) ∧ (2 ≤ n → n = b + b / 7 + 1 → b % 7 = 0)

/-- Nothing to unpack. -/
lemma unpacks_empty_iff : Unpacks buffer 0 text n ↔ UnpacksLength 0 n := by
  unfold Unpacks UnpacksLength
  rw [decodePduMessage_empty]
  rcases Nat.lt_trichotomy n 1 with hn | rfl | hn
  · obtain rfl : n = 0 := by omega
    simp
  · simp [remainderPut]
  · have hpos : 0 < n := by omega
    simp only [hpos, if_true, remainderPut, UnpackLoop.put_writes, UnpackLoop.read_writes,
      UnpackLoop.put_outputTextLength, UnpackLoop.read_outputTextLength]
    refine iff_of_true ⟨by simpa using hpos, by omega, by omega⟩ ⟨by omega, by omega, by omega⟩

/-- What is left over is a character exactly if seven octets have been unpacked. -/
lemma Unpacked.remainder {s : UnpackLoop} (h : Unpacked buffer s) (hless : s.outputTextLength < n) :
    ((∀ a ∈ (remainderPut buffer s).writes, a < n) ∧
      ((remainderPut buffer s).outputTextLength = n ↔ 7 * n ≤ 8 * s.i) ∧
      (7 * n ≤ 8 * s.i → ∀ k < n, IsGroup buffer k ((remainderPut buffer s).outputSmsText k))) ↔
      (n = s.i + s.i / 7 + 1 → s.i % 7 = 0) := by
  have hone := h.one_le
  have hcarry := h.carry_eq
  have hlength := h.length_eq
  have hwrites : ∀ a ∈ (remainderPut buffer s).writes, a < n := by
    intro a ha
    rcases List.mem_cons.mp ha with rfl | hold
    · exact hless
    · exact Nat.lt_trans ((h.holds.writes a).mp hold) hless
  have hreturn : (remainderPut buffer s).outputTextLength = s.outputTextLength + 1 := rfl
  have hchars : 7 * n ≤ 8 * s.i →
      ∀ k < n, IsGroup buffer k ((remainderPut buffer s).outputSmsText k) := by
    intro hfits
    have hseven : s.carryOnBits = 7 := by omega
    have hgroup : IsGroup buffer s.outputTextLength
        ((buffer (s.i - 1)).toNat >>> (8 - s.carryOnBits)).toUInt8 := by
      rw [hseven]
      exact isGroup_last (by omega)
    have hseen : ∀ a ∈ [s.i - 1], a < s.i := List.forall_mem_singleton.mpr (by omega)
    have hall := (h.holds.read hseen).put hgroup
    intro k hk
    exact hall.chars k (by show k < s.outputTextLength + 1; omega)
  constructor
  · rintro ⟨-, hiff, -⟩ hn
    rw [hreturn] at hiff
    omega
  · intro hmod
    refine ⟨hwrites, ?_, hchars⟩
    rw [hreturn]
    omega

end Message

/-- **The characters are unpacked exactly for these lengths**: a text of one character or none is
not told from a longer one, and what is left over in the last octet counts as a character. -/
theorem decodePduMessage_unpacks_iff (buffer : ℕ → UInt8) (b : ℕ) (text : ℕ → UInt8) (n : ℕ) :
    Unpacks buffer b text n ↔ UnpacksLength b n := by
  rcases Nat.eq_zero_or_pos b with rfl | hb
  · exact unpacks_empty_iff
  · unfold Unpacks UnpacksLength
    rcases decodePduMessage_spec buffer b text n hb with
      ⟨hholds, hfull, hless, hle⟩ | ⟨s, hunpacked, rfl, hless, heq⟩
    · refine iff_of_true ⟨fun a ha => ?_, ?_, fun _ k hk => ?_⟩ ⟨?_, ?_, ?_⟩
      · rw [← hfull]
        exact (hholds.writes a).mp ha
      · omega
      · exact hholds.chars k (by rw [hfull]; exact hk)
      all_goals omega
    · dsimp only at heq ⊢
      rw [heq]
      have hlength := hunpacked.length_eq
      have hwrites := hunpacked.holds.writes
      by_cases hn : 1 < n
      · rw [if_pos hn, hunpacked.remainder (hless.mpr hn)]
        constructor
        · exact fun hmod => ⟨by omega, by omega, fun _ => hmod⟩
        · exact fun ⟨_, _, hmod⟩ => hmod hn
      · rw [if_neg hn]
        constructor
        · rintro ⟨hbound, -⟩
          have hlast := hbound (s.outputTextLength - 1) ((hwrites _).mpr (by omega))
          omega
        · rintro ⟨hzero, hone, -⟩
          have hn1 : n = 1 := by omega
          have hb1 := hone hn1
          refine ⟨fun a ha => ?_, by omega, fun _ k hk => ?_⟩
          · have := (hwrites a).mp ha
            omega
          · exact hunpacked.holds.chars k (by omega)

/-- A text packed without a gap has as many octets as are needed. -/
lemma unpacks_packed (buffer : ℕ → UInt8) (text : ℕ → UInt8) (n : ℕ) :
    Unpacks buffer (packedOctets n) text n := by
  have hoctets : packedOctets n = (7 * n + 7) / 8 := rfl
  rcases Nat.eq_zero_or_pos n with rfl | hn
  · exact unpacks_empty_iff.mpr ⟨fun _ => rfl, by omega, by omega⟩
  rcases decodePduMessage_spec buffer (packedOctets n) text n (by omega) with
    ⟨hholds, hfull, -, -⟩ | ⟨s, hunpacked, hi, hless, heq⟩
  · refine ⟨fun a ha => ?_, iff_of_true hfull (by omega), fun _ k hk => ?_⟩
    · rw [← hfull]
      exact (hholds.writes a).mp ha
    · exact hholds.chars k (by rw [hfull]; exact hk)
  · have hlength := hunpacked.length_eq
    rw [Unpacks, heq]
    by_cases hmore : 1 < n
    · rw [if_pos hmore, ← hi]
      exact (hunpacked.remainder (hless.mpr hmore)).mpr (by omega)
    · rw [if_neg hmore]
      refine ⟨fun a ha => ?_, by omega, fun _ k hk => hunpacked.holds.chars k (by omega)⟩
      have hlt := (hunpacked.holds.writes a).mp ha
      omega

/-- **What was packed without a gap is unpacked.** -/
theorem decodePduMessage_inverts (buffer : ℕ → UInt8) (text : ℕ → UInt8) (smsText : List UInt8)
    (hpacked : ∀ k < smsText.length, ∀ j < 7,
      bitAt 8 (octets buffer) (7 * k + j) = (smsText.getD k 0).toNat.testBit j) :
    let r := decodePduMessage buffer (packedOctets smsText.length) text smsText.length
    r.outputTextLength = smsText.length ∧
      ∀ k < smsText.length, r.outputSmsText k = septet smsText k := by
  have hfits : 7 * smsText.length ≤ 8 * packedOctets smsText.length := by
    unfold packedOctets
    omega
  obtain ⟨-, hreturn, hchars⟩ := unpacks_packed buffer text smsText.length
  refine ⟨hreturn.mpr hfits, fun k hk => UInt8.toNat_inj.mp (Nat.eq_of_testBit_eq fun j => ?_)⟩
  rw [hchars hfits k hk j]
  by_cases hj : j < 7
  · rw [hpacked k hk j hj, ← testBit_septets smsText k hj]
    simp [hj, septets]
  · have hpast : (septet smsText k).toNat.testBit j = false :=
      Nat.testBit_lt_two_pow (Nat.lt_of_lt_of_le (septets_lt smsText k)
        (Nat.pow_le_pow_right (by decide) (Nat.not_lt.mp hj)))
    simp [hj, hpast]

/-- One octet, and no character asked for. -/
theorem decodePduMessage_overruns : ¬ Unpacks (fun _ => 0xE8) 1 (fun _ => 0) 0 := by
  rw [decodePduMessage_unpacks_iff]
  exact fun h => absurd (h.1 rfl) (by decide)

end Ampm

import AmpmGsm.Gsm.PduDecode

/-!
# SMS-DELIVER decoding

`sms/pdu.c`, `pdu_decode`: three lengths in the message itself say where the next field starts, the
length of the service centre's address, the number of digits of the sender and the number of
characters.  Some of the places read are behind a comparison with the length of the buffer, some in
front of it.

* `PduDecode`, `pduDecode` — the function, with the places it reads and writes.
* `Harmless`, `DecodesHarmlessly` — what is asked of it.
* `Measured` — the message is as long as what is read in front of a comparison.
* **`pduDecode_harmless_iff`** — nothing but that makes a message harmless.
-/

namespace Ampm

/-! ## The code -/

/-- The fields of `struct tm` that `pdu_decode` sets. -/
structure BrokenTime where
  tmYear : ℤ
  tmMon : ℤ
  tmMday : ℤ
  tmHour : ℤ
  tmMin : ℤ
  tmSec : ℤ

/-- What `pdu_decode` stores, and the indices of its three buffers that it reads and writes. -/
structure PduDecode where
  reads : List ℕ
  outputSenderPhoneNumber : ℕ → UInt8
  phoneWrites : List ℕ
  outputSmsText : ℤ → UInt8
  textWrites : List ℤ
  outputSmsTime : Option ℤ

namespace PduDecode

/-- These octets are looked at. -/
@[simps]
def read (p : PduDecode) (indices : List ℕ) : PduDecode := { p with reads := indices ++ p.reads }

/-- `output_phone_number[i] = c;` -/
@[simps]
def putPhone (p : PduDecode) (i : ℕ) (c : UInt8) : PduDecode :=
  { p with
    outputSenderPhoneNumber := Function.update p.outputSenderPhoneNumber i c
    phoneWrites := i :: p.phoneWrites }

/-- `output_sms_text[i] = c;` -/
@[simps]
def putText (p : PduDecode) (i : ℤ) (c : UInt8) : PduDecode :=
  { p with
    outputSmsText := Function.update p.outputSmsText i c
    textWrites := i :: p.textWrites }

/-- What `DecodePDUMessage` has done with the octets from `start` on. -/
@[simps]
def unpack (p : PduDecode) (start : ℕ) (r : UnpackLoop) : PduDecode :=
  { p with
    reads := r.reads.map (start + ·) ++ p.reads
    outputSmsText := fun i => if 0 ≤ i then r.outputSmsText i.toNat else p.outputSmsText i
    textWrites := r.writes.map (↑) ++ p.textWrites }

end PduDecode

/-- `SwapDecimalNibble` -/
def swapDecimalNibble (x : UInt8) : UInt8 := x / 16 + x % 16 * 10

/-- A round of the loop of `DecodePhoneNumber`, with its input from index `start` on. -/
def decodePhoneDigit (buffer : ℕ → UInt8) (start : ℕ) (p : PduDecode) (i : ℕ) : PduDecode :=
  let octet := buffer (start + i / 2)
  (p.read [start + i / 2]).putPhone i
    (if i % 2 = 0 then (octet &&& 0x0F) + 48 else ((octet &&& 0xF0) >>> 4) + 48)

/-- `DecodePhoneNumber` -/
def decodePhoneNumber (buffer : ℕ → UInt8) (start phoneNumberLength : ℕ) (p : PduDecode) :
    PduDecode :=
  ((List.range phoneNumberLength).foldl (decodePhoneDigit buffer start) p).putPhone
    phoneNumberLength 0

/-- The time stamp behind the protocol identifier. -/
def decodeSmsTime (mktime : BrokenTime → ℤ) (buffer : ℕ → UInt8) (smsPidStart : ℕ)
    (p : PduDecode) : PduDecode :=
  let field (k : ℕ) : ℤ := (swapDecimalNibble (buffer (smsPidStart + k))).toNat
  { p.read ((List.range 7).map (smsPidStart + 2 + ·)) with
    outputSmsTime := some (mktime ⟨100 + field 2, field 3 - 1, field 4, field 5, field 6, field 7⟩
      - field 8 * 15 * 60) }

/-- The text, whose length is at `smsStart`. -/
def decodeSmsText (buffer : ℕ → UInt8) (bufferLength smsTextSize smsStart : ℕ) (p : PduDecode) :
    ℤ × PduDecode :=
  let p := p.read [smsStart]
  let outputSmsTextLength := (buffer smsStart).toNat
  if smsTextSize < outputSmsTextLength then (-1, p)
  else
    let r := decodePduMessage (fun i => buffer (smsStart + 1 + i)) (bufferLength - (smsStart + 1))
      (fun i => p.outputSmsText i) outputSmsTextLength
    let p := p.unpack (smsStart + 1) r
    if r.outputTextLength ≠ outputSmsTextLength then (-1, p)
    else
      (outputSmsTextLength,
        p.putText (if outputSmsTextLength < smsTextSize then outputSmsTextLength
          else smsTextSize - 1) 0)

/-- Everything behind the type of the message, which is at `smsDeliverStart`. -/
def decodeDeliver (mktime : BrokenTime → ℤ) (buffer : ℕ → UInt8)
    (bufferLength senderPhoneNumberSize smsTextSize smsDeliverStart : ℕ) (p : PduDecode) :
    ℤ × PduDecode :=
  let p := p.read [smsDeliverStart + 1]
  let senderNumberLength := (buffer (smsDeliverStart + 1)).toNat
  if senderNumberLength + 1 > senderPhoneNumberSize then (-1, p)
  else
    let p := decodePhoneNumber buffer (smsDeliverStart + 3) senderNumberLength p
    let smsPidStart := smsDeliverStart + 3 + (senderNumberLength + 1) / 2
    let p := decodeSmsTime mktime buffer smsPidStart (p.read [smsDeliverStart + 1])
    let smsStart := smsPidStart + 2 + 7
    if smsStart + 1 > bufferLength then (-1, p)
    else decodeSmsText buffer bufferLength smsTextSize smsStart p

/-- `pdu_decode`; `mktime` is the library's. -/
def pduDecode (mktime : BrokenTime → ℤ) (buffer : ℕ → UInt8)
    (bufferLength senderPhoneNumberSize smsTextSize : ℕ) (p : PduDecode) : ℤ × PduDecode :=
  let p := p.read [0]
  let smsDeliverStart := 1 + (buffer 0).toNat
  if bufferLength ≤ 0 then (-1, p)
  else if smsDeliverStart + 1 > bufferLength then (-1, p)
  else
    let p := p.read [smsDeliverStart]
    if buffer smsDeliverStart &&& 0x04 ≠ 0x04 then (-1, p)
    else decodeDeliver mktime buffer bufferLength senderPhoneNumberSize smsTextSize
      smsDeliverStart p

/-! ## The property -/

/-- Nothing outside a message of the length `bufferLength` has been read, and nothing outside the
buffers of the two sizes has been written. -/
structure Harmless (bufferLength phoneSize textSize : ℕ) (p : PduDecode) : Prop where
  reads : ∀ a ∈ p.reads, a < bufferLength
  phoneWrites : ∀ a ∈ p.phoneWrites, a < phoneSize
  textWrites : ∀ a ∈ p.textWrites, 0 ≤ a ∧ a < textSize

/-- A call that has touched nothing yet. -/
def PduDecode.start (phone : ℕ → UInt8) (text : ℤ → UInt8) (time : Option ℤ) : PduDecode :=
  ⟨[], phone, [], text, [], time⟩

/-- A harmless end: `-1` is returned, or the number of characters stored, the terminating one
aside. -/
def EndsHarmlessly (bufferLength phoneSize textSize : ℕ) (r : ℤ × PduDecode) : Prop :=
  Harmless bufferLength phoneSize textSize r.2 ∧ (r.1 = -1 ∨ r.1 + 1 = r.2.textWrites.length)

/-- What is asked of `pdu_decode`, whatever the message is. -/
def DecodesHarmlessly (mktime : BrokenTime → ℤ) (buffer : ℕ → UInt8)
    (bufferLength phoneSize textSize : ℕ) (p : PduDecode) : Prop :=
  EndsHarmlessly bufferLength phoneSize textSize
    (pduDecode mktime buffer bufferLength phoneSize textSize p)

/-- The text fits: there is a character or none is asked for, and if one or none is asked for all
that the octets hold has room. -/
def TextMeasured (octetsLeft textLength textSize : ℕ) : Prop :=
  if octetsLeft = 0 then textLength = 0 ∧ 0 < textSize
  else textLength ≤ 1 → octetsLeft + (octetsLeft - 1) / 7 ≤ textSize

/-- The message goes on to the number of digits; one whose sender has room goes on to the text, and
a text that has room is measured as well. -/
def DeliverMeasured (buffer : ℕ → UInt8)
    (bufferLength phoneSize textSize smsDeliverStart : ℕ) : Prop :=
  let senderNumberLength := (buffer (smsDeliverStart + 1)).toNat
  let smsStart := smsDeliverStart + 3 + (senderNumberLength + 1) / 2 + 9
  let textLength := (buffer smsStart).toNat
  smsDeliverStart + 1 < bufferLength ∧
    (senderNumberLength < phoneSize →
      smsStart ≤ bufferLength ∧
      (smsStart < bufferLength → textLength ≤ textSize →
        TextMeasured (bufferLength - (smsStart + 1)) textLength textSize))

/-- The message is not empty, and one to be delivered is measured. -/
def Measured (buffer : ℕ → UInt8) (bufferLength phoneSize textSize : ℕ) : Prop :=
  let smsDeliverStart := 1 + (buffer 0).toNat
  0 < bufferLength ∧
    (smsDeliverStart < bufferLength → buffer smsDeliverStart &&& 0x04 = 0x04 →
      DeliverMeasured buffer bufferLength phoneSize textSize smsDeliverStart)

/-! ## What each step touches -/

section Steps

variable {buffer : ℕ → UInt8} {bufferLength phoneSize textSize start n : ℕ} {p : PduDecode}

lemma endsHarmlessly_fail :
    EndsHarmlessly bufferLength phoneSize textSize (-1, p) ↔
      Harmless bufferLength phoneSize textSize p := by
  simp [EndsHarmlessly]

lemma harmless_read {indices : List ℕ} :
    Harmless bufferLength phoneSize textSize (p.read indices) ↔
      (∀ a ∈ indices, a < bufferLength) ∧ Harmless bufferLength phoneSize textSize p := by
  constructor
  · rintro ⟨hreads, hphone, htext⟩
    obtain ⟨hnew, hold⟩ := List.forall_mem_append.mp hreads
    exact ⟨hnew, hold, hphone, htext⟩
  · rintro ⟨hnew, hold, hphone, htext⟩
    exact ⟨List.forall_mem_append.mpr ⟨hnew, hold⟩, hphone, htext⟩

lemma harmless_putPhone {i : ℕ} {c : UInt8} :
    Harmless bufferLength phoneSize textSize (p.putPhone i c) ↔
      i < phoneSize ∧ Harmless bufferLength phoneSize textSize p := by
  constructor
  · rintro ⟨hreads, hphone, htext⟩
    obtain ⟨hnew, hold⟩ := List.forall_mem_cons.mp hphone
    exact ⟨hnew, hreads, hold, htext⟩
  · rintro ⟨hnew, hreads, hold, htext⟩
    exact ⟨hreads, List.forall_mem_cons.mpr ⟨hnew, hold⟩, htext⟩

lemma harmless_putText {i : ℤ} {c : UInt8} :
    Harmless bufferLength phoneSize textSize (p.putText i c) ↔
      (0 ≤ i ∧ i < textSize) ∧ Harmless bufferLength phoneSize textSize p := by
  constructor
  · rintro ⟨hreads, hphone, htext⟩
    obtain ⟨hnew, hold⟩ := List.forall_mem_cons.mp htext
    exact ⟨hnew, hreads, hphone, hold⟩
  · rintro ⟨hnew, hreads, hphone, hold⟩
    exact ⟨hreads, hphone, List.forall_mem_cons.mpr ⟨hnew, hold⟩⟩

lemma harmless_unpack {r : UnpackLoop} :
    Harmless bufferLength phoneSize textSize (p.unpack start r) ↔
      ((∀ a ∈ r.reads, start + a < bufferLength) ∧ ∀ a ∈ r.writes, a < textSize) ∧
        Harmless bufferLength phoneSize textSize p := by
  constructor
  · rintro ⟨hreads, hphone, htext⟩
    obtain ⟨hnew, hold⟩ := List.forall_mem_append.mp hreads
    obtain ⟨htextNew, htextOld⟩ := List.forall_mem_append.mp htext
    refine ⟨⟨fun a ha => hnew _ (List.mem_map_of_mem ha), fun a ha => ?_⟩, hold, hphone, htextOld⟩
    exact Int.ofNat_lt.mp (htextNew _ (List.mem_map_of_mem ha)).2
  · rintro ⟨⟨hnew, htextNew⟩, hold, hphone, htextOld⟩
    refine ⟨List.forall_mem_append.mpr ⟨List.forall_mem_map.mpr hnew, hold⟩, hphone,
      List.forall_mem_append.mpr ⟨List.forall_mem_map.mpr fun a ha => ?_, htextOld⟩⟩
    exact ⟨Int.natCast_nonneg a, Int.ofNat_lt.mpr (htextNew a ha)⟩

/-- The digits of a number, one after the other. -/
lemma harmless_digits :
    Harmless bufferLength phoneSize textSize
        ((List.range n).foldl (decodePhoneDigit buffer start) p) ↔
      (∀ i < n, start + i / 2 < bufferLength ∧ i < phoneSize) ∧
        Harmless bufferLength phoneSize textSize p := by
  induction n with
  | zero => simp
  | succ n ih =>
      rw [List.range_succ, List.foldl_append, List.foldl_cons, List.foldl_nil, decodePhoneDigit,
        harmless_putPhone, harmless_read, ih, Nat.forall_lt_succ_right]
      simp only [List.forall_mem_singleton]
      tauto

lemma harmless_decodePhoneNumber :
    Harmless bufferLength phoneSize textSize (decodePhoneNumber buffer start n p) ↔
      (∀ i < n, start + i / 2 < bufferLength) ∧ n < phoneSize ∧
        Harmless bufferLength phoneSize textSize p := by
  rw [decodePhoneNumber, harmless_putPhone, harmless_digits]
  constructor
  · rintro ⟨hn, hdigits, hp⟩
    exact ⟨fun i hi => (hdigits i hi).1, hn, hp⟩
  · rintro ⟨hdigits, hn, hp⟩
    exact ⟨hn, fun i hi => ⟨hdigits i hi, Nat.lt_trans hi hn⟩, hp⟩

lemma harmless_decodeSmsTime {mktime : BrokenTime → ℤ} :
    Harmless bufferLength phoneSize textSize (decodeSmsTime mktime buffer start p) ↔
      start + 9 ≤ bufferLength ∧ Harmless bufferLength phoneSize textSize p := by
  have hseven : (∀ a ∈ (List.range 7).map (start + 2 + ·), a < bufferLength) ↔
      start + 9 ≤ bufferLength := by
    rw [List.forall_mem_map]
    constructor
    · intro h
      have hlast := h 6 (by decide)
      omega
    · intro h k hk
      have hk7 := List.mem_range.mp hk
      omega
  rw [← hseven, ← harmless_read]
  exact ⟨fun ⟨hreads, hphone, htext⟩ => ⟨hreads, hphone, htext⟩,
    fun ⟨hreads, hphone, htext⟩ => ⟨hreads, hphone, htext⟩⟩

end Steps

/-! ## The text -/

section Text

variable {buffer : ℕ → UInt8} {bufferLength phoneSize textSize smsStart b n : ℕ} {p : PduDecode}

/-- What the unpacking of octets touches. -/
lemma decodePduMessage_touches (buffer text : ℕ → UInt8) (hb : 0 < b) (hn : n ≤ textSize) :
    let r := decodePduMessage buffer b text n
    ((∀ a ∈ r.reads, a < b) ∧ r.writes.length = r.outputTextLength ∧ 0 < r.outputTextLength) ∧
      ((∀ a ∈ r.writes, a < textSize) ↔ (n ≤ 1 → b + (b - 1) / 7 ≤ textSize)) := by
  rcases decodePduMessage_spec buffer b text n hb with
    ⟨hholds, hfull, hless, hle⟩ | ⟨s, hunpacked, rfl, hless, heq⟩
  · dsimp only
    refine ⟨⟨hholds.reads, by rw [hholds.writes_eq]; simp, by omega⟩, ?_⟩
    refine iff_of_true (fun a ha => ?_) (fun hone => absurd hless (Nat.not_lt.mpr hone))
    have hlt := (hholds.writes a).mp ha
    omega
  · have hlength := hunpacked.length_eq
    have hone := hunpacked.one_le
    have hwrites : s.writes.length = s.outputTextLength := by
      rw [hunpacked.holds.writes_eq]
      simp
    dsimp only at heq ⊢
    rw [heq]
    by_cases hmore : 1 < n
    · rw [if_pos hmore]
      have hlast := hless.mpr hmore
      refine ⟨⟨?_, congrArg (· + 1) hwrites, Nat.succ_pos _⟩, ?_⟩
      · exact List.forall_mem_cons.mpr ⟨by omega, hunpacked.holds.reads⟩
      · have hbelow : s.outputTextLength < textSize := Nat.lt_of_lt_of_le hlast hn
        refine iff_of_true (List.forall_mem_cons.mpr ⟨hbelow, fun a ha => ?_⟩) (by omega)
        have hlt := (hunpacked.holds.writes a).mp ha
        omega
    · rw [if_neg hmore]
      refine ⟨⟨hunpacked.holds.reads, hwrites, by omega⟩, ?_⟩
      constructor
      · intro hall _
        have hlast := hall (s.outputTextLength - 1) ((hunpacked.holds.writes _).mpr (by omega))
        omega
      · intro hfits a ha
        have hlt := (hunpacked.holds.writes a).mp ha
        have hroom := hfits (by omega)
        omega

/-- The terminating character has a place in a buffer that has one. -/
lemma terminator_within (hn : n ≤ textSize) :
    (0 ≤ (if n < textSize then (n : ℤ) else textSize - 1) ∧
      (if n < textSize then (n : ℤ) else textSize - 1) < textSize) ↔ 0 < textSize := by
  split_ifs <;> omega

/-- What is done behind the unpacking is harmless if the unpacking is and there is a place for the
terminating character. -/
lemma finishText_iff {r : UnpackLoop} (hn : n ≤ textSize) (hnone : p.textWrites = [])
    (hlength : r.writes.length = r.outputTextLength) :
    EndsHarmlessly bufferLength phoneSize textSize
        (if r.outputTextLength ≠ n then (-1, p.unpack smsStart r)
          else (n, (p.unpack smsStart r).putText (if n < textSize then n else textSize - 1) 0)) ↔
      Harmless bufferLength phoneSize textSize (p.unpack smsStart r) ∧
        (r.outputTextLength = n → 0 < textSize) := by
  by_cases hcomplete : r.outputTextLength = n
  · have hcount : (n : ℤ) + 1 = ((p.unpack smsStart r).putText
        (if n < textSize then n else textSize - 1) 0).textWrites.length := by
      simp [hnone, hlength, hcomplete]
    rw [if_neg (not_not_intro hcomplete), EndsHarmlessly, harmless_putText, terminator_within hn]
    constructor
    · rintro ⟨⟨hroom, hq⟩, -⟩
      exact ⟨hq, fun _ => hroom⟩
    · rintro ⟨hq, hroom⟩
      exact ⟨⟨hroom hcomplete, hq⟩, Or.inr hcount⟩
  · rw [if_pos hcomplete, endsHarmlessly_fail]
    constructor
    · exact fun hq => ⟨hq, fun h => absurd h hcomplete⟩
    · exact And.left

/-- **The text.** -/
lemma decodeSmsText_harmless_iff (hstart : smsStart < bufferLength)
    (hp : Harmless bufferLength phoneSize textSize p) (hnone : p.textWrites = []) :
    EndsHarmlessly bufferLength phoneSize textSize
        (decodeSmsText buffer bufferLength textSize smsStart p) ↔
      ((buffer smsStart).toNat ≤ textSize →
        TextMeasured (bufferLength - (smsStart + 1)) (buffer smsStart).toNat textSize) := by
  have hread : Harmless bufferLength phoneSize textSize (p.read [smsStart]) :=
    harmless_read.mpr ⟨List.forall_mem_singleton.mpr hstart, hp⟩
  unfold decodeSmsText TextMeasured
  dsimp only
  by_cases hroom : textSize < (buffer smsStart).toNat
  · rw [if_pos hroom, endsHarmlessly_fail]
    exact iff_of_true hread (fun h => absurd hroom (Nat.not_lt.mpr h))
  rw [if_neg hroom]
  have hn : (buffer smsStart).toNat ≤ textSize := Nat.not_lt.mp hroom
  generalize (buffer smsStart).toNat = n at hn ⊢
  simp only [hn, true_imp_iff]
  generalize (fun i : ℕ => (p.read [smsStart]).outputSmsText i) = text
  rcases Nat.eq_zero_or_pos (bufferLength - (smsStart + 1)) with hzero | hpos
  · rw [hzero, decodePduMessage_empty, if_pos rfl]
    rcases Nat.eq_zero_or_pos n with rfl | hsome
    · rw [if_neg (Nat.lt_irrefl 0)]
      refine (finishText_iff (p := p.read [smsStart]) hn hnone rfl).trans ?_
      rw [harmless_unpack]
      simp [hread]
    · rw [if_pos hsome]
      refine (finishText_iff (p := p.read [smsStart]) hn hnone rfl).trans ?_
      rw [harmless_unpack]
      refine iff_of_false (fun h => ?_) (fun h => Nat.ne_of_gt hsome h.1)
      have hpast := h.1.1.1 0 (List.mem_singleton_self 0)
      omega
  · rw [if_neg (Nat.ne_of_gt hpos)]
    obtain ⟨⟨hreads, hlength, hsome⟩, hwrites⟩ :=
      decodePduMessage_touches (fun i => buffer (smsStart + 1 + i)) text hpos hn
    refine (finishText_iff (p := p.read [smsStart]) hn hnone hlength).trans ?_
    rw [harmless_unpack, hwrites]
    constructor
    · exact fun h => h.1.1.2
    · intro hfits
      refine ⟨⟨⟨fun a ha => ?_, hfits⟩, hread⟩, fun hcomplete => by omega⟩
      have hlt := hreads a ha
      omega

end Text

/-! ## The message -/

section Message

variable {mktime : BrokenTime → ℤ} {buffer : ℕ → UInt8} {bufferLength phoneSize textSize : ℕ}
  {p : PduDecode}

lemma decodePhoneNumber_textWrites (start n : ℕ) :
    (decodePhoneNumber buffer start n p).textWrites = p.textWrites := by
  rw [decodePhoneNumber, PduDecode.putPhone_textWrites]
  induction n with
  | zero => rfl
  | succ n ih =>
      rw [List.range_succ, List.foldl_append, List.foldl_cons, List.foldl_nil]
      exact ih

/-- What has been touched when the time stamp is decoded. -/
lemma harmless_sender (mktime : BrokenTime → ℤ) (buffer : ℕ → UInt8)
    (bufferLength phoneSize textSize : ℕ) (p : PduDecode) (start n : ℕ) :
    Harmless bufferLength phoneSize textSize
        (decodeSmsTime mktime buffer (start + 3 + (n + 1) / 2)
          ((decodePhoneNumber buffer (start + 3) n (p.read [start + 1])).read [start + 1])) ↔
      start + 3 + (n + 1) / 2 + 9 ≤ bufferLength ∧ n < phoneSize ∧
        Harmless bufferLength phoneSize textSize p := by
  rw [harmless_decodeSmsTime, harmless_read, harmless_decodePhoneNumber, harmless_read,
    List.forall_mem_singleton]
  constructor
  · rintro ⟨hend, -, -, hn, -, hp⟩
    exact ⟨hend, hn, hp⟩
  · rintro ⟨hend, hn, hp⟩
    exact ⟨hend, by omega, fun i hi => by omega, hn, by omega, hp⟩

/-- **A message to be delivered.** -/
lemma decodeDeliver_harmless_iff {start : ℕ} (hp : Harmless bufferLength phoneSize textSize p)
    (hnone : p.textWrites = []) :
    EndsHarmlessly bufferLength phoneSize textSize
        (decodeDeliver mktime buffer bufferLength phoneSize textSize start p) ↔
      DeliverMeasured buffer bufferLength phoneSize textSize start := by
  unfold decodeDeliver DeliverMeasured
  dsimp only
  generalize (buffer (start + 1)).toNat = n
  by_cases hphone : n < phoneSize
  · rw [if_neg (Nat.not_lt.mpr hphone)]
    have hend : start + 3 + (n + 1) / 2 + 2 + 7 = start + 3 + (n + 1) / 2 + 9 := rfl
    have hsender :=
      harmless_sender mktime buffer bufferLength phoneSize textSize p start n
    have htext : (decodeSmsTime mktime buffer (start + 3 + (n + 1) / 2)
        ((decodePhoneNumber buffer (start + 3) n (p.read [start + 1])).read
          [start + 1])).textWrites = [] := (decodePhoneNumber_textWrites _ _).trans hnone
    generalize decodeSmsTime mktime buffer (start + 3 + (n + 1) / 2) _ = q at hsender htext ⊢
    rw [hend]
    generalize hs : start + 3 + (n + 1) / 2 + 9 = smsStart at hsender ⊢
    by_cases hmore : smsStart < bufferLength
    · rw [if_neg (by omega), decodeSmsText_harmless_iff hmore
        (hsender.mpr ⟨Nat.le_of_lt hmore, hphone, hp⟩) htext]
      constructor
      · exact fun h => ⟨by omega, fun _ => ⟨Nat.le_of_lt hmore, fun _ => h⟩⟩
      · exact fun h => (h.2 hphone).2 hmore
    · rw [if_pos (by omega), endsHarmlessly_fail, hsender]
      constructor
      · rintro ⟨hle, -⟩
        exact ⟨by omega, fun _ => ⟨hle, fun h => absurd h hmore⟩⟩
      · rintro ⟨-, h⟩
        exact ⟨(h hphone).1, hphone, hp⟩
  · rw [if_pos (by omega), endsHarmlessly_fail, harmless_read, List.forall_mem_singleton]
    constructor
    · rintro ⟨hlt, -⟩
      exact ⟨hlt, fun h => absurd h hphone⟩
    · rintro ⟨hlt, -⟩
      exact ⟨hlt, hp⟩

end Message

/-- **A message is harmless exactly if it is as long as what is read unchecked**: the octet that
counts the service centre's address, the one behind the message's type, the time stamp and, if one
character or none is announced, the room for all that follows. -/
theorem pduDecode_harmless_iff (mktime : BrokenTime → ℤ) (buffer : ℕ → UInt8)
    (bufferLength phoneSize textSize : ℕ) (phone : ℕ → UInt8) (text : ℤ → UInt8)
    (time : Option ℤ) :
    DecodesHarmlessly mktime buffer bufferLength phoneSize textSize (.start phone text time) ↔
      Measured buffer bufferLength phoneSize textSize := by
  unfold DecodesHarmlessly pduDecode Measured
  dsimp only
  have hnew : Harmless bufferLength phoneSize textSize (.start phone text time) :=
    ⟨List.forall_mem_nil _, List.forall_mem_nil _, List.forall_mem_nil _⟩
  rcases Nat.eq_zero_or_pos bufferLength with rfl | hpos
  · rw [if_pos (Nat.le_refl 0), endsHarmlessly_fail]
    refine iff_of_false (fun h => ?_) (fun h => Nat.lt_irrefl 0 h.1)
    exact absurd (h.reads 0 List.mem_cons_self) (Nat.lt_irrefl 0)
  · rw [if_neg (Nat.not_le.mpr hpos)]
    have hfirst : Harmless bufferLength phoneSize textSize
        ((PduDecode.start phone text time).read [0]) :=
      harmless_read.mpr ⟨List.forall_mem_singleton.mpr hpos, hnew⟩
    generalize 1 + (buffer 0).toNat = start
    by_cases hstart : start < bufferLength
    · rw [if_neg (Nat.not_lt.mpr hstart)]
      have hsecond := harmless_read.mpr ⟨List.forall_mem_singleton.mpr hstart, hfirst⟩
      by_cases htype : buffer start &&& 0x04 = 0x04
      · rw [if_neg (not_not_intro htype), decodeDeliver_harmless_iff hsecond rfl]
        simp only [hpos, hstart, htype, true_and, true_imp_iff]
      · rw [if_pos htype, endsHarmlessly_fail]
        exact iff_of_true hsecond ⟨hpos, fun _ h => absurd h htype⟩
    · rw [if_pos (by omega), endsHarmlessly_fail]
      exact iff_of_true hfirst ⟨hpos, fun h => absurd h hstart⟩

/-- An empty buffer is read. -/
theorem pduDecode_empty_reads :
    ¬ DecodesHarmlessly (fun _ => 0) (fun _ => 0) 0 32 161
      (.start (fun _ => 0) (fun _ => 0) none) := by
  rw [pduDecode_harmless_iff]
  exact fun h => Nat.lt_irrefl 0 h.1

end Ampm

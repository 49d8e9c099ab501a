import AmpmGsm.Gsm.PduDeliver
import AmpmGsm.Gsm.PduLayout
import AmpmGsm.Time.Moments

/-!
# SMS-DELIVER messages are read back

A message as the network lays it out: the service centre's address, the sender's digits, the time
stamp in swapped decimal half-octets, and the text in septets.  `pdu_decode` reads it back, with the
`mktime` that the firmware brings along.

* `SmsDeliver`, `SmsDeliver.bytes` — the messages, and their layout.
* `HoldsAt` — octets in a buffer.
* `decodePhoneNumber_spec`, `swapDecimalNibble_swapped`, `bitAt_packedText` — the fields.
* **`pduDecode_delivers`** — a message in a buffer comes back.
-/

namespace Ampm

open BitStream

/-! ## The layout -/

/-- Two digits, the first one in the low half-octet. -/
def swapped (n : ℕ) : UInt8 := (n / 10 + 16 * (n % 10)).toUInt8

/-- A number in half-octets, low halves first, with a filler behind an odd number of digits. -/
def semiOctets : List UInt8 → List UInt8
  | [] => []
  | [d] => [(0xF0 : UInt8) ||| (d - 48)]
  | d :: e :: number => (((d - 48) : UInt8) ||| (((e - 48) : UInt8) <<< 4)) :: semiOctets number

/-- A text in septets, lowest bits first. -/
def packedText (smsText : List UInt8) : List UInt8 :=
  (List.range (packedOctets smsText.length)).map fun i =>
    (Nat.ofDigits (2 ^ 7) (smsText.map UInt8.toNat) >>> (8 * i)).toUInt8

/-- A message to be delivered, with a text of seven bits, sent in this century.  No more messages wait
(`pdu_decode` refuses the others), and the zone is not west of Greenwich, whose sign it does not
know. -/
structure SmsDeliver where
  serviceCenter : List UInt8
  firstOctet : UInt8
  sender : List UInt8
  typeOfAddress : UInt8
  protocol : UInt8
  time : Moment
  zone : ℕ
  smsText : List UInt8
  serviceCenter_lt : serviceCenter.length < 256
  oneMessage : firstOctet &&& 0x04 = 0x04
  digits : IsDigits sender
  sender_lt : sender.length < 256
  century : 30 ≤ time.year ∧ time.year < 130
  east : zone < 80
  seven : ∀ c ∈ smsText, c < 128
  smsText_lt : smsText.length < 256

namespace SmsDeliver

/-- The time stamp; the zone counts quarters of an hour. -/
def stamp (m : SmsDeliver) : List UInt8 :=
  [m.time.year - 30, m.time.month + 1, m.time.day + 1, m.time.hour, m.time.min, m.time.sec,
    m.zone].map swapped

/-- The octets. -/
def bytes (m : SmsDeliver) : List UInt8 :=
  m.serviceCenter.length.toUInt8 :: (m.serviceCenter ++
    (m.firstOctet :: m.sender.length.toUInt8 :: m.typeOfAddress :: (semiOctets m.sender ++
      (m.protocol :: 0x00 :: (m.stamp ++ (m.smsText.length.toUInt8 :: packedText m.smsText))))))

end SmsDeliver

/-! ## Octets in a buffer -/

/-- The octets are in the buffer from `start` on. -/
def HoldsAt (buffer : ℕ → UInt8) (start : ℕ) (octets : List UInt8) : Prop :=
  ∀ i (h : i < octets.length), buffer (start + i) = octets[i]

section HoldsAt

variable {buffer : ℕ → UInt8} {start : ℕ}

lemma holdsAt_cons {c : UInt8} {octets : List UInt8} :
    HoldsAt buffer start (c :: octets) ↔ buffer start = c ∧ HoldsAt buffer (start + 1) octets := by
  constructor
  · refine fun h => ⟨h 0 (Nat.succ_pos _), fun i hi => ?_⟩
    rw [Nat.add_assoc, Nat.add_comm 1]
    exact h (i + 1) (Nat.succ_lt_succ hi)
  · rintro ⟨hfirst, hrest⟩ i hi
    cases i with
    | zero => exact hfirst
    | succ i =>
        have hi' := hrest i (Nat.lt_of_succ_lt_succ hi)
        rwa [Nat.add_assoc, Nat.add_comm 1] at hi'

lemma holdsAt_append {octets octets' : List UInt8} :
    HoldsAt buffer start (octets ++ octets') ↔
      HoldsAt buffer start octets ∧ HoldsAt buffer (start + octets.length) octets' := by
  induction octets generalizing start with
  | nil => exact ⟨fun h => ⟨fun i hi => absurd hi (Nat.not_lt_zero i), h⟩, fun h => h.2⟩
  | cons c octets ih =>
      rw [List.cons_append, holdsAt_cons, holdsAt_cons, ih, and_assoc, List.length_cons,
        Nat.add_assoc, Nat.add_comm 1]

end HoldsAt

/-! ## Numbers -/

section Numbers

variable {buffer : ℕ → UInt8} {start : ℕ}

lemma semiOctets_length : ∀ number : List UInt8, (semiOctets number).length = numberOctets number
  | [] => rfl
  | [_] => by simp [semiOctets, numberOctets]
  | _ :: _ :: number => by
      rw [semiOctets, List.length_cons, semiOctets_length number]
      simp only [numberOctets, List.length_cons]
      omega

lemma digit_low {d : UInt8} (hd : 48 ≤ d ∧ d ≤ 57) : (d - 48) &&& 0x0F = d - 48 := by
  have hall : ∀ c : Fin 256, 48 ≤ c ∧ c ≤ 57 →
      (UInt8.ofNat c - 48) &&& (0x0F : UInt8) = UInt8.ofNat c - 48 := by decide +kernel
  have hc := hall ⟨d.toNat, d.toNat_lt⟩ ⟨hd.1, hd.2⟩
  simpa using hc

lemma semiOctet_add_two (buffer : ℕ → UInt8) (start k : ℕ) :
    semiOctet buffer start (k + 2) = semiOctet buffer (start + 1) k := by
  have hdiv : start + (k + 2) / 2 = start + 1 + k / 2 := by omega
  rw [semiOctet, semiOctet, hdiv, Nat.add_mod_right]

/-- Half-octets hold a number. -/
lemma holdsNumber_semiOctets {number : List UInt8} (hdigits : IsDigits number)
    (h : HoldsAt buffer start (semiOctets number)) : HoldsNumber buffer start number := by
  induction number using semiOctets.induct generalizing start with
  | case1 => exact ⟨fun k hk => absurd hk (Nat.not_lt_zero k), fun hodd => absurd hodd (by decide)⟩
  | case2 d =>
      obtain ⟨hfirst, -⟩ := holdsAt_cons.mp h
      refine ⟨fun k hk => ?_, fun _ => ?_⟩
      · obtain rfl : k = 0 := Nat.lt_one_iff.mp hk
        rw [semiOctet, if_pos rfl, Nat.zero_div, Nat.add_zero, hfirst, low_of_first]
        rfl
      · show semiOctet buffer start 1 = 0x0F
        rw [semiOctet, if_neg (by decide), show start + 1 / 2 = start from rfl, hfirst, high_of_first]
  | case3 d e number ih =>
      obtain ⟨hfirst, hrest⟩ := holdsAt_cons.mp h
      have hd := digit_low (hdigits d List.mem_cons_self)
      obtain ⟨hrestDigits, hfiller⟩ := ih (fun c hc =>
        hdigits c (List.mem_cons_of_mem d (List.mem_cons_of_mem e hc))) hrest
      have hlow := low_of_second (d - 48) (e - 48)
      have hhigh := high_of_second (d - 48) (e - 48)
      rw [hd] at hlow hhigh
      refine ⟨fun k hk => ?_, fun hodd => ?_⟩
      · obtain _ | _ | k := k
        · rw [semiOctet, if_pos rfl, Nat.zero_div, Nat.add_zero, hfirst, hlow]
          exact hd.symm
        · rw [semiOctet, if_neg (by decide), show start + (0 + 1) / 2 = start from rfl, hfirst, hhigh]
          rfl
        · rw [semiOctet_add_two]
          exact hrestDigits k (by simpa using hk)
      · rw [List.length_cons, List.length_cons, semiOctet_add_two]
        exact hfiller (by simp only [List.length_cons] at hodd; omega)

lemma high_masked (x : UInt8) : (x &&& 0xF0) >>> 4 = x >>> 4 := by
  have hall : ∀ c : Fin 256, (UInt8.ofNat c &&& 0xF0) >>> 4 = UInt8.ofNat c >>> 4 := by decide +kernel
  have hx := hall ⟨x.toNat, x.toNat_lt⟩
  simpa using hx

/-- The digits of a number, one after the other. -/
lemma decodeDigits_spec (buffer : ℕ → UInt8) (start n : ℕ) (p : PduDecode) :
    let q := (List.range n).foldl (decodePhoneDigit buffer start) p
    (∀ k, q.outputSenderPhoneNumber k =
        if k < n then semiOctet buffer start k + 48 else p.outputSenderPhoneNumber k) ∧
      q.outputSmsText = p.outputSmsText ∧ q.outputSmsTime = p.outputSmsTime := by
  induction n with
  | zero => exact ⟨fun _ => rfl, rfl, rfl⟩
  | succ n ih =>
      obtain ⟨hdigits, htext, htime⟩ := ih
      simp only [List.range_succ, List.foldl_append, List.foldl_cons, List.foldl_nil]
      refine ⟨fun k => ?_, htext, htime⟩
      rw [decodePhoneDigit, PduDecode.putPhone_outputSenderPhoneNumber]
      by_cases hlast : k = n
      · rw [hlast, Function.update_self, if_pos (Nat.lt_succ_self n), semiOctet, high_masked]
        split_ifs <;> rfl
      · rw [Function.update_of_ne hlast]
        refine (hdigits k).trans (if_congr ?_ rfl rfl)
        omega

/-- `DecodePhoneNumber` reads a number back. -/
lemma decodePhoneNumber_spec {number : List UInt8} (hdigits : IsDigits number)
    (h : HoldsNumber buffer start number) (p : PduDecode) :
    let q := decodePhoneNumber buffer start number.length p
    (∀ k (hk : k < number.length), q.outputSenderPhoneNumber k = number[k]) ∧
      q.outputSenderPhoneNumber number.length = 0 ∧ q.outputSmsText = p.outputSmsText := by
  obtain ⟨hphone, htext, -⟩ := decodeDigits_spec buffer start number.length p
  refine ⟨fun k hk => ?_, Function.update_self _ _ _, htext⟩
  have hget : number.getD k 0 = number[k] := by
    rw [List.getD_eq_getElem?_getD, List.getElem?_eq_getElem hk, Option.getD_some]
  rw [decodePhoneNumber, PduDecode.putPhone_outputSenderPhoneNumber,
    Function.update_of_ne (Nat.ne_of_lt hk), hphone, if_pos hk, h.digits k hk, hget,
    digit_of_low (hdigits _ (List.getElem_mem hk))]

end Numbers

/-! ## The time stamp -/

/-- Two digits are read back. -/
lemma swapDecimalNibble_swapped : ∀ n < 100, (swapDecimalNibble (swapped n)).toNat = n := by
  decide +kernel

/-- `mktime` on the variable of `pdu_decode`, whose other fields are not set. -/
def smsMktime (wday yday isdst : ℤ) (t : BrokenTime) : ℤ :=
  (mktime ⟨t.tmSec, t.tmMin, t.tmHour, t.tmMday, t.tmMon, t.tmYear, wday, yday, isdst⟩).1

lemma smsMktime_moment (wday yday isdst : ℤ) {c : Moment} (hyear : c.year < 130)
    (hseconds : c.seconds < 2 ^ 31) :
    smsMktime wday yday isdst ⟨c.year + 70, c.month, c.day + 1, c.hour, c.min, c.sec⟩ = c.seconds := by
  have hmoment := mktime_moment c hyear wday
  have hyears : ((1970 + c.year : ℕ) : ℤ) - 1900 = c.year + 70 := by omega
  rw [if_pos hseconds, hyears] at hmoment
  rw [← hmoment]
  simp only [smsMktime, mktime, dstbias, ite_self, apply_ite Prod.fst]

/-! ## The text -/

section Text

variable {buffer : ℕ → UInt8} {start : ℕ} {smsText : List UInt8}

lemma and_seven {c : UInt8} (hc : c < 128) : c &&& 0x7F = c := by
  have hall : ∀ d : Fin 256, d < 128 → UInt8.ofNat d &&& 0x7F = UInt8.ofNat d := by decide +kernel
  have hd := hall ⟨c.toNat, c.toNat_lt⟩ (UInt8.lt_iff_toNat_lt.mp hc)
  simpa using hd

/-- A packed text, as a stream of bits. -/
lemma bitAt_packedText (hseven : ∀ c ∈ smsText, c < 128)
    (h : HoldsAt buffer start (packedText smsText)) :
    ∀ k < smsText.length, ∀ j < 7,
      bitAt 8 (octets fun i => buffer (start + i)) (7 * k + j) =
        (smsText.getD k 0).toNat.testBit j := by
  intro k hk j hj
  have hcells : ∀ c ∈ smsText.map UInt8.toNat, c < 2 ^ 7 := by
    intro c hc
    obtain ⟨d, hd, rfl⟩ := List.mem_map.mp hc
    exact UInt8.lt_iff_toNat_lt.mp (hseven d hd)
  have hoctet : (7 * k + j) / 8 < (packedText smsText).length := by
    simp only [packedText, List.length_map, List.length_range, packedOctets]
    omega
  have hbits := testBit_ofDigits hcells k hj
  have hdigit : (smsText.map UInt8.toNat).getD k 0 = (smsText.getD k 0).toNat := by
    rw [List.getD_eq_getElem?_getD, List.getD_eq_getElem?_getD, List.getElem?_map]
    cases smsText[k]? <;> rfl
  rw [bitAt, octets, h _ hoctet, ← hdigit, ← hbits]
  simp only [packedText, List.getElem_map, List.getElem_range]
  rw [show ∀ n : ℕ, n.toUInt8.toNat = n % 2 ^ 8 from fun n => rfl, Nat.testBit_mod_two_pow,
    Nat.testBit_shiftRight, Nat.div_add_mod]
  simp [Nat.mod_lt]

end Text

/-! ## The message -/

/-- What is asked of `pdu_decode`: the length of the text is returned, the sender and the text are
stored, each with a terminator, and the time stamp in seconds.  Where the text fills its buffer, the
terminator takes the place of the last character. -/
structure Delivered (m : SmsDeliver) (textSize : ℕ) (r : ℤ × PduDecode) : Prop where
  returns : r.1 = m.smsText.length
  sender : ∀ k (h : k < m.sender.length), r.2.outputSenderPhoneNumber k = m.sender[k]
  senderEnd : r.2.outputSenderPhoneNumber m.sender.length = 0
  text : ∀ k (h : k < m.smsText.length), k + 1 < textSize → r.2.outputSmsText k = m.smsText[k]
  textEnd : r.2.outputSmsText (min m.smsText.length (textSize - 1) : ℕ) = 0
  time : r.2.outputSmsTime = some ((m.time.seconds : ℤ) - m.zone * 15 * 60)

section Message

variable {buffer : ℕ → UInt8} {m : SmsDeliver} {phoneSize textSize : ℕ}

/-- The fields of the message, each at its place. -/
structure Laid (m : SmsDeliver) (buffer : ℕ → UInt8) (start pid : ℕ) : Prop where
  start_eq : 1 + (buffer 0).toNat = start
  type : buffer start = m.firstOctet
  digits : (buffer (start + 1)).toNat = m.sender.length
  sender : HoldsNumber buffer (start + 3) m.sender
  pid_eq : start + 3 + (m.sender.length + 1) / 2 = pid
  stamp : ∀ k (h : k < m.stamp.length), buffer (pid + 2 + k) = m.stamp[k]
  textLength : (buffer (pid + 9)).toNat = m.smsText.length
  text : HoldsAt buffer (pid + 10) (packedText m.smsText)
  length_eq : m.bytes.length = pid + 10 + packedOctets m.smsText.length

lemma laid_of_holdsAt (h : HoldsAt buffer 0 m.bytes) :
    Laid m buffer (1 + m.serviceCenter.length)
      (1 + m.serviceCenter.length + 3 + numberOctets m.sender) := by
  have hlength : m.bytes.length = 1 + m.serviceCenter.length + 3 + numberOctets m.sender + 10 +
      packedOctets m.smsText.length := by
    simp only [SmsDeliver.bytes, SmsDeliver.stamp, packedText, List.length_cons, List.length_append,
      List.length_map, List.length_range, List.length_nil, semiOctets_length]
    omega
  rw [SmsDeliver.bytes, holdsAt_cons, holdsAt_append, holdsAt_cons, holdsAt_cons, holdsAt_cons,
    holdsAt_append, holdsAt_cons, holdsAt_cons, holdsAt_append, holdsAt_cons] at h
  obtain ⟨hcenter, -, htype, hdigits, -, hsender, -, -, hstamp, htextLength, htext⟩ := h
  rw [Nat.zero_add] at *
  have hsmall : ∀ n < 256, (n.toUInt8).toNat = n := fun n hn => Nat.mod_eq_of_lt hn
  refine ⟨by rw [hcenter, hsmall _ m.serviceCenter_lt], htype, ?_,
    holdsNumber_semiOctets m.digits hsender, rfl, ?_, ?_, ?_, hlength⟩
  · rw [hdigits, hsmall _ m.sender_lt]
  · rw [semiOctets_length] at hstamp
    exact hstamp
  · rw [semiOctets_length] at htextLength
    exact (congrArg UInt8.toNat htextLength).trans (hsmall _ m.smsText_lt)
  · rw [semiOctets_length] at htext
    exact htext

/-- The time stamp. -/
lemma Laid.time {start pid : ℕ} (h : Laid m buffer start pid) (hseconds : m.time.seconds < 2 ^ 31)
    (wday yday isdst : ℤ) (p : PduDecode) :
    (decodeSmsTime (smsMktime wday yday isdst) buffer pid p).outputSmsTime =
      some ((m.time.seconds : ℤ) - m.zone * 15 * 60) := by
  have hcentury := m.century
  have hmonth := m.time.month_lt
  have hday : m.time.day < 31 := by
    have hall : ∀ leap : Bool, ∀ mon < 12, ytab leap mon ≤ 31 := by decide
    exact Nat.lt_of_lt_of_le m.time.day_lt (hall _ _ hmonth)
  have hhour := m.time.hour_lt
  have hmin := m.time.min_lt
  have hsec := m.time.sec_lt
  have hzone := m.east
  have hstamp := h.stamp
  simp only [SmsDeliver.stamp] at hstamp
  have hfield (k n : ℕ) (hn : n < 100) (heq : buffer (pid + 2 + k) = swapped n) :
      (swapDecimalNibble (buffer (pid + (k + 2)))).toNat = n := by
    rw [Nat.add_comm k, ← Nat.add_assoc, heq]
    exact swapDecimalNibble_swapped n hn
  have hyear' := hfield 0 _ (by omega) (hstamp 0 (show 0 < 7 by decide))
  have hmonth' := hfield 1 _ (by omega) (hstamp 1 (show 1 < 7 by decide))
  have hday' := hfield 2 _ (by omega) (hstamp 2 (show 2 < 7 by decide))
  have hhour' := hfield 3 _ (by omega) (hstamp 3 (show 3 < 7 by decide))
  have hmin' := hfield 4 _ (by omega) (hstamp 4 (show 4 < 7 by decide))
  have hsec' := hfield 5 _ (by omega) (hstamp 5 (show 5 < 7 by decide))
  have hzone' := hfield 6 _ (by omega) (hstamp 6 (show 6 < 7 by decide))
  have hmktime := smsMktime_moment wday yday isdst hcentury.2 hseconds
  simp only [decodeSmsTime, hyear', hmonth', hday', hhour', hmin', hsec', hzone']
  have hyears : (100 : ℤ) + (m.time.year - 30 : ℕ) = m.time.year + 70 := by omega
  have hmonths : ((m.time.month + 1 : ℕ) : ℤ) - 1 = m.time.month := by omega
  rw [hyears, hmonths, ← hmktime]
  rfl

/-- **A message is read back.**  A message that the network delivers, in a buffer that may go on
behind it, is accepted; its text, its sender and its time come back, if the buffers have room. -/
theorem pduDecode_delivers (m : SmsDeliver) (hbuffer : HoldsAt buffer 0 m.bytes)
    (hphone : m.sender.length < phoneSize) (htext : m.smsText.length ≤ textSize)
    (hroom : 0 < textSize) (hseconds : m.time.seconds < 2 ^ 31) (wday yday isdst : ℤ)
    (p : PduDecode) :
    Delivered m textSize
      (pduDecode (smsMktime wday yday isdst) buffer m.bytes.length phoneSize textSize p) := by
  have h := laid_of_holdsAt hbuffer
  generalize 1 + m.serviceCenter.length = start at h
  generalize start + 3 + numberOctets m.sender = pid at h
  have hlength := h.length_eq
  have hpid := h.pid_eq
  -- the text
  have hpacked := bitAt_packedText m.seven h.text
  have hdecode : pduDecode (smsMktime wday yday isdst) buffer m.bytes.length phoneSize textSize p =
      decodeSmsText buffer m.bytes.length textSize (pid + 9)
        (decodeSmsTime (smsMktime wday yday isdst) buffer pid
          ((decodePhoneNumber buffer (start + 3) m.sender.length
            (((p.read [0]).read [start]).read [start + 1])).read [start + 1])) := by
    simp only [pduDecode, decodeDeliver, h.start_eq, h.digits, h.pid_eq]
    rw [if_neg (by omega), if_neg (by omega), if_neg (by rw [h.type, m.oneMessage]; exact fun hne => hne rfl),
      if_neg (by omega), if_neg (by omega)]
  obtain ⟨hsender, hsenderEnd, -⟩ := decodePhoneNumber_spec m.digits h.sender
    (((p.read [0]).read [start]).read [start + 1])
  have htime := h.time hseconds wday yday isdst
    ((decodePhoneNumber buffer (start + 3) m.sender.length
      (((p.read [0]).read [start]).read [start + 1])).read [start + 1])
  have hsame : (decodeSmsTime (smsMktime wday yday isdst) buffer pid
      ((decodePhoneNumber buffer (start + 3) m.sender.length
        (((p.read [0]).read [start]).read [start + 1])).read [start + 1])).outputSenderPhoneNumber =
      (decodePhoneNumber buffer (start + 3) m.sender.length
        (((p.read [0]).read [start]).read [start + 1])).outputSenderPhoneNumber := rfl
  rw [hdecode]
  rw [← hsame] at hsender hsenderEnd
  generalize decodeSmsTime (smsMktime wday yday isdst) buffer pid
    ((decodePhoneNumber buffer (start + 3) m.sender.length
      (((p.read [0]).read [start]).read [start + 1])).read [start + 1]) = q at *
  have hleft : m.bytes.length - (pid + 9 + 1) = packedOctets m.smsText.length := by omega
  obtain ⟨hreturn, hchars⟩ := decodePduMessage_inverts (fun i => buffer (pid + 9 + 1 + i))
    (fun i => q.outputSmsText i) m.smsText hpacked
  have hunpack : decodeSmsText buffer m.bytes.length textSize (pid + 9) q =
      ((m.smsText.length : ℤ), ((q.read [pid + 9]).unpack (pid + 9 + 1)
        (decodePduMessage (fun i => buffer (pid + 9 + 1 + i)) (packedOctets m.smsText.length)
          (fun i => q.outputSmsText i) m.smsText.length)).putText
            (if m.smsText.length < textSize then m.smsText.length else textSize - 1) 0) := by
    simp only [decodeSmsText, h.textLength, hleft]
    rw [if_neg (by omega)]
    exact if_neg fun hne => hne hreturn
  rw [hunpack]
  have hend : (if m.smsText.length < textSize then (m.smsText.length : ℤ) else textSize - 1) =
      (min m.smsText.length (textSize - 1) : ℕ) := by
    split_ifs <;> omega
  refine ⟨rfl, hsender, hsenderEnd, fun k hk hlt => ?_, ?_, htime⟩
  · have hne : ((k : ℕ) : ℤ) ≠ (min m.smsText.length (textSize - 1) : ℕ) := by omega
    have hget : m.smsText.getD k 0 = m.smsText[k] := by
      rw [List.getD_eq_getElem?_getD, List.getElem?_eq_getElem hk, Option.getD_some]
    have hchar := hchars k hk
    rw [septet, hget, and_seven (m.seven _ (List.getElem_mem hk))] at hchar
    rw [hend, PduDecode.putText_outputSmsText, Function.update_of_ne hne, PduDecode.unpack_outputSmsText,
      if_pos (Int.natCast_nonneg k)]
    exact hchar
  · rw [hend]
    exact Function.update_self _ _ _

end Message

/-- The ten characters of the source's own test, sent at noon on April 19, 2014, seven hours east of
Greenwich. -/
def helloDeliver : SmsDeliver where
  serviceCenter := [0x91, 0x48, 0x89]
  firstOctet := 0x04
  sender := [56, 52, 57, 56, 55]
  typeOfAddress := 0x91
  protocol := 0
  time := ⟨44, 3, 18, 12, 0, 0, by decide, by decide, by decide, by decide, by decide⟩
  zone := 28
  smsText := [104, 101, 108, 108, 111, 104, 101, 108, 108, 111]
  serviceCenter_lt := by decide
  oneMessage := by decide
  digits := by simp [IsDigits]
  sender_lt := by decide
  century := by decide
  east := by decide
  seven := by simp
  smsText_lt := by decide

/-- It is read back. -/
theorem pduDecode_delivers_hello :
    Delivered helloDeliver 161 (pduDecode (smsMktime 0 0 0) (fun i => helloDeliver.bytes.getD i 0)
      helloDeliver.bytes.length 16 161 (PduDecode.start (fun _ => 0) (fun _ => 0) none)) :=
  pduDecode_delivers helloDeliver (fun i hi => by
      rw [Nat.zero_add, List.getD_eq_getElem?_getD, List.getElem?_eq_getElem hi, Option.getD_some])
    (by decide) (by decide) (by decide) (by decide +kernel) 0 0 0 _

end Ampm

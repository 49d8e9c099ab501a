import AmpmGsm.Gsm.SmsTask
import AmpmGsm.Text.Utf8
import Mathlib.Algebra.Group.Nat.Defs
import Mathlib.Algebra.GroupWithZero.Nat

/-!
# Messages in UCS-2

`AmpmGsm::SendSms` of `ampm_gsm.cpp`: a UTF-8 string is converted in a block of twice its length,
the bytes of each unit change places, and the message is handed to `Ampm_Sms_SendMsg`, which takes a
length of 8 bits.

* `unilen`, `big2litelEndian`, `sendSms` — the code.
* `utf8Encode_chars` — the encoder of the firmware agrees with the one of the library.
* `SendsUcs2`, `sendSms_sendsUcs2_iff` — when the block is large enough and the message complete.
-/

namespace Ampm

/-! ## The code -/

/-- The loop of `unilen`. -/
def unilenFrom : List UInt16 → ℕ → ℕ
  | [], di => di
  | u :: uni, di => if u = 0 then di else if di + 1 ≥ 128 then 0 else unilenFrom uni (di + 1)

/-- `unilen`: no string of 128 units or more is counted. -/
def unilen (uni : List UInt16) : ℕ := unilenFrom uni 0

/-- `big2litel_endian`: the bytes of the first `len` units change places. -/
def big2litelEndian : List UInt8 → ℕ → List UInt8
  | b0 :: b1 :: da, len + 1 => b1 :: b0 :: big2litelEndian da len
  | da, _ => da

/-- A unit in memory. -/
def unitBytes (u : UInt16) : List UInt8 := [u.toUInt8, (u >>> 8).toUInt8]

/-- What `AmpmGsm::SendSms` returns, the state, the size of `smsBuf`, and how many bytes from its
beginning on were written. -/
structure SendSms where
  res : UInt8
  world : GsmWorld
  block : ℕ
  written : ℕ

/-- `AmpmGsm::SendSms`. -/
def sendSms (w : GsmWorld) (osOk : Bool) (status : Option ℕ) (callback : Bool)
    (phone : Option (List UInt8)) (sms : List UInt8) (type : SmsMode) : SendSms :=
  if type = .pdu16 then
    let r := utf8sToUcs2s sms
    let units := r.2.map Int16.toUInt16
    let smsBuf := big2litelEndian (units.flatMap unitBytes) (unilen units)
    let smsLen := r.1 * 2 % 2 ^ 16
    let s := smsSendMsg w osOk ⟨status, callback, phone, smsBuf, smsLen.toUInt8, .pdu16, 10, 3⟩
    ⟨s.1, s.2, 2 * sms.length, 2 * units.length⟩
  else
    let s := smsSendMsg w osOk ⟨status, callback, phone, sms, sms.length.toUInt8, .text, 10, 3⟩
    ⟨s.1, s.2, 0, 0⟩

/-! ## The characters -/

/-- The characters of the basic multilingual plane, without NUL and U+FFFF; none is a surrogate. -/
def BmpText (s : List Char) : Prop := ∀ c ∈ s, 0 < c.toNat ∧ c.toNat < 0xFFFF

/-- The bytes of a string. -/
def utf8Of (s : List Char) : List UInt8 := s.flatMap String.utf8EncodeChar

/-- The units of a string, each with its high byte first. -/
def ucs2BigEndian (s : List Char) : List UInt8 :=
  s.flatMap fun c => [(c.toNat / 256).toUInt8, (c.toNat % 256).toUInt8]

section Chars

variable {s : List Char} {c : Char}

lemma not_surrogate (c : Char) : ¬ (0xD800 ≤ c.toNat ∧ c.toNat ≤ 0xDFFF) := by
  have hvalid := c.valid
  rcases hvalid with h | ⟨h, -⟩
  · have : c.toNat < 0xD800 := h
    omega
  · have : 0xDFFF < c.toNat := h
    omega

/-- The encoder accepts the characters. -/
lemma ucs2ToUtf8_pos (hpos : 0 < c.toNat) (hlt : c.toNat < 0xFFFF) :
    0 < (ucs2ToUtf8 (c.toNat : ℤ)).1 := by
  have hsurrogate := not_surrogate c
  rw [ucs2ToUtf8]
  split_ifs with h1 h2 h3 h4 h5
  · exact Int.zero_lt_one
  · exact (show (0 : ℤ) < 2 by decide)
  · exact absurd (by omega) hsurrogate
  · exact (show (0 : ℤ) < 3 by decide)
  · exact (show (0 : ℤ) < 4 by decide)
  · omega

/-- The two encoders agree. -/
lemma utf8Bytes_char (hpos : 0 < c.toNat) (hlt : c.toNat < 0xFFFF) :
    utf8Bytes (c.toNat : ℤ) = String.utf8EncodeChar c := by
  have hval : c.val.toNat = c.toNat := rfl
  simp only [String.utf8EncodeChar, hval]
  rcases Nat.lt_or_ge c.toNat 0x80 with h1 | h1
  · rw [utf8Bytes_one h1, if_pos (Nat.le_of_lt_succ h1)]
    refine congrArg (fun b => [b]) (UInt8.toNat_inj.mp ?_)
    show (UInt8.ofNat ((c.toNat : ℤ) % 2 ^ 8).toNat).toNat = _
    rw [UInt8.toNat_ofNat', UInt8.toNat_ofNat']
    omega
  · have htail := toNat_tail c.toNat
    rw [if_neg (by omega)]
    rcases Nat.lt_or_ge c.toNat 0x800 with h2 | h2
    · have hlead := toNat_lead2 h2
      rw [utf8Bytes_two h1 h2, if_pos (Nat.le_of_lt_succ h2)]
      refine congrArg₂ List.cons (UInt8.toNat_inj.mp ?_)
        (congrArg (fun b => [b]) (UInt8.toNat_inj.mp ?_))
      · rw [hlead, UInt8.toNat_ofNat']
        omega
      · rw [htail, UInt8.toNat_ofNat']
        omega
    · have hlead := toNat_lead3 (Nat.lt_succ_of_lt hlt)
      have hmid := toNat_tail (c.toNat >>> 6)
      rw [Nat.shiftRight_eq_div_pow] at hmid
      rw [utf8Bytes_three h2 (Nat.lt_succ_of_lt hlt) (ucs2ToUtf8_pos hpos hlt), if_neg (by omega),
        if_pos (by omega), Nat.shiftRight_eq_div_pow c.toNat 6]
      refine congrArg₂ List.cons (UInt8.toNat_inj.mp ?_) (congrArg₂ List.cons
        (UInt8.toNat_inj.mp ?_) (congrArg (fun b => [b]) (UInt8.toNat_inj.mp ?_)))
      · rw [hlead, UInt8.toNat_ofNat']
        omega
      · rw [hmid, UInt8.toNat_ofNat']
        omega
      · rw [htail, UInt8.toNat_ofNat']
        omega

/-- The encoder of the firmware agrees with the one of the library. -/
lemma utf8Encode_chars (hs : BmpText s) :
    utf8Encode (s.map fun c => (c.toNat : ℤ)) = utf8Of s := by
  rw [utf8Encode, utf8Of, List.flatMap_map]
  exact List.flatMap_congr fun c hc => utf8Bytes_char (hs c hc).1 (hs c hc).2

/-- **The conversion** of a string. -/
lemma utf8sToUcs2s_chars (hs : BmpText s) :
    (utf8sToUcs2s (utf8Of s)).1 = s.length % 2 ^ 16 ∧
      (utf8sToUcs2s (utf8Of s)).2.map Int16.toUInt16 =
        s.map (fun c => UInt16.ofNat c.toNat) ++ [0] := by
  have hgood : ∀ u ∈ s.map fun c => (c.toNat : ℤ), 0 < u ∧ u < 0x10000 := by
    intro u hu
    obtain ⟨c, hc, rfl⟩ := List.mem_map.mp hu
    have hrange := hs c hc
    omega
  have hok : ∀ u ∈ s.map fun c => (c.toNat : ℤ), 0 < (ucs2ToUtf8 u).1 := by
    intro u hu
    obtain ⟨c, hc, rfl⟩ := List.mem_map.mp hu
    exact ucs2ToUtf8_pos (hs c hc).1 (hs c hc).2
  rw [← utf8Encode_chars hs, utf8sToUcs2s_encode hgood hok, List.length_map, List.map_append,
    List.map_map, List.map_map]
  refine ⟨rfl, congrArg (· ++ _) (List.map_congr_left fun c _ => ?_)⟩
  show (Int16.ofInt (c.toNat : ℤ)).toUInt16 = _
  rw [Int16.ofInt_eq_ofNat, Int16.toUInt16_ofNat']

/-- The bytes of a string are at least as many as its characters, and more if one of them is not
ASCII. -/
lemma length_utf8Of (s : List Char) :
    s.length ≤ (utf8Of s).length ∧
      (s.length < (utf8Of s).length ↔ ∃ c ∈ s, 0x80 ≤ c.toNat) := by
  induction s with
  | nil => exact ⟨Nat.le_refl 0, iff_of_false (Nat.lt_irrefl 0) fun ⟨_, h, _⟩ => nomatch h⟩
  | cons c s ih =>
      have hone : (String.utf8EncodeChar c).length = c.utf8Size := String.length_utf8EncodeChar c
      have hpos : 0 < c.utf8Size := c.utf8Size_pos
      have hascii : c.utf8Size = 1 ↔ c.toNat < 0x80 := by
        rw [Char.utf8Size_eq_one_iff, UInt32.le_iff_toNat_le]
        exact Nat.lt_succ_iff.symm
      obtain ⟨hle, hlt⟩ := ih
      rw [utf8Of] at hle hlt
      have hmem : (∃ d ∈ c :: s, 0x80 ≤ d.toNat) ↔ 0x80 ≤ c.toNat ∨ ∃ d ∈ s, 0x80 ≤ d.toNat := by
        simp only [List.mem_cons, exists_eq_or_imp]
      rw [utf8Of, List.flatMap_cons, List.length_append, hone, List.length_cons, hmem, ← hlt]
      clear hlt hmem
      omega

end Chars

/-! ## The message -/

section Message

variable {s : List Char}

lemma unilenFrom_of_terminated : ∀ (units : List UInt16) (di : ℕ), (0 : UInt16) ∉ units →
    di < 128 →
      unilenFrom (units ++ [0]) di = if di + units.length < 128 then di + units.length else 0
  | [], di, _, hdi => by
      rw [List.length_nil, Nat.add_zero, if_pos hdi]
      rfl
  | u :: units, di, hzero, hdi => by
      have hu : u ≠ 0 := fun h => hzero (h ▸ List.mem_cons_self)
      rw [List.cons_append, unilenFrom, if_neg hu, List.length_cons]
      by_cases hlong : di + 1 ≥ 128
      · rw [if_pos hlong, if_neg (by omega)]
      · rw [if_neg hlong, unilenFrom_of_terminated units (di + 1)
          (fun h => hzero (List.mem_cons_of_mem u h)) (Nat.not_le.mp hlong)]
        have hsum : di + 1 + units.length = di + (units.length + 1) := by omega
        rw [hsum]

/-- The units of a string are not zero. -/
lemma zero_notMem_units (hs : BmpText s) : (0 : UInt16) ∉ s.map fun c => UInt16.ofNat c.toNat := by
  intro hmem
  obtain ⟨c, hc, hzero⟩ := List.mem_map.mp hmem
  have hrange := hs c hc
  have hnat := congrArg UInt16.toNat hzero
  rw [UInt16.toNat_ofNat', Nat.mod_eq_of_lt (by omega)] at hnat
  exact absurd hnat (Nat.pos_iff_ne_zero.mp hrange.1)

/-- A unit whose bytes have changed places. -/
lemma unitBytes_ofNat {n : ℕ} (hn : n < 0x10000) :
    unitBytes (UInt16.ofNat n) = [(n % 256).toUInt8, (n / 256).toUInt8] := by
  have hnat : (UInt16.ofNat n).toNat = n := by
    rw [UInt16.toNat_ofNat', Nat.mod_eq_of_lt hn]
  have hshift : (UInt16.ofNat n >>> 8).toNat = n / 256 := by
    rw [UInt16.toNat_shiftRight, hnat]
    exact Nat.shiftRight_eq_div_pow n 8
  refine congrArg₂ List.cons (UInt8.toNat_inj.mp ?_) (congrArg (fun b => [b])
    (UInt8.toNat_inj.mp ?_))
  · rw [UInt16.toNat_toUInt8, hnat]
    show _ = (UInt8.ofNat (n % 256)).toNat
    rw [UInt8.toNat_ofNat']
    omega
  · rw [UInt16.toNat_toUInt8, hshift]
    exact UInt8.toNat_ofNat'.symm

lemma big2litelEndian_zero (da : List UInt8) : big2litelEndian da 0 = da := by
  rcases da with _ | ⟨b0, _ | ⟨b1, da⟩⟩ <;> rfl

/-- All units of the string are turned. -/
lemma big2litelEndian_units (hs : BmpText s) (rest : List UInt8) :
    big2litelEndian ((s.map fun c => UInt16.ofNat c.toNat).flatMap unitBytes ++ rest) s.length =
      ucs2BigEndian s ++ rest := by
  induction s with
  | nil => exact big2litelEndian_zero rest
  | cons c s ih =>
      have hc := hs c List.mem_cons_self
      rw [List.map_cons, List.flatMap_cons, unitBytes_ofNat (Nat.lt_succ_of_lt hc.2),
        List.length_cons]
      have hrest := ih fun d hd => hs d (List.mem_cons_of_mem c hd)
      rw [ucs2BigEndian] at hrest ⊢
      rw [List.flatMap_cons, List.append_assoc, List.append_assoc, ← hrest]
      rfl

lemma length_ucs2BigEndian (s : List Char) : (ucs2BigEndian s).length = 2 * s.length := by
  induction s with
  | nil => rfl
  | cons c s ih =>
      rw [ucs2BigEndian] at ih ⊢
      rw [List.flatMap_cons, List.length_append, ih, List.length_cons, List.length_cons,
        List.length_cons, List.length_nil]
      omega

lemma listAdd_inj {list : List ℕ} {a b : ℕ} (h : listAdd list a = listAdd list b) : a = b := by
  have hlast := congrArg List.getLast? h
  rw [listAdd, listAdd, List.getLast?_concat, List.getLast?_concat] at hlast
  exact Option.some.inj hlast

/-- The bytes of `smsBuf` go into the message as far as its length counts them. -/
lemma newMsg_msg {args : SendMsgArgs} {bytes : List UInt8} (rest : List UInt8)
    (hmsg : args.msg = bytes ++ rest)
    (hlen : args.len.toNat = bytes.length) : (newMsg args).msg = some bytes := by
  refine congrArg some (List.ext_getElem ?_ fun i hi hi' => ?_)
  · rw [List.length_map, List.length_range, hlen]
  · rw [List.getElem_map, List.getElem_range, hmsg, List.getD_eq_getElem?_getD,
      List.getElem?_append_left hi', List.getElem?_eq_getElem hi', Option.getD_some]

end Message

/-- `AmpmGsm::SendSms` writes inside its block, and either returns `SMS_ERROR` or queues a message
with all units of the string. -/
structure SendsUcs2 (w : GsmWorld) (r : SendSms) (s : List Char) : Prop where
  inside : r.written ≤ r.block
  sent : r.res = 1 ∨ ∃ sms, r.world.app.smsList = listAdd w.app.smsList sms ∧
    (r.world.app.smsHeap sms).len.toNat = (ucs2BigEndian s).length ∧
    (r.world.app.smsHeap sms).msg = some (ucs2BigEndian s)

section Sent

variable {w : GsmWorld} {osOk : Bool} {args : SendMsgArgs}

lemma smsSendMsg_empty (hmode : args.mode ≠ .text) (hlen : args.len = 0) :
    (smsSendMsg w osOk args).1 = 1 := by
  rw [smsSendMsg, if_pos ⟨hmode, hlen⟩]

lemma smsSendMsg_noNumber (hphone : firstChar args.phone = 0) :
    (smsSendMsg w osOk args).1 = 1 := by
  rw [smsSendMsg]
  split_ifs with hempty hnumber
  · rfl
  · exact absurd hphone hnumber
  · rfl

lemma smsSendMsg_noMutex : (smsSendMsg w false args).1 = 1 := by
  rw [smsSendMsg]
  split_ifs <;> rfl

/-- A message that is queued. -/
lemma smsSendMsg_queued (hlen : args.len ≠ 0) (hphone : firstChar args.phone ≠ 0) :
    (smsSendMsg w true args).1 = 0 ∧
      (smsSendMsg w true args).2.app.smsList = listAdd w.app.smsList w.app.smsNext ∧
      (smsSendMsg w true args).2.app.smsHeap w.app.smsNext = newMsg args := by
  rw [smsSendMsg, if_neg fun h => hlen h.2, if_pos hphone]
  exact ⟨rfl, rfl, Function.update_self ..⟩

end Sent

section Pdu16

variable {w : GsmWorld} {osOk : Bool} {status : Option ℕ} {callback : Bool}
  {phone : Option (List UInt8)} {s : List Char}

/-- What `Ampm_Sms_SendMsg` is called with. -/
def ucs2Args (status : Option ℕ) (callback : Bool) (phone : Option (List UInt8)) (s : List Char) :
    SendMsgArgs where
  status := status
  callback := callback
  phone := phone
  msg := big2litelEndian (((s.map fun c : Char => UInt16.ofNat c.toNat) ++ [0]).flatMap unitBytes)
    (if s.length < 128 then s.length else 0)
  len := (s.length % 2 ^ 16 * 2 % 2 ^ 16).toUInt8
  mode := .pdu16
  timeout := 10
  tryNum := 3

lemma sendSms_pdu16 (w : GsmWorld) (osOk : Bool) (status : Option ℕ) (callback : Bool)
    (phone : Option (List UInt8)) (hs : BmpText s) :
    sendSms w osOk status callback phone (utf8Of s) .pdu16 =
      ⟨(smsSendMsg w osOk (ucs2Args status callback phone s)).1,
        (smsSendMsg w osOk (ucs2Args status callback phone s)).2,
        2 * (utf8Of s).length, 2 * (s.length + 1)⟩ := by
  obtain ⟨hlen, hunits⟩ := utf8sToUcs2s_chars hs
  have hcount : unilen ((s.map fun c => UInt16.ofNat c.toNat) ++ [0]) =
      if s.length < 128 then s.length else 0 := by
    rw [unilen, unilenFrom_of_terminated _ 0 (zero_notMem_units hs) (by decide), List.length_map,
      Nat.zero_add]
  rw [sendSms, if_pos rfl]
  simp only [hlen, hunits, hcount, List.length_append, List.length_map, List.length_singleton,
    ucs2Args]

lemma ucs2Args_len (s : List Char) :
    (ucs2Args status callback phone s).len.toNat = 2 * s.length % 256 := by
  show (UInt8.ofNat (s.length % 2 ^ 16 * 2 % 2 ^ 16)).toNat = _
  rw [UInt8.toNat_ofNat']
  omega

/-- A message of at most 127 characters is complete. -/
lemma ucs2Args_msg (hs : BmpText s) (hshort : s.length < 128) :
    (newMsg (ucs2Args status callback phone s)).msg = some (ucs2BigEndian s) := by
  refine newMsg_msg [0, 0] ?_ ?_
  · have hturn := big2litelEndian_units hs [0, 0]
    rw [ucs2Args, if_pos hshort, List.flatMap_append, ← hturn]
    rfl
  · rw [ucs2Args_len, length_ucs2BigEndian, Nat.mod_eq_of_lt (by omega)]

/-- **Error or message.**  The length in 8 bits is that of the message up to 127 characters, zero
for a multiple of 128, and too small otherwise. -/
lemma sent_iff (hs : BmpText s) :
    ((smsSendMsg w osOk (ucs2Args status callback phone s)).1 = 1 ∨
      ∃ sms, (smsSendMsg w osOk (ucs2Args status callback phone s)).2.app.smsList =
          listAdd w.app.smsList sms ∧
        ((smsSendMsg w osOk (ucs2Args status callback phone s)).2.app.smsHeap sms).len.toNat =
          (ucs2BigEndian s).length ∧
        ((smsSendMsg w osOk (ucs2Args status callback phone s)).2.app.smsHeap sms).msg =
          some (ucs2BigEndian s)) ↔
      osOk = false ∨ firstChar phone = 0 ∨ s.length < 128 ∨ s.length % 128 = 0 := by
  obtain rfl | rfl : osOk = false ∨ osOk = true := by
    cases osOk <;> simp
  · exact iff_of_true (Or.inl smsSendMsg_noMutex) (Or.inl rfl)
  have hlen : (ucs2Args status callback phone s).len.toNat = 2 * s.length % 256 := ucs2Args_len s
  have hphone : (ucs2Args status callback phone s).phone = phone := rfl
  by_cases hnumber : firstChar phone = 0
  · exact iff_of_true (Or.inl (smsSendMsg_noNumber hnumber)) (Or.inr (Or.inl hnumber))
  · by_cases hempty : s.length % 128 = 0
    · have hzero : (ucs2Args status callback phone s).len = 0 := by
        refine UInt8.toNat_inj.mp (hlen.trans ?_)
        show _ = 0
        omega
      exact iff_of_true (Or.inl (smsSendMsg_empty (by exact SmsMode.noConfusion) hzero))
        (Or.inr (Or.inr (Or.inr hempty)))
    · have hne : (ucs2Args status callback phone s).len ≠ 0 := by
        intro hzero
        rw [hzero] at hlen
        have h0 : (0 : UInt8).toNat = 0 := rfl
        omega
      obtain ⟨hok, hlist, hheap⟩ := smsSendMsg_queued (w := w) hne hnumber
      rw [hok, hlist]
      by_cases hshort : s.length < 128
      · refine iff_of_true (Or.inr ⟨_, rfl, ?_, ?_⟩) (Or.inr (Or.inr (Or.inl hshort)))
        · rw [hheap, length_ucs2BigEndian]
          exact hlen.trans (Nat.mod_eq_of_lt (by omega))
        · rw [hheap]
          exact ucs2Args_msg hs hshort
      · refine iff_of_false ?_ ?_
        · rintro (hone | ⟨sms, hadd, hsms, -⟩)
          · exact absurd hone (by decide)
          · rw [← listAdd_inj hadd, hheap, length_ucs2BigEndian] at hsms
            have hcut : 2 * s.length % 256 = 2 * s.length := hlen.symm.trans hsms
            omega
        · rintro (h | h | h | h)
          · exact Bool.noConfusion h
          · exact hnumber h
          · exact hshort h
          · exact hempty h

end Pdu16

/-- **Messages in UCS-2.**  The block has room for the terminator if a character is not ASCII, and
the message is complete up to 127 characters; for a multiple of 128 the length becomes zero, and an
error is returned, as it is when the mutex is not free. -/
theorem sendSms_sendsUcs2_iff (w : GsmWorld) (osOk : Bool) (status : Option ℕ) (callback : Bool)
    (phone : Option (List UInt8)) {s : List Char} (hs : BmpText s) :
    SendsUcs2 w (sendSms w osOk status callback phone (utf8Of s) .pdu16) s ↔
      (∃ c ∈ s, 0x80 ≤ c.toNat) ∧
        (osOk = false ∨ firstChar phone = 0 ∨ s.length < 128 ∨ s.length % 128 = 0) := by
  have hroom : 2 * (s.length + 1) ≤ 2 * (utf8Of s).length ↔ ∃ c ∈ s, 0x80 ≤ c.toNat := by
    rw [← (length_utf8Of s).2]
    omega
  rw [sendSms_pdu16 w osOk status callback phone hs, ← hroom, ← sent_iff hs]
  exact ⟨fun h => ⟨h.inside, h.sent⟩, fun h => ⟨h.1, h.2⟩⟩

/-- A string of two characters, the second of which is not ASCII. -/
theorem sendSms_sendsUcs2_two :
    SendsUcs2 (engineAt .smsSendCmdProcess0 .send gsmReset)
      (sendSms (engineAt .smsSendCmdProcess0 .send gsmReset) true none false
        (some (bytesOf "0123")) (utf8Of ['h', 'é']) .pdu16) ['h', 'é'] :=
  (sendSms_sendsUcs2_iff _ true none false (some (bytesOf "0123")) (s := ['h', 'é'])
    (List.forall_mem_cons.2
      ⟨by decide +kernel, List.forall_mem_singleton.2 (by decide +kernel)⟩)).2
    ⟨⟨'é', by decide +kernel⟩, Or.inr (Or.inr (Or.inl (by decide)))⟩

/-- A string of two ASCII characters is terminated behind its block of four bytes. -/
theorem sendSms_overruns :
    (sendSms (engineAt .smsSendCmdProcess0 .send gsmReset) true none false
        (some (bytesOf "0123")) (utf8Of ['O', 'K']) .pdu16).block = 4 ∧
      (sendSms (engineAt .smsSendCmdProcess0 .send gsmReset) true none false
        (some (bytesOf "0123")) (utf8Of ['O', 'K']) .pdu16).written = 6 ∧
      ¬ SendsUcs2 (engineAt .smsSendCmdProcess0 .send gsmReset)
        (sendSms (engineAt .smsSendCmdProcess0 .send gsmReset) true none false
          (some (bytesOf "0123")) (utf8Of ['O', 'K']) .pdu16) ['O', 'K'] := by
  have hs : BmpText ['O', 'K'] :=
    List.forall_mem_cons.2
      ⟨by decide +kernel, List.forall_mem_singleton.2 (by decide +kernel)⟩
  have hsend := sendSms_pdu16 (engineAt .smsSendCmdProcess0 .send gsmReset) true none false
    (some (bytesOf "0123")) hs
  have hbytes : (utf8Of ['O', 'K']).length = 2 := rfl
  rw [hsend, hbytes]
  exact ⟨rfl, rfl, fun h => absurd h.inside (by decide)⟩

end Ampm

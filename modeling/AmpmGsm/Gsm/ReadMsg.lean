import AmpmGsm.Gsm.SmsRecv
import AmpmGsm.Gsm.Matcher

/-!
# The text of a stored message

`ampm_gsm_sms.c`, `Ampm_SMS_ReadMsg`: the answer to `AT+CMGR` is a header line, whose second field
is the sender, the text, and the lines that end the answer.  The function stores the text and what
ends it alike, and cuts as many bytes off as the array `terminateStr` has, if there are more.

* `readBytes` — an answer, byte by byte, as long as the function asks for more.
* `cmgrReply`, `ReadsText` — an answer, and what is asked of the function.
* `InHeader`, `InText` — the invariants of the two parts of an answer.
* **`smsReadMsg_reads_iff`** — the function does what is asked unless the text is empty or no
  sender is given.
-/

namespace Ampm

open Matching

/-! ## Answers -/

/-- The bytes that follow the prefix, with consecutive counts from `cnt` on, until a call returns 0:
what is left then, `none` if no call does. -/
def readBytes : ℕ → List UInt8 → GsmWorld → Option (List UInt8) × GsmWorld
  | _, [], w => (none, w)
  | cnt, c :: bytes, w =>
      let r := smsReadMsg cnt.toUInt16 c w
      if r.1 = 0 then (some bytes, r.2) else readBytes (cnt + 1) bytes r.2

/-- A digit or a plus sign. -/
def isSenderChar (c : UInt8) : Bool := isDigit c || c = 43

/-- The second field of a header line. -/
def secondField (header : List UInt8) : List UInt8 :=
  ((header.dropWhile (· ≠ 44)).drop 1).takeWhile (· ≠ 44)

/-- The sender that a header line names. -/
def senderOf (header : List UInt8) : List UInt8 := (secondField header).filter isSenderChar

/-- The text and what ends the answer. -/
def textLines (body : List UInt8) : List UInt8 := body ++ [13, 10] ++ terminateStr

/-- The answer behind `+CMGR: `. -/
def cmgrReply (header body : List UInt8) : List UInt8 :=
  header ++ [13, 10] ++ textLines body

/-- An array holds a string. -/
def HoldsString (array : ℕ → UInt8) (s : List UInt8) : Prop :=
  (∀ i (h : i < s.length), array i = s[i]) ∧ array s.length = 0

/-- What is asked of `Ampm_SMS_ReadMsg`: it ends with the last byte of the answer, sets
`flagSmsReadFinish` there and not before, and leaves the text and the sender in their buffers. -/
structure ReadsText (w : GsmWorld) (reply sender body : List UInt8) : Prop where
  ends : (readBytes 0 reply w).1 = some []
  before : ∀ p q, reply = p ++ q → q ≠ [] →
    (readBytes 0 p w).2.app.flagSmsReadFinish = w.app.flagSmsReadFinish
  finished : (readBytes 0 reply w).2.app.flagSmsReadFinish = true
  text : HoldsString (readBytes 0 reply w).2.app.smsDataBuf body
  sender : HoldsString (readBytes 0 reply w).2.app.smsSender sender

/-! ## The condition -/

/-- The characters that are taken for the sender's, if `commas` commas have been counted. -/
def takenFrom (commas : UInt8) : List UInt8 → List UInt8
  | [] => []
  | c :: bytes =>
      let commas := if c = 44 then commas + 1 else commas
      if commas = 1 ∧ isSenderChar c then c :: takenFrom commas bytes else takenFrom commas bytes

/-- What the buffer of the sender holds behind an answer: without a character it is not touched. -/
def KeepsSender (old : ℕ → UInt8) (taken sender : List UInt8) : Prop :=
  if taken = [] then HoldsString old sender else taken = sender

/-! ## One call -/

section Call

variable {w : GsmWorld} {cnt : UInt16} {c : UInt8}

/-- The comma count. -/
def countComma (m : ReadMsgStatics) (c : UInt8) : ReadMsgStatics :=
  if c = 44 then { m with comma := m.comma + 1 } else m

lemma countComma_eq (m : ReadMsgStatics) (c : UInt8) :
    (countComma m c).getSmsDataFlag = m.getSmsDataFlag ∧ (countComma m c).u8pt = m.u8pt ∧
      (countComma m c).u8pt1 = m.u8pt1 ∧ (countComma m c).u8pt2 = m.u8pt2 ∧
      (countComma m c).comma = if c = 44 then m.comma + 1 else m.comma := by
  unfold countComma
  split_ifs <;> exact ⟨rfl, rfl, rfl, rfl, rfl⟩

/-- `terminateStr`, as far as a byte goes on with it. -/
def matchByte (m : ReadMsgStatics) (c : UInt8) : ReadMsgStatics :=
  if c = terminateStr.getD m.u8pt1 0 then { m with u8pt1 := m.u8pt1 + 1 }
  else { m with u8pt1 := if c = terminateStr.getD 0 0 then 1 else 0 }

lemma smsReadMsg_zero : smsReadMsg 0 c w = (0xff, w.setApp { w.app with
    readMsg := { comma := 0, getSmsDataFlag := false, u8pt := 0, u8pt1 := 0, u8pt2 := 0 } }) := rfl

/-- A byte of the header line. -/
lemma smsReadMsg_header (hcnt : cnt ≠ 0) (hdata : w.app.readMsg.getSmsDataFlag = false) :
    smsReadMsg cnt c w =
      match readMsgHeader { w.app with readMsg := countComma w.app.readMsg c } c with
      | none => (0, w.setApp { w.app with
          readMsg := countComma w.app.readMsg c
          smsSender := Function.update w.app.smsSender 0 0 })
      | some s => (0xff, w.setApp (readMsgLine s c)) := by
  have hcounted : (countComma w.app.readMsg c).getSmsDataFlag = false :=
    (countComma_eq w.app.readMsg c).1.trans hdata
  have hnot : ¬ (countComma w.app.readMsg c).getSmsDataFlag = true := by
    rw [hcounted]
    exact Bool.false_ne_true
  exact (if_neg hcnt).trans (if_neg hnot)

/-- The comma count behind a byte. -/
def commasAfter (commas c : UInt8) : UInt8 := if c = 44 then commas + 1 else commas

/-- The variables behind a character of the sender. -/
def pushSender (s : GsmState) (c : UInt8) : GsmState :=
  { s with
    smsSender := Function.update (Function.update s.smsSender s.readMsg.u8pt c)
      (s.readMsg.u8pt + 1) 0
    readMsg := { countComma s.readMsg c with u8pt := s.readMsg.u8pt + 1 } }

/-- **What a byte of the header line can do**: there are too many characters of the sender, it is
one of them, or it is counted. -/
lemma smsReadMsg_header_cases (hcnt : cnt ≠ 0) (hdata : w.app.readMsg.getSmsDataFlag = false) :
    (commasAfter w.app.readMsg.comma c = 1 ∧ 16 ≤ w.app.readMsg.u8pt ∧
      smsReadMsg cnt c w = (0, w.setApp { w.app with
        readMsg := countComma w.app.readMsg c
        smsSender := Function.update w.app.smsSender 0 0 })) ∨
    ((commasAfter w.app.readMsg.comma c = 1 ∧ isSenderChar c = true) ∧ w.app.readMsg.u8pt < 16 ∧
      smsReadMsg cnt c w = (0xff, w.setApp (readMsgLine (pushSender w.app c) c))) ∨
    (¬ (commasAfter w.app.readMsg.comma c = 1 ∧ isSenderChar c = true) ∧
      (commasAfter w.app.readMsg.comma c = 1 → w.app.readMsg.u8pt < 16) ∧
      smsReadMsg cnt c w = (0xff, w.setApp
        (readMsgLine { w.app with readMsg := countComma w.app.readMsg c } c))) := by
  obtain ⟨-, hu8pt, -, -, hcomma⟩ := countComma_eq w.app.readMsg c
  rw [← commasAfter] at hcomma
  have hchars : (isDigit c = true ∨ c = 43) ↔ isSenderChar c = true := by
    simp [isSenderChar]
  rw [smsReadMsg_header hcnt hdata]
  unfold readMsgHeader
  dsimp only
  rw [hcomma, hu8pt]
  by_cases hone : commasAfter w.app.readMsg.comma c = 1
  · rw [if_pos hone]
    by_cases hfull : w.app.readMsg.u8pt ≥ 16
    · rw [if_pos hfull]
      exact Or.inl ⟨hone, hfull, rfl⟩
    · rw [if_neg hfull]
      by_cases hchar : isSenderChar c = true
      · rw [if_pos (hchars.mpr hchar)]
        refine Or.inr (Or.inl ⟨⟨hone, hchar⟩, Nat.not_le.mp hfull, ?_⟩)
        unfold pushSender
        rw [← hcomma]
      · rw [if_neg fun h => hchar (hchars.mp h)]
        exact Or.inr (Or.inr ⟨fun h => hchar h.2, fun _ => Nat.not_le.mp hfull, rfl⟩)
  · rw [if_neg hone]
    exact Or.inr (Or.inr ⟨fun h => hone h.1, fun h => absurd h hone, rfl⟩)

/-- A byte of the text. -/
lemma smsReadMsg_text (hcnt : cnt ≠ 0) (hdata : w.app.readMsg.getSmsDataFlag = true) :
    smsReadMsg cnt c w =
      let m := matchByte (countComma w.app.readMsg c) c
      let w := w.setApp { w.app with readMsg := m }
      if terminateStr.getD m.u8pt1 0 = 0 ∨ m.u8pt2 ≥ 256 then finishReadMsg w m.u8pt2
      else
        (0xff, w.setApp (readMsgLine { w.app with
          smsDataBuf := Function.update w.app.smsDataBuf m.u8pt2 c
          readMsg := { m with u8pt2 := m.u8pt2 + 1 } } c)) := by
  have hcounted : (countComma w.app.readMsg c).getSmsDataFlag = true :=
    (countComma_eq w.app.readMsg c).1.trans hdata
  exact (if_neg hcnt).trans (if_pos hcounted)

/-- The index of the terminating character. -/
def textEnd (u8pt2 : ℕ) : ℕ := if u8pt2 > terminateSize then u8pt2 - terminateSize else u8pt2

/-- The variables behind a byte of the text. -/
def pushText (s : GsmState) (c : UInt8) : GsmState :=
  { s with
    smsDataBuf := Function.update s.smsDataBuf s.readMsg.u8pt2 c
    readMsg := { matchByte (countComma s.readMsg c) c with u8pt2 := s.readMsg.u8pt2 + 1 } }

/-- The variables behind the last one. -/
def endText (s : GsmState) (c : UInt8) : GsmState :=
  { s with
    smsDataBuf := Function.update s.smsDataBuf (textEnd s.readMsg.u8pt2) 0
    flagSmsReadFinish := true
    readMsg := { matchByte (countComma s.readMsg c) c with u8pt2 := textEnd s.readMsg.u8pt2 } }

/-- What the comma count and the search leave alone. -/
lemma matchByte_countComma (m : ReadMsgStatics) (c : UInt8) :
    (matchByte (countComma m c) c).getSmsDataFlag = m.getSmsDataFlag ∧
      (matchByte (countComma m c) c).u8pt = m.u8pt ∧
      (matchByte (countComma m c) c).u8pt1 = (matchByte m c).u8pt1 ∧
      (matchByte (countComma m c) c).u8pt2 = m.u8pt2 := by
  obtain ⟨hdata, hu8pt, hu8pt1, hu8pt2, -⟩ := countComma_eq m c
  unfold matchByte
  rw [hu8pt1]
  split_ifs <;> exact ⟨hdata, hu8pt, rfl, hu8pt2⟩

/-- **What a byte of the text can do**: it is the last one, or it is stored. -/
lemma smsReadMsg_text_cases (hcnt : cnt ≠ 0) (hdata : w.app.readMsg.getSmsDataFlag = true) :
    ((terminateStr.getD (matchByte w.app.readMsg c).u8pt1 0 = 0 ∨ w.app.readMsg.u8pt2 ≥ 256) ∧
      (smsReadMsg cnt c w).1 = 0 ∧ (smsReadMsg cnt c w).2.app = endText w.app c) ∨
    (¬ (terminateStr.getD (matchByte w.app.readMsg c).u8pt1 0 = 0 ∨ w.app.readMsg.u8pt2 ≥ 256) ∧
      (smsReadMsg cnt c w).1 = 0xff ∧
      (smsReadMsg cnt c w).2.app = readMsgLine (pushText w.app c) c) := by
  obtain ⟨-, -, hu8pt1, hu8pt2⟩ := matchByte_countComma w.app.readMsg c
  have hcond : (terminateStr.getD (matchByte (countComma w.app.readMsg c) c).u8pt1 0 = 0 ∨
      (matchByte (countComma w.app.readMsg c) c).u8pt2 ≥ 256) ↔
      (terminateStr.getD (matchByte w.app.readMsg c).u8pt1 0 = 0 ∨
        w.app.readMsg.u8pt2 ≥ 256) := by
    rw [hu8pt1, hu8pt2]
  rw [smsReadMsg_text hcnt hdata]
  dsimp only
  by_cases hend : terminateStr.getD (matchByte w.app.readMsg c).u8pt1 0 = 0 ∨
      w.app.readMsg.u8pt2 ≥ 256
  · rw [if_pos (hcond.mpr hend)]
    refine Or.inl ⟨hend, rfl, ?_⟩
    unfold endText
    rw [← hu8pt2]
    rfl
  · rw [if_neg (mt hcond.mp hend)]
    refine Or.inr ⟨hend, rfl, ?_⟩
    unfold pushText
    rw [← hu8pt2]
    rfl

end Call

/-! ## The header line -/

/-- In the header line: what has been taken for the sender is in its buffer. -/
structure InHeader (old : ℕ → UInt8) (flag : Bool) (commas : UInt8) (taken : List UInt8)
    (s : GsmState) : Prop where
  data_eq : s.readMsg.getSmsDataFlag = false
  comma_eq : s.readMsg.comma = commas
  u8pt_eq : s.readMsg.u8pt = taken.length
  starts : s.readMsg.u8pt1 = 0 ∧ s.readMsg.u8pt2 = 0
  sender : if taken = [] then s.smsSender = old else HoldsString s.smsSender taken
  flag_eq : s.flagSmsReadFinish = flag

section Header

variable {old : ℕ → UInt8} {flag : Bool} {commas : UInt8} {taken : List UInt8} {w : GsmWorld}
  {cnt : UInt16} {c : UInt8} {array : ℕ → UInt8}

/-- A character is stored behind the others. -/
lemma holdsString_push (h : if taken = [] then array = old else HoldsString array taken) :
    HoldsString (Function.update (Function.update array taken.length c) (taken.length + 1) 0)
      (taken ++ [c]) := by
  refine ⟨fun i hi => ?_, ?_⟩
  · rw [List.length_append, List.length_singleton] at hi
    rw [Function.update_of_ne (by omega)]
    by_cases hlast : i = taken.length
    · subst hlast
      rw [Function.update_self, List.getElem_concat_length rfl]
    · have hlt : i < taken.length := by omega
      have hsome : taken ≠ [] := List.ne_nil_of_length_pos (Nat.zero_lt_of_lt hlt)
      rw [if_neg hsome] at h
      rw [Function.update_of_ne hlast, h.1 i hlt, List.getElem_append_left hlt]
  · rw [List.length_append, List.length_singleton, Function.update_self]

/-- The characters taken with a byte. -/
def takenAfter (commas c : UInt8) (taken : List UInt8) : List UInt8 :=
  if commasAfter commas c = 1 ∧ isSenderChar c then taken ++ [c] else taken

lemma takenFrom_cons (commas c : UInt8) (bytes taken : List UInt8) :
    taken ++ takenFrom commas (c :: bytes) =
      takenAfter commas c taken ++ takenFrom (commasAfter commas c) bytes := by
  show taken ++ (if commasAfter commas c = 1 ∧ isSenderChar c then
    c :: takenFrom (commasAfter commas c) bytes else takenFrom (commasAfter commas c) bytes) = _
  unfold takenAfter
  split_ifs
  · rw [List.append_assoc, List.singleton_append]
  · rfl

/-- **A byte of the header line** is counted and, if it is one of the sender's, stored, unless there
are 16 of them. -/
lemma InHeader.byte (h : InHeader old flag commas taken w.app) (hcnt : cnt ≠ 0) :
    (16 ≤ taken.length ∧ (smsReadMsg cnt c w).1 = 0) ∨
      ((smsReadMsg cnt c w).1 = 0xff ∧
        ∃ s, (smsReadMsg cnt c w).2.app = readMsgLine s c ∧
          InHeader old flag (commasAfter commas c) (takenAfter commas c taken) s) := by
  obtain ⟨hdata, hu8pt, hu8pt1, hu8pt2, hcomma⟩ := countComma_eq w.app.readMsg c
  rw [h.data_eq] at hdata
  rw [h.u8pt_eq] at hu8pt
  rw [h.starts.1] at hu8pt1
  rw [h.starts.2] at hu8pt2
  rw [h.comma_eq, ← commasAfter] at hcomma
  have hcases := smsReadMsg_header_cases (c := c) hcnt h.data_eq
  rw [h.comma_eq, h.u8pt_eq] at hcases
  rcases hcases with ⟨-, hfull, heq⟩ | ⟨htake, -, heq⟩ | ⟨hskip, -, heq⟩
  · rw [heq]
    exact Or.inl ⟨hfull, rfl⟩
  · rw [heq, takenAfter, if_pos htake]
    refine Or.inr ⟨rfl, pushSender w.app c, rfl, hdata, hcomma, ?_, ⟨hu8pt1, hu8pt2⟩, ?_, h.flag_eq⟩
    · show w.app.readMsg.u8pt + 1 = (taken ++ [c]).length
      rw [h.u8pt_eq, List.length_append, List.length_singleton]
    · rw [if_neg (by simp)]
      unfold pushSender
      rw [h.u8pt_eq]
      exact holdsString_push h.sender
  · rw [heq, takenAfter, if_neg hskip]
    exact Or.inr ⟨rfl, _, rfl, hdata, hcomma, hu8pt, ⟨hu8pt1, hu8pt2⟩, h.sender, h.flag_eq⟩

end Header

/-! ## The text -/

/-- In the text: all bytes are stored, and `terminateStr` is followed as far as they end with it. -/
structure InText (sender : ℕ → UInt8) (flag : Bool) (stored : List UInt8) (s : GsmState) :
    Prop where
  data_eq : s.readMsg.getSmsDataFlag = true
  u8pt1_eq : s.readMsg.u8pt1 = overlap literal terminateStr stored.reverse
  u8pt2_eq : s.readMsg.u8pt2 = stored.length
  text : ∀ i (h : i < stored.length), s.smsDataBuf i = stored[i]
  sender_eq : s.smsSender = sender
  flag_eq : s.flagSmsReadFinish = flag

lemma terminateStr_startsOver : StartsOver terminateStr := by decide +kernel

lemma terminateStr_nul (k : ℕ) : terminateStr.getD k 0 = 0 ↔ terminateStr.length ≤ k := by
  have hlow : ∀ k < terminateStr.length, terminateStr.getD k 0 ≠ 0 := by decide +kernel
  constructor
  · intro hzero
    exact Nat.not_lt.mp fun hk => hlow k hk hzero
  · intro hk
    rw [List.getD_eq_getElem?_getD, List.getElem?_eq_none hk]
    rfl

section Text

variable {sender : ℕ → UInt8} {flag : Bool} {stored : List UInt8} {w : GsmWorld} {cnt : UInt16}
  {c : UInt8}

/-- As long as the bytes do not end with `terminateStr`, something of it is missing. -/
lemma overlap_lt_of_not_suffix (h : ¬ terminateStr <:+ stored) :
    overlap literal terminateStr stored.reverse < terminateStr.length := by
  refine lt_of_le_of_ne (overlap_le _ _) fun heq => h ?_
  have hsuffix := (overlap_literal_iff terminateStr stored.reverse).mp heq
  rwa [List.reverse_reverse] at hsuffix

/-- **The pointer follows the string.** -/
lemma matchByte_u8pt1 {m : ReadMsgStatics} (h : ¬ terminateStr <:+ stored)
    (hm : m.u8pt1 = overlap literal terminateStr stored.reverse) :
    (matchByte m c).u8pt1 = overlap literal terminateStr (stored ++ [c]).reverse := by
  have hlt := overlap_lt_of_not_suffix h
  have hfirst : c = terminateStr.getD 0 0 ↔ terminateStr[0]? = some c := by
    rw [eq_comm]
    exact getD_eq_iff (by decide)
  have hnext : c = terminateStr.getD m.u8pt1 0 ↔
      terminateStr[overlap literal terminateStr stored.reverse]? = some c := by
    rw [eq_comm, hm]
    exact getD_eq_iff hlt
  rw [List.reverse_append, List.reverse_singleton, List.singleton_append]
  unfold matchByte
  by_cases hmatch : c = terminateStr.getD m.u8pt1 0
  · rw [if_pos hmatch]
    exact (congrArg (· + 1) hm).trans
      (overlap_cons_of_match (hnext.mp hmatch) (decide_eq_true rfl)).symm
  · rw [if_neg hmatch,
      overlap_cons_restart terminateStr_startsOver hlt (fun h => hmatch (hnext.mpr h))]
    exact if_congr hfirst rfl rfl

/-- The pointer is at the end of the string exactly if the bytes end with it. -/
lemma terminated_iff {k : ℕ} (h : k = overlap literal terminateStr stored.reverse) :
    terminateStr.getD k 0 = 0 ↔ terminateStr <:+ stored := by
  have hle := overlap_le (m := literal) terminateStr stored.reverse
  have hsuffix := overlap_literal_iff terminateStr stored.reverse
  rw [List.reverse_reverse] at hsuffix
  rw [terminateStr_nul, h, ← hsuffix]
  omega

lemma readMsgLine_eq (c : UInt8) (s : GsmState) :
    (readMsgLine s c).readMsg.getSmsDataFlag = (s.readMsg.getSmsDataFlag || c = 10) ∧
      ((readMsgLine s c).readMsg.u8pt = s.readMsg.u8pt ∧
        (readMsgLine s c).readMsg.u8pt1 = s.readMsg.u8pt1 ∧
        (readMsgLine s c).readMsg.u8pt2 = s.readMsg.u8pt2) ∧
      (readMsgLine s c).smsDataBuf = s.smsDataBuf ∧ (readMsgLine s c).smsSender = s.smsSender ∧
      (readMsgLine s c).flagSmsReadFinish = s.flagSmsReadFinish ∧
      (readMsgLine s c).clipPhoneNo = s.clipPhoneNo := by
  unfold readMsgLine
  by_cases hc : c = 10
  · rw [if_pos hc]
    exact ⟨by simp [hc], ⟨rfl, rfl, rfl⟩, rfl, rfl, rfl, rfl⟩
  · rw [if_neg hc]
    exact ⟨by simp [hc], ⟨rfl, rfl, rfl⟩, rfl, rfl, rfl, rfl⟩

/-- **A byte of the text** is stored as long as the answer goes on and there is room. -/
lemma InText.byte (h : InText sender flag stored w.app) (hcnt : cnt ≠ 0)
    (hbefore : ¬ terminateStr <:+ stored) (hmore : ¬ terminateStr <:+ stored ++ [c])
    (hroom : stored.length < 256) :
    (smsReadMsg cnt c w).1 = 0xff ∧
      InText sender flag (stored ++ [c]) (smsReadMsg cnt c w).2.app := by
  obtain ⟨hdata, -, hu8pt1, -⟩ := matchByte_countComma w.app.readMsg c
  have hpointer := matchByte_u8pt1 (m := w.app.readMsg) (c := c) hbefore h.u8pt1_eq
  have hgoes : ¬ (terminateStr.getD (matchByte w.app.readMsg c).u8pt1 0 = 0 ∨
      w.app.readMsg.u8pt2 ≥ 256) := by
    rw [h.u8pt2_eq]
    exact not_or.mpr ⟨fun hzero => hmore ((terminated_iff hpointer).mp hzero), Nat.not_le.mpr hroom⟩
  rcases smsReadMsg_text_cases (c := c) hcnt h.data_eq with ⟨hend, -⟩ | ⟨-, hret, happ⟩
  · exact absurd hend hgoes
  obtain ⟨hlineData, hlineMsg, hbuf, hsender, hflag, -⟩ := readMsgLine_eq c (pushText w.app c)
  rw [happ]
  refine ⟨hret, hlineData.trans ?_, hlineMsg.2.1.trans (hu8pt1.trans hpointer),
    hlineMsg.2.2.trans ?_, fun i hi => ?_, hsender.trans h.sender_eq, hflag.trans h.flag_eq⟩
  · rw [show (pushText w.app c).readMsg.getSmsDataFlag = true from hdata.trans h.data_eq]
    rfl
  · show w.app.readMsg.u8pt2 + 1 = (stored ++ [c]).length
    rw [h.u8pt2_eq, List.length_append, List.length_singleton]
  · rw [List.length_append, List.length_singleton] at hi
    refine (congrFun hbuf i).trans ?_
    show Function.update w.app.smsDataBuf w.app.readMsg.u8pt2 c i = _
    rw [h.u8pt2_eq]
    by_cases hlast : i = stored.length
    · subst hlast
      rw [Function.update_self, List.getElem_concat_length rfl]
    · have hlt : i < stored.length := by omega
      rw [Function.update_of_ne hlast, h.text i hlt, List.getElem_append_left hlt]

/-- **The last byte of the answer.** -/
lemma InText.last (h : InText sender flag stored w.app) (hcnt : cnt ≠ 0)
    (hbefore : ¬ terminateStr <:+ stored) (hend : terminateStr <:+ stored ++ [c]) :
    (smsReadMsg cnt c w).1 = 0 ∧
      (smsReadMsg cnt c w).2.app.flagSmsReadFinish = true ∧
      (smsReadMsg cnt c w).2.app.smsSender = sender ∧
      (smsReadMsg cnt c w).2.app.smsDataBuf =
        Function.update w.app.smsDataBuf (textEnd stored.length) 0 := by
  have hpointer := matchByte_u8pt1 (m := w.app.readMsg) (c := c) hbefore h.u8pt1_eq
  rcases smsReadMsg_text_cases (c := c) hcnt h.data_eq with ⟨-, hret, happ⟩ | ⟨hgoes, -⟩
  · rw [happ]
    refine ⟨hret, rfl, h.sender_eq, ?_⟩
    show Function.update w.app.smsDataBuf (textEnd w.app.readMsg.u8pt2) 0 = _
    rw [h.u8pt2_eq]
  · exact absurd (Or.inl ((terminated_iff hpointer).mpr hend)) hgoes

end Text

/-! ## A whole answer -/

section Answer

variable {old sender : ℕ → UInt8} {flag : Bool} {commas : UInt8} {taken stored rest : List UInt8}
  {w : GsmWorld} {n : ℕ}

lemma readBytes_append (xs ys : List UInt8) :
    ∀ (n : ℕ) (w : GsmWorld), (readBytes n xs w).1 = none →
      readBytes n (xs ++ ys) w = readBytes (n + xs.length) ys (readBytes n xs w).2 := by
  induction xs with
  | nil => exact fun _ _ _ => rfl
  | cons c xs ih =>
      intro n w hmore
      rw [List.cons_append, readBytes, readBytes] at *
      split_ifs at hmore ⊢ with hend
      rw [ih _ _ hmore, List.length_cons, Nat.add_assoc, Nat.add_comm 1]

lemma readBytes_append_of_some (xs ys : List UInt8) :
    ∀ (n : ℕ) (w : GsmWorld), (readBytes n xs w).1 = some rest →
      readBytes n (xs ++ ys) w = (some (rest ++ ys), (readBytes n xs w).2) := by
  induction xs with
  | nil => exact fun _ _ hsome => absurd hsome.symm (Option.some_ne_none rest)
  | cons c xs ih =>
      intro n w hsome
      rw [List.cons_append, readBytes, readBytes] at *
      split_ifs at hsome ⊢ with hend
      · rw [Option.some_inj.mp hsome]
      · exact ih _ _ hsome

/-- A call that asks for more leaves the flag alone. -/
lemma smsReadMsg_flag (cnt : UInt16) (c : UInt8) (w : GsmWorld)
    (hmore : (smsReadMsg cnt c w).1 ≠ 0) :
    (smsReadMsg cnt c w).2.app.flagSmsReadFinish = w.app.flagSmsReadFinish := by
  by_cases hcnt : cnt = 0
  · rw [hcnt]
    rfl
  · cases hdata : w.app.readMsg.getSmsDataFlag with
    | false =>
        rcases smsReadMsg_header_cases (c := c) hcnt hdata with
          ⟨-, -, heq⟩ | ⟨-, -, heq⟩ | ⟨-, -, heq⟩
        · rw [heq] at hmore
          exact absurd rfl hmore
        · rw [heq]
          exact (readMsgLine_eq c _).2.2.2.2.1
        · rw [heq]
          exact (readMsgLine_eq c _).2.2.2.2.1
    | true =>
        rcases smsReadMsg_text_cases (c := c) hcnt hdata with ⟨-, hzero, -⟩ | ⟨-, -, happ⟩
        · exact absurd hzero hmore
        · rw [happ]
          exact (readMsgLine_eq c _).2.2.2.2.1

lemma readBytes_flag (bytes : List UInt8) : ∀ (n : ℕ) (w : GsmWorld),
    (readBytes n bytes w).1 = none →
      (readBytes n bytes w).2.app.flagSmsReadFinish = w.app.flagSmsReadFinish := by
  induction bytes with
  | nil => exact fun _ _ _ => rfl
  | cons c bytes ih =>
      intro n w hmore
      rw [readBytes] at *
      split_ifs at hmore ⊢ with hend
      rw [ih _ _ hmore, smsReadMsg_flag _ _ _ hend]

/-- **The flag is set at the end of an answer only.** -/
lemma readBytes_flag_before {reply : List UInt8} (hend : (readBytes 0 reply w).1 = some [])
    (p q : List UInt8) (hreply : reply = p ++ q) (hq : q ≠ []) :
    (readBytes 0 p w).2.app.flagSmsReadFinish = w.app.flagSmsReadFinish := by
  refine readBytes_flag p 0 w ?_
  cases hp : (readBytes 0 p w).1 with
  | none => rfl
  | some rest =>
      rw [hreply, readBytes_append_of_some p q 0 w hp] at hend
      exact absurd (List.append_eq_nil_iff.mp (Option.some_inj.mp hend)).2 hq

lemma toUInt16_ne_zero (hpos : 0 < n) (hlt : n < 65536) : n.toUInt16 ≠ 0 := by
  intro hzero
  have hnat := congrArg UInt16.toNat hzero
  rw [show n.toUInt16.toNat = n % 65536 from rfl, Nat.mod_eq_of_lt hlt] at hnat
  exact absurd hnat (Nat.ne_of_gt hpos)

lemma readMsgLine_of_ne {c : UInt8} (hc : c ≠ 10) (s : GsmState) : readMsgLine s c = s := if_neg hc

/-- **A part of the header line**: all of it is read, or there are more than 15 characters of the
sender. -/
lemma InHeader.run (bytes : List UInt8) : ∀ {n : ℕ} {w : GsmWorld} {commas : UInt8}
    {taken : List UInt8}, InHeader old flag commas taken w.app → 10 ∉ bytes → 0 < n →
      n + bytes.length ≤ 65536 →
      ((∃ rest, (readBytes n bytes w).1 = some rest) ∧
        16 ≤ (taken ++ takenFrom commas bytes).length) ∨
      ((readBytes n bytes w).1 = none ∧ ∃ commas', InHeader old flag commas'
        (taken ++ takenFrom commas bytes) (readBytes n bytes w).2.app) := by
  induction bytes with
  | nil =>
      intro n w commas taken h _ _ _
      rw [show taken ++ takenFrom commas [] = taken from List.append_nil _]
      exact Or.inr ⟨rfl, commas, h⟩
  | cons c bytes ih =>
      intro n w commas taken h hlf hpos hbound
      rw [List.length_cons] at hbound
      have hc : 10 ≠ c := List.ne_of_not_mem_cons hlf
      have hlf' : 10 ∉ bytes := List.not_mem_of_not_mem_cons hlf
      rw [takenFrom_cons, readBytes]
      rcases h.byte (c := c) (toUInt16_ne_zero hpos (by omega)) with
        ⟨hmany, hzero⟩ | ⟨hmore, s, hs, hnext⟩
      · refine Or.inl ⟨⟨bytes, by rw [if_pos hzero]⟩, ?_⟩
        have hlonger : taken.length ≤ (takenAfter commas c taken).length := by
          unfold takenAfter
          split_ifs
          · rw [List.length_append]
            exact Nat.le_add_right _ _
          · exact Nat.le_refl _
        rw [List.length_append]
        omega
      · rw [if_neg (by rw [hmore]; decide)]
        rw [readMsgLine_of_ne (fun heq => hc heq.symm)] at hs
        rw [← hs] at hnext
        exact ih hnext hlf' (Nat.succ_pos n) (by omega)

/-- **A part of the text** that does not end the answer. -/
lemma InText.run (bytes : List UInt8) : ∀ {n : ℕ} {w : GsmWorld} {stored : List UInt8},
    InText sender flag stored w.app → ¬ terminateStr <:+: stored ++ bytes →
      stored.length + bytes.length ≤ 256 → 0 < n → n + bytes.length ≤ 65536 →
      (readBytes n bytes w).1 = none ∧
        InText sender flag (stored ++ bytes) (readBytes n bytes w).2.app := by
  induction bytes with
  | nil =>
      intro n w stored h _ _ _ _
      rw [List.append_nil]
      exact ⟨rfl, h⟩
  | cons c bytes ih =>
      intro n w stored h hnot hroom hpos hbound
      rw [List.length_cons] at hroom hbound
      have hsplit : stored ++ c :: bytes = (stored ++ [c]) ++ bytes := by simp
      rw [hsplit] at hnot ⊢
      have hmore : ¬ terminateStr <:+ stored ++ [c] := fun hend =>
        hnot (hend.isInfix.trans (List.prefix_append _ _).isInfix)
      have hbefore : ¬ terminateStr <:+ stored := fun hend =>
        hnot ((hend.isInfix.trans (List.prefix_append stored [c]).isInfix).trans
          (List.prefix_append _ _).isInfix)
      obtain ⟨hgoes, hnext⟩ := h.byte (c := c) (toUInt16_ne_zero hpos (by omega)) hbefore hmore
        (by omega)
      rw [readBytes, if_neg (by rw [hgoes]; decide)]
      exact ih hnext hnot (by simp; omega) (Nat.succ_pos n) (by omega)

/-- The first line up to its line feed: the byte with the count 0 is not looked at. -/
lemma readBytes_header {header : List UInt8} (hlf : 10 ∉ header)
    (hbound : header.length + 2 ≤ 65536) :
    (∃ rest, (readBytes 0 (header ++ [13]) w).1 = some rest) ∧
        16 ≤ (takenFrom 0 header.tail).length ∨
      (readBytes 0 (header ++ [13]) w).1 = none ∧ ∃ commas,
        InHeader w.app.smsSender w.app.flagSmsReadFinish commas (takenFrom 0 header.tail)
          (readBytes 0 (header ++ [13]) w).2.app := by
  have hcr (commas : UInt8) (bytes : List UInt8) :
      takenFrom commas (bytes ++ [13]) = takenFrom commas bytes := by
    induction bytes generalizing commas with
    | nil => simp [takenFrom, isSenderChar, isDigit]
    | cons c bytes ih =>
        rw [List.cons_append, takenFrom, takenFrom]
        simp only [ih]
  have hstart (c : UInt8) : InHeader w.app.smsSender w.app.flagSmsReadFinish 0 []
      (smsReadMsg 0 c w).2.app := by
    rw [smsReadMsg_zero]
    exact ⟨rfl, rfl, rfl, ⟨rfl, rfl⟩, by rw [if_pos rfl]; rfl, rfl⟩
  cases header with
  | nil => exact Or.inr ⟨rfl, 0, hstart 13⟩
  | cons c bytes =>
      have hbytes : 10 ∉ bytes ++ [13] := by
        rw [List.mem_append, List.mem_singleton]
        exact not_or.mpr ⟨List.not_mem_of_not_mem_cons hlf, by decide⟩
      have hrest := (hstart c).run (bytes ++ [13]) hbytes Nat.one_pos (by
        rw [List.length_append, List.length_singleton]
        rw [List.length_cons] at hbound
        omega)
      rw [hcr, List.nil_append] at hrest
      exact hrest

/-- The line feed. -/
lemma InHeader.lineFeed (h : InHeader old flag commas taken w.app) (hpos : 0 < n)
    (hlt : n < 65536) :
    (16 ≤ taken.length ∧ (smsReadMsg n.toUInt16 10 w).1 = 0) ∨
      ((smsReadMsg n.toUInt16 10 w).1 = 0xff ∧ ∃ sender,
        (if taken = [] then sender = old else HoldsString sender taken) ∧
          InText sender flag [] (smsReadMsg n.toUInt16 10 w).2.app) := by
  refine (h.byte (c := 10) (toUInt16_ne_zero hpos hlt)).imp_right ?_
  rintro ⟨hmore, s, hs, hnext⟩
  have htaken : takenAfter commas 10 taken = taken := by
    unfold takenAfter
    exact if_neg fun hchar => absurd hchar.2 (by decide)
  rw [htaken] at hnext
  obtain ⟨hdata, hmsg, -, hsender, hflag, -⟩ := readMsgLine_eq 10 s
  refine ⟨hmore, s.smsSender, hnext.sender, ?_⟩
  rw [hs]
  refine ⟨by rw [hdata]; simp, ?_, ?_, fun i hi => absurd hi (Nat.not_lt_zero i), hsender,
    hflag.trans hnext.flag_eq⟩
  · rw [hmsg.2.1, hnext.starts.1, List.reverse_nil, overlap_nil]
  · rw [hmsg.2.2, hnext.starts.2]
    rfl

/-- What an answer whose header line is read leaves behind. -/
lemma InText.answer (h : InText sender flag [] w.app) {body : List UInt8}
    (hfirst : ¬ terminateStr <:+: (textLines body).dropLast) (hlong : body.length ≤ 249)
    (hpos : 0 < n) (hbound : n + body.length + 8 ≤ 65536) :
    (readBytes n (textLines body) w).1 = some [] ∧
      (readBytes n (textLines body) w).2.app.flagSmsReadFinish = true ∧
      (readBytes n (textLines body) w).2.app.smsSender = sender ∧
      (HoldsString (readBytes n (textLines body) w).2.app.smsDataBuf body ↔ body ≠ []) := by
  have hlines : textLines body = (body ++ [13, 10, 13, 10, 79, 75, 13]) ++ [10] := by
    simp [textLines, terminateStr, bytesOf]
  have hlength : (body ++ [13, 10, 13, 10, 79, 75, 13]).length = body.length + 7 := by simp
  rw [hlines, List.dropLast_concat] at hfirst
  rw [hlines]
  generalize ht : body ++ [13, 10, 13, 10, 79, 75, 13] = t at hfirst hlength
  obtain ⟨hmore, htext⟩ := h.run t hfirst (by simp; omega) hpos (by omega)
  rw [List.nil_append] at htext
  have hsuffix : terminateStr <:+ t ++ [10] := by
    rw [← ht]
    exact ⟨body ++ [13, 10], by simp [terminateStr, bytesOf]⟩
  have hcnt : (n + t.length).toUInt16 ≠ 0 := toUInt16_ne_zero (by omega) (by omega)
  obtain ⟨hzero, hflag, hsender, hbuf⟩ :=
    htext.last (c := 10) hcnt (fun hend => hfirst hend.isInfix) hsuffix
  rw [readBytes_append t [10] n w hmore, readBytes, if_pos hzero]
  refine ⟨rfl, hflag, hsender, ?_⟩
  rw [hbuf, hlength]
  constructor
  · rintro ⟨-, hnul⟩ rfl
    rw [List.length_nil, Function.update_of_ne (by decide)] at hnul
    have hpos : 0 < t.length := by omega
    have hcr : t[0] = 13 := by simp [← ht]
    rw [htext.text 0 (by omega), hcr] at hnul
    exact absurd hnul (by decide)
  · intro hsome
    have hend : textEnd (body.length + 7) = body.length := by
      have hpos := List.length_pos_of_ne_nil hsome
      unfold textEnd terminateSize
      rw [if_pos (by omega), Nat.add_sub_cancel]
    rw [hend]
    refine ⟨fun i hi => ?_, Function.update_self _ _ _⟩
    rw [Function.update_of_ne (Nat.ne_of_lt hi), htext.text i (by omega)]
    simp only [← ht, List.getElem_append_left hi]

end Answer

lemma isSenderChar_ne_zero {c : UInt8} (h : isSenderChar c = true) : c ≠ 0 := by
  rintro rfl
  exact absurd h (by decide)

lemma takenFrom_chars (commas : UInt8) (bytes : List UInt8) :
    ∀ c ∈ takenFrom commas bytes, c ≠ 0 := by
  induction bytes generalizing commas with
  | nil => exact List.forall_mem_nil _
  | cons b bytes ih =>
      rw [takenFrom]
      by_cases hchar : (if b = 44 then commas + 1 else commas) = 1 ∧ isSenderChar b = true
      · rw [if_pos hchar]
        exact List.forall_mem_cons.mpr ⟨isSenderChar_ne_zero hchar.2, ih _⟩
      · rw [if_neg hchar]
        exact ih _

/-- An array holds one string of characters only. -/
lemma holdsString_unique {array : ℕ → UInt8} {s s' : List UInt8} (hs : ∀ c ∈ s, c ≠ 0)
    (hs' : ∀ c ∈ s', c ≠ 0) (h : HoldsString array s) (h' : HoldsString array s') : s = s' := by
  have hlength : s.length = s'.length := by
    rcases Nat.lt_trichotomy s.length s'.length with hlt | heq | hlt
    · exact absurd ((h'.1 _ hlt).symm.trans h.2) (hs' _ (List.getElem_mem hlt))
    · exact heq
    · exact absurd ((h.1 _ hlt).symm.trans h'.2) (hs _ (List.getElem_mem hlt))
  exact List.ext_getElem hlength fun i hi hi' => (h.1 i hi).symm.trans (h'.1 i hi')

lemma senderOf_chars (header : List UInt8) : ∀ c ∈ senderOf header, c ≠ 0 := fun _ hc =>
  isSenderChar_ne_zero (List.mem_filter.mp hc).2

/-- What is taken for the sender is as short as the sender. -/
lemma KeepsSender.short {old : ℕ → UInt8} {taken sender : List UInt8}
    (h : KeepsSender old taken sender) (hsender : sender.length ≤ 15) : taken.length ≤ 15 := by
  unfold KeepsSender at h
  split_ifs at h with hnone
  · rw [hnone]
    exact Nat.zero_le _
  · rw [h]
    exact hsender

/-- The buffer of the sender behind the header line. -/
lemma keepsSender_iff {old array : ℕ → UInt8} {taken sender : List UInt8}
    (htaken : ∀ c ∈ taken, c ≠ 0) (hsender : ∀ c ∈ sender, c ≠ 0)
    (harray : if taken = [] then array = old else HoldsString array taken) :
    HoldsString array sender ↔ KeepsSender old taken sender := by
  unfold KeepsSender
  split_ifs at harray ⊢ with hnone
  · rw [harray]
  · constructor
    · exact fun h => holdsString_unique htaken hsender harray h
    · rintro rfl
      exact harray

/-- **The text is read exactly if it is not empty and the sender is found**: an empty text is not
cut off from the bytes that end the answer. -/
theorem smsReadMsg_reads_iff (w : GsmWorld) (header body : List UInt8) (hlf : 10 ∉ header)
    (hsender : (senderOf header).length ≤ 15) (hlong : body.length ≤ 249)
    (hfirst : ¬ terminateStr <:+: (textLines body).dropLast)
    (hcounts : (cmgrReply header body).length ≤ 65536) :
    ReadsText w (cmgrReply header body) (senderOf header) body ↔
      body ≠ [] ∧ KeepsSender w.app.smsSender (takenFrom 0 header.tail) (senderOf header) := by
  have hlines : (textLines body).length = body.length + 8 := by
    simp [textLines, terminateStr, bytesOf]
  have hreply : cmgrReply header body = (header ++ [13]) ++ 10 :: textLines body := by
    simp [cmgrReply]
  have hlength : (cmgrReply header body).length = header.length + body.length + 10 := by
    rw [hreply]
    simp [hlines]
    omega
  rw [hlength] at hcounts
  have hmany (hmany : 16 ≤ (takenFrom 0 header.tail).length) {rest : List UInt8}
      (hleft : rest ≠ []) (hearly : (readBytes 0 (cmgrReply header body) w).1 = some rest) :
      ReadsText w (cmgrReply header body) (senderOf header) body ↔
        body ≠ [] ∧ KeepsSender w.app.smsSender (takenFrom 0 header.tail) (senderOf header) := by
    refine iff_of_false (fun h => hleft ?_) fun h => ?_
    · exact Option.some_inj.mp (hearly.symm.trans h.ends)
    · have hshort := h.2.short hsender
      omega
  rcases readBytes_header (w := w) hlf (by omega) with ⟨⟨rest, hrest⟩, hover⟩ |
    ⟨hmore, commas, hheader⟩
  · refine hmany hover (show rest ++ 10 :: textLines body ≠ [] by simp) ?_
    rw [hreply, readBytes_append_of_some _ _ 0 w hrest]
  · have hreads := readBytes_append (header ++ [13]) (10 :: textLines body) 0 w hmore
    rw [← hreply, readBytes] at hreads
    rcases hheader.lineFeed (n := 0 + (header ++ [13]).length) (by simp) (by simp; omega) with
      ⟨hover, hzero⟩ | ⟨hgoes, sender, hkept, htext⟩
    · have hleft : textLines body ≠ [] := List.ne_nil_of_length_pos (by omega)
      exact hmany hover hleft (by rw [hreads, if_pos hzero])
    · rw [if_neg (by rw [hgoes]; decide)] at hreads
      obtain ⟨hends, hfinished, hsame, hbody⟩ := htext.answer hfirst hlong
        (n := 0 + (header ++ [13]).length + 1) (by omega) (by simp; omega)
      rw [← hreads] at hends hfinished hsame hbody
      have hkeeps := keepsSender_iff (takenFrom_chars 0 header.tail) (senderOf_chars header) hkept
      constructor
      · intro h
        have hstring := h.sender
        rw [hsame] at hstring
        exact ⟨hbody.mp h.text, hkeeps.mp hstring⟩
      · rintro ⟨hsome, hk⟩
        exact ⟨hends, readBytes_flag_before hends, hfinished, hbody.mpr hsome,
          by rw [hsame]; exact hkeeps.mpr hk⟩

/-- The header line of the answer that the source gives as an example. -/
def cmgrHeader : List UInt8 :=
  bytesOf "\"REC READ\",\"+841645715282\",\"\",\"12/07/26,20:50:07+28\""

/-- That answer. -/
theorem smsReadMsg_reads_example :
    ReadsText (engineAt .smsRecvCmdProcess4 .wait gsmReset)
      (cmgrReply cmgrHeader (bytesOf "thienhailue"))
      (senderOf cmgrHeader) (bytesOf "thienhailue") :=
  (smsReadMsg_reads_iff _ cmgrHeader _ (by decide +kernel) (by decide +kernel) (by decide +kernel)
    (by decide +kernel) (by decide +kernel)).mpr
    ⟨by decide +kernel, by
      rw [KeepsSender, if_neg (by decide +kernel)]
      decide +kernel⟩

/-- The same answer with an empty text. -/
theorem smsReadMsg_empty_text :
    ¬ ReadsText (engineAt .smsRecvCmdProcess4 .wait gsmReset) (cmgrReply cmgrHeader [])
      (senderOf cmgrHeader) [] := by
  rw [smsReadMsg_reads_iff _ cmgrHeader [] (by decide +kernel) (by decide +kernel)
    (by decide +kernel) (by decide +kernel) (by decide +kernel)]
  exact fun h => h.1 rfl

/-! ## The sender of an ordinary header line -/

section Sender

variable {header : List UInt8}

/-- Behind the second field nothing is taken until the comma count comes round. -/
lemma takenFrom_behind (header : List UInt8) : ∀ {k : ℕ}, 2 ≤ k → k + header.count 44 ≤ 256 →
    takenFrom (UInt8.ofNat k) header = [] := by
  induction header with
  | nil => exact fun _ _ => rfl
  | cons c header ih =>
      intro k htwo hround
      have hone (j : ℕ) (hj : 2 ≤ j ∧ j ≤ 256) : UInt8.ofNat j ≠ 1 := by
        intro heq
        have hmod : j % 256 = 1 := congrArg UInt8.toNat heq
        omega
      rw [takenFrom]
      by_cases hc : c = 44
      · rw [hc, List.count_cons_self] at hround
        have hnext : UInt8.ofNat k + 1 = UInt8.ofNat (k + 1) := by
          rw [UInt8.ofNat_add]
          rfl
        rw [if_pos hc, hnext, if_neg fun hboth => hone (k + 1) (by omega) hboth.1]
        exact ih (by omega) (by omega)
      · rw [List.count_cons_of_ne hc] at hround
        rw [if_neg hc, if_neg fun hboth => hone k (by omega) hboth.1]
        exact ih htwo hround

/-- The second field. -/
lemma takenFrom_second (header : List UInt8) (hround : header.count 44 ≤ 255) :
    takenFrom 1 header = (header.takeWhile (· ≠ 44)).filter isSenderChar := by
  induction header with
  | nil => rfl
  | cons c header ih =>
      rw [takenFrom]
      by_cases hc : c = 44
      · rw [hc, List.count_cons_self] at hround
        rw [if_pos hc, if_neg (fun hboth => absurd hboth.1 (by decide)), hc]
        refine (takenFrom_behind header (k := 2) (Nat.le_refl 2) (by omega)).trans ?_
        rw [List.takeWhile_cons_of_neg (by simp)]
        rfl
      · rw [List.count_cons_of_ne hc] at hround
        rw [if_neg hc, ih hround, List.takeWhile_cons_of_pos (by simpa using hc)]
        by_cases hchar : isSenderChar c = true
        · rw [if_pos ⟨rfl, hchar⟩, List.filter_cons_of_pos hchar]
        · rw [if_neg fun hboth => hchar hboth.2, List.filter_cons_of_neg hchar]

/-- **The sender is found** behind the first comma, if there are not too many. -/
lemma takenFrom_eq_senderOf (header : List UInt8) (hround : header.count 44 ≤ 256) :
    takenFrom 0 header = senderOf header := by
  induction header with
  | nil => rfl
  | cons c header ih =>
      rw [takenFrom]
      by_cases hc : c = 44
      · rw [hc, List.count_cons_self] at hround
        have hnot : isSenderChar c ≠ true := by
          rw [hc]
          decide
        rw [if_pos hc, if_neg fun hboth => hnot hboth.2]
        refine (takenFrom_second header (by omega)).trans ?_
        rw [hc, senderOf, secondField, List.dropWhile_cons_of_neg (by simp)]
        rfl
      · rw [List.count_cons_of_ne hc] at hround
        rw [if_neg hc, if_neg (fun hboth => absurd hboth.1 (by decide)), ih hround, senderOf,
          senderOf, secondField, secondField, List.dropWhile_cons_of_pos (by simpa using hc)]

/-- **The condition for an ordinary answer**, whose first field is not empty: it names a sender, or
the last one that did is forgotten. -/
theorem keepsSender_of_ordinary {old : ℕ → UInt8} (hfirst : header.head? ≠ some 44)
    (hround : header.count 44 ≤ 256) :
    KeepsSender old (takenFrom 0 header.tail) (senderOf header) ↔
      senderOf header = [] → old 0 = 0 := by
  have htaken : takenFrom 0 header.tail = senderOf header := by
    cases header with
    | nil => rfl
    | cons c header =>
        have hc : c ≠ 44 := fun heq => hfirst (congrArg some heq)
        rw [List.count_cons_of_ne hc] at hround
        rw [List.tail_cons, takenFrom_eq_senderOf header hround, senderOf, senderOf, secondField,
          secondField, List.dropWhile_cons_of_pos (by simpa using hc)]
  rw [htaken, KeepsSender]
  by_cases hnone : senderOf header = []
  · rw [if_pos hnone, hnone]
    exact ⟨fun h _ => h.2, fun h => ⟨fun i hi => absurd hi (Nat.not_lt_zero i), h rfl⟩⟩
  · rw [if_neg hnone]
    exact iff_of_true rfl fun h => absurd h hnone

end Sender

end Ampm

import AmpmGsm.Gsm.Dispatch
import AmpmGsm.Gsm.ReadMsg

/-!
# Where the handlers of unsolicited codes store

`at_command_parser.c` and `ampm_gsm_sms.c`: `Ampm_URC_CLIP_Process` and `Ampm_SMS_ReadMsg` store a
character of a number and, ahead of it, the terminating one.  Both compare their index with the
size of the array too late for the sixteenth character.

* `clipStores`, `senderStores`, `bodyStores`, `urcStores` — the indices of the stores.
* `atComnandParser_frame` — nothing else of the arrays changes.
* `UrcInv` — the invariant: how far the two functions have come.
* **`urcStores_within_iff`** — the runs all of whose stores are inside the arrays.
-/

namespace Ampm

open Runs

/-! ## Stores -/

/-- Where `Ampm_URC_CLIP_Process` stores into its array. -/
def clipStores (cnt : UInt16) (c : UInt8) : List ℕ :=
  if isDigit c then [cnt.toNat, cnt.toNat + 1] else []

/-- Where `Ampm_SMS_ReadMsg` stores into `smsSender`. -/
def senderStores (cnt : UInt16) (c : UInt8) (m : ReadMsgStatics) : List ℕ :=
  if cnt = 0 ∨ m.getSmsDataFlag = true then []
  else if commasAfter m.comma c = 1 then
    if m.u8pt ≥ 16 then [0] else if isSenderChar c then [m.u8pt, m.u8pt + 1] else []
  else []

/-- Where it stores into `smsDataBuf`. -/
def bodyStores (cnt : UInt16) (c : UInt8) (m : ReadMsgStatics) : List ℕ :=
  if cnt = 0 ∨ m.getSmsDataFlag = false then []
  else if terminateStr.getD (matchByte m c).u8pt1 0 = 0 ∨ m.u8pt2 ≥ 256 then [textEnd m.u8pt2]
  else [m.u8pt2]

/-- The indices of the three arrays at which a byte makes the handlers store. -/
structure UrcStores where
  clip : List ℕ
  sender : List ℕ
  body : List ℕ

/-- The parser as a byte finds it: the first byte initialises it. -/
def urcParser (s : GsmState) : StrInstance :=
  if s.atCommandParserStarted then s.atCmdParser else strParserInit s.atCmdParser 8 1024

/-- The handler that a byte goes to, and its count. -/
def urcDispatch (w : GsmWorld) : Option (ℕ × UInt16) :=
  if w.app.atCommandParserEnable then strDispatch (w.clock 0) (urcParser w.app) else none

/-- The stores of a handler. -/
def handlerStores (i : ℕ) (cnt : UInt16) (c : UInt8) (m : ReadMsgStatics) : UrcStores :=
  match i with
  | 0 => ⟨clipStores cnt c, [], []⟩
  | 3 => ⟨[], senderStores cnt c m, bodyStores cnt c m⟩
  | _ => ⟨[], [], []⟩

/-- The stores that a byte causes. -/
def urcStores (w : GsmWorld) (c : UInt8) : UrcStores :=
  match urcDispatch w with
  | none => ⟨[], [], []⟩
  | some (i, cnt) => handlerStores i cnt c w.app.readMsg

/-- All of them are inside the arrays. -/
def UrcStores.Within (st : UrcStores) : Prop :=
  (∀ a ∈ st.clip, a < 16) ∧ (∀ a ∈ st.sender, a < 16) ∧ ∀ a ∈ st.body, a < 256

instance (st : UrcStores) : Decidable st.Within :=
  inferInstanceAs (Decidable ((∀ a ∈ st.clip, a < 16) ∧ (∀ a ∈ st.sender, a < 16) ∧
    ∀ a ∈ st.body, a < 256))

lemma noStores_within : UrcStores.Within ⟨[], [], []⟩ := by decide

/-! ## Nothing else is stored -/

section Frame

variable {w : GsmWorld} {cnt : UInt16} {c : UInt8} {a : ℕ}

lemma urcClipProcess_frame {s : GsmState} (ha : a ∉ clipStores cnt c) :
    (urcClipProcess cnt c s).2.clipPhoneNo a = s.clipPhoneNo a := by
  unfold clipStores at ha
  unfold urcClipProcess
  split_ifs at ha ⊢ with hdigit
  · obtain ⟨hfirst, hsecond⟩ := not_or.mp (fun h => ha (by simpa using h))
    exact (Function.update_of_ne hsecond _ _).trans (Function.update_of_ne hfirst _ _)
  · obtain ⟨hfirst, hsecond⟩ := not_or.mp (fun h => ha (by simpa using h))
    exact (Function.update_of_ne hsecond _ _).trans (Function.update_of_ne hfirst _ _)
  · rfl
  · rfl

lemma urcClipProcess_others (cnt : UInt16) (c : UInt8) (s : GsmState) :
    (urcClipProcess cnt c s).2.readMsg = s.readMsg ∧
      (urcClipProcess cnt c s).2.smsSender = s.smsSender ∧
      (urcClipProcess cnt c s).2.smsDataBuf = s.smsDataBuf := by
  unfold urcClipProcess
  split_ifs <;> exact ⟨rfl, rfl, rfl⟩

lemma not_mem_pair {i j : ℕ} (h : a ∉ [i, j]) : a ≠ i ∧ a ≠ j := by
  simpa using h

/-- A byte of the header line. -/
lemma smsReadMsg_header_stores (hcnt : cnt ≠ 0) (hdata : w.app.readMsg.getSmsDataFlag = false) :
    (∀ a ∉ senderStores cnt c w.app.readMsg,
      (smsReadMsg cnt c w).2.app.smsSender a = w.app.smsSender a) ∧
    (smsReadMsg cnt c w).2.app.smsDataBuf = w.app.smsDataBuf ∧
    (smsReadMsg cnt c w).2.app.clipPhoneNo = w.app.clipPhoneNo := by
  have hnot : ¬ (cnt = 0 ∨ w.app.readMsg.getSmsDataFlag = true) := by
    rw [hdata]
    exact not_or.mpr ⟨hcnt, Bool.false_ne_true⟩
  unfold senderStores
  rw [if_neg hnot]
  rcases smsReadMsg_header_cases (c := c) hcnt hdata with
    ⟨hone, hfull, heq⟩ | ⟨⟨hone, hchar⟩, hless, heq⟩ | ⟨-, -, heq⟩
  · rw [heq, if_pos hone, if_pos hfull]
    exact ⟨fun a ha => Function.update_of_ne (by simpa using ha) _ _, rfl, rfl⟩
  · rw [heq, if_pos hone, if_neg (Nat.not_le.mpr hless), if_pos hchar]
    obtain ⟨-, -, hbuf, hsender, -, hclip⟩ := readMsgLine_eq c (pushSender w.app c)
    refine ⟨fun a ha => ?_, hbuf, hclip⟩
    obtain ⟨hfirst, hsecond⟩ := not_mem_pair ha
    exact (congrFun hsender a).trans
      ((Function.update_of_ne hsecond _ _).trans (Function.update_of_ne hfirst _ _))
  · rw [heq]
    obtain ⟨-, -, hbuf, hsender, -, hclip⟩ :=
      readMsgLine_eq c { w.app with readMsg := countComma w.app.readMsg c }
    exact ⟨fun a _ => congrFun hsender a, hbuf, hclip⟩

/-- A byte of the text. -/
lemma smsReadMsg_text_stores (hcnt : cnt ≠ 0) (hdata : w.app.readMsg.getSmsDataFlag = true) :
    (∀ a ∉ bodyStores cnt c w.app.readMsg,
      (smsReadMsg cnt c w).2.app.smsDataBuf a = w.app.smsDataBuf a) ∧
    (smsReadMsg cnt c w).2.app.smsSender = w.app.smsSender ∧
    (smsReadMsg cnt c w).2.app.clipPhoneNo = w.app.clipPhoneNo := by
  have hnot : ¬ (cnt = 0 ∨ w.app.readMsg.getSmsDataFlag = false) := by
    rw [hdata]
    exact not_or.mpr ⟨hcnt, nofun⟩
  unfold bodyStores
  rw [if_neg hnot]
  rcases smsReadMsg_text_cases (c := c) hcnt hdata with ⟨hend, -, happ⟩ | ⟨hgoes, -, happ⟩
  · rw [happ, if_pos hend]
    exact ⟨fun a ha => Function.update_of_ne (List.ne_of_not_mem_cons ha) _ _, rfl, rfl⟩
  · rw [happ, if_neg hgoes]
    obtain ⟨-, -, hbuf, hsender, -, hclip⟩ := readMsgLine_eq c (pushText w.app c)
    exact ⟨fun a ha => (congrFun hbuf a).trans
      (Function.update_of_ne (List.ne_of_not_mem_cons ha) _ _), hsender, hclip⟩

/-- **What `Ampm_SMS_ReadMsg` stores.** -/
lemma smsReadMsg_stores (cnt : UInt16) (c : UInt8) (w : GsmWorld) :
    (∀ a ∉ senderStores cnt c w.app.readMsg,
      (smsReadMsg cnt c w).2.app.smsSender a = w.app.smsSender a) ∧
    (∀ a ∉ bodyStores cnt c w.app.readMsg,
      (smsReadMsg cnt c w).2.app.smsDataBuf a = w.app.smsDataBuf a) ∧
    (smsReadMsg cnt c w).2.app.clipPhoneNo = w.app.clipPhoneNo := by
  by_cases hcnt : cnt = 0
  · rw [hcnt, smsReadMsg_zero]
    exact ⟨fun _ _ => rfl, fun _ _ => rfl, rfl⟩
  · cases hdata : w.app.readMsg.getSmsDataFlag with
    | false =>
        obtain ⟨hsender, hbuf, hclip⟩ := smsReadMsg_header_stores (c := c) hcnt hdata
        exact ⟨hsender, fun a _ => congrFun hbuf a, hclip⟩
    | true =>
        obtain ⟨hbuf, hsender, hclip⟩ := smsReadMsg_text_stores (c := c) hcnt hdata
        exact ⟨fun a _ => congrFun hsender a, hbuf, hclip⟩

/-- A handler stores nothing else. -/
lemma atProcessCallback_frame (i : ℕ) (cnt : UInt16) (c : UInt8) (w : GsmWorld) :
    (∀ a ∉ (handlerStores i cnt c w.app.readMsg).clip,
      (atProcessCallback i cnt c w).2.app.clipPhoneNo a = w.app.clipPhoneNo a) ∧
    (∀ a ∉ (handlerStores i cnt c w.app.readMsg).sender,
      (atProcessCallback i cnt c w).2.app.smsSender a = w.app.smsSender a) ∧
    ∀ a ∉ (handlerStores i cnt c w.app.readMsg).body,
      (atProcessCallback i cnt c w).2.app.smsDataBuf a = w.app.smsDataBuf a := by
  match i with
  | 0 =>
      obtain ⟨-, hsender, hbuf⟩ := urcClipProcess_others cnt c w.app
      exact ⟨fun _ => urcClipProcess_frame, fun a _ => congrFun hsender a,
        fun a _ => congrFun hbuf a⟩
  | 1 => exact ⟨fun _ _ => rfl, fun _ _ => rfl, fun _ _ => rfl⟩
  | 2 => exact ⟨fun _ _ => rfl, fun _ _ => rfl, fun _ _ => rfl⟩
  | 3 =>
      obtain ⟨hsender, hbuf, hclip⟩ := smsReadMsg_stores cnt c w
      exact ⟨fun a _ => congrFun hclip a, hsender, hbuf⟩
  | 4 | 5 | 6 =>
      refine ⟨fun _ _ => ?_, fun _ _ => ?_, fun _ _ => ?_⟩ <;>
        (unfold atProcessCallback smsProcess; dsimp only; split_ifs <;> rfl)
  | n + 7 => exact ⟨fun _ _ => rfl, fun _ _ => rfl, fun _ _ => rfl⟩

lemma readMsgLine_started (c : UInt8) (s : GsmState) :
    (readMsgLine s c).atCommandParserStarted = s.atCommandParserStarted := by
  unfold readMsgLine
  split_ifs <;> rfl

/-- The callbacks know nothing of the parser. -/
lemma atProcessCallback_started (i : ℕ) (cnt : UInt16) (c : UInt8) (w : GsmWorld) :
    (atProcessCallback i cnt c w).2.app.atCommandParserStarted = w.app.atCommandParserStarted := by
  match i with
  | 0 => unfold atProcessCallback urcClipProcess; dsimp only; split_ifs <;> rfl
  | 1 => rfl
  | 2 => rfl
  | 3 =>
      show (smsReadMsg cnt c w).2.app.atCommandParserStarted = _
      by_cases hcnt : cnt = 0
      · rw [hcnt, smsReadMsg_zero]
        rfl
      · cases hdata : w.app.readMsg.getSmsDataFlag with
        | false =>
            rcases smsReadMsg_header_cases (c := c) hcnt hdata with
              ⟨-, -, heq⟩ | ⟨-, -, heq⟩ | ⟨-, -, heq⟩
            · rw [heq]
              rfl
            · rw [heq]
              exact readMsgLine_started c _
            · rw [heq]
              exact readMsgLine_started c _
        | true =>
            rcases smsReadMsg_text_cases (c := c) hcnt hdata with ⟨-, -, happ⟩ | ⟨-, -, happ⟩
            · rw [happ]
              rfl
            · rw [happ]
              exact readMsgLine_started c _
  | 4 | 5 | 6 => unfold atProcessCallback smsProcess; dsimp only; split_ifs <;> rfl
  | n + 7 => rfl

end Frame

/-! ## One byte -/

section Byte

variable (w : GsmWorld) (c : UInt8)

/-- The first lines of `AT_ComnandParser`. -/
def urcReady : GsmWorld :=
  if w.app.atCommandParserStarted then w
  else w.setApp { w.app with
    atCommandParserStarted := true
    atCmdParser := strParserInit w.app.atCmdParser 8 1024 }

lemma urcReady_eq : (urcReady w).app.atCmdParser = urcParser w.app ∧
    (urcReady w).app.atCommandParserStarted = true ∧
    (urcReady w).app.readMsg = w.app.readMsg ∧
    (urcReady w).app.clipPhoneNo = w.app.clipPhoneNo ∧
    (urcReady w).app.smsSender = w.app.smsSender ∧
    (urcReady w).app.smsDataBuf = w.app.smsDataBuf := by
  unfold urcReady urcParser
  split_ifs with hstarted
  · exact ⟨rfl, hstarted, rfl, rfl, rfl, rfl⟩
  · exact ⟨rfl, rfl, rfl, rfl, rfl, rfl⟩

/-- What `StrComnandParser` does with the byte. -/
def urcParse : StrInstance × UInt8 × GsmWorld :=
  strComnandParser (w.clock 0) atProcessCommands atProcessCallback (urcParser w.app) w.app.lastChar
    c (urcReady w).ticked

/-- The variables behind the byte, with the parser that is left. -/
def urcParsed : GsmState :=
  { (urcParse w c).2.2.app with
    atCmdParser := (urcParse w c).1
    lastChar := (urcParse w c).2.1 }

lemma atComnandParser_eq : atComnandParser w c =
    if w.app.atCommandParserEnable then (urcParse w c).2.2.setApp (urcParsed w c)
    else urcReady w := by
  obtain ⟨hclock, hlast, henable⟩ : (urcReady w).clock = w.clock ∧
      (urcReady w).app.lastChar = w.app.lastChar ∧
      (urcReady w).app.atCommandParserEnable = w.app.atCommandParserEnable := by
    unfold urcReady
    split_ifs <;> exact ⟨rfl, rfl, rfl⟩
  unfold urcParsed urcParse
  rw [← (urcReady_eq w).1, ← hclock, ← hlast, ← henable]
  rfl

/-- **Nothing else is stored.** -/
theorem atComnandParser_frame :
    (∀ a ∉ (urcStores w c).clip,
      (atComnandParser w c).app.clipPhoneNo a = w.app.clipPhoneNo a) ∧
    (∀ a ∉ (urcStores w c).sender,
      (atComnandParser w c).app.smsSender a = w.app.smsSender a) ∧
    ∀ a ∉ (urcStores w c).body,
      (atComnandParser w c).app.smsDataBuf a = w.app.smsDataBuf a := by
  obtain ⟨-, -, hmsg, hclip, hsender, hbuf⟩ := urcReady_eq w
  rw [atComnandParser_eq]
  unfold urcStores urcDispatch
  by_cases henable : w.app.atCommandParserEnable = true
  · rw [if_pos henable, if_pos henable]
    have hhandled := strComnandParser_dispatch (w.clock 0) atProcessCommands atProcessCallback
      (urcParser w.app) w.app.lastChar c (urcReady w).ticked
    rw [← urcParse] at hhandled
    show (∀ a ∉ _, (urcParse w c).2.2.app.clipPhoneNo a = _) ∧
      (∀ a ∉ _, (urcParse w c).2.2.app.smsSender a = _) ∧
      ∀ a ∉ _, (urcParse w c).2.2.app.smsDataBuf a = _
    rw [hhandled]
    cases strDispatch (w.clock 0) (urcParser w.app) with
    | none => exact ⟨fun a _ => congrFun hclip a, fun a _ => congrFun hsender a,
        fun a _ => congrFun hbuf a⟩
    | some d =>
        obtain ⟨hclip', hsender', hbuf'⟩ := atProcessCallback_frame d.1 d.2 c (urcReady w).ticked
        rw [← hclip, ← hsender, ← hbuf, ← hmsg]
        exact ⟨hclip', hsender', hbuf'⟩
  · rw [if_neg henable, if_neg henable]
    exact ⟨fun a _ => congrFun hclip a, fun a _ => congrFun hsender a, fun a _ => congrFun hbuf a⟩

end Byte

/-! ## The sixteenth character -/

/-- The byte is the sixteenth digit of a caller's number. -/
def SixteenthDigit (d : ℕ × UInt16) (c : UInt8) : Prop := d = (0, 15) ∧ isDigit c = true

/-- The byte is the sixteenth character of a sender. -/
def SixteenthOfSender (d : ℕ × UInt16) (c : UInt8) (m : ReadMsgStatics) : Prop :=
  (d.1 = 3 ∧ d.2 ≠ 0) ∧ m.getSmsDataFlag = false ∧ m.u8pt = 15 ∧ commasAfter m.comma c = 1 ∧
    isSenderChar c = true

instance (d : ℕ × UInt16) (c : UInt8) : Decidable (SixteenthDigit d c) :=
  inferInstanceAs (Decidable (_ ∧ _))

instance (d : ℕ × UInt16) (c : UInt8) (m : ReadMsgStatics) : Decidable (SixteenthOfSender d c m) :=
  inferInstanceAs (Decidable (_ ∧ _))

/-- The byte is neither. -/
def ShortNumbers (w : GsmWorld) (c : UInt8) : Prop :=
  ∀ d ∈ urcDispatch w, ¬ SixteenthDigit d c ∧ ¬ SixteenthOfSender d c w.app.readMsg

instance (w : GsmWorld) (c : UInt8) : Decidable (ShortNumbers w c) :=
  inferInstanceAs (Decidable (∀ d ∈ urcDispatch w, _))

/-- How far `Ampm_SMS_ReadMsg` has come in its arrays. -/
def ReadMsgStatics.Inside (m : ReadMsgStatics) : Prop := m.u8pt ≤ 15 ∧ m.u8pt2 ≤ 256

/-- A parser that waits has not come further than the arrays go. -/
structure UrcInv (s : GsmState) : Prop where
  clip : (urcParser s).process.state = .waitFinish → (urcParser s).process.strInProcess.toNat = 0 →
    (urcParser s).process.dataRecvLength.toNat ≤ 15
  read : (urcParser s).process.state = .waitFinish → (urcParser s).process.strInProcess.toNat = 3 →
    (urcParser s).process.dataRecvLength ≠ 0 → s.readMsg.Inside

section Sixteenth

variable {w : GsmWorld} {cnt : UInt16} {c : UInt8}

lemma clipStores_iff (hcnt : cnt.toNat ≤ 15) :
    (∀ a ∈ clipStores cnt c, a < 16) ↔ ¬ SixteenthDigit (0, cnt) c := by
  unfold clipStores SixteenthDigit
  by_cases hdigit : isDigit c = true
  · rw [if_pos hdigit, List.forall_mem_cons, List.forall_mem_singleton]
    have heq : (0, cnt) = (0, 15) ↔ cnt.toNat = 15 :=
      (Prod.mk_right_inj).trans ⟨fun h => congrArg UInt16.toNat h, fun h => UInt16.toNat_inj.mp h⟩
    rw [heq]
    constructor
    · rintro ⟨-, hlt⟩ ⟨hlast, -⟩
      omega
    · intro hnot
      have hne : cnt.toNat ≠ 15 := fun h => hnot ⟨h, hdigit⟩
      omega
  · rw [if_neg hdigit]
    exact iff_of_true (List.forall_mem_nil _) fun h => hdigit h.2

lemma bodyStores_within {m : ReadMsgStatics} (hin : cnt ≠ 0 → m.Inside) :
    ∀ a ∈ bodyStores cnt c m, a < 256 := by
  unfold bodyStores
  split_ifs with hnone hend
  · exact List.forall_mem_nil _
  · have hcnt : cnt ≠ 0 := fun h => hnone (Or.inl h)
    have hle := (hin hcnt).2
    rw [List.forall_mem_singleton]
    unfold textEnd terminateSize
    split_ifs with hlong
    · omega
    · omega
  · rw [List.forall_mem_singleton]
    exact Nat.not_le.mp fun h => hend (Or.inr h)

lemma senderStores_iff {m : ReadMsgStatics} (hin : cnt ≠ 0 → m.Inside) :
    (∀ a ∈ senderStores cnt c m, a < 16) ↔ ¬ SixteenthOfSender (3, cnt) c m := by
  unfold senderStores SixteenthOfSender
  by_cases hnone : cnt = 0 ∨ m.getSmsDataFlag = true
  · rw [if_pos hnone]
    refine iff_of_true (List.forall_mem_nil _) ?_
    rintro ⟨⟨-, hcnt⟩, hdata, -⟩
    rcases hnone with hzero | htrue
    · exact hcnt hzero
    · exact absurd (hdata.symm.trans htrue) (by decide)
  · rw [if_neg hnone]
    obtain ⟨hcnt, hdata⟩ := not_or.mp hnone
    have hle := (hin hcnt).1
    by_cases hone : commasAfter m.comma c = 1
    · rw [if_pos hone, if_neg (by omega)]
      by_cases hchar : isSenderChar c = true
      · rw [if_pos hchar, List.forall_mem_cons, List.forall_mem_singleton]
        constructor
        · rintro ⟨-, hlt⟩ ⟨-, -, hlast, -⟩
          omega
        · intro hnot
          have hne : m.u8pt ≠ 15 := fun h =>
            hnot ⟨⟨rfl, hcnt⟩, Bool.eq_false_iff.mpr hdata, h, hone, hchar⟩
          omega
      · rw [if_neg hchar]
        exact iff_of_true (List.forall_mem_nil _) fun h => hchar h.2.2.2.2
    · rw [if_neg hone]
      exact iff_of_true (List.forall_mem_nil _) fun h => hone h.2.2.2.1

lemma readMsgLine_inside {s : GsmState} (h : s.readMsg.Inside) :
    (readMsgLine s c).readMsg.Inside := by
  obtain ⟨-, ⟨hu8pt, -, hu8pt2⟩, -⟩ := readMsgLine_eq c s
  exact ⟨hu8pt.trans_le h.1, hu8pt2.trans_le h.2⟩

lemma smsReadMsg_inside (hin : cnt ≠ 0 → w.app.readMsg.Inside)
    (hnot : ¬ SixteenthOfSender (3, cnt) c w.app.readMsg) :
    (smsReadMsg cnt c w).2.app.readMsg.Inside := by
  by_cases hcnt : cnt = 0
  · rw [hcnt, smsReadMsg_zero]
    exact ⟨Nat.zero_le _, Nat.zero_le _⟩
  obtain ⟨hsender, hbody⟩ := hin hcnt
  obtain ⟨-, hu8pt, -, hu8pt2, -⟩ := countComma_eq w.app.readMsg c
  cases hdata : w.app.readMsg.getSmsDataFlag with
  | false =>
      rcases smsReadMsg_header_cases (c := c) hcnt hdata with
        ⟨-, hfull, -⟩ | ⟨⟨hone, hchar⟩, hless, heq⟩ | ⟨-, -, heq⟩
      · omega
      · rw [heq]
        have hne : w.app.readMsg.u8pt ≠ 15 := fun h => hnot ⟨⟨rfl, hcnt⟩, hdata, h, hone, hchar⟩
        refine readMsgLine_inside ⟨?_, hu8pt2.trans_le hbody⟩
        show w.app.readMsg.u8pt + 1 ≤ 15
        omega
      · rw [heq]
        exact readMsgLine_inside ⟨hu8pt.trans_le hsender, hu8pt2.trans_le hbody⟩
  | true =>
      obtain ⟨-, hmatch, -, -⟩ := matchByte_countComma w.app.readMsg c
      rcases smsReadMsg_text_cases (c := c) hcnt hdata with ⟨-, -, happ⟩ | ⟨hgoes, -, happ⟩
      · rw [happ]
        refine ⟨hmatch.trans_le hsender, ?_⟩
        show textEnd w.app.readMsg.u8pt2 ≤ 256
        unfold textEnd
        split_ifs
        · omega
        · exact hbody
      · rw [happ]
        refine readMsgLine_inside ⟨hmatch.trans_le hsender, ?_⟩
        exact Nat.not_le.mp fun h => hgoes (Or.inr h)

lemma urcClipProcess_more {s : GsmState} (h : (urcClipProcess cnt c s).1 ≠ 0) :
    cnt.toNat ≤ 14 := by
  unfold urcClipProcess at h
  split_ifs at h with hdigit hfull hquote
  · exact absurd rfl h
  · exact UInt16.not_lt.mp hfull
  · exact absurd rfl h
  · exact absurd rfl h

end Sixteenth

/-! ## Runs -/

section Run

variable {w : GsmWorld} {c : UInt8}

/-- The byte is for a handler only when the parser waits. -/
lemma urcDispatch_eq_some {i : ℕ} {cnt : UInt16} (h : urcDispatch w = some (i, cnt)) :
    (urcParser w.app).process.state = .waitFinish ∧
      (urcParser w.app).process.strInProcess.toNat = i ∧
      (urcParser w.app).process.dataRecvLength = cnt := by
  unfold urcDispatch strDispatch at h
  split_ifs at h with henable hwaits
  obtain ⟨hi, hcnt⟩ := Prod.mk.inj (Option.some.inj h)
  exact ⟨(strParserCtl_eq _ _).2.2 hwaits, hi, hcnt⟩

/-- The invariant gives the handlers what they need. -/
lemma UrcInv.handler (h : UrcInv w.app) {i : ℕ} {cnt : UInt16}
    (hto : urcDispatch w = some (i, cnt)) :
    (i = 0 → cnt.toNat ≤ 15) ∧ (i = 3 → cnt ≠ 0 → w.app.readMsg.Inside) := by
  obtain ⟨hwaits, rfl, rfl⟩ := urcDispatch_eq_some hto
  exact ⟨h.clip hwaits, h.read hwaits⟩

/-- **The stores are inside exactly if the byte is no sixteenth character.** -/
lemma UrcInv.within_iff (h : UrcInv w.app) : (urcStores w c).Within ↔ ShortNumbers w c := by
  unfold urcStores ShortNumbers
  cases hto : urcDispatch w with
  | none => exact iff_of_true noStores_within fun d hd => absurd hd (Option.not_mem_none d)
  | some d =>
      obtain ⟨i, cnt⟩ := d
      obtain ⟨hclip, hread⟩ := h.handler hto
      simp only [Option.mem_some_iff, forall_eq']
      match i with
      | 0 =>
          have hother : ¬ SixteenthOfSender (0, cnt) c w.app.readMsg := fun h =>
            absurd h.1.1 (by simp)
          rw [and_iff_left hother, ← clipStores_iff (hclip rfl)]
          exact and_iff_left ⟨List.forall_mem_nil _, List.forall_mem_nil _⟩
      | 3 =>
          have hother : ¬ SixteenthDigit (3, cnt) c := fun h =>
            absurd (congrArg Prod.fst h.1) (by simp)
          rw [and_iff_right hother, ← senderStores_iff (hread rfl)]
          exact (and_iff_right (List.forall_mem_nil _)).trans
            (and_iff_left (bodyStores_within (hread rfl)))
      | 1 | 2 | n + 4 =>
          refine iff_of_true noStores_within ⟨fun h => ?_, fun h => ?_⟩
          · exact absurd (congrArg Prod.fst h.1) (by simp)
          · exact absurd h.1.1 (by simp)

/-- How the parser comes to wait. -/
lemma urcParse_waits (henable : w.app.atCommandParserEnable = true)
    (h : (urcParse w c).1.process.state = .waitFinish) :
    (urcParse w c).1.process.dataRecvLength = 0 ∨
      ∃ i cnt, urcDispatch w = some (i, cnt) ∧
        (atProcessCallback i cnt c (urcReady w).ticked).1 ≠ 0 ∧
        (urcParse w c).2.2 = (atProcessCallback i cnt c (urcReady w).ticked).2 ∧
        (urcParse w c).1.process.strInProcess.toNat = i ∧
        (urcParse w c).1.process.dataRecvLength = cnt + 1 := by
  rcases strComnandParser_waits _ _ _ _ _ _ _ h with hzero | ⟨i, cnt, hto, hmore, hi, hcnt⟩
  · exact Or.inl hzero
  · have hhandled := strComnandParser_dispatch (w.clock 0) atProcessCommands atProcessCallback
      (urcParser w.app) w.app.lastChar c (urcReady w).ticked
    rw [hto] at hhandled
    exact Or.inr ⟨i, cnt, (if_pos henable).trans hto, hmore, hhandled, hi, hcnt⟩

lemma urcParse_started : (urcParse w c).2.2.app.atCommandParserStarted = true := by
  obtain ⟨-, hstarted, -⟩ := urcReady_eq w
  rcases strComnandParser_state (w.clock 0) atProcessCommands atProcessCallback (urcParser w.app)
      w.app.lastChar c (urcReady w).ticked with heq | ⟨i, cnt, heq⟩
  · exact (congrArg (fun w' : GsmWorld => w'.app.atCommandParserStarted) heq).trans hstarted
  · exact (congrArg (fun w' : GsmWorld => w'.app.atCommandParserStarted) heq).trans
      ((atProcessCallback_started i cnt c _).trans hstarted)

/-- **The invariant is kept** unless the byte is a sixteenth character. -/
lemma UrcInv.byte (h : UrcInv w.app) (hshort : ShortNumbers w c) :
    UrcInv (atComnandParser w c).app := by
  obtain ⟨hparser, hstarted, hmsg, -⟩ := urcReady_eq w
  rw [atComnandParser_eq]
  by_cases henable : w.app.atCommandParserEnable = true
  · rw [if_pos henable]
    have hnext : urcParser ((urcParse w c).2.2.setApp (urcParsed w c)).app = (urcParse w c).1 :=
      if_pos urcParse_started
    refine ⟨fun hwaits hclip => ?_, fun hwaits hread hsome => ?_⟩
    · rw [hnext] at hwaits hclip ⊢
      rcases urcParse_waits henable hwaits with hzero | ⟨i, cnt, -, hmore, -, hi, hcnt⟩
      · rw [hzero]
        exact Nat.zero_le _
      · obtain rfl : i = 0 := hi.symm.trans hclip
        have hle := urcClipProcess_more hmore
        rw [hcnt, UInt16.toNat_add]
        exact (Nat.mod_le _ _).trans (Nat.succ_le_succ hle)
    · rw [hnext] at hwaits hread hsome
      rcases urcParse_waits henable hwaits with hzero | ⟨i, cnt, hto, -, hhandled, hi, -⟩
      · exact absurd hzero hsome
      · obtain rfl : i = 3 := hi.symm.trans hread
        show (urcParse w c).2.2.app.readMsg.Inside
        rw [hhandled]
        refine smsReadMsg_inside (fun hcnt => ?_) ?_
        · rw [show (urcReady w).ticked.app.readMsg = w.app.readMsg from hmsg]
          exact (h.handler hto).2 rfl hcnt
        · rw [show (urcReady w).ticked.app.readMsg = w.app.readMsg from hmsg]
          exact (hshort _ hto).2
  · rw [if_neg henable]
    have hready : urcParser (urcReady w).app = urcParser w.app := by
      rw [urcParser, if_pos hstarted, hparser]
    exact ⟨by rw [hready]; exact h.clip, by rw [hready, hmsg]; exact h.read⟩

end Run

/-- What happens between two bytes from the modem: whatever leaves the parser and the statics of
`Ampm_SMS_ReadMsg` alone. -/
structure Meanwhile where
  change : GsmWorld → GsmWorld
  parser : ∀ w, (change w).app.atCmdParser = w.app.atCmdParser
  started : ∀ w, (change w).app.atCommandParserStarted = w.app.atCommandParserStarted
  readMsg : ∀ w, (change w).app.readMsg = w.app.readMsg

lemma Meanwhile.inv (e : Meanwhile) {w : GsmWorld} (h : UrcInv w.app) :
    UrcInv (e.change w).app := by
  have hparser : urcParser (e.change w).app = urcParser w.app := by
    unfold urcParser
    rw [e.started, e.parser]
  exact ⟨by rw [hparser]; exact h.clip, by rw [hparser, e.readMsg]; exact h.read⟩

/-- Something happens, and then a byte comes. -/
def urcStep (w : GsmWorld) (i : Meanwhile × UInt8) : GsmWorld := atComnandParser (i.1.change w) i.2

/-- **The runs whose stores are all inside the arrays** are those in which no caller's number has a
sixteenth digit and no sender a sixteenth character. -/
theorem urcStores_within_iff {w : GsmWorld}
    (hidle : (urcParser w.app).process.state = .finish) (is : List (Meanwhile × UInt8)) :
    StepsMeet urcStep (fun w i => (urcStores (i.1.change w) i.2).Within) w is ↔
      StepsMeet urcStep (fun w i => ShortNumbers (i.1.change w) i.2) w is := by
  refine stepsMeet_iff_of_invariant (I := fun w => UrcInv w.app)
    (fun w i hinv => (i.1.inv hinv).within_iff) (fun w i hinv => (i.1.inv hinv).byte) ?_
  exact ⟨fun h => absurd (hidle.symm.trans h) nofun, fun h => absurd (hidle.symm.trans h) nofun⟩

/-- Nothing happens between the bytes. -/
def undisturbed (c : UInt8) : Meanwhile × UInt8 :=
  ({ change := id, parser := fun _ => rfl, started := fun _ => rfl, readMsg := fun _ => rfl }, c)

/-- The state after power-up, with the parser switched on. -/
def listening : GsmWorld :=
  let w := engineAt .smsRecvCmdProcess4 .wait gsmReset
  w.setApp { w.app with atCommandParserEnable := true }

/-- A caller's number of fifteen digits. -/
theorem urcStores_fifteen_digits :
    StepsMeet urcStep (fun w i => (urcStores (i.1.change w) i.2).Within)
      listening
      ((bytesOf "+CLIP: \"123456789012345\"").map undisturbed) :=
  (urcStores_within_iff (by decide) _).mpr (by decide +kernel)

/-- One of sixteen. -/
theorem urcStores_sixteen_digits :
    ¬ StepsMeet urcStep (fun w i => (urcStores (i.1.change w) i.2).Within)
      listening
      ((bytesOf "+CLIP: \"1234567890123456\"").map undisturbed) := by
  decide +kernel

end Ampm

import AmpmGsm.Gsm.Io

/-!
# What the callbacks leave alone

The send and receive callbacks work on the variables of `ampm_gsm_io.c` and of the response
parsers.  This file says once which variables those are, and what each packet's callback logs.

* `IoFrame` — nothing but those variables has changed.
* `gsmRecvCallback_own` — the receive callback.
* `gsmSendCallback_own` and its cases — the send callback, by the packet it sends.
* `gsmRecvCallback_quiet`, `gsmCode_endCb_acts` — the library's callbacks are callbacks as the
  engine expects them.
* `GsmTaskStep`, `gsmTask_step` — all that a call of `Ampm_Cmd_Task` can do to a descriptor of the
  library.
-/

namespace Ampm

/-- Only the variables of the command layer differ. -/
abbrev IoFrame (s s' : GsmState) : Prop :=
  s' = { s with
    rx := s'.rx
    atCmd := s'.atCmd
    atCmdBuf := s'.atCmdBuf
    cmdOk := s'.cmdOk
    cmdFails := s'.cmdFails
    callBackParser := s'.callBackParser
    atProcessCmd := s'.atProcessCmd
    lastChar := s'.lastChar
    csqBuff := s'.csqBuff
    pduLen := s'.pduLen
    pduLenExceptSmsc := s'.pduLenExceptSmsc
    serviceCenterNumber := s'.serviceCenterNumber
    serviceCenterLen := s'.serviceCenterLen
    getServiceCenterNumber := s'.getServiceCenterNumber
    smsTaskFailCnt := s'.smsTaskFailCnt
    tSmsTaskTimeOut := s'.tSmsTaskTimeOut
    voiceCall := s'.voiceCall
    listOfCurrentCall := s'.listOfCurrentCall
    listOfCurrentCallLen := s'.listOfCurrentCallLen
    gotListOfCurrentCall := s'.gotListOfCurrentCall
    ceerId := s'.ceerId
    gotCeerId := s'.gotCeerId
    getCeerFlag := s'.getCeerFlag
    main := s'.main }

namespace IoFrame

variable {s s' s'' : GsmState}

lemma refl (s : GsmState) : IoFrame s s := rfl

lemma trans (h : IoFrame s s') (h' : IoFrame s' s'') : IoFrame s s'' := by
  unfold IoFrame at *
  rw [h] at h'
  exact h'

end IoFrame

/-! ## The receive callback -/

lemma gsmResponse_frame (f : GsmRespCb) (cnt : UInt16) (c : UInt8) (s : GsmState) :
    IoFrame s (gsmResponse f cnt c s).2 ∧ (gsmResponse f cnt c s).2.atCmd = s.atCmd := by
  cases f with
  | gsmGetCsq =>
      simp only [gsmResponse, gsmGetCsq]
      split_ifs <;> exact ⟨rfl, rfl⟩
  | getServiceCenterNumber =>
      simp only [gsmResponse, getServiceCenterNumber]
      split_ifs <;> exact ⟨rfl, rfl⟩
  | getListOfCurrentCall =>
      simp only [gsmResponse, getListOfCurrentCall]
      split_ifs <;> exact ⟨rfl, rfl⟩
  | getCeer =>
      simp only [gsmResponse, getCeer]
      split_ifs <;> exact ⟨rfl, rfl⟩
  | mainSwithToIdle => exact ⟨rfl, rfl⟩
  | gsmGetImei =>
      simp only [gsmResponse, gsmGetImei]
      split_ifs <;> exact ⟨rfl, rfl⟩
  | gsmGetSimCid =>
      simp only [gsmResponse, gsmGetSimCid]
      split_ifs <;> exact ⟨rfl, rfl⟩
  | gsmGetAti =>
      obtain ⟨ati, cmps, script, heq⟩ := gsmGetAti_main cnt c s
      rw [gsmResponse, heq]
      exact ⟨rfl, rfl⟩

/-- From `w` to `w'` without an event, within the command layer and with the same packet. -/
def RecvStep (w w' : GsmWorld) : Prop :=
  ∃ app clock, w' = w.own app clock [] ∧ IoFrame w.app app ∧ app.atCmd = w.app.atCmd

namespace RecvStep

variable {w w' w'' : GsmWorld}

lemma refl (w : GsmWorld) : RecvStep w w := ⟨w.app, w.clock, rfl, .refl _, rfl⟩

lemma trans (h : RecvStep w w') (h' : RecvStep w' w'') : RecvStep w w'' := by
  obtain ⟨app, clock, rfl, hframe, hcmd⟩ := h
  obtain ⟨app', clock', rfl, hframe', hcmd'⟩ := h'
  exact ⟨app', clock', rfl, hframe.trans hframe', hcmd'.trans hcmd⟩

lemma setApp (h : RecvStep w w') {app : GsmState} (hframe : IoFrame w'.app app)
    (hcmd : app.atCmd = w'.app.atCmd) : RecvStep w (w'.setApp app) :=
  h.trans ⟨app, w'.clock, rfl, hframe, hcmd⟩

end RecvStep

lemma atProcessCallback0_frame (i : ℕ) (cnt : UInt16) (c : UInt8) (s : GsmState) :
    IoFrame s (atProcessCallback0 i cnt c s).2 ∧
      (atProcessCallback0 i cnt c s).2.atCmd = s.atCmd := by
  unfold atProcessCallback0
  cases s.atProcessCmd.1 with
  | none => exact ⟨.refl s, rfl⟩
  | some f => exact gsmResponse_frame f cnt c s

lemma parseResponse_step (w : GsmWorld) (c : UInt8) : RecvStep w (parseResponse w c) := by
  unfold parseResponse
  dsimp only
  split_ifs
  · refine ⟨_, fun k => w.clock (k + 1), rfl, ?_⟩
    rcases strComnandParser_state (w.clock 0) [w.app.atProcessCmd.2] atProcessCallback0
      w.app.callBackParser w.app.lastChar c w.app with heq | ⟨i, cnt, heq⟩
    · rw [heq]
      exact ⟨rfl, rfl⟩
    · rw [heq]
      obtain ⟨hframe, hcmd⟩ := atProcessCallback0_frame i cnt c w.app
      exact ⟨hframe.trans rfl, hcmd⟩
  · exact .refl w

/-- What `Ampm_GsmRecvCallback` logs. -/
def recvEvents (packet : GsmPacket) (res : UInt32) : List GsmEvent :=
  if res = 3 then [.okFound packet] else []

/-- **The receive callback.**  It works within the command layer, keeps the packet whose answer it
looks for, and logs a match exactly when it returns `AMPM_CMD_DELAY`. -/
theorem recvBytes_own (bytes : List UInt8) (w : GsmWorld) :
    ∃ app clock, (recvBytes bytes w).2 =
        w.own app clock (recvEvents w.app.atCmd (recvBytes bytes w).1) ∧
      IoFrame w.app app ∧ app.atCmd = w.app.atCmd := by
  induction bytes generalizing w with
  | nil => exact ⟨w.app, w.clock, rfl, .refl _, rfl⟩
  | cons c rest ih =>
      have hrec : ∀ w', RecvStep w w' → ∃ app clock, (recvBytes rest w').2 =
          w.own app clock (recvEvents w.app.atCmd (recvBytes rest w').1) ∧
          IoFrame w.app app ∧ app.atCmd = w.app.atCmd := by
        rintro _ ⟨app, clock, rfl, hframe, hcmd⟩
        obtain ⟨app', clock', heq, hframe', hcmd'⟩ := ih (w.own app clock [])
        rw [CmdWorld.own_app, hcmd] at heq
        exact ⟨app', clock', heq, hframe.trans hframe', hcmd'.trans hcmd⟩
      have hfirst : RecvStep w (w.setApp { w.app with rx := rest }) :=
        (RecvStep.refl w).setApp rfl rfl
      unfold recvBytes
      dsimp only
      by_cases hchar : c ≠ 0x1A ∧ c ≠ 0x1B
      · simp only [if_pos hchar]
        have hw₁ := hfirst.trans (parseResponse_step (w.setApp { w.app with rx := rest }) c)
        generalize parseResponse (w.setApp { w.app with rx := rest }) c = w₁ at hw₁ ⊢
        have hok : RecvStep w (w₁.setApp { w₁.app with cmdOk := (findData w₁.app.cmdOk c).2 }) :=
          hw₁.setApp rfl rfl
        generalize w₁.setApp { w₁.app with cmdOk := (findData w₁.app.cmdOk c).2 } = w₂ at hok ⊢
        by_cases hfound : (findData w₁.app.cmdOk c).1 = 0
        · simp only [if_pos hfound]
          obtain ⟨app, clock, rfl, hframe, hcmd⟩ := hok
          refine ⟨app, clock, ?_, hframe, hcmd⟩
          rw [← hcmd]
          rfl
        · simp only [if_neg hfound]
          have hfails : RecvStep w
              (w₂.setApp { w₂.app with cmdFails := (findData w₂.app.cmdFails c).2 }) :=
            hok.setApp rfl rfl
          split_ifs
          · exact hfails
          · exact hrec _ hfails
      · simp only [if_neg hchar]
        exact hrec _ hfirst

/-- `AMPM_CMD_RESEND`, `AMPM_CMD_WAIT` or `AMPM_CMD_DELAY`. -/
lemma recvBytes_res (bytes : List UInt8) (w : GsmWorld) :
    (recvBytes bytes w).1 = 1 ∨ (recvBytes bytes w).1 = 2 ∨ (recvBytes bytes w).1 = 3 := by
  induction bytes generalizing w with
  | nil => exact Or.inr (Or.inl rfl)
  | cons c rest ih =>
      unfold recvBytes
      dsimp only
      split_ifs
      · exact Or.inr (Or.inr rfl)
      · exact Or.inl rfl
      · exact ih _
      · exact ih _

theorem gsmRecvCallback_own (w : GsmWorld) :
    ∃ app clock, (gsmRecvCallback w).2 =
        w.own app clock (recvEvents w.app.atCmd (gsmRecvCallback w).1) ∧
      IoFrame w.app app ∧ app.atCmd = w.app.atCmd :=
  recvBytes_own w.app.rx w

lemma gsmRecvCallback_quiet (w : GsmWorld) : Quiet w (gsmRecvCallback w).2 := by
  obtain ⟨app, clock, heq, -⟩ := gsmRecvCallback_own w
  exact ⟨app, clock, _, heq⟩

/-! ## The send callback -/

lemma initMatchers_frame (packet : AtCmdPacket) (timeout : UInt16) (s : GsmState) :
    IoFrame s (initMatchers packet timeout s) ∧ (initMatchers packet timeout s).atCmd = s.atCmd := by
  unfold initMatchers
  cases packet.callback with
  | none => exact ⟨rfl, rfl⟩
  | some callback =>
      cases packet.response with
      | none => exact ⟨rfl, rfl⟩
      | some response => exact ⟨rfl, rfl⟩

/-- `Ampm_GsmSendCallback` before it sends: the packet is noted and the receive buffer drained. -/
def openSend (w : GsmWorld) (packet : GsmPacket) : GsmWorld :=
  w.setApp { w.app with atCmd := packet, rx := [] }

/-- What follows: the bytes go out and the matchers are set up. -/
def closeSend (packet : AtCmdPacket) (w : GsmWorld) (bytes : List UInt8) : GsmWorld :=
  (commPuts w bytes).setApp (initMatchers packet w.cmdSend.timeout w.app)

/-- What follows a formatted command. -/
def closeFormatted (packet : AtCmdPacket) (w : GsmWorld) : GsmWorld :=
  closeSend packet (w.setApp { w.app with atCmdBuf := w.app.atCmdBuf.take 255 })
    (w.app.atCmdBuf.take 255)

lemma closeSend_own (packet : AtCmdPacket) (w : GsmWorld) (text : List UInt8) :
    ∃ app bytes, closeSend packet w text = w.own app w.clock [.tx bytes] ∧
      IoFrame w.app app ∧ app.atCmd = w.app.atCmd :=
  ⟨_, _, rfl, initMatchers_frame packet w.cmdSend.timeout w.app⟩

lemma closeFormatted_own (packet : AtCmdPacket) (w : GsmWorld) :
    ∃ app bytes, closeFormatted packet w = w.own app w.clock [.tx bytes] ∧
      IoFrame w.app app ∧ app.atCmd = w.app.atCmd := by
  obtain ⟨app, bytes, heq, hframe, hcmd⟩ := closeSend_own packet
    (w.setApp { w.app with atCmdBuf := w.app.atCmdBuf.take 255 }) (w.app.atCmdBuf.take 255)
  have hbuf : IoFrame w.app { w.app with atCmdBuf := w.app.atCmdBuf.take 255 } := rfl
  exact ⟨app, bytes, heq, hbuf.trans hframe, hcmd⟩

lemma gsmSendCallback_fixed {w : GsmWorld} {packet : GsmPacket}
    (hpacket : w.cmdSend.appStruct = some packet)
    (hsprintf : (gsmPacket w.app packet).sprintf = none) :
    gsmSendCallback w = closeSend (gsmPacket w.app packet) (openSend w packet)
      ((gsmPacket w.app packet).command.getD []) := by
  simp only [gsmSendCallback, hpacket, Option.getD_some, sendPacket, hsprintf]
  rfl

lemma gsmSendCallback_formatted {w : GsmWorld} {packet : GsmPacket} {callback : GsmSprintf}
    (hpacket : w.cmdSend.appStruct = some packet)
    (hsprintf : (gsmPacket w.app packet).sprintf = some callback) :
    gsmSendCallback w =
      closeFormatted (gsmPacket w.app packet) (gsmSprintf callback (openSend w packet)) := by
  simp only [gsmSendCallback, hpacket, Option.getD_some, sendPacket, hsprintf]
  rfl

/-- What a formatted command logs. -/
def formatEvents (s : GsmState) : Option GsmSprintf → List GsmEvent
  | some .gsmSmsSendMessageCallback => [.bodyWritten s.smsMsg]
  | some .gsmSmsRecvCallbackCmgr => [.cmgr s.smsIndex]
  | _ => []

/-- A formatted command other than the two that may load a descriptor. -/
lemma gsmSprintf_own {callback : GsmSprintf} (w : GsmWorld)
    (hcmgs : callback ≠ .gsmSmsSendCallbackCmgs) (hchld : callback ≠ .gsmChld1XCallback) :
    ∃ app clock, gsmSprintf callback w = w.own app clock (formatEvents w.app (some callback)) ∧
      IoFrame w.app app ∧ app.atCmd = w.app.atCmd := by
  cases callback with
  | dialupAtCallback0 => exact ⟨_, w.clock, rfl, rfl, rfl⟩
  | gsmSmsRecvCallbackCmgr => exact ⟨_, fun k => w.clock (k + 1), rfl, rfl, rfl⟩
  | gsmSmsRecvCallbackCmgd => exact ⟨_, w.clock, rfl, rfl, rfl⟩
  | gsmSmsSendCallbackCmgs => exact absurd rfl hcmgs
  | gsmSmsSendMessageCallback =>
      simp only [gsmSprintf, gsmSmsSendMessageCallback]
      split_ifs
      · exact ⟨_, w.clock, rfl, rfl, rfl⟩
      · exact ⟨_, w.clock, rfl, rfl, rfl⟩
  | gsmCallDialStartCallback =>
      simp only [gsmSprintf, gsmCallDialStartCallback]
      split_ifs
      · exact ⟨_, w.clock, rfl, rfl, rfl⟩
      · exact ⟨_, w.clock, rfl, rfl, rfl⟩
  | gsmChld1XCallback => exact absurd rfl hchld

/-- **The send callback, of a packet that loads nothing.**  It works within the command layer and
logs the command's own event and the bytes. -/
theorem gsmSendCallback_own {w : GsmWorld} {packet : GsmPacket}
    (hpacket : w.cmdSend.appStruct = some packet)
    (hcmgs : (gsmPacket w.app packet).sprintf ≠ some .gsmSmsSendCallbackCmgs)
    (hchld : (gsmPacket w.app packet).sprintf ≠ some .gsmChld1XCallback) :
    ∃ app clock bytes, gsmSendCallback w = w.own app clock
        (.tx bytes :: formatEvents w.app (gsmPacket w.app packet).sprintf) ∧
      IoFrame w.app app ∧ app.atCmd = packet := by
  have hopen : IoFrame w.app (openSend w packet).app := rfl
  cases hsprintf : (gsmPacket w.app packet).sprintf with
  | none =>
      rw [gsmSendCallback_fixed hpacket hsprintf]
      obtain ⟨app, bytes, heq, hframe, hcmd⟩ := closeSend_own (gsmPacket w.app packet)
        (openSend w packet) ((gsmPacket w.app packet).command.getD [])
      exact ⟨app, w.clock, bytes, heq, hopen.trans hframe, hcmd⟩
  | some callback =>
      rw [hsprintf] at hcmgs hchld
      rw [gsmSendCallback_formatted hpacket hsprintf]
      obtain ⟨app, clock, hformat, hframe, hcmd⟩ := gsmSprintf_own (openSend w packet)
        (fun h => hcmgs (congrArg some h)) (fun h => hchld (congrArg some h))
      obtain ⟨app', bytes, hclose, hframe', hcmd'⟩ := closeFormatted_own
        (gsmPacket w.app packet) (gsmSprintf callback (openSend w packet))
      rw [hformat] at hclose hframe' hcmd'
      refine ⟨app', clock, bytes, ?_, (hopen.trans hframe).trans hframe', hcmd'.trans hcmd⟩
      rw [hformat, hclose, CmdWorld.own_own]
      cases callback <;> rfl

/-! ### `AT+CMGS` -/

/-- Nothing but the command layer and the PDU buffer has changed. -/
def PduFrame (s s' : GsmState) : Prop := IoFrame { s with smsDataBuf := s'.smsDataBuf } s'

/-- Nothing but the command layer, the PDU buffer and the message in hand has changed: that
message is finished. -/
def FinishFrame (s s' : GsmState) : Prop :=
  ∃ flag, IoFrame { s with
    smsDataBuf := s'.smsDataBuf
    smsHeap := Function.update s.smsHeap s.smsMsg
      { s.sms with phone := none, len := 0, flag := flag } } s'

lemma PduFrame.io {s s' s'' : GsmState} (h : PduFrame s s') (h' : IoFrame s' s'') :
    PduFrame s s'' := by
  have hbuf : s''.smsDataBuf = s'.smsDataBuf := by rw [h']
  unfold PduFrame
  rw [hbuf]
  exact h.trans h'

lemma IoFrame.pdu {s s' : GsmState} (h : IoFrame s s') : PduFrame s s' := by
  have hself : PduFrame s s := rfl
  exact hself.io h

lemma FinishFrame.io {s s' s'' : GsmState} (h : FinishFrame s s') (h' : IoFrame s' s'') :
    FinishFrame s s'' := by
  obtain ⟨flag, hflag⟩ := h
  have hbuf : s''.smsDataBuf = s'.smsDataBuf := by rw [h']
  refine ⟨flag, ?_⟩
  rw [hbuf]
  exact hflag.trans h'

/-- What sending `AT+CMGS` comes to: the command goes out, or the chain starts again for the
service centre number, or the message is given up. -/
inductive SentCmgs (w : GsmWorld) : GsmWorld → Prop
  | formatted (app : GsmState) (events : List GsmEvent) (hframe : PduFrame w.app app)
      (htx : ∀ e ∈ events, e.isTx = true) : SentCmgs w (w.own app w.clock events)
  | restarted (app : GsmState) (events : List GsmEvent) (hframe : IoFrame w.app app)
      (htx : ∀ e ∈ events, e.isTx = true) :
      SentCmgs w ((sendAtCmdNow w .smsSendCmdProcess0).own app (fun k => w.clock (k + 1)) events)
  | givenUp (app : GsmState) (events : List GsmEvent) (hframe : FinishFrame w.app app)
      (htx : ∀ e ∈ events, e.isTx = true) :
      SentCmgs w ((sendAtCmdNow w .smsSendCmdProcessEnd).own app (fun k => w.clock (k + 1)) events)

lemma gsmSmsSendCallbackCmgs_sent (w : GsmWorld) :
    SentCmgs w (gsmSmsSendCallbackCmgs w) ∧ (gsmSmsSendCallbackCmgs w).app.atCmd = w.app.atCmd := by
  have hnone : ∀ e ∈ ([] : List GsmEvent), e.isTx = true := List.forall_mem_nil _
  unfold gsmSmsSendCallbackCmgs
  dsimp only
  split_ifs
  · exact ⟨.formatted _ [] rfl hnone, rfl⟩
  · exact ⟨.givenUp _ [] ⟨smsMsgFail, rfl⟩ hnone, rfl⟩
  · exact ⟨.formatted _ [] rfl hnone, rfl⟩
  · exact ⟨.restarted _ [] rfl hnone, rfl⟩
  · exact ⟨.givenUp _ [] ⟨smsMsgSent, rfl⟩ hnone, rfl⟩

/-- Opening and closing the send keep what `SentCmgs` says. -/
lemma SentCmgs.close {w w' : GsmWorld} {packet : GsmPacket} (h : SentCmgs (openSend w packet) w')
    (p : AtCmdPacket) : SentCmgs w (closeFormatted p w') := by
  have hopen : IoFrame w.app (openSend w packet).app := rfl
  obtain ⟨app', bytes, heq, hframe', -⟩ := closeFormatted_own p w'
  have htx' : ∀ events : List GsmEvent, (∀ e ∈ events, e.isTx = true) →
      ∀ e ∈ GsmEvent.tx bytes :: events, e.isTx = true :=
    fun events htx => List.forall_mem_cons.mpr ⟨rfl, htx⟩
  rw [heq]
  cases h with
  | formatted app events hframe htx =>
      rw [CmdWorld.own_own]
      exact .formatted app' _ (hframe.io hframe') (htx' events htx)
  | restarted app events hframe htx =>
      rw [CmdWorld.own_own]
      exact .restarted app' _ ((hopen.trans hframe).trans hframe') (htx' events htx)
  | givenUp app events hframe htx =>
      rw [CmdWorld.own_own]
      exact .givenUp app' _ (hframe.io hframe') (htx' events htx)

/-- **The send callback, of `AT+CMGS`.** -/
theorem gsmSendCallback_cmgs {w : GsmWorld}
    (hpacket : w.cmdSend.appStruct = some .smsSendCmdAtCmgs) :
    SentCmgs w (gsmSendCallback w) ∧ (gsmSendCallback w).app.atCmd = .smsSendCmdAtCmgs := by
  have hsprintf : (gsmPacket w.app .smsSendCmdAtCmgs).sprintf = some .gsmSmsSendCallbackCmgs := rfl
  rw [gsmSendCallback_formatted hpacket hsprintf]
  obtain ⟨hsent, hcmd⟩ := gsmSmsSendCallbackCmgs_sent (openSend w .smsSendCmdAtCmgs)
  refine ⟨hsent.close _, ?_⟩
  obtain ⟨app, bytes, heq, -, hcmd'⟩ := closeFormatted_own
    (gsmPacket w.app .smsSendCmdAtCmgs) (gsmSmsSendCallbackCmgs (openSend w .smsSendCmdAtCmgs))
  have hclose : (closeFormatted (gsmPacket w.app .smsSendCmdAtCmgs)
      (gsmSmsSendCallbackCmgs (openSend w .smsSendCmdAtCmgs))).app.atCmd =
      (gsmSmsSendCallbackCmgs (openSend w .smsSendCmdAtCmgs)).app.atCmd := by
    rw [heq]
    exact hcmd'
  exact hclose.trans hcmd

/-! ### The send chain -/

/-- The descriptors of the SMS send chain. -/
def sendChain : List GsmCmd :=
  [.smsSendCmdProcess0, .smsSendCmdProcess1, .smsSendCmdProcess2, .smsSendCmdProcess3,
    .smsSendCmdProcess4, .smsSendCmdProcess5, .smsSendCmdProcess6, .smsSendCmdProcessEnd]

/-- The packets of the chain: all but that of `smsSendCmdProcess_4` load nothing, and only that of
`smsSendCmdProcess_5` logs an event of its own. -/
lemma sendChain_packet {n : GsmCmd} (hn : n ∈ sendChain) (h4 : n ≠ .smsSendCmdProcess4)
    (s : GsmState) :
    ∃ packet, (gsmProcess n).appStruct = some packet ∧
      (gsmPacket s packet).sprintf ≠ some .gsmSmsSendCallbackCmgs ∧
      (gsmPacket s packet).sprintf ≠ some .gsmChld1XCallback ∧
      (n ≠ .smsSendCmdProcess5 → formatEvents s (gsmPacket s packet).sprintf = []) ∧
      (n = .smsSendCmdProcess5 → packet = .smsSendMessage) := by
  simp only [sendChain, List.mem_cons, List.not_mem_nil, or_false] at hn
  rcases hn with rfl | rfl | rfl | rfl | rfl | rfl | rfl | rfl
  · exact ⟨_, rfl, by rintro ⟨⟩, by rintro ⟨⟩, fun _ => rfl, by rintro ⟨⟩⟩
  · exact ⟨_, rfl, by rintro ⟨⟩, by rintro ⟨⟩, fun _ => rfl, by rintro ⟨⟩⟩
  · exact ⟨_, rfl, by rintro ⟨⟩, by rintro ⟨⟩, fun _ => rfl, by rintro ⟨⟩⟩
  · exact ⟨_, rfl, by rintro ⟨⟩, by rintro ⟨⟩, fun _ => rfl, by rintro ⟨⟩⟩
  · exact absurd rfl h4
  · exact ⟨_, rfl, by rintro ⟨⟩, by rintro ⟨⟩, fun h => absurd rfl h, fun _ => rfl⟩
  · exact ⟨_, rfl, by rintro ⟨⟩, by rintro ⟨⟩, fun _ => rfl, by rintro ⟨⟩⟩
  · exact ⟨_, rfl, by rintro ⟨⟩, by rintro ⟨⟩, fun _ => rfl, by rintro ⟨⟩⟩

/-! ## The end callbacks -/

lemma gsmSmsRecvNext_loads (whenEmpty : GsmCmd) (w : GsmWorld) :
    ∃ name, Loads gsmProcess name w (gsmSmsRecvNext whenEmpty w).2 := by
  have hq := Quiet.refl w
  unfold gsmSmsRecvNext
  dsimp only
  split_ifs
  · exact ⟨_, ((hq.setApp _).log _).loads _⟩
  · exact ⟨_, (((hq.setApp _).log _).setApp _).loads _⟩
  · exact ⟨_, hq.loads _⟩

lemma gsmSmsRecv2_acts (w : GsmWorld) : Acts gsmProcess w (gsmSmsRecv2 w).2 := by
  have hq := Quiet.refl w
  unfold gsmSmsRecv2
  dsimp only
  split_ifs
  · exact ((hq.log _).loads _).acts
  · exact (((((hq.ticked.setApp _).setApp _).log _).ticked.setApp _).loads _).acts
  · exact ((hq.ticked.setApp _).loads _).acts
  · exact (hq.ticked.setApp _).acts

lemma gsmSmsSent_loads (phase : CmdPhase) (w : GsmWorld) :
    ∃ name, Loads gsmProcess name w (gsmSmsSent phase w).2 := by
  have hq := Quiet.refl w
  unfold gsmSmsSent
  dsimp only
  split_ifs
  · exact ⟨_, (((hq.setApp _).log _).loads _).setApp _⟩
  · exact ⟨_, ((hq.log _).setApp _).loads _⟩

/-- Every end callback of the library only loads descriptors or stores `AMPM_CMD_OK`, if those of
the other tasks do. -/
theorem gsmCode_endCb_acts {other : GsmEndCb → CmdPhase → GsmWorld → UInt8 × GsmWorld}
    (hother : ∀ callback phase w, Acts gsmProcess w (other callback phase w).2)
    (callback : GsmEndCb) (phase : CmdPhase) (w : GsmWorld) :
    Acts gsmProcess w ((gsmCode other).endCb callback phase w).2 := by
  have hq := Quiet.refl w
  cases callback with
  | gsmSmsRecv0 => exact (gsmSmsRecvNext_loads _ w).choose_spec.acts
  | gsmSmsRecv1 => exact (gsmSmsRecvNext_loads _ w).choose_spec.acts
  | gsmSmsRecv2 => exact gsmSmsRecv2_acts w
  | gsmSmsSendCallbackCmgf =>
      simp only [gsmCode, gsmSmsSendCallbackCmgf]
      split_ifs
      · exact (hq.loads _).acts
      · exact (hq.loads _).acts
  | gsmSmsSendCallbackCsca =>
      simp only [gsmCode, gsmSmsSendCallbackCsca]
      split_ifs
      · exact ((hq.setApp _).loads _).acts
      · exact hq.acts
      · exact (hq.loads _).acts
  | gsmSmsSent => exact (gsmSmsSent_loads phase w).choose_spec.acts
  | gsmCreg =>
      simp only [gsmCode, gsmCreg]
      split_ifs
      · exact (hq.setApp _).acts
      · exact hq.acts
  | setCmdOk => exact .setOk (.nothing w)
  | _ => exact hother _ phase w

/-! ## One call of the engine -/

/-- `cmdSend` is a copy of the descriptor `n`, but for the tries left. -/
structure Holds (n : GsmCmd) (w : GsmWorld) : Prop where
  loaded_eq : w.loaded = some n
  cmdSend_eq : w.cmdSend = { gsmProcess n with retryNum := w.cmdSend.retryNum }

namespace Holds

variable {n : GsmCmd} {w : GsmWorld}

lemma checkTask (h : Holds n w) : Holds n w.checkTask := ⟨h.loaded_eq, h.cmdSend_eq⟩

lemma initTask (h : Holds n w) (ms : UInt16) : Holds n (w.initTask ms) :=
  ⟨h.loaded_eq, h.cmdSend_eq⟩

lemma setPhase (h : Holds n w) (phase : CmdPhase) : Holds n (w.setPhase phase) :=
  ⟨h.loaded_eq, h.cmdSend_eq⟩

lemma log (h : Holds n w) (e : CmdEvent gsmTypes) : Holds n (w.log e) :=
  ⟨h.loaded_eq, h.cmdSend_eq⟩

lemma own (h : Holds n w) (app : GsmState) (clock : ℕ → UInt32) (events : List GsmEvent) :
    Holds n (w.own app clock events) :=
  ⟨h.loaded_eq, h.cmdSend_eq⟩

end Holds

/-- What the engine makes of a descriptor it has sent. -/
def afterSend (w : GsmWorld) : GsmWorld := (w.initTask w.cmdSend.timeout).setPhase .wait

/-- What the engine makes of the result of the receive callback. -/
def afterRecv (r : UInt32 × GsmWorld) : GsmWorld :=
  let res := r.1.toUInt8
  let w := r.2.log (.recv r.2.loaded res)
  if res = CmdPhase.delay.code then (w.initTask w.cmdSend.delay).setPhase .delay
  else if res = CmdPhase.resend.code then (w.setPhase .resend).initTask w.cmdSend.delay
  else w

/-- The three things that can come of waiting: an answer is logged for the packet in hand, the
command is to be sent again, or nothing has changed for the engine. -/
lemma afterRecv_cases (w : GsmWorld) :
    ∃ app clock res, IoFrame w.app app ∧ app.atCmd = w.app.atCmd ∧
      (afterRecv (gsmRecvCallback w) =
          ((((w.own app clock [.okFound w.app.atCmd]).log (.recv w.loaded res)).initTask
            w.cmdSend.delay).setPhase .delay) ∨
        afterRecv (gsmRecvCallback w) =
          ((((w.own app clock []).log (.recv w.loaded res)).setPhase .resend).initTask
            w.cmdSend.delay) ∨
        afterRecv (gsmRecvCallback w) = (w.own app clock []).log (.recv w.loaded res)) := by
  obtain ⟨app, clock, heq, hframe, hcmd⟩ := gsmRecvCallback_own w
  have hret : (gsmRecvCallback w).1 = 1 ∨ (gsmRecvCallback w).1 = 2 ∨ (gsmRecvCallback w).1 = 3 :=
    recvBytes_res w.app.rx w
  refine ⟨app, clock, (gsmRecvCallback w).1.toUInt8, hframe, hcmd, ?_⟩
  unfold afterRecv
  generalize gsmRecvCallback w = r at heq hret
  obtain ⟨res, w'⟩ := r
  simp only at heq hret
  subst heq
  rcases hret with rfl | rfl | rfl
  · exact Or.inr (Or.inl rfl)
  · exact Or.inr (Or.inr rfl)
  · exact Or.inl rfl

/-- One call of `Ampm_Cmd_Task` with a copy of `n` in `cmdSend` and no descriptors listed. -/
inductive GsmTaskStep (other : GsmEndCb → CmdPhase → GsmWorld → UInt8 × GsmWorld) (n : GsmCmd)
    (w : GsmWorld) : GsmWorld → Prop
  | tooEarly (hphase : w.phase = .send ∨ w.phase = .delay) : GsmTaskStep other n w w.checkTask
  | sent (hphase : w.phase = .send) (hexp : w.taskExpired = true) :
      GsmTaskStep other n w (afterSend (gsmSendCallback (w.checkTask.log (.send (some n)))))
  | retry (hphase : w.phase = .resend) :
      GsmTaskStep other n w
        ((({ w with cmdSend := { w.cmdSend with retryNum := w.cmdSend.retryNum - 1 } } :
          GsmWorld).initTask w.cmdSend.delay).setPhase .send)
  | giveUp (hphase : w.phase = .resend) : GsmTaskStep other n w (w.setPhase .gotoError)
  | failed (hphase : w.phase = .gotoError) :
      GsmTaskStep other n w (cmdTaskEnd (gsmCode other) w .gotoError .error)
  | lapsed (hphase : w.phase = .wait) :
      GsmTaskStep other n w ((w.checkTask.log (.timeout (some n))).setPhase .resend)
  | asked (hphase : w.phase = .wait) :
      GsmTaskStep other n w (afterRecv (gsmRecvCallback w.checkTask))
  | succeeded (hphase : w.phase = .delay) :
      GsmTaskStep other n w (cmdTaskEnd (gsmCode other) w.checkTask .delay .ok)
  | next (m : GsmCmd) (hphase : cmdTaskIsIdle w.phase = true)
      (hnext : (gsmProcess n).next = some m) : GsmTaskStep other n w (sendAtCmdNow w m)
  | idle (hphase : cmdTaskIsIdle w.phase = true) (hnext : (gsmProcess n).next = none) :
      GsmTaskStep other n w w

/-- **The engine on the library's descriptors.** -/
theorem gsmTask_step {other : GsmEndCb → CmdPhase → GsmWorld → UInt8 × GsmWorld} {n : GsmCmd}
    {w : GsmWorld} (hlist : w.cmdList = []) (hholds : Holds n w) :
    GsmTaskStep other n w (cmdTask (gsmCode other) w) := by
  have hsend : w.cmdSend.sendDataCallback ≠ none := by
    rw [hholds.cmdSend_eq, (gsmProcess_callbacks n).1]
    exact Option.some_ne_none _
  have hrecv : w.cmdSend.recvDataCallback ≠ none := by
    rw [hholds.cmdSend_eq, (gsmProcess_callbacks n).2]
    exact Option.some_ne_none _
  have hnext' : w.cmdSend.next = (gsmProcess n).next := by rw [hholds.cmdSend_eq]
  have hstep := cmdTask_step (gsmCode other) w
  generalize cmdTask (gsmCode other) w = w' at hstep
  cases hstep with
  | tooEarly hphase hexp => exact .tooEarly hphase
  | sent callback hphase hexp hcb =>
      rw [hholds.loaded_eq]
      exact .sent hphase hexp
  | notSent hphase hexp hcb => exact absurd hcb hsend
  | retry hphase hnum => exact .retry hphase
  | giveUp hphase hnum => exact .giveUp hphase
  | failed hphase => exact .failed hphase
  | notAwaited hphase hcb => exact absurd hcb hrecv
  | lapsed callback hphase hexp hcb =>
      rw [hholds.loaded_eq]
      exact .lapsed hphase
  | asked callback hphase hexp hcb => exact .asked hphase
  | succeeded hphase hexp => exact .succeeded hphase
  | loaded name rest hphase hnext =>
      rcases hnext with ⟨hname, rfl⟩ | ⟨-, -, hcons⟩
      · exact .next name hphase (hnext'.symm.trans hname)
      · exact absurd (hlist.symm.trans hcons) (List.cons_ne_nil _ _).symm
  | idle hphase hnext =>
      rw [← hlist]
      exact .idle hphase (hnext'.symm.trans hnext)

end Ampm

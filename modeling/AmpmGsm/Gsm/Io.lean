import AmpmGsm.Gsm.Modules
import AmpmGsm.Gsm.SmsRecv

/-!
# The library on the command engine

`ampm_gsm_io.c`: the send and receive callbacks that every descriptor shares.

* `gsmSendCallback`, `gsmRecvCallback` — `Ampm_GsmSendCallback` and `Ampm_GsmRecvCallback`.
* `cmdTaskSendCmd` — `Ampm_CmdTask_SendCmd`.
* `gsmCode` — the library's callbacks as the engine calls them.
* `sendLoads` — when the send callback loads a descriptor, and `gsmSendCallback_loads`,
  `gsmSendCallback_quiet`, which say so.
-/

namespace Ampm

/-! ## Formatting, outside the SMS part -/

/-- `DialupAtCallback0`. -/
def dialupAtCallback0 (w : GsmWorld) : GsmWorld :=
  ampmSprintf w (bytesOf "AT+CGDCONT=1,\"IP\",\"" ++ w.app.gprsApn ++ bytesOf "\"\r")

/-- `Ampm_GsmCallDialStartCallback`. -/
def gsmCallDialStartCallback (w : GsmWorld) : GsmWorld :=
  if w.app.call.action ≠ .hangupNow then
    ampmSprintf w (bytesOf "ATD" ++ stringAt w.app.call.phone ++ bytesOf ";\r")
  else ampmSprintf w (bytesOf "AT\r")

/-- `Ampm_GsmCHLD_1X_Callback`. -/
def gsmChld1XCallback (w : GsmWorld) : GsmWorld :=
  match w.app.voiceCall with
  | some pointer =>
      let call := w.app.callAt pointer
      let w := w.setApp (w.app.setCall pointer { call with state := .ended })
      ampmSprintf w (bytesOf "AT+CHLD=1" ++ decimal call.index.toNat ++ bytesOf "\r")
  | none => sendAtCmdNow w .voiceCallSendCmdProcessAtChld

/-- The function at the `sprintf` pointer of a packet. -/
def gsmSprintf : GsmSprintf → GsmWorld → GsmWorld
  | .dialupAtCallback0 => dialupAtCallback0
  | .gsmSmsRecvCallbackCmgr => gsmSmsRecvCallbackCmgr
  | .gsmSmsRecvCallbackCmgd => gsmSmsRecvCallbackCmgd
  | .gsmSmsSendCallbackCmgs => gsmSmsSendCallbackCmgs
  | .gsmSmsSendMessageCallback => gsmSmsSendMessageCallback
  | .gsmCallDialStartCallback => gsmCallDialStartCallback
  | .gsmChld1XCallback => gsmChld1XCallback

/-! ## Parsing a response -/

/-- `Ampm_GsmGetCSQ`, up to the conversion of the number. -/
def gsmGetCsq (cnt : UInt16) (c : UInt8) (s : GsmState) : UInt32 × GsmState :=
  if c = 13 ∨ c = 10 ∨ cnt ≥ 16 then
    (0, { s with csqBuff := Function.update s.csqBuff cnt.toNat 0 })
  else (0xff, { s with csqBuff := Function.update s.csqBuff cnt.toNat c })

/-- `Ampm_GetServiceCenterNumber`. -/
def getServiceCenterNumber (cnt : UInt16) (c : UInt8) (s : GsmState) : UInt32 × GsmState :=
  let s := if cnt = 0 then { s with serviceCenterLen := 0 } else s
  if isDigit c ∨ c = 43 then
    if c ≠ 43 then
      let len := s.serviceCenterLen
      (0xff, { s with
        serviceCenterNumber := Function.update
          (Function.update s.serviceCenterNumber len.toNat c) (len + 1).toNat 0
        serviceCenterLen := len + 1 })
    else (0xff, s)
  else if c = 34 ∧ s.serviceCenterLen ≥ 2 then (0, { s with getServiceCenterNumber := true })
  else (0, s)

/-- `Ampm_GetListOfCurrentCall`. -/
def getListOfCurrentCall (cnt : UInt16) (c : UInt8) (s : GsmState) : UInt32 × GsmState :=
  let len := if cnt = 0 then 0 else s.listOfCurrentCallLen
  let s := { s with
    listOfCurrentCall := Function.update
      (Function.update s.listOfCurrentCall len.toNat c) (len + 1).toNat 0
    listOfCurrentCallLen := len + 1 }
  if c = 13 ∨ c = 10 ∨ len + 1 ≥ 127 then (0, { s with gotListOfCurrentCall := true })
  else (0xff, s)

/-- `Ampm_GetCeer`. -/
def getCeer (cnt : UInt16) (c : UInt8) (s : GsmState) : UInt32 × GsmState :=
  let s := if cnt = 0 then { s with ceerId := 0, getCeerFlag := false } else s
  if s.getCeerFlag ∧ !isDigit c then (0, { s with gotCeerId := true })
  else
    let s :=
      if s.getCeerFlag then { s with ceerId := s.ceerId * 10 + (c.toUInt16 - 48) }
      else if c = 44 then { s with ceerId := 0, getCeerFlag := true }
      else s
    if c = 13 ∨ c = 10 ∨ cnt ≥ 128 then (0, { s with gotCeerId := true }) else (0xff, s)

/-- `Ampm_MainSwithToIdle`; it also initialises the PPP library and the application's network. -/
def mainSwithToIdle (_ : UInt16) (_ : UInt8) (s : GsmState) : UInt32 × GsmState :=
  (0, { s with main := { s.main with dialupPhase := .start, taskPhase := .idle } })

/-- The function at the `callback` pointer of a packet. -/
def gsmResponse : GsmRespCb → UInt16 → UInt8 → GsmState → UInt32 × GsmState
  | .gsmGetCsq => gsmGetCsq
  | .getServiceCenterNumber => getServiceCenterNumber
  | .getListOfCurrentCall => getListOfCurrentCall
  | .getCeer => getCeer
  | .mainSwithToIdle => mainSwithToIdle
  | .gsmGetImei => gsmGetImei
  | .gsmGetSimCid => gsmGetSimCid
  | .gsmGetAti => gsmGetAti

/-! ## The two callbacks -/

/-- The string that a packet sends: formatted into `ampmAtCmdBuf`, whose last byte is then
cleared, or fixed. -/
def sendPacket (w : GsmWorld) (packet : AtCmdPacket) : GsmWorld :=
  match packet.sprintf with
  | some callback =>
      let w := gsmSprintf callback w
      let w := w.setApp { w.app with atCmdBuf := w.app.atCmdBuf.take 255 }
      commPuts w w.app.atCmdBuf
  | none => commPuts w (packet.command.getD [])

/-- The matchers set up for a packet's answer, by `InitFindData` and `StrParserInit`. -/
def initMatchers (packet : AtCmdPacket) (timeout : UInt16) (s : GsmState) : GsmState :=
  let s := { s with
    cmdOk := initFindData packet.resOk
    cmdFails := initFindData packet.resFails }
  match packet.callback, packet.response with
  | some callback, some response =>
      let p := strParserInit s.callBackParser 1 1024
      { s with
        callBackParser := { p with
          process := { p.process with timeoutSet := timeout.toUInt32 } }
        atProcessCmd := (some callback, response) }
  | _, _ => s

/-- `Ampm_GsmSendCallback`. -/
def gsmSendCallback (w : GsmWorld) : GsmWorld :=
  let atCmd := w.cmdSend.appStruct.getD w.app.atCmd
  let packet := gsmPacket w.app atCmd
  let w := sendPacket (w.setApp { w.app with atCmd := atCmd, rx := [] }) packet
  w.setApp (initMatchers packet w.cmdSend.timeout w.app)

/-- `ampm_AtProcessCmd[0].callback`. -/
def atProcessCallback0 (_ : ℕ) (cnt : UInt16) (c : UInt8) (s : GsmState) : UInt32 × GsmState :=
  match s.atProcessCmd.1 with
  | some f => gsmResponse f cnt c s
  | none => (0, s)

/-- One byte through `StrComnandParser`, if the packet has a response to parse. -/
def parseResponse (w : GsmWorld) (c : UInt8) : GsmWorld :=
  let packet := gsmPacket w.app w.app.atCmd
  if packet.callback.isSome ∧ packet.response.isSome then
    let r := strComnandParser (w.clock 0) [w.app.atProcessCmd.2] atProcessCallback0
      w.app.callBackParser w.app.lastChar c w.app
    w.ticked.setApp { r.2.2 with callBackParser := r.1, lastChar := r.2.1 }
  else w

/-- The loop of `Ampm_GsmRecvCallback` over the bytes that `COMM_Getc` returns. -/
def recvBytes : List UInt8 → GsmWorld → UInt32 × GsmWorld
  | [], w => (2, w)
  | c :: rest, w =>
      let w := w.setApp { w.app with rx := rest }
      if c ≠ 0x1A ∧ c ≠ 0x1B then
        let w := parseResponse w c
        let ok := findData w.app.cmdOk c
        let w := w.setApp { w.app with cmdOk := ok.2 }
        if ok.1 = 0 then (3, w.log (.app (.okFound w.app.atCmd)))
        else
          let fails := findData w.app.cmdFails c
          let w := w.setApp { w.app with cmdFails := fails.2 }
          if fails.1 = 0 then (1, w) else recvBytes rest w
      else recvBytes rest w

/-- `Ampm_GsmRecvCallback`. -/
def gsmRecvCallback (w : GsmWorld) : UInt32 × GsmWorld := recvBytes w.app.rx w

/-- The arguments of `Ampm_CmdTask_SendCmd`; `text` is what `format` and its arguments give. -/
structure SendCmdArgs where
  callback : Option GsmRespCb
  response : Option (List UInt8)
  delay : UInt32
  resOk : List UInt8
  resFails : List UInt8
  timeout : UInt32
  tryAgainNum : UInt8
  text : Option (List UInt8)

/-- The descriptor that `Ampm_CmdTask_SendCmd` builds. -/
def builtCmd (args : SendCmdArgs) : CmdProcess gsmTypes :=
  { next := none, appStruct := some .common, sendDataCallback := some .gsmSendCallback,
    recvDataCallback := some .gsmRecvCallback, endDataCallback := none,
    retryNum := args.tryAgainNum, timeout := args.timeout.toUInt16,
    delay := args.delay.toUInt16 }

/-- `Ampm_CmdTask_SendCmd`. -/
def cmdTaskSendCmd (w : GsmWorld) (args : SendCmdArgs) : UInt8 × GsmWorld :=
  if cmdTaskIsIdle w.phase then
    let w := w.setApp { w.app with
      atCmdBuf := args.text.getD []
      commonAppStruct := {
        command := some (args.text.getD []), sprintf := none, response := args.response,
        callback := args.callback, resOk := args.resOk, resFails := args.resFails } }
    let w := { w with cmdSend := builtCmd args, loaded := none }
    (0, ((w.log (.load none)).initTask w.cmdSend.delay).setPhase .send)
  else (1, w)

/-- The code of the library.  `other` stands for the end callbacks of the call, dial-up and main
tasks. -/
def gsmCode (other : GsmEndCb → CmdPhase → GsmWorld → UInt8 × GsmWorld) : CmdCode gsmTypes where
  process := gsmProcess
  send := fun _ => gsmSendCallback
  recv := fun _ => gsmRecvCallback
  endCb := fun callback phase w =>
    match callback with
    | .gsmSmsRecv0 => gsmSmsRecv0 w
    | .gsmSmsRecv1 => gsmSmsRecv1 w
    | .gsmSmsRecv2 => gsmSmsRecv2 w
    | .gsmSmsSendCallbackCmgf => gsmSmsSendCallbackCmgf w
    | .gsmSmsSendCallbackCsca => gsmSmsSendCallbackCsca w
    | .gsmSmsSent => gsmSmsSent phase w
    | .gsmCreg => gsmCreg phase w
    | .setCmdOk => setCmdOk w
    | callback => other callback phase w

/-- The end callbacks of the other tasks, doing nothing. -/
def idleOther (_ : GsmEndCb) (_ : CmdPhase) (w : GsmWorld) : UInt8 × GsmWorld := (1, w)

/-! ## What the send callback does to the engine -/

lemma Quiet.setApp {w w' : GsmWorld} (h : Quiet w w') (app : GsmState) :
    Quiet w (w'.setApp app) :=
  h.trans ⟨app, w'.clock, [], rfl⟩

lemma Loads.setApp {w w' : GsmWorld} {name : GsmCmd} (h : Loads gsmProcess name w w')
    (app : GsmState) : Loads gsmProcess name w (w'.setApp app) := by
  obtain ⟨w₁, hbefore, hafter⟩ := h
  exact ⟨w₁, hbefore, hafter.setApp app⟩

lemma Quiet.loads {w w' : GsmWorld} (h : Quiet w w') (name : GsmCmd) :
    Loads gsmProcess name w (sendAtCmdNow w' name) :=
  ⟨w', h, Quiet.refl _⟩

lemma gsmSmsSendCallbackCmgs_quiet {w : GsmWorld} (h : cmgsLoads w.app = false) :
    Quiet w (gsmSmsSendCallbackCmgs w) := by
  have hq := Quiet.refl w
  unfold gsmSmsSendCallbackCmgs
  by_cases htext : w.app.sms.mode = .text
  · simp only [cmgsLoads, htext, if_true, Bool.or_eq_false_iff, decide_eq_false_iff_not] at h
    simp only [htext, ne_eq, not_true_eq_false, or_false, h.1, h.2, not_false_eq_true, and_self,
      if_true]
    exact hq.setApp _
  · simp only [cmgsLoads, htext, if_false, Bool.or_eq_false_iff, decide_eq_false_iff_not,
      Bool.not_eq_false'] at h
    obtain ⟨hphone, ⟨hsca, hnum⟩, henc⟩ := h
    simp only [htext, ne_eq, not_false_eq_true, or_true, hphone, and_self, if_true, if_false, hsca,
      hnum, henc]
    exact ((hq.setApp _).setApp _).setApp _

lemma gsmSmsSendCallbackCmgs_loads {w : GsmWorld} (h : cmgsLoads w.app = true) :
    ∃ name, (name = .smsSendCmdProcess0 ∨ name = .smsSendCmdProcessEnd) ∧
      Loads gsmProcess name w (gsmSmsSendCallbackCmgs w) := by
  have hq := Quiet.refl w
  unfold gsmSmsSendCallbackCmgs
  dsimp only
  by_cases hsent : (firstChar w.app.sms.msg ≠ 0 ∨ w.app.sms.mode ≠ .text) ∧
      firstChar w.app.sms.phone ≠ 0
  · rw [if_pos hsent]
    have htext : w.app.sms.mode ≠ .text := by
      intro htext
      simp_all [cmgsLoads]
    rw [if_neg htext]
    by_cases hsca : w.app.getServiceCenterNumber = true ∧ w.app.serviceCenterNumber 0 ≠ 0
    · have henc : (encodeSms w.app w.app.sms).1 < 0 := by
        simp_all [cmgsLoads]
      rw [if_pos hsca, if_pos henc]
      exact ⟨_, Or.inr rfl, (((hq.setApp _).setApp _).setApp _).loads _⟩
    · rw [if_neg hsca]
      exact ⟨_, Or.inl rfl, hq.loads _⟩
  · rw [if_neg hsent]
    exact ⟨_, Or.inr rfl, ((hq.setApp _).loads _).setApp _⟩

/-- Only two of the functions at `sprintf` can load a descriptor. -/
lemma gsmSprintf_quiet {callback : GsmSprintf} (w : GsmWorld)
    (hcmgs : callback ≠ .gsmSmsSendCallbackCmgs) (hchld : callback ≠ .gsmChld1XCallback) :
    Quiet w (gsmSprintf callback w) := by
  have hq := Quiet.refl w
  cases callback with
  | dialupAtCallback0 => exact hq.setApp _
  | gsmSmsRecvCallbackCmgr => exact ((hq.ticked.setApp _).log _).setApp _
  | gsmSmsRecvCallbackCmgd => exact hq.setApp _
  | gsmSmsSendCallbackCmgs => exact absurd rfl hcmgs
  | gsmSmsSendMessageCallback =>
      simp only [gsmSprintf, gsmSmsSendMessageCallback]
      split_ifs
      · exact (hq.log _).setApp _
      · exact (hq.log _).setApp _
  | gsmCallDialStartCallback =>
      simp only [gsmSprintf, gsmCallDialStartCallback]
      split_ifs
      · exact hq.setApp _
      · exact hq.setApp _
  | gsmChld1XCallback => exact absurd rfl hchld

/-- The function at `sprintf` calls `Ampm_SendAtCmdNow`. -/
def sprintfLoads (s : GsmState) : Option GsmSprintf → Bool
  | some .gsmSmsSendCallbackCmgs => cmgsLoads s
  | some .gsmChld1XCallback => s.voiceCall.isNone
  | _ => false

/-- `Ampm_GsmSendCallback` calls `Ampm_SendAtCmdNow`, for the descriptor in `cmdSend`. -/
def sendLoads (w : GsmWorld) : Bool :=
  sprintfLoads w.app (gsmPacket w.app (w.cmdSend.appStruct.getD w.app.atCmd)).sprintf

/-- The descriptors that are loaded from a send callback. -/
def loadedFromSend : List GsmCmd :=
  [.smsSendCmdProcess0, .smsSendCmdProcessEnd, .voiceCallSendCmdProcessAtChld]

lemma sendPacket_quiet {w : GsmWorld} {packet : AtCmdPacket}
    (h : sprintfLoads w.app packet.sprintf = false) : Quiet w (sendPacket w packet) := by
  unfold sendPacket
  cases hsprintf : packet.sprintf with
  | none => exact (Quiet.refl w).log _
  | some callback =>
      rw [hsprintf] at h
      have hquiet : Quiet w (gsmSprintf callback w) := by
        by_cases hcmgs : callback = .gsmSmsSendCallbackCmgs
        · subst hcmgs
          exact gsmSmsSendCallbackCmgs_quiet h
        · by_cases hchld : callback = .gsmChld1XCallback
          · subst hchld
            obtain ⟨call, hcall⟩ := Option.isSome_iff_exists.mp (Option.isNone_eq_false_iff.mp h)
            simp only [gsmSprintf, gsmChld1XCallback, hcall]
            exact ((Quiet.refl w).setApp _).setApp _
          · exact gsmSprintf_quiet w hcmgs hchld
      exact (hquiet.setApp _).log _

lemma sendPacket_loads {w : GsmWorld} {packet : AtCmdPacket}
    (h : sprintfLoads w.app packet.sprintf = true) :
    ∃ name ∈ loadedFromSend, Loads gsmProcess name w (sendPacket w packet) := by
  unfold sendPacket
  cases hsprintf : packet.sprintf with
  | none => rw [hsprintf] at h; exact absurd h Bool.false_ne_true
  | some callback =>
      rw [hsprintf] at h
      have hloads : ∃ name ∈ loadedFromSend, Loads gsmProcess name w (gsmSprintf callback w) := by
        cases callback with
        | gsmSmsSendCallbackCmgs =>
            obtain ⟨name, hname, hloads⟩ := gsmSmsSendCallbackCmgs_loads h
            refine ⟨name, ?_, hloads⟩
            rcases hname with rfl | rfl <;> decide
        | gsmChld1XCallback =>
            have hcall : w.app.voiceCall = none := Option.isNone_iff_eq_none.mp h
            refine ⟨.voiceCallSendCmdProcessAtChld, by decide, ?_⟩
            simp only [gsmSprintf, gsmChld1XCallback, hcall]
            exact (Quiet.refl w).loads _
        | _ => exact absurd h Bool.false_ne_true
      obtain ⟨name, hname, hloads⟩ := hloads
      exact ⟨name, hname, (hloads.setApp _).log _⟩

/-- What decides over a load has nothing to do with the matchers and the bytes received. -/
lemma sprintfLoads_io (s : GsmState) (atCmd : GsmPacket) (rx : List UInt8)
    (callback : Option GsmSprintf) :
    sprintfLoads { s with atCmd := atCmd, rx := rx } callback = sprintfLoads s callback := by
  cases callback with
  | none => rfl
  | some callback => cases callback <;> rfl

/-- The send callback leaves the engine alone unless `sendLoads` says otherwise. -/
theorem gsmSendCallback_quiet {w : GsmWorld} (h : sendLoads w = false) :
    Quiet w (gsmSendCallback w) := by
  rw [sendLoads, ← sprintfLoads_io _ (w.cmdSend.appStruct.getD w.app.atCmd) []] at h
  exact (((Quiet.refl w).setApp _).trans (sendPacket_quiet h)).setApp _

/-- When `sendLoads` says so, the send callback loads one of three descriptors. -/
theorem gsmSendCallback_loads {w : GsmWorld} (h : sendLoads w = true) :
    ∃ name ∈ loadedFromSend, Loads gsmProcess name w (gsmSendCallback w) := by
  rw [sendLoads, ← sprintfLoads_io _ (w.cmdSend.appStruct.getD w.app.atCmd) []] at h
  obtain ⟨name, hname, hloads⟩ := sendPacket_loads
    (w := w.setApp { w.app with atCmd := w.cmdSend.appStruct.getD w.app.atCmd, rx := [] }) h
  exact ⟨name, hname, (hloads.after ((Quiet.refl w).setApp _)).setApp _⟩

end Ampm

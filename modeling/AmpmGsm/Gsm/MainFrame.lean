import AmpmGsm.Gsm.CallTask
import AmpmGsm.Gsm.Callbacks

/-!
# What the engine does to the main task

The main task shares its variables with the callbacks of the commands that it waits for.  This file
says once what those callbacks can do to them.

* `mainOther`, `mainCode` — the end callbacks that are not those of the SMS chains, and with them
  the code of the library.
* `MainMoves` — the main task is where it was, or was sent to its idle phase.
* `Moves` — besides, nothing was logged that only the main task logs.
* `cmdTask_moves` — one call of `Ampm_Cmd_Task`.
* `CmdWorld.outside` — what everything but the main task may have done.
* `mainCmdTask` — a call of `Ampm_Cmd_Task`, with a note in the log when a command ends.
-/

namespace Ampm

/-! ## The end callbacks -/

/-- `Ampm_GsmMainATPhaseFinished`. -/
def gsmMainAtPhaseFinished (w : GsmWorld) : UInt8 × GsmWorld :=
  (1, sendAtCmdNow w (if w.app.main.taskPhase = .goToSleep then .ampmMainCmdProcessAth
    else .ampmMainCmdProcessAtCfun1))

/-- `Ampm_GsmMainCallPhaseFinished`. -/
def gsmMainCallPhaseFinished (w : GsmWorld) : UInt8 × GsmWorld :=
  (1, w.setMain { w.app.main with taskPhase := .idle })

/-- The end callbacks of `ampm_gsm_call.c` and `ampm_gsm_main_task.c`; those of the SMS chains are
not called through it. -/
def mainOther : GsmEndCb → CmdPhase → GsmWorld → UInt8 × GsmWorld
  | .gsmVoiceCallCheckCeerEndCallback => gsmVoiceCallCheckCeerEndCallback
  | .gsmVoiceCallCheckStateEndCallback => gsmVoiceCallCheckStateEndCallback
  | .gsmCallEndCallback => fun _ => gsmCallEndCallback
  | .gsmAtm1EndCallback => fun _ => gsmAtm1EndCallback
  | .gsmCallDialEndCallback => gsmCallDialEndCallback
  | .gsmMainCallPhaseFinished => fun _ => gsmMainCallPhaseFinished
  | .gsmMainAtPhaseFinished => fun _ => gsmMainAtPhaseFinished
  | _ => fun _ w => (1, w)

/-- The code of the library. -/
def mainCode : CmdCode gsmTypes := gsmCode mainOther

/-! ## Moves of the main task -/

/-- The events that only the main task logs. -/
def GsmEvent.isMain : GsmEvent → Bool
  | .queued _ => true
  | .attempt _ => true
  | .completed _ => true
  | .statusOk _ => true
  | .issued _ => true
  | .issuedText _ => true
  | .ended _ _ => true
  | .dialStarted => true
  | .mainInit => true
  | .pppOpened _ => true
  | .pppClosed _ => true
  | .pppInput _ => true
  | _ => false

/-- An event that only the main task logs. -/
def CmdEvent.isMain : CmdEvent gsmTypes → Bool
  | .app e => e.isMain
  | _ => false

/-- The two phases are as they were, or the main task was sent to its idle phase, with or without
a reset of the dial-up. -/
inductive PhaseMoves (m m' : MainVars) : Prop
  | stay (task : m'.taskPhase = m.taskPhase) (dialup : m'.dialupPhase = m.dialupPhase)
  | idle (task : m'.taskPhase = .idle)
      (dialup : m'.dialupPhase = m.dialupPhase ∨ m'.dialupPhase = .start)

lemma PhaseMoves.trans {m m' m'' : MainVars} (h : PhaseMoves m m') (h' : PhaseMoves m' m'') :
    PhaseMoves m m'' := by
  cases h' with
  | stay task' dialup' =>
      cases h with
      | stay task dialup => exact .stay (task'.trans task) (dialup'.trans dialup)
      | idle task dialup => exact .idle (task'.trans task) (dialup' ▸ dialup)
  | idle task' dialup' =>
      cases h with
      | stay task dialup => exact .idle task' (dialup ▸ dialup')
      | idle task dialup =>
          refine .idle task' ?_
          rcases dialup' with heq | hstart
          · exact heq ▸ dialup
          · exact Or.inr hstart

/-- What the callbacks leave of the main task's variables. -/
structure MainMoves (s s' : GsmState) : Prop where
  phases : PhaseMoves s.main s'.main
  smsList_eq : s'.smsList = s.smsList
  callList_eq : s'.main.callList = s.main.callList
  tryCnt_eq : s'.main.mainTaskTryCnt = s.main.mainTaskTryCnt
  thisPpp_eq : s'.main.thisPpp = s.main.thisPpp

namespace MainMoves

variable {s s' s'' : GsmState}

lemma of_eq (hlist : s'.smsList = s.smsList) (hmain : s'.main = s.main) : MainMoves s s' := by
  refine ⟨.stay ?_ ?_, hlist, ?_, ?_, ?_⟩ <;> rw [hmain]

lemma refl (s : GsmState) : MainMoves s s := of_eq rfl rfl

lemma trans (h : MainMoves s s') (h' : MainMoves s' s'') : MainMoves s s'' :=
  { phases := h.phases.trans h'.phases
    smsList_eq := h'.smsList_eq.trans h.smsList_eq
    callList_eq := h'.callList_eq.trans h.callList_eq
    tryCnt_eq := h'.tryCnt_eq.trans h.tryCnt_eq
    thisPpp_eq := h'.thisPpp_eq.trans h.thisPpp_eq }

lemma setCall (s : GsmState) (pointer : CallRef) (call : Call) :
    MainMoves s (s.setCall pointer call) := by
  cases pointer <;> exact ⟨.stay rfl rfl, rfl, rfl, rfl, rfl⟩

end MainMoves

/-- From `w` to `w'` by what a callback can do. -/
structure Moves (w w' : GsmWorld) : Prop where
  main : MainMoves w.app w'.app
  hist : ∃ events, w'.hist = events ++ w.hist ∧ ∀ e ∈ events, CmdEvent.isMain e = false
  cmdList_nil : w.cmdList = [] → w'.cmdList = []

namespace Moves

variable {w w' w'' : GsmWorld}

lemma refl (w : GsmWorld) : Moves w w := ⟨.refl _, ⟨[], rfl, List.forall_mem_nil _⟩, id⟩

lemma trans (h : Moves w w') (h' : Moves w' w'') : Moves w w'' := by
  obtain ⟨hmain, ⟨es, hes, hnot⟩, hlist⟩ := h
  obtain ⟨hmain', ⟨es', hes', hnot'⟩, hlist'⟩ := h'
  refine ⟨hmain.trans hmain', ⟨es' ++ es, by rw [hes', hes, List.append_assoc], ?_⟩,
    fun h => hlist' (hlist h)⟩
  exact List.forall_mem_append.mpr ⟨hnot', hnot⟩

/-- A step of the engine or of a callback that logs nothing. -/
lemma step (h : Moves w w') (hmain : MainMoves w'.app w''.app) (hhist : w''.hist = w'.hist)
    (hlist : w''.cmdList = w'.cmdList) : Moves w w'' :=
  h.trans ⟨hmain, ⟨[], hhist, List.forall_mem_nil _⟩, fun h => hlist.trans h⟩

lemma setApp (h : Moves w w') {app : GsmState} (hmain : MainMoves w'.app app) :
    Moves w (w'.setApp app) :=
  h.step hmain rfl rfl

/-- A callback writes variables of its own. -/
lemma setOwn (h : Moves w w') (app : GsmState) (hlist : app.smsList = w'.app.smsList)
    (hmain : app.main = w'.app.main) : Moves w (w'.setApp app) :=
  h.setApp (.of_eq hlist hmain)

lemma log (h : Moves w w') (e : CmdEvent gsmTypes) (he : e.isMain = false) :
    Moves w (w'.log e) :=
  h.trans ⟨.refl _, ⟨[e], rfl, List.forall_mem_singleton.mpr he⟩, id⟩

lemma ticked (h : Moves w w') : Moves w w'.ticked := h.step (.refl _) rfl rfl

lemma setPhase (h : Moves w w') (phase : CmdPhase) : Moves w (w'.setPhase phase) :=
  h.step (.refl _) rfl rfl

lemma initTask (h : Moves w w') (ms : UInt16) : Moves w (w'.initTask ms) :=
  h.step (.refl _) rfl rfl

lemma checkTask (h : Moves w w') : Moves w w'.checkTask := h.step (.refl _) rfl rfl

lemma load (h : Moves w w') (name : GsmCmd) : Moves w (sendAtCmdNow w' name) :=
  h.trans ⟨.refl _, ⟨[.load (some name)], rfl, List.forall_mem_singleton.mpr rfl⟩, id⟩

lemma setVoiceCall (h : Moves w w') (call : Call) : Moves w (Ampm.setVoiceCall w' call) := by
  unfold Ampm.setVoiceCall
  cases w'.app.voiceCall with
  | none => exact h
  | some pointer => exact h.setApp (.setCall _ pointer call)

lemma loadThenRespond (h : Moves w w') (cmd : GsmCmd) (response : CallResponse) :
    Moves w (Ampm.loadThenRespond w' cmd response) :=
  (h.load cmd).setVoiceCall _

/-- A write to those variables of the main task that belong to the calls. -/
lemma setCalls (h : Moves w w') {main : MainVars}
    (hmain : main.taskPhase = w'.app.main.taskPhase ∧
      main.dialupPhase = w'.app.main.dialupPhase ∧ main.callList = w'.app.main.callList ∧
      main.mainTaskTryCnt = w'.app.main.mainTaskTryCnt ∧ main.thisPpp = w'.app.main.thisPpp) :
    Moves w (w'.setMain main) :=
  h.setApp ⟨.stay hmain.1 hmain.2.1, rfl, hmain.2.2.1, hmain.2.2.2.1, hmain.2.2.2.2⟩

end Moves

/-! ## The SMS chains -/

section Sms

variable (w : GsmWorld)

lemma gsmSmsRecvNext_moves (whenEmpty : GsmCmd) : Moves w (gsmSmsRecvNext whenEmpty w).2 := by
  have hw := Moves.refl w
  unfold gsmSmsRecvNext
  dsimp only
  split_ifs
  · exact ((hw.setOwn _ (by rfl) (by rfl)).log _ (by rfl)).load _
  · exact (((hw.setOwn _ (by rfl) (by rfl)).log _ (by rfl)).setOwn _ (by rfl) (by rfl)).load _
  · exact hw.load _

lemma gsmSmsRecv2_moves : Moves w (gsmSmsRecv2 w).2 := by
  have hw := Moves.refl w
  unfold gsmSmsRecv2
  dsimp only
  split_ifs
  · exact (hw.log _ (by rfl)).load _
  · exact ((((hw.ticked.setOwn _ (by rfl) (by rfl)).setOwn _ (by rfl) (by rfl)).log _
      (by rfl)).ticked.setOwn _ (by rfl) (by rfl)).load _
  · exact (hw.ticked.setOwn _ (by rfl) (by rfl)).load _
  · exact hw.ticked.setOwn _ (by rfl) (by rfl)

lemma gsmSmsSent_moves (phase : CmdPhase) : Moves w (gsmSmsSent phase w).2 := by
  have hw := Moves.refl w
  unfold gsmSmsSent
  dsimp only
  split_ifs
  · exact (((hw.setOwn _ (by rfl) (by rfl)).log _ (by rfl)).load _).setOwn _ (by rfl) (by rfl)
  · exact ((hw.log _ (by rfl)).setOwn _ (by rfl) (by rfl)).load _

lemma gsmSmsSendCallbackCmgs_moves : Moves w (gsmSmsSendCallbackCmgs w) := by
  have hw := Moves.refl w
  unfold gsmSmsSendCallbackCmgs
  dsimp only
  split_ifs
  · exact hw.setOwn _ (by rfl) (by rfl)
  · exact (((hw.setOwn _ (by rfl) (by rfl)).setOwn _ (by rfl) (by rfl)).setOwn _ (by rfl)
      (by rfl)).load _
  · exact ((hw.setOwn _ (by rfl) (by rfl)).setOwn _ (by rfl) (by rfl)).setOwn _ (by rfl) (by rfl)
  · exact hw.load _
  · exact ((hw.setOwn _ (by rfl) (by rfl)).load _).setOwn _ (by rfl) (by rfl)

end Sms

/-! ## The calls -/

section Calls

variable (w : GsmWorld)

lemma gsmVoiceCallCheckCeerEndCallback_moves (phase : CmdPhase) :
    Moves w (gsmVoiceCallCheckCeerEndCallback phase w).2 := by
  have hw := Moves.refl w
  unfold gsmVoiceCallCheckCeerEndCallback
  dsimp only
  split_ifs
  · exact (hw.setVoiceCall _).setVoiceCall _
  · exact hw.setVoiceCall _

lemma checkCallState_moves : Moves w (checkCallState w).2 := by
  have hw := Moves.refl w
  unfold checkCallState
  dsimp only
  cases w.app.call.state with
  | dialing => exact hw.ticked.ticked.setCalls (by exact ⟨rfl, rfl, rfl, rfl, rfl⟩)
  | alerting => exact hw.ticked.setCalls (by exact ⟨rfl, rfl, rfl, rfl, rfl⟩)
  | incoming =>
      dsimp only
      split_ifs
      · exact (hw.setVoiceCall _).setOwn _ (by rfl) (by rfl)
      · exact hw
  | ended => exact hw.load _
  | _ => exact hw

lemma checkCallAction_moves : Moves w (checkCallAction w) := by
  have hw := Moves.refl w
  unfold checkCallAction
  dsimp only
  cases w.app.call.action with
  | none => exact hw
  | hangupWhenAlerting =>
      dsimp only
      split_ifs
      · exact (hw.ticked.setCalls (by exact ⟨rfl, rfl, rfl, rfl, rfl⟩)).loadThenRespond _ _
      · exact hw.loadThenRespond _ _
      · exact hw.ticked.setCalls (by exact ⟨rfl, rfl, rfl, rfl, rfl⟩)
      · exact hw
  | hangupWhenActive =>
      dsimp only
      split_ifs
      · exact hw.loadThenRespond _ _
      · exact hw
  | hangupAfterActiveActionTimeout =>
      dsimp only
      split_ifs
      · exact (hw.ticked.setCalls (by exact ⟨rfl, rfl, rfl, rfl, rfl⟩)).loadThenRespond _ _
      · exact hw.loadThenRespond _ _
      · exact hw.ticked.setCalls (by exact ⟨rfl, rfl, rfl, rfl, rfl⟩)
      · exact hw
  | pickupWhenIncoming =>
      dsimp only
      split_ifs
      · exact hw.load _
      · exact hw
  | hangupNow => exact hw.loadThenRespond _ _

lemma checkCallDone_moves : Moves w (checkCallDone w).2 :=
  (checkCallAction_moves w).setOwn _ (by rfl) (by rfl)

lemma gsmVoiceCallCheckStateEndCallback_moves (phase : CmdPhase) :
    Moves w (gsmVoiceCallCheckStateEndCallback phase w).2 := by
  have hw := Moves.refl w
  unfold gsmVoiceCallCheckStateEndCallback
  dsimp only
  split_ifs
  · exact (hw.setVoiceCall _).load _
  · exact ((hw.setOwn _ (by rfl) (by rfl)).setVoiceCall _).trans (checkCallState_moves _)
  · exact (((hw.setOwn _ (by rfl) (by rfl)).setVoiceCall _).trans (checkCallState_moves _)).trans
      (checkCallDone_moves _)
  · exact hw.load _
  · exact checkCallDone_moves w

lemma gsmCallDialEndCallback_moves (phase : CmdPhase) :
    Moves w (gsmCallDialEndCallback phase w).2 := by
  have hw := Moves.refl w
  unfold gsmCallDialEndCallback
  dsimp only
  split_ifs
  · exact ((((hw.setCalls (by exact ⟨rfl, rfl, rfl, rfl, rfl⟩)).setVoiceCall _).load _).setOwn _
      (by rfl) (by rfl)).ticked.setCalls (by exact ⟨rfl, rfl, rfl, rfl, rfl⟩)
  · exact (((hw.setVoiceCall _).load _).setOwn _ (by rfl) (by rfl)).ticked.setCalls
      (by exact ⟨rfl, rfl, rfl, rfl, rfl⟩)
  · exact (hw.setOwn _ (by rfl) (by rfl)).ticked.setCalls (by exact ⟨rfl, rfl, rfl, rfl, rfl⟩)

end Calls

/-- **The end callbacks.** -/
theorem mainCode_endCb_moves (callback : GsmEndCb) (phase : CmdPhase) (w : GsmWorld) :
    Moves w (mainCode.endCb callback phase w).2 := by
  have hw := Moves.refl w
  cases callback with
  | gsmSmsRecv0 => exact gsmSmsRecvNext_moves w _
  | gsmSmsRecv1 => exact gsmSmsRecvNext_moves w _
  | gsmSmsRecv2 => exact gsmSmsRecv2_moves w
  | gsmSmsSendCallbackCmgf =>
      simp only [mainCode, gsmCode, gsmSmsSendCallbackCmgf]
      split_ifs
      · exact hw.load _
      · exact hw.load _
  | gsmSmsSendCallbackCsca =>
      simp only [mainCode, gsmCode, gsmSmsSendCallbackCsca]
      split_ifs
      · exact (hw.setOwn _ (by rfl) (by rfl)).load _
      · exact hw
      · exact hw.load _
  | gsmSmsSent => exact gsmSmsSent_moves w phase
  | gsmCreg =>
      simp only [mainCode, gsmCode, gsmCreg]
      split_ifs
      · exact hw.setOwn _ (by rfl) (by rfl)
      · exact hw
  | gsmVoiceCallCheckCeerEndCallback => exact gsmVoiceCallCheckCeerEndCallback_moves w phase
  | gsmVoiceCallCheckStateEndCallback => exact gsmVoiceCallCheckStateEndCallback_moves w phase
  | gsmCallEndCallback =>
      exact (hw.ticked.setCalls (by exact ⟨rfl, rfl, rfl, rfl, rfl⟩)).setVoiceCall _
  | gsmAtm1EndCallback =>
      simp only [mainCode, gsmCode, mainOther, gsmAtm1EndCallback]
      split_ifs
      · exact (hw.setOwn _ (by rfl) (by rfl)).load _
      · exact hw
  | gsmCallDialEndCallback => exact gsmCallDialEndCallback_moves w phase
  | gsmMainCallPhaseFinished =>
      exact hw.setApp ⟨.idle rfl (Or.inl rfl), rfl, rfl, rfl, rfl⟩
  | gsmMainAtPhaseFinished => exact hw.load _
  | setCmdOk => exact (hw.setPhase .ok).log _ (by rfl)

/-! ## The send and receive callbacks -/

lemma gsmSprintf_moves (callback : GsmSprintf) (w : GsmWorld) : Moves w (gsmSprintf callback w) := by
  have hw := Moves.refl w
  cases callback with
  | dialupAtCallback0 => exact hw.setOwn _ (by rfl) (by rfl)
  | gsmSmsRecvCallbackCmgr =>
      exact ((hw.ticked.setOwn _ (by rfl) (by rfl)).log _ (by rfl)).setOwn _ (by rfl) (by rfl)
  | gsmSmsRecvCallbackCmgd => exact hw.setOwn _ (by rfl) (by rfl)
  | gsmSmsSendCallbackCmgs => exact gsmSmsSendCallbackCmgs_moves w
  | gsmSmsSendMessageCallback =>
      simp only [gsmSprintf, gsmSmsSendMessageCallback]
      split_ifs
      · exact (hw.log _ (by rfl)).setOwn _ (by rfl) (by rfl)
      · exact (hw.log _ (by rfl)).setOwn _ (by rfl) (by rfl)
  | gsmCallDialStartCallback =>
      simp only [gsmSprintf, gsmCallDialStartCallback]
      split_ifs
      · exact hw.setOwn _ (by rfl) (by rfl)
      · exact hw.setOwn _ (by rfl) (by rfl)
  | gsmChld1XCallback =>
      simp only [gsmSprintf, gsmChld1XCallback]
      cases w.app.voiceCall with
      | none => exact hw.load _
      | some pointer => exact (hw.setApp (.setCall _ pointer _)).setOwn _ (by rfl) (by rfl)

lemma initMatchers_main (packet : AtCmdPacket) (timeout : UInt16) (s : GsmState) :
    (initMatchers packet timeout s).smsList = s.smsList ∧
      (initMatchers packet timeout s).main = s.main := by
  unfold initMatchers
  cases packet.callback with
  | none => exact ⟨rfl, rfl⟩
  | some callback =>
      cases packet.response with
      | none => exact ⟨rfl, rfl⟩
      | some response => exact ⟨rfl, rfl⟩

theorem gsmSendCallback_moves (w : GsmWorld) : Moves w (gsmSendCallback w) := by
  have hopen : Moves w (w.setApp { w.app with
      atCmd := w.cmdSend.appStruct.getD w.app.atCmd, rx := [] }) :=
    (Moves.refl w).setOwn _ (by rfl) (by rfl)
  have hsend : ∀ (w' : GsmWorld) (packet : AtCmdPacket), Moves w w' →
      Moves w (sendPacket w' packet) := by
    intro w' packet hw'
    unfold sendPacket
    cases packet.sprintf with
    | none => exact hw'.log _ (by rfl)
    | some callback =>
        exact ((hw'.trans (gsmSprintf_moves callback w')).setOwn _ (by rfl) (by rfl)).log _ (by rfl)
  unfold gsmSendCallback
  obtain ⟨hlist, hmain⟩ := initMatchers_main (gsmPacket w.app (w.cmdSend.appStruct.getD w.app.atCmd))
    (sendPacket (w.setApp { w.app with atCmd := w.cmdSend.appStruct.getD w.app.atCmd, rx := [] })
      (gsmPacket w.app (w.cmdSend.appStruct.getD w.app.atCmd))).cmdSend.timeout
    (sendPacket (w.setApp { w.app with atCmd := w.cmdSend.appStruct.getD w.app.atCmd, rx := [] })
      (gsmPacket w.app (w.cmdSend.appStruct.getD w.app.atCmd))).app
  exact (hsend _ _ hopen).setOwn _ hlist hmain

lemma gsmResponse_moves (f : GsmRespCb) (cnt : UInt16) (c : UInt8) (s : GsmState) :
    MainMoves s (gsmResponse f cnt c s).2 := by
  cases f with
  | gsmGetCsq =>
      simp only [gsmResponse, gsmGetCsq]
      split_ifs <;> exact .of_eq rfl rfl
  | getServiceCenterNumber =>
      simp only [gsmResponse, getServiceCenterNumber]
      split_ifs <;> exact .of_eq rfl rfl
  | getListOfCurrentCall =>
      simp only [gsmResponse, getListOfCurrentCall]
      split_ifs <;> exact .of_eq rfl rfl
  | getCeer =>
      simp only [gsmResponse, getCeer]
      split_ifs <;> exact .of_eq rfl rfl
  | mainSwithToIdle => exact ⟨.idle rfl (Or.inr rfl), rfl, rfl, rfl, rfl⟩
  | gsmGetImei =>
      simp only [gsmResponse, gsmGetImei]
      split_ifs <;> exact ⟨.stay rfl rfl, rfl, rfl, rfl, rfl⟩
  | gsmGetSimCid =>
      simp only [gsmResponse, gsmGetSimCid]
      split_ifs <;> exact ⟨.stay rfl rfl, rfl, rfl, rfl, rfl⟩
  | gsmGetAti =>
      obtain ⟨ati, cmps, script, heq⟩ := gsmGetAti_main cnt c s
      simp only [gsmResponse, heq]
      exact ⟨.stay rfl rfl, rfl, rfl, rfl, rfl⟩

lemma parseResponse_moves (w : GsmWorld) (c : UInt8) : Moves w (parseResponse w c) := by
  unfold parseResponse
  dsimp only
  split_ifs
  · refine (Moves.refl w).ticked.setApp ?_
    rcases strComnandParser_state (w.clock 0) [w.app.atProcessCmd.2] atProcessCallback0
      w.app.callBackParser w.app.lastChar c w.app with heq | ⟨i, cnt, heq⟩
    · rw [heq]
      exact .of_eq rfl rfl
    · rw [heq]
      unfold atProcessCallback0
      cases w.app.atProcessCmd.1 with
      | none => exact .of_eq rfl rfl
      | some f => exact (gsmResponse_moves f cnt c w.app).trans (.of_eq rfl rfl)
  · exact .refl w

lemma recvBytes_moves (bytes : List UInt8) (w : GsmWorld) : Moves w (recvBytes bytes w).2 := by
  induction bytes generalizing w with
  | nil => exact .refl w
  | cons c rest ih =>
      have hfirst : Moves w (w.setApp { w.app with rx := rest }) :=
        (Moves.refl w).setOwn _ (by rfl) (by rfl)
      have hparse := hfirst.trans (parseResponse_moves (w.setApp { w.app with rx := rest }) c)
      unfold recvBytes
      dsimp only
      split_ifs
      · exact (hparse.setOwn _ (by rfl) (by rfl)).log _ (by rfl)
      · exact (hparse.setOwn _ (by rfl) (by rfl)).setOwn _ (by rfl) (by rfl)
      · exact ((hparse.setOwn _ (by rfl) (by rfl)).setOwn _ (by rfl) (by rfl)).trans (ih _)
      · exact hfirst.trans (ih _)

theorem gsmRecvCallback_moves (w : GsmWorld) : Moves w (gsmRecvCallback w).2 :=
  recvBytes_moves w.app.rx w

/-! ## The engine -/

lemma cmdTaskEnd_moves (w : GsmWorld) (here res : CmdPhase) :
    Moves w (cmdTaskEnd mainCode w here res) := by
  have hw := Moves.refl w
  unfold cmdTaskEnd
  cases w.cmdSend.endDataCallback with
  | none => exact hw.setPhase res
  | some callback =>
      have hcb := (hw.log (.endCall w.loaded res) rfl).trans
        (mainCode_endCb_moves callback res (w.log (.endCall w.loaded res)))
      dsimp only
      split_ifs
      · exact hcb.setPhase res
      · exact hcb
      · exact hcb

/-- **One call of `Ampm_Cmd_Task`.** -/
theorem cmdTask_moves (w : GsmWorld) : Moves w (cmdTask mainCode w) := by
  have hw := Moves.refl w
  have hstep := cmdTask_step mainCode w
  generalize cmdTask mainCode w = w' at hstep
  cases hstep with
  | tooEarly => exact hw.checkTask
  | sent callback hphase hexp hcb =>
      have hsend := (hw.checkTask.log (.send w.loaded) rfl).trans
        (gsmSendCallback_moves (w.checkTask.log (.send w.loaded)))
      exact (hsend.initTask _).setPhase .wait
  | notSent => exact hw.checkTask.setPhase _
  | retry => exact hw.step (.refl _) rfl rfl
  | giveUp => exact hw.setPhase _
  | failed => exact cmdTaskEnd_moves w _ _
  | notAwaited => exact hw.setPhase _
  | lapsed => exact (hw.checkTask.log _ (by rfl)).setPhase _
  | asked callback hphase hexp hcb =>
      have hrecv : Moves w (gsmRecvCallback w.checkTask).2 :=
        hw.checkTask.trans (gsmRecvCallback_moves w.checkTask)
      have hlog := hrecv.log (.recv (gsmRecvCallback w.checkTask).2.loaded
        (gsmRecvCallback w.checkTask).1.toUInt8) rfl
      show Moves w (afterRecv (gsmRecvCallback w.checkTask))
      unfold afterRecv
      dsimp only
      split_ifs
      · exact (hlog.initTask _).setPhase _
      · exact (hlog.setPhase _).initTask _
      · exact hlog
  | succeeded => exact hw.checkTask.trans (cmdTaskEnd_moves w.checkTask _ _)
  | loaded name rest hphase hnext =>
      have hlist : w.cmdList = [] → rest = [] := fun hnil => by
        rcases hnext with ⟨-, rfl⟩ | ⟨-, -, hcons⟩
        · exact hnil
        · exact absurd (hnil.symm.trans hcons) (List.cons_ne_nil _ _).symm
      have hrest : Moves w { w with cmdList := rest } :=
        ⟨.refl _, ⟨[], rfl, List.forall_mem_nil _⟩, hlist⟩
      exact hrest.load name
  | idle => exact ⟨.refl _, ⟨[], rfl, List.forall_mem_nil _⟩, fun _ => rfl⟩

/-! ## The main task and what surrounds it -/

/-- The variables that interrupts, other threads and the application write have the values that
they have in `o`. -/
def GsmState.outside (s o : GsmState) : GsmState :=
  { s with
    rx := o.rx
    lastChar := o.lastChar
    gprsApn := o.gprsApn
    smsHeap := o.smsHeap
    smsNext := o.smsNext
    smsFreed := o.smsFreed
    smsList := o.smsList
    smsUnreadRingBuff := o.smsUnreadRingBuff
    smsSender := o.smsSender
    smsDataBuf := o.smsDataBuf
    flagSmsReadFinish := o.flagSmsReadFinish
    readMsg := o.readMsg
    urcIncommingLength := o.urcIncommingLength
    smsProcessLength := o.smsProcessLength
    atCommandParserEnable := o.atCommandParserEnable
    atCommandParserStarted := o.atCommandParserStarted
    atCmdParser := o.atCmdParser
    clipPhoneNo := o.clipPhoneNo
    incomingCallPhoneNo := o.incomingCallPhoneNo
    gotIncomingNumberFlag := o.gotIncomingNumberFlag
    ringingFlag := o.ringingFlag
    ringingTime := o.ringingTime
    newSmsFlag := o.newSmsFlag
    main := { s.main with
      mode := o.main.mode
      pppStatus := o.main.pppStatus
      gotoCmdModeFlag := o.main.gotoCmdModeFlag
      gotoDataModeFlag := o.main.gotoDataModeFlag
      modemResetFlag := o.main.modemResetFlag
      missCall := o.main.missCall
      ringingFlagTimes := o.main.ringingFlagTimes
      calls := o.main.calls
      callList := o.main.callList
      incomingCall := o.main.incomingCall } }

/-- What everything but the main task has done.  A linked list holds an item once. -/
structure Outside where
  app : GsmState
  clock : ℕ → UInt32
  smsList_nodup : app.smsList.Nodup
  callList_nodup : app.main.callList.Nodup

/-- The state when the main task goes on. -/
@[simps!]
def CmdWorld.outside (w : GsmWorld) (o : Outside) : GsmWorld :=
  w.own (w.app.outside o.app) o.clock []

/-- `Ampm_Cmd_Task` as the main task calls it. -/
def mainCmdTask (w : GsmWorld) : GsmWorld :=
  let w' := cmdTask mainCode w
  if cmdTaskIsIdle w.phase = false ∧ cmdTaskIsIdle w'.phase = true then
    w'.log (.app (.ended w.loaded w'.phase))
  else w'

end Ampm

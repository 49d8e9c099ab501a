import AmpmGsm.Gsm.Startup

/-!
# The main task

`ampm_gsm_main_task.c`: the loop that runs the modem, one phase after the other, and steps the
command engine, the ring machine and the tasks of the messages and calls.  The firmware is built
with the PPP library of lwIP; what that library and the application answer is an input, as is
everything that interrupts and other threads do between two iterations.

* `MainInput`, `mainTask`, `mainStep` — an iteration.
* `mainInit` … `mainWakeup` — the branches of its `switch`.
* `mainStart`, `answers` — the state that the task starts in, and a modem that answers.
-/

namespace Ampm

/-! ## Its surroundings -/

/-- What an iteration meets: what happened before it, for how many passes of a loop its end is
waited for, what `pppOverSerialOpen`, `pppInputThread` and `Ampm_TcpIpCallback` return, and the
calls of `status_cb` that `pppInputThread` makes. -/
structure MainInput where
  outside : Outside
  rounds : ℕ
  openResult : ℤ
  inputResult : ℤ
  inputStatus : List ℤ
  tcpIpResult : Bool

/-- `ampmGSM_TaskPhase = phase;` -/
def setTask (w : GsmWorld) (phase : MainPhase) : GsmWorld :=
  w.setMain { w.app.main with taskPhase := phase }

/-- The variables of the ring machine. -/
def GsmState.ring (s : GsmState) : Ring :=
  { missCall := s.main.missCall
    newSmsFlag := s.newSmsFlag
    ringingFlagTimes := s.main.ringingFlagTimes
    ringingFlag := s.ringingFlag
    ringingTime := s.ringingTime
    ringingPauseTime := s.main.ringingPauseTime
    ringingPhase := s.main.ringingPhase }

/-- A call of a function of `ampm_gsm_ring.c`. -/
def onRing (f : Ring → Ring) (w : GsmWorld) : GsmWorld :=
  let r := f w.app.ring
  w.setApp { w.app with
    newSmsFlag := r.newSmsFlag
    ringingFlag := r.ringingFlag
    ringingTime := r.ringingTime
    main := { w.app.main with
      missCall := r.missCall
      ringingFlagTimes := r.ringingFlagTimes
      ringingPauseTime := r.ringingPauseTime
      ringingPhase := r.ringingPhase } }

/-- `pppClose(thisPPP); pppSigHUP(thisPPP);` -/
def pppClose (w : GsmWorld) : GsmWorld := w.log (.app (.pppClosed w.app.main.thisPpp))

/-- `status_cb`. -/
def statusCb (w : GsmWorld) (errCode : ℤ) : GsmWorld :=
  if errCode = 0 then w.setMain { w.app.main with pppStatus := .connected }
  else if errCode = -4 ∨ errCode = -6 ∨ errCode = -7 ∨ errCode = -8 then
    w.setMain { w.app.main with pppStatus := .disconnected }
  else w

/-- `Ampm_SmsTask`, with at most `rounds` passes through its loop. -/
def smsTaskWithin (rounds : ℕ) (w : GsmWorld) : Option (UInt8 × GsmWorld) :=
  if cmdCheckIsEmpty w.cmdSend ∧ cmdTaskIsIdle w.phase then
    let w := w.setApp { w.app with checkCnt := w.app.checkCnt + 1 }
    if w.app.checkCnt ≥ 10 then some (1, w.setApp { w.app with checkCnt := 0 })
    else if w.app.smsList.length ≠ 0 then
      (smsWalkWithin smsTaskBody rounds (listTail w.app.smsList) w).map fun w => (0, w)
    else some (1, w)
  else some (0, w)

/-- `Ampm_SmsTaskPeriodic_1Sec`, with at most `rounds` passes through its loop. -/
def smsTaskPeriodicWithin (rounds : ℕ) (w : GsmWorld) : Option GsmWorld :=
  if w.app.smsList.length = 0 then some w
  else (smsWalkWithin smsPeriodicBody rounds (listTail w.app.smsList) (0, w)).map Prod.snd

/-- `Ampm_SmsCheckMessage_IsEmpty`. -/
def smsCheckMessageIsEmpty (s : GsmState) : Bool := s.smsList.length = 0

/-- `Ampm_StartRecvSms`. -/
def startRecvSms (w : GsmWorld) : UInt8 × GsmWorld := issue w .smsRecvCmdProcess0

/-- `Ampm_RecvSms_IsFinished`. -/
def recvSmsIsFinished (w : GsmWorld) : Bool := cmdCheckIsEmpty w.cmdSend && cmdTaskIsIdle w.phase

/-- `Ampm_Gsm_Error`, with at most `rounds` passes through its loop, which has no end. -/
def gsmError : ℕ → GsmWorld → Option GsmWorld
  | 0, _ => none
  | rounds + 1, w => gsmError rounds w.ticked

/-- `Ampm_Gsm_IsIdle`. -/
def gsmIsIdle (s : GsmState) : Bool :=
  s.main.taskPhase = .idle && s.main.ringingPhase ≠ .idle && smsCheckMessageIsEmpty s &&
    voiceCallCheckListIsEmpty s && !s.newSmsFlag

/-! ## The phases -/

/-- `case AMPM_GSM_MAIN_INIT_PHASE`: the flags, the ring machine and the start-up. -/
def initFlags (w : GsmWorld) : GsmWorld :=
  startupInit (onRing Ring.ringingReset
    (w.setMain { w.app.main with gotoDataModeFlag := false, gotoCmdModeFlag := false }))

/-- `case AMPM_GSM_MAIN_INIT_PHASE`: the descriptor is closed. -/
def initLink (w : GsmWorld) : GsmWorld :=
  if w.app.main.thisPpp ≥ 0 then (pppClose w).setMain { w.app.main with thisPpp := -1 } else w

/-- `case AMPM_GSM_MAIN_INIT_PHASE`. -/
def mainInit (w : GsmWorld) : GsmWorld :=
  let w := initLink (dialUpReset (initFlags w))
  let w := callTaskInit (w.setMain { w.app.main with pppStatus := .disconnected })
  setTask (({ w with cmdList := [] } : GsmWorld).setPhase .ok) .startup |>.log (.app .mainInit)

/-- `case AMPM_GSM_MAIN_STARTUP_PHASE`. -/
def mainStartup (w : GsmWorld) : GsmWorld :=
  let r := startup ampmAtGsmCmdStart w
  if r.1 then
    let r := startRecvSms r.2
    if r.1 ≠ 0 then setTask r.2 .smsRecv else setTask r.2 .idle
  else r.2

/-- `case AMPM_GSM_MAIN_SMS_RECV_PHASE`. -/
def mainSmsRecv (w : GsmWorld) : GsmWorld := if recvSmsIsFinished w then setTask w .idle else w

/-- `case AMPM_GSM_MAIN_SMS_SEND_PHASE` and `case AMPM_GSM_MAIN_VOICECALL_PHASE`, after the task. -/
def mainTaskDone (r : UInt8 × GsmWorld) : GsmWorld := if r.1 ≠ 0 then setTask r.2 .idle else r.2

/-- `case AMPM_GSM_MAIN_DATACALL_PHASE`, when the link is lost or given up. -/
def mainHangUp (w : GsmWorld) : GsmWorld := setTask (dialUpReset w) .gotoCmdMode

/-- `case AMPM_GSM_MAIN_DATACALL_PHASE`, up to the call of `pppInputThread`. -/
def datacallFlags (w : GsmWorld) : GsmWorld :=
  let w := w.setMain { w.app.main with gotoDataModeFlag := false }
  if w.app.main.gotoCmdModeFlag ∨ w.app.main.mode ≠ .gprsEnable then
    setTask (w.setMain { w.app.main with mainTaskTryCnt := 0 }) .gotoCmdMode
  else w

/-- `pppInputThread(thisPPP)`, which may call `status_cb`. -/
def datacallInput (i : MainInput) (w : GsmWorld) : GsmWorld :=
  let w := i.inputStatus.foldl statusCb (w.log (.app (.pppInput w.app.main.thisPpp)))
  if i.inputResult ≠ 0 then w.setMain { w.app.main with dataSendingTimeout := 3 } else w

/-- `Ampm_TcpIpCallback` has asked for the end of the link. -/
def datacallClose (w : GsmWorld) : GsmWorld :=
  if w.app.main.thisPpp ≥ 0 then
    let w := pppClose w
    w.setMain { w.app.main with pppStatus := .disconnected }
  else w

/-- `case AMPM_GSM_MAIN_DATACALL_PHASE`. -/
def mainDatacall (i : MainInput) (w : GsmWorld) : GsmWorld :=
  let w := datacallInput i (datacallFlags w)
  if i.inputResult < 0 ∨ w.app.main.pppStatus = .disconnected then mainHangUp w
  else if w.app.main.pppStatus = .connected then
    let w := onRing Ring.ringingEnable w
    if i.tcpIpResult then mainHangUp (datacallClose w) else w
  else w

/-- The descriptor of the last session is closed. -/
def closeLast (w : GsmWorld) : GsmWorld := if w.app.main.thisPpp ≥ 0 then pppClose w else w

/-- `case AMPM_GSM_MAIN_DIAL_UP_PHASE`, once the modem is in data mode. -/
def mainOpen (i : MainInput) (w : GsmWorld) : GsmWorld :=
  let w := onRing Ring.ringingDisable w
  let w := closeLast (w.setMain { w.app.main with gotoCmdModeFlag := false })
  let w := (w.setMain { w.app.main with
    thisPpp := i.openResult, pppStatus := .connecting }).log (.app (.pppOpened i.openResult))
  setTask w .datacall

/-- `case AMPM_GSM_MAIN_DIAL_UP_PHASE`. -/
def mainDialUp (i : MainInput) (w : GsmWorld) : GsmWorld :=
  let w := dialUp w
  if dialUpIsDone w.app then
    if dialUpIsOk w.app then mainOpen i w else setTask w .idle
  else w

/-- `ATO`. -/
def atoArgs : SendCmdArgs :=
  { callback := some .mainSwithToIdle, response := some (bytesOf "NO CARRIER"), delay := 1000
    resOk := bytesOf "CONNECT", resFails := bytesOf "ERROR", timeout := 3000, tryAgainNum := 3
    text := some (bytesOf "ATO\r") }

/-- `case AMPM_GSM_MAIN_GOTO_DATA_MODE_PHASE`. -/
def mainGotoData (w : GsmWorld) : GsmWorld :=
  if dialUpIsOk w.app ∧ w.app.main.pppStatus = .connected then
    let r := issueText w atoArgs
    if r.1 = 0 then setTask r.2 .waitGotoDataMode else r.2
  else
    let w := setTask (dialUpReset w) .dialUp
    w.setMain { w.app.main with gotoCmdModeFlag := false }

/-- `case AMPM_GSM_MAIN_WAIT_GOTO_DATA_MODE_PHASE`. -/
def mainWaitGotoData (w : GsmWorld) : GsmWorld :=
  if cmdTaskIsIdle w.phase then
    if w.phase = .ok then
      setTask (w.setMain { w.app.main with mainTaskTryCnt := 0, gotoCmdModeFlag := false }) .datacall
    else mainHangUp w
  else w

/-- `case AMPM_GSM_MAIN_GOTO_CMD_MODE_PHASE`. -/
def mainGotoCmd (w : GsmWorld) : GsmWorld :=
  let w := onRing Ring.ringingEnable (w.setMain { w.app.main with mainTaskTryCnt := 0 })
  setTask w .gotoCmdModeCheck

/-- `+++`. -/
def escapeArgs : SendCmdArgs :=
  { callback := none, response := none, delay := 500, resOk := bytesOf "OK"
    resFails := bytesOf "NO CARRIER", timeout := 2000, tryAgainNum := 0
    text := some (bytesOf "+++") }

/-- `AT`, which follows a failed `+++`. -/
def atArgs : SendCmdArgs :=
  { callback := none, response := none, delay := 500, resOk := bytesOf "OK"
    resFails := bytesOf "ERROR", timeout := 1000, tryAgainNum := 1
    text := some (bytesOf "AT\r") }

/-- `case AMPM_GSM_MAIN_WAIT_GOTO_CMD_MODE_PHASE`. -/
def mainWaitGotoCmd (w : GsmWorld) : GsmWorld :=
  if cmdTaskIsIdle w.phase then
    if w.phase = .ok then setTask (w.setMain { w.app.main with gotoCmdModeFlag := false }) .idle
    else
      let w := (issueText w atArgs).2
      let tryCnt := w.app.main.mainTaskTryCnt
      setTask (w.setMain { w.app.main with mainTaskTryCnt := tryCnt + 1 })
        (if tryCnt < 3 then .gotoCmdModeCheck else .init)
  else w

/-- `case AMPM_GSM_MAIN_GOTO_CMD_MODE_CHECK_PHASE`; the next `case` follows without a `break`. -/
def mainGotoCmdCheck (w : GsmWorld) : GsmWorld :=
  let w :=
    if w.app.main.mainTaskTryCnt ≠ 0 ∧ w.phase = .ok then
      setTask (w.setMain { w.app.main with mainTaskTryCnt := 0, gotoCmdModeFlag := false }) .idle
    else
      let r := issueText w escapeArgs
      if r.1 = 0 then setTask r.2 .waitGotoCmdMode else r.2
  mainWaitGotoCmd w

/-- `SysTick_Get() - smsCheckTime > AMPM_CHECK_SMS_INTERVAL`. -/
def smsPollDue (w : GsmWorld) : Bool := w.clock 0 - w.app.main.smsCheckTime > 60000

/-- `smsCheckTime = SysTick_Get();` and what follows it. -/
def mainStartRecv (w : GsmWorld) : GsmWorld :=
  let w := w.ticked.setMain { w.app.main with smsCheckTime := w.clock 0 }
  let r := startRecvSms w
  if r.1 ≠ 0 then setTask (r.2.setApp { r.2.app with newSmsFlag := false }) .smsRecv else r.2

/-- `case AMPM_GSM_MAIN_IDLE_PHASE`, when there is nothing to do for messages and calls: whether
the `switch` is left at once, and the state. -/
def mainIdleMode (w : GsmWorld) : Bool × GsmWorld :=
  if w.app.main.ringingPhase ≠ .idle then (true, w)
  else
    match w.app.main.mode with
    | .gprsEnable => (false, w.setMain { w.app.main with gotoDataModeFlag := true })
    | .sleepMode =>
        let r := issue w .ampmMainCmdProcessAt
        if r.1 ≠ 0 then (true, setTask r.2 .goToSleep) else (false, r.2)
    | .none => (false, w)

/-- The chain of `if` and `else if` in `case AMPM_GSM_MAIN_IDLE_PHASE`. -/
def mainIdleDispatch (w : GsmWorld) : Bool × GsmWorld :=
  if w.app.main.ringingPhase = .isACall then
    (false, setTask (onRing Ring.ringingReset (voiceCallStartRecvCall w)) .voicecall)
  else if !voiceCallCheckListIsEmpty w.app then (false, setTask w .voicecall)
  else if w.app.newSmsFlag then (false, mainStartRecv w)
  else if smsPollDue w then (false, mainStartRecv w.ticked)
  else if !smsCheckMessageIsEmpty w.app then (false, setTask w.ticked .smsSend)
  else mainIdleMode w.ticked

/-- `case AMPM_GSM_MAIN_IDLE_PHASE`. -/
def mainIdle (w : GsmWorld) : GsmWorld :=
  let r := mainIdleDispatch w
  if r.1 then r.2
  else if r.2.app.main.gotoDataModeFlag then setTask r.2 .gotoDataMode
  else r.2

/-- `case AMPM_GSM_MAIN_GO_TO_SLEEP_PHASE`. -/
def mainGoToSleep (w : GsmWorld) : GsmWorld :=
  if cmdCheckIsEmpty w.cmdSend ∧ cmdTaskIsIdle w.phase then
    if w.phase = .ok then setTask (dialUpReset w) .sleep else setTask w .init
  else w

/-- `case AMPM_GSM_MAIN_SLEEP_PHASE`. -/
def mainSleep (w : GsmWorld) : GsmWorld :=
  if w.app.main.mode ≠ .sleepMode then
    setTask (issueNow (setTask w .idle) .ampmMainCmdProcessAt) .wakeup
  else w

/-- `case AMPM_GSM_MAIN_WAKEUP_PHASE`. -/
def mainWakeup (w : GsmWorld) : GsmWorld :=
  if cmdCheckIsEmpty w.cmdSend ∧ cmdTaskIsIdle w.phase then
    setTask w (if w.phase = .ok then .idle else .init)
  else w

/-- `switch(ampmGSM_TaskPhase)`. -/
def mainPhase (i : MainInput) (w : GsmWorld) : Option GsmWorld :=
  match w.app.main.taskPhase with
  | .init => some (mainInit w)
  | .startup => some (mainStartup w)
  | .smsRecv => some (mainSmsRecv w)
  | .smsSend => (smsTaskWithin i.rounds w).map mainTaskDone
  | .voicecall => (callTask i.rounds w).map mainTaskDone
  | .datacall => some (mainDatacall i w)
  | .dialUp => some (mainDialUp i w)
  | .gotoDataMode => some (mainGotoData w)
  | .waitGotoDataMode => some (mainWaitGotoData w)
  | .gotoCmdMode => some (mainGotoCmd w)
  | .gotoCmdModeCheck => some (mainGotoCmdCheck w)
  | .waitGotoCmdMode => some (mainWaitGotoCmd w)
  | .idle => some (mainIdle w)
  | .goToSleep => some (mainGoToSleep w)
  | .sleep => some (mainSleep w)
  | .wakeup => some (mainWakeup w)

/-! ## The iteration -/

/-- `if(ampm_ModemResetFlag)`. -/
def mainModemReset (w : GsmWorld) : GsmWorld :=
  if w.app.main.modemResetFlag then
    setTask (w.setMain { w.app.main with modemResetFlag := false }) .init
  else w

/-- `if(smsTaskFailCnt >= SMS_MAX_RETRY)`. -/
def mainFailCnt (rounds : ℕ) (w : GsmWorld) : Option GsmWorld :=
  if w.app.smsTaskFailCnt ≥ 10 then
    (gsmError rounds w).map fun w => w.setApp { w.app with smsTaskFailCnt := 0 }
  else some w

/-- Something is to be done in command mode. -/
def wantsCmdMode (w : GsmWorld) : Bool :=
  !smsCheckMessageIsEmpty w.app || !voiceCallCheckListIsEmpty w.app ||
    w.app.main.ringingPhase ≠ .idle || w.app.newSmsFlag

/-- The call of `Ampm_GsmGotoCmdMode`. -/
def mainWantsCmd (w : GsmWorld) : GsmWorld :=
  let wants := wantsCmdMode w || smsPollDue w
  let w := if wantsCmdMode w then w else w.ticked
  if wants ∧ w.app.main.dataSendingTimeout = 0 then
    w.setMain { w.app.main with gotoCmdModeFlag := true }
  else w

/-- The call of `Ampm_Cmd_Task`. -/
def mainEngine (w : GsmWorld) : GsmWorld :=
  if w.app.main.taskPhase ≠ .datacall then
    mainCmdTask (w.setApp { w.app with atCommandParserEnable := true })
  else w

/-- The call of `Ampm_RingingProcess`. -/
def mainRinging (w : GsmWorld) : GsmWorld :=
  if w.app.main.taskPhase.isStarted then onRing Ring.ringingProcess w else w

/-- What is done once a second. -/
def mainSecond (rounds : ℕ) (w : GsmWorld) : Option GsmWorld :=
  let r := checkTimeout w.app.main.tRingTask (w.clock 0)
  let w := w.ticked.setMain { w.app.main with tRingTask := r.2 }
  if r.1 = 0 then
    let m := w.app.main
    let w := w.ticked.setMain { m with
      dataSendingTimeout :=
        if m.dataSendingTimeout ≠ 0 then m.dataSendingTimeout - 1 else m.dataSendingTimeout
      tRingTask := initTimeout (w.clock 0) 1000 }
    (smsTaskPeriodicWithin rounds (onRing Ring.ringingTimer w)).bind (callTaskPeriodic1Sec rounds)
  else some w

/-- The body of the loop of `AMPM_GSM_MainTask`; `none` if it has not ended within the passes that
the input allows for its loops. -/
def mainTask (i : MainInput) (w : GsmWorld) : Option GsmWorld :=
  (mainFailCnt i.rounds (mainModemReset w)).bind fun w =>
    (mainPhase i w).bind fun w => mainSecond i.rounds (mainRinging (mainEngine (mainWantsCmd w)))

/-- An iteration, after what happened before it.  One that does not end leaves the state to the
next wait for it. -/
def mainStep (w : GsmWorld) (i : MainInput) : GsmWorld :=
  (mainTask i (w.outside i.outside)).getD (w.outside i.outside)

/-- A command structure that was never written. -/
def zeroCmd : CmdProcess gsmTypes :=
  { next := none, appStruct := none, sendDataCallback := none, recvDataCallback := none,
    endDataCallback := none, retryNum := 0, timeout := 0, delay := 0 }

/-- The state after `AMPM_GSM_Init`. -/
def mainStart : GsmWorld :=
  { phase := .send, cmdSend := zeroCmd, loaded := none, cmdList := [],
    taskTimeout := ⟨0, 0, 0⟩, clock := fun _ => 0, app := gsmReset, hist := [] }

/-- What the `k`-th iteration meets if the modem answers everything at once, is registered and
reports no call and no message, and 900 ms pass in between. -/
def answers (k : ℕ) : MainInput :=
  { outside :=
      { app := { gsmReset with rx := bytesOf "OK +CREG: 0,1" }
        clock := fun _ => (900 * k).toUInt32
        smsList_nodup := List.nodup_nil
        callList_nodup := List.nodup_nil }
    rounds := 1, openResult := 0, inputResult := 0, inputStatus := [], tcpIpResult := false }

end Ampm

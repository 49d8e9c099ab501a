import AmpmGsm.Gsm.SmsTask

/-!
# Voice calls

`ampm_gsm_call.c`: the list of calls to make, the task that starts them one after the other, and
the end callbacks of the commands it sends.  The DTMF receiver is switched off, and what the
application does in its own callbacks counts among what it does at any time.

* `issueNow`, `issue`, `issueText` — how the main task hands commands to the engine.
* `voiceCallStartRecvCall`, `callTaskInit`, `callTaskPeriodic1Sec`, `callTask` — the task.
* `gsmVoiceCallCheckStateEndCallback` and the others — the end callbacks.
-/

namespace Ampm

/-! ## The variables -/

/-- The main task's variables have changed. -/
@[simps!]
def CmdWorld.setMain (w : GsmWorld) (main : MainVars) : GsmWorld :=
  w.setApp { w.app with main := main }

/-- `voiceCall->... = ...`; a write through `NULL` is taken to do nothing. -/
def setVoiceCall (w : GsmWorld) (call : Call) : GsmWorld :=
  match w.app.voiceCall with
  | some pointer => w.setApp (w.app.setCall pointer call)
  | none => w

/-- `Ampm_SendAtCmdNow` from the main task, which the log takes down. -/
def issueNow (w : GsmWorld) (cmd : GsmCmd) : GsmWorld :=
  (sendAtCmdNow w cmd).log (.app (.issued cmd))

/-- `Ampm_SendAtCmd` from the main task, which the log takes down. -/
def issue (w : GsmWorld) (cmd : GsmCmd) : UInt8 × GsmWorld :=
  let r := sendAtCmd w cmd
  if r.1 ≠ 0 then (r.1, r.2.log (.app (.issued cmd))) else r

/-- `Ampm_CmdTask_SendCmd` from the main task, which the log takes down. -/
def issueText (w : GsmWorld) (args : SendCmdArgs) : UInt8 × GsmWorld :=
  let r := cmdTaskSendCmd w args
  if r.1 = 0 then (r.1, r.2.log (.app (.issuedText (args.text.getD [])))) else r

/-- `SYSTICK_TIME_SEC`. -/
def sysTickTimeSec (seconds : UInt8) : UInt32 := seconds.toUInt32 * 1000

/-! ## The task -/

/-- `Ampm_CallTask_Init`. -/
def callTaskInit (w : GsmWorld) : GsmWorld :=
  w.setMain { w.app.main with callList := [], callDelayTime := 3 }

/-- `Ampm_VoiceCallCheckList_IsEmpty`. -/
def voiceCallCheckListIsEmpty (s : GsmState) : Bool := s.main.callList.length = 0

/-- `Ampm_VoiceCallStartRecvCall`. -/
def voiceCallStartRecvCall (w : GsmWorld) : GsmWorld :=
  w.setMain { w.app.main with
    incomingCall :=
      { phone := none, index := 1, state := .start, timeout := 60, timeoutReload := 60, tryNum := 1,
        response := .none, action := .none, actionCallback := false, actionTimeout := 0 } }

/-- A pass of the loop of `Ampm_CallTaskPeriodic_1Sec`. -/
def callPeriodicBody (call : ℕ) (w : GsmWorld) : Option ℕ × GsmWorld :=
  let c := w.app.main.calls call
  let w := if c.timeout ≠ 0 then
      w.setApp (w.app.setCall (.call call) { c with timeout := c.timeout - 1 })
    else w
  (listItemNext w.app.main.callList call, w)

/-- `Ampm_CallTaskPeriodic_1Sec` before its loop. -/
def callTaskCount (w : GsmWorld) : GsmWorld :=
  let m := w.app.main
  let m := if m.callTaskIsRunningCnt ≠ 0 then
      { m with callTaskIsRunningCnt := m.callTaskIsRunningCnt - 1 }
    else { m with incomingCall := { m.incomingCall with state := .ended } }
  let m := if m.incomingCall.timeout ≠ 0 then
      { m with incomingCall := { m.incomingCall with timeout := m.incomingCall.timeout - 1 } }
    else m
  w.setMain m

/-- The condition under which `Ampm_CallTask` starts a call.  Its last comparison, of `action` with
`CALL_ENDED`, holds for every action. -/
def Call.canStart (c : Call) : Bool :=
  c.response ≠ .success && c.phone.isSome && c.tryNum ≠ 0 && c.action ≠ .hangupNow

/-- The call at `call` is started. -/
def callStart (w : GsmWorld) (call : ℕ) : GsmWorld :=
  let c := w.app.main.calls call
  let delay := initTimeout (w.clock 0) (sysTickTimeSec 3)
  let w := w.ticked.setApp { w.app.setCall (.call call)
    { c with timeout := c.timeoutReload, tryNum := c.tryNum - 1, state := .start } with
      voiceCall := some (.call call) }
  let w := w.setMain { w.app.main with callDelayTime := 3, tCallDelayTimeout := delay }
  issueNow w .voiceCallSendCmdProcessStart

/-- The call at `call` is taken off the list. -/
def callDrop (w : GsmWorld) (call : ℕ) : GsmWorld :=
  let s := w.app.setCall (.call call) { w.app.main.calls call with state := .ended }
  w.setApp { s with main := { s.main with callList := listRemove s.main.callList call } }

/-- A pass of the loop of `Ampm_CallTask`.  `list_remove` clears the link of what it removes, so
that nothing follows a call that was taken off the list. -/
def callTaskBody (call : ℕ) (w : GsmWorld) : Option ℕ × GsmWorld :=
  if (w.app.main.calls call).canStart then (none, callStart w call)
  else (listItemNext (callDrop w call).app.main.callList call, callDrop w call)

/-- `CheckTimeout(&tCallDelayTimeout)`. -/
def checkCallDelay (w : GsmWorld) : Bool × GsmWorld :=
  let r := checkTimeout w.app.main.tCallDelayTimeout (w.clock 0)
  (r.1 = 0, w.ticked.setMain { w.app.main with tCallDelayTimeout := r.2 })

/-- The state after `while(msg != NULL)`, if the given number of rounds is enough. -/
def smsWalkWithin {σ : Type} (body : ℕ → σ → Option ℕ × σ) (rounds : ℕ) (item : Option ℕ) (s : σ) :
    Option σ :=
  match smsWalk body rounds item s with
  | (none, s) => some s
  | (some _, _) => none

/-- `Ampm_CallTask`, with at most `rounds` passes through its loop. -/
def callTask (rounds : ℕ) (w : GsmWorld) : Option (UInt8 × GsmWorld) :=
  let w := w.setMain { w.app.main with callTaskIsRunningCnt := 1 }
  if cmdCheckIsEmpty w.cmdSend ∧ cmdTaskIsIdle w.phase then
    let r := checkCallDelay w
    let w := r.2
    if r.1 then
      if w.app.main.incomingCall.state = .start then
        some (0, issueNow (w.setApp { w.app with voiceCall := some .incomingCall })
          .voiceCallSendCmdProcessStart)
      else if w.app.main.callList.length ≠ 0 then
        (smsWalkWithin callTaskBody rounds w.app.main.callList.head? w).map fun w => (0, w)
      else some (1, w)
    else some (0, w)
  else some (0, w)

/-- `Ampm_CallTaskPeriodic_1Sec`, with at most `rounds` passes through its loop. -/
def callTaskPeriodic1Sec (rounds : ℕ) (w : GsmWorld) : Option GsmWorld :=
  let w := callTaskCount w
  if w.app.main.callList.length = 0 then some w
  else smsWalkWithin callPeriodicBody rounds w.app.main.callList.head? w

/-! ## Reading the list of current calls -/

/-- `%d`: the number, and what follows it. -/
def scanInt (s : List UInt8) : Option (ℤ × List UInt8) :=
  let s := s.dropWhile isSpace
  let minus := s.head? = some 45
  let s := if minus ∨ s.head? = some 43 then s.tail else s
  let value : ℤ := leadingDigits s
  if s.takeWhile isDigit = [] then none
  else some (if minus then -value else value, s.dropWhile isDigit)

/-- `%d,%d,...`: the numbers read. -/
def scanInts : ℕ → List UInt8 → List ℤ
  | 0, _ => []
  | n + 1, s =>
      match scanInt s with
      | none => []
      | some (value, 44 :: rest) => value :: scanInts n rest
      | some (value, _) => [value]

/-- `idx` and `stat` of the line in `listOfCurrentCall`; a variable that `sscanf` did not write is
taken to be 0. -/
def scanClcc (s : GsmState) : UInt8 × UInt8 :=
  let numbers := scanInts 5 (cString s.listOfCurrentCall 128)
  let byte (k : ℕ) : UInt8 := (numbers.getD k 0 % 256).toNat.toUInt8
  (byte 0, byte 2)

/-- `%d,` a number of times: what follows. -/
def scanBehind : ℕ → List UInt8 → Option (List UInt8)
  | 0, s => some s
  | n + 1, s =>
      match scanInt s with
      | some (_, 44 :: rest) => scanBehind n rest
      | _ => none

/-- A character that `%[^", :\t\n\r]` takes. -/
def isNumberChar (c : UInt8) : Bool := c ∉ bytesOf "\", :\t\n\r"

/-- The number in the line in `listOfCurrentCall`, empty if `sscanf` does not get so far. -/
def clccNumber (s : GsmState) : List UInt8 :=
  match scanBehind 5 (cString s.listOfCurrentCall 128) with
  | some (34 :: rest) => rest.takeWhile isNumberChar
  | _ => []

/-- What `sscanf` writes to `phoneNumber`. -/
def clccPhoneNumber (s : GsmState) : List UInt8 :=
  if clccNumber s = [] then [] else clccNumber s ++ [0]

/-- `memcpy(ampm_IncomingCallPhoneNo,phoneNumber,sizeof(phoneNumber))`, if the call is
`incomingCall`; a byte that `sscanf` did not write is taken to be 0. -/
def copyPhoneNumber (s : GsmState) (i : ℕ) : UInt8 :=
  if s.voiceCall = some .incomingCall ∧ i < 32 then (clccPhoneNumber s).getD i 0
  else s.incomingCallPhoneNo i

/-- The conversion of a number to `CALL_STATE_RESPONSE`. -/
def CallState.ofCode (code : UInt8) : CallState :=
  if code = 0 then .start
  else if code = 1 then .active
  else if code = 2 then .held
  else if code = 3 then .dialing
  else if code = 4 then .alerting
  else if code = 5 then .incoming
  else if code = 6 then .waiting
  else if code = 7 then .ended
  else .other code

/-! ## The end callbacks -/

/-- The response that a cause reported by `AT+CEER` stands for. -/
def ceerResponse (ceerId : UInt16) : CallResponse :=
  if ceerId = 16 then .normalCallClearing
  else if ceerId = 17 then .busy
  else if ceerId = 19 then .alertingButNoAnswer
  else if ceerId = 31 then .noCarrier
  else .noCarrier

/-- `Ampm_GsmVoiceCallCheckCeerEndCallback`. -/
def gsmVoiceCallCheckCeerEndCallback (phase : CmdPhase) (w : GsmWorld) : UInt8 × GsmWorld :=
  let c := w.app.call
  let w :=
    if phase = .ok ∧ w.app.gotCeerId ∧ c.response = .none then
      setVoiceCall w { c with response := ceerResponse w.app.ceerId }
    else w
  (1, setVoiceCall w { w.app.call with state := .ended })

/-- `switch(voiceCall->state)` of `Ampm_GsmVoiceCallCheckStateEndCallback`: whether the callback
returns, and the state. -/
def checkCallState (w : GsmWorld) : Bool × GsmWorld :=
  let c := w.app.call
  let timeout := initTimeout (w.clock 0) (sysTickTimeSec c.actionTimeout)
  match c.state with
  | .dialing =>
      let alerting := initTimeout (w.clock 1) (sysTickTimeSec c.actionTimeout)
      (false, w.ticked.ticked.setMain { w.app.main with
        callTimeout := timeout, callAlertingTimeout := alerting })
  | .alerting => (false, w.ticked.setMain { w.app.main with callTimeout := timeout })
  | .incoming =>
      if w.app.voiceCall ≠ some .incomingCall then
        let w := setVoiceCall w { c with state := .ended, response := .unsuccess }
        (false, w.setApp { w.app with voiceCall := some .incomingCall })
      else (false, w)
  | .ended => (true, sendAtCmdNow w .voiceCallSendCmdProcessAtChld1X)
  | _ => (false, w)

/-- `voiceCall->response = response;` after a load. -/
def loadThenRespond (w : GsmWorld) (cmd : GsmCmd) (response : CallResponse) : GsmWorld :=
  let w := sendAtCmdNow w cmd
  setVoiceCall w { w.app.call with response := response }

/-- `switch(voiceCall->action)` of `Ampm_GsmVoiceCallCheckStateEndCallback`. -/
def checkCallAction (w : GsmWorld) : GsmWorld :=
  let c := w.app.call
  match c.action with
  | .none => w
  | .hangupWhenAlerting =>
      let r := checkTimeout w.app.main.callAlertingTimeout (w.clock 0)
      let w' := if c.state = .alerting then
          w.ticked.setMain { w.app.main with callAlertingTimeout := r.2 }
        else w
      if (c.state = .alerting ∧ r.1 = 0) ∨ c.state = .active ∨ c.state = .incoming then
        loadThenRespond w' .voiceCallSendCmdProcessAtChld1X .success
      else w'
  | .hangupWhenActive =>
      if c.state = .active then loadThenRespond w .voiceCallSendCmdProcessAtChld1X .success else w
  | .hangupAfterActiveActionTimeout =>
      let r := checkTimeout w.app.main.callTimeout (w.clock 0)
      let w' := if c.state = .alerting then
          w.ticked.setMain { w.app.main with callTimeout := r.2 }
        else w
      if c.state = .alerting ∧ r.1 = 0 then
        loadThenRespond w' .voiceCallSendCmdProcessAtChld1X .success
      else w'
  | .pickupWhenIncoming =>
      if c.state = .incoming then sendAtCmdNow w .voiceCallSendCmdProcessAta else w
  | .hangupNow =>
      loadThenRespond w
        (if w.app.gotListOfCurrentCall ∨ c.state = .active then .voiceCallSendCmdProcessAtChld1X
          else .voiceCallSendCmdProcessAtChld) .cancelBySoftware

/-- `gotListOfCurrentCall = 0; return 1;` after the second `switch`. -/
def checkCallDone (w : GsmWorld) : UInt8 × GsmWorld :=
  let w := checkCallAction w
  (1, w.setApp { w.app with gotListOfCurrentCall := false })

/-- `Ampm_GsmVoiceCallCheckStateEndCallback`. -/
def gsmVoiceCallCheckStateEndCallback (phase : CmdPhase) (w : GsmWorld) : UInt8 × GsmWorld :=
  if w.app.call.timeout = 0 then
    let w := setVoiceCall w { w.app.call with response := .timeout }
    (1, sendAtCmdNow w .voiceCallSendCmdProcessAtChld)
  else if phase = .ok ∧ w.app.gotListOfCurrentCall then
    let scanned := scanClcc w.app
    let w := w.setApp { w.app with
      callListIsEmpty := false
      incomingCallPhoneNo := copyPhoneNumber w.app
      gotIncomingNumberFlag :=
        w.app.gotIncomingNumberFlag || w.app.voiceCall = some .incomingCall }
    let w := setVoiceCall w { w.app.call with
      state := CallState.ofCode (scanned.2 + 1), index := scanned.1 }
    let r := checkCallState w
    if r.1 then (1, r.2) else checkCallDone r.2
  else if w.app.gotListOfCurrentCall = false ∧ w.app.callListIsEmpty then
    (1, sendAtCmdNow w .voiceCallSendCmdProcessAtCeer)
  else checkCallDone w

/-- `Ampm_GsmCallEndCallback`. -/
def gsmCallEndCallback (w : GsmWorld) : UInt8 × GsmWorld :=
  let timeout := initTimeout (w.clock 0) (sysTickTimeSec w.app.main.callDelayTime)
  let w := w.ticked.setMain { w.app.main with tCallDelayTimeout := timeout }
  (1, setVoiceCall w { w.app.call with state := .ended })

/-- `Ampm_GsmATM1EndCallback`. -/
def gsmAtm1EndCallback (w : GsmWorld) : UInt8 × GsmWorld :=
  if w.app.main.incomingCall.state = .start then
    (1, sendAtCmdNow (w.setApp { w.app with voiceCall := some .incomingCall })
      .voiceCallSendCmdProcessAtClcc)
  else (1, w)

/-- `Ampm_GsmCallDialEndCallback`. -/
def gsmCallDialEndCallback (phase : CmdPhase) (w : GsmWorld) : UInt8 × GsmWorld :=
  let w :=
    if phase = .error then
      let m := w.app.main
      let w := w.setMain { m with
        callTaskFailCnt := m.callTaskFailCnt + 1, callDelayTime := 10 }
      let w := setVoiceCall w { w.app.call with response := .unsuccess }
      sendAtCmdNow w .voiceCallSendCmdProcessAtChld1X
    else if w.app.call.action = .hangupNow then
      let w := setVoiceCall w { w.app.call with response := .cancelBySoftware }
      sendAtCmdNow w .voiceCallSendCmdProcessAtChld1X
    else w
  let w := w.setApp { w.app with gotListOfCurrentCall := false, callListIsEmpty := false }
  let timeout := initTimeout (w.clock 0) (sysTickTimeSec w.app.call.actionTimeout)
  (1, w.ticked.setMain { w.app.main with callTimeout := timeout })

end Ampm

import AmpmGsm.Gsm.Callbacks
import AmpmGsm.Lib.Gates

/-!
# No wait without a transmission

The engine waits for the answer to a descriptor only after it sent that descriptor, unless the
send callback of another one loaded it: `case AMPM_CMD_SEND` stores `AMPM_CMD_WAIT` over whatever
the callback did.

* `sentGate`, `SentBeforeWait` — the descriptor in `cmdSend` was sent since it was loaded.
* `EngineInput`, `engineStep` — everything the firmware does to the engine.
* `engine_sentBeforeWait_iff` — the runs on which every wait follows a transmission.
-/

namespace Ampm

open Gates

/-! ## The property -/

/-- Opened by a transmission, shut by a load. -/
def sentGate {S : CmdTypes} : Gate (CmdEvent S) where
  opens
    | .send _ => true
    | _ => false
  shuts := CmdEvent.isLoad

/-- If the engine waits, `send_data_callback` was invoked since `cmdSend` was loaded. -/
def SentBeforeWait (w : GsmWorld) : Prop :=
  w.phase = .wait → w.cmdSend.sendDataCallback ≠ none → sentGate.isOpen w.hist = true

/-! ## The engine in the firmware -/

/-- What the firmware does to the engine.  Before a call of `Ampm_Cmd_Task` the rest of the
firmware may have changed any of the library's variables, and the clock may have been read. -/
inductive EngineInput
  | task (app : GsmState) (clock : ℕ → UInt32)
  | sendAtCmd (cmd : GsmCmd)
  | sendAtCmdNow (cmd : GsmCmd)
  | cmdTaskSendCmd (args : SendCmdArgs)
  | cmdAddToList (cmd : GsmCmd)
  | setEndCallback (callback : GsmEndCb)
  | setCmdOk

/-- The library's send callback with any receive and end callbacks. -/
def engineCode (recv : GsmRecvCb → GsmWorld → UInt32 × GsmWorld)
    (endCb : GsmEndCb → CmdPhase → GsmWorld → UInt8 × GsmWorld) : CmdCode gsmTypes where
  process := gsmProcess
  send := fun _ => gsmSendCallback
  recv := recv
  endCb := endCb

/-- One action of the firmware. -/
def engineStep (code : CmdCode gsmTypes) (w : GsmWorld) : EngineInput → GsmWorld
  | .task app clock => cmdTaskAfter code w (app, clock)
  | .sendAtCmd cmd => (sendAtCmd w cmd).2
  | .sendAtCmdNow cmd => sendAtCmdNow w cmd
  | .cmdTaskSendCmd args => (cmdTaskSendCmd w args).2
  | .cmdAddToList cmd => cmdAddToList w cmd
  | .setEndCallback callback =>
      { w with cmdSend := { w.cmdSend with endDataCallback := some callback } }
  | .setCmdOk => (setCmdOk w).2

/-- The action does not have `Ampm_Cmd_Task` send a descriptor whose send callback loads another
one. -/
def SendsItself (w : GsmWorld) : EngineInput → Prop
  | .task app clock =>
      let w := w.own app clock []
      w.phase = .send → w.taskExpired = true → w.cmdSend.sendDataCallback ≠ none →
        sendLoads w = false
  | _ => True

/-! ## What each action does to the property -/

namespace SentBeforeWait

variable {w w' : GsmWorld}

lemma of_phase (h : w.phase ≠ .wait) : SentBeforeWait w := fun hwait => absurd hwait h

/-- The log may grow by events that the gate takes no notice of. -/
lemma extend (h : SentBeforeWait w) (es : List (CmdEvent gsmTypes))
    (hes : ∀ e ∈ es, sentGate.ignores e) (hphase : w'.phase = w.phase)
    (hcb : w'.cmdSend.sendDataCallback = w.cmdSend.sendDataCallback)
    (hhist : w'.hist = es ++ w.hist) : SentBeforeWait w' := by
  intro hwait hsome
  rw [hhist, Gate.isOpen_append_of_ignores hes]
  exact h (hphase ▸ hwait) (hcb ▸ hsome)

lemma same (h : SentBeforeWait w) (hphase : w'.phase = w.phase)
    (hcb : w'.cmdSend.sendDataCallback = w.cmdSend.sendDataCallback)
    (hhist : w'.hist = w.hist) : SentBeforeWait w' :=
  h.extend [] (List.forall_mem_nil _) hphase hcb hhist

lemma own_ignored (events : List GsmEvent) :
    ∀ e ∈ events.map (CmdEvent.app (S := gsmTypes)), sentGate.ignores e := by
  intro e he
  obtain ⟨x, -, rfl⟩ := List.mem_map.mp he
  exact ⟨rfl, rfl⟩

/-- A callback keeps the property: what it loads is not waited for yet. -/
lemma acts (h : SentBeforeWait w) (hacts : Acts gsmProcess w w') : SentBeforeWait w' := by
  induction hacts with
  | nothing => exact h
  | own _ app clock events ih => exact ih.extend _ (own_ignored events) rfl rfl rfl
  | load _ name _ => exact of_phase nofun
  | setOk _ _ => exact of_phase nofun

/-- The end callback, whatever it does. -/
lemma atEnd {code : CmdCode gsmTypes} {here res : CmdPhase} (h : SentBeforeWait w)
    (hend : ∀ cb phase w, Acts gsmProcess w (code.endCb cb phase w).2) (hres : res ≠ .wait) :
    SentBeforeWait (cmdTaskEnd code w here res) := by
  unfold cmdTaskEnd
  cases w.cmdSend.endDataCallback with
  | none => exact of_phase hres
  | some callback =>
      have hlog : SentBeforeWait (w.log (.endCall w.loaded res)) :=
        h.extend [_] (List.forall_mem_singleton.mpr ⟨rfl, rfl⟩) rfl rfl rfl
      have hcall := hlog.acts (hend callback res _)
      simp only
      split_ifs
      · exact of_phase hres
      · exact hcall
      · exact hcall

end SentBeforeWait

section Steps

variable {recv : GsmRecvCb → GsmWorld → UInt32 × GsmWorld}
  {endCb : GsmEndCb → CmdPhase → GsmWorld → UInt8 × GsmWorld} {w : GsmWorld}

/-- The receive callback, whatever it returns. -/
lemma sentBeforeWait_asked (hrecv : ∀ cb w, Acts gsmProcess w (recv cb w).2)
    (h : SentBeforeWait w) (callback : GsmRecvCb) :
    SentBeforeWait
      (let r := recv callback w.checkTask
       let res := r.1.toUInt8
       let w' := r.2.log (.recv r.2.loaded res)
       if res = CmdPhase.delay.code then (w'.initTask w'.cmdSend.delay).setPhase .delay
       else if res = CmdPhase.resend.code then (w'.setPhase .resend).initTask w'.cmdSend.delay
       else w') := by
  have hchecked : SentBeforeWait w.checkTask := h.same rfl rfl rfl
  have hcall := hchecked.acts (hrecv callback _)
  simp only
  split_ifs
  · exact SentBeforeWait.of_phase nofun
  · exact SentBeforeWait.of_phase nofun
  · exact hcall.extend [_] (List.forall_mem_singleton.mpr ⟨rfl, rfl⟩) rfl rfl rfl

/-- A descriptor whose send callback loads nothing is waited for after it was sent. -/
lemma sentBeforeWait_sent (hquiet : sendLoads w = false) :
    SentBeforeWait
      (let w' := gsmSendCallback (w.checkTask.log (.send w.loaded))
       (w'.initTask w'.cmdSend.timeout).setPhase .wait) := by
  obtain ⟨app, clock, events, heq⟩ :=
    gsmSendCallback_quiet (w := w.checkTask.log (.send w.loaded)) hquiet
  intro _ _
  show sentGate.isOpen (gsmSendCallback _).hist = true
  rw [heq, CmdWorld.own_hist,
    Gate.isOpen_append_of_ignores (SentBeforeWait.own_ignored events)]
  rfl

/-- A descriptor that a send callback loaded is waited for and was not sent. -/
lemma not_sentBeforeWait_sent (hloads : sendLoads w = true) :
    ¬ SentBeforeWait
      (let w' := gsmSendCallback (w.checkTask.log (.send w.loaded))
       (w'.initTask w'.cmdSend.timeout).setPhase .wait) := by
  obtain ⟨name, -, w₁, ⟨app, clock, events, rfl⟩, app', clock', events', heq⟩ :=
    gsmSendCallback_loads (w := w.checkTask.log (.send w.loaded)) hloads
  intro h
  have hopen : sentGate.isOpen (gsmSendCallback (w.checkTask.log (.send w.loaded))).hist = true := by
    refine h rfl ?_
    show (gsmSendCallback _).cmdSend.sendDataCallback ≠ none
    rw [heq]
    show (gsmProcess name).sendDataCallback ≠ none
    rw [(gsmProcess_callbacks name).1]
    exact Option.some_ne_none _
  rw [heq, CmdWorld.own_hist,
    Gate.isOpen_append_of_ignores (SentBeforeWait.own_ignored events')] at hopen
  exact Bool.false_ne_true hopen

/-- One call of `Ampm_Cmd_Task` that does not send such a descriptor keeps the property. -/
theorem cmdTask_sentBeforeWait (hrecv : ∀ cb w, Acts gsmProcess w (recv cb w).2)
    (hend : ∀ cb phase w, Acts gsmProcess w (endCb cb phase w).2) (h : SentBeforeWait w)
    (hsend : w.phase = .send → w.taskExpired = true → w.cmdSend.sendDataCallback ≠ none →
      sendLoads w = false) : SentBeforeWait (cmdTask (engineCode recv endCb) w) := by
  have hchecked : SentBeforeWait w.checkTask := h.same rfl rfl rfl
  have hstep := cmdTask_step (engineCode recv endCb) w
  generalize cmdTask (engineCode recv endCb) w = w' at hstep
  cases hstep with
  | tooEarly hphase hexp => exact hchecked
  | sent callback hphase hexp hcb =>
      exact sentBeforeWait_sent (hsend hphase hexp (hcb ▸ Option.some_ne_none callback))
  | notSent hphase hexp hcb => exact .of_phase nofun
  | retry hphase hnum => exact .of_phase nofun
  | giveUp hphase hnum => exact .of_phase nofun
  | failed hphase => exact h.atEnd hend nofun
  | notAwaited hphase hcb => exact .of_phase nofun
  | lapsed callback hphase hexp hcb => exact .of_phase nofun
  | asked callback hphase hexp hcb => exact sentBeforeWait_asked hrecv h callback
  | succeeded hphase hexp => exact hchecked.atEnd hend nofun
  | loaded name rest hphase hnext => exact .of_phase nofun
  | idle hphase hnext => exact h.same rfl rfl rfl

/-- One call that does send such a descriptor breaks it. -/
theorem cmdTask_not_sentBeforeWait (hphase : w.phase = .send) (hexp : w.taskExpired = true)
    (hcb : w.cmdSend.sendDataCallback ≠ none) (hloads : sendLoads w = true) :
    ¬ SentBeforeWait (cmdTask (engineCode recv endCb) w) := by
  obtain ⟨callback, hsome⟩ := Option.ne_none_iff_exists'.mp hcb
  rw [cmdTask_of_send (engineCode recv endCb) hphase hexp hsome]
  exact not_sentBeforeWait_sent hloads

/-- One action of the firmware that meets the condition keeps the property. -/
theorem engineStep_sentBeforeWait (hrecv : ∀ cb w, Acts gsmProcess w (recv cb w).2)
    (hend : ∀ cb phase w, Acts gsmProcess w (endCb cb phase w).2) (h : SentBeforeWait w)
    (i : EngineInput) (hi : SendsItself w i) :
    SentBeforeWait (engineStep (engineCode recv endCb) w i) := by
  cases i with
  | task app clock =>
      exact cmdTask_sentBeforeWait hrecv hend (h.same rfl rfl rfl) hi
  | sendAtCmd cmd =>
      simp only [engineStep, sendAtCmd, sendCmd]
      split_ifs
      · exact .of_phase nofun
      · exact h
  | sendAtCmdNow cmd => exact .of_phase nofun
  | cmdTaskSendCmd args =>
      simp only [engineStep, cmdTaskSendCmd]
      split_ifs
      · exact .of_phase nofun
      · exact h
  | cmdAddToList cmd => exact h.same rfl rfl rfl
  | setEndCallback callback => exact h.same rfl rfl rfl
  | setCmdOk => exact .of_phase nofun

end Steps

/-! ## Runs -/

/-- **No wait without a transmission, exactly when.**  Whatever the receive and end callbacks do
with `Ampm_SendAtCmdNow` and `Ampm_SetCmdOK`, whatever else the firmware does and whatever the
clock shows, every wait of a run follows a transmission of the descriptor waited for if and only
if the engine never sends a descriptor whose send callback loads another one: `AT+CMGS` for a
message that cannot be sent as it is, or `AT+CHLD=1` without a call. -/
theorem engine_sentBeforeWait_iff (recv : GsmRecvCb → GsmWorld → UInt32 × GsmWorld)
    (endCb : GsmEndCb → CmdPhase → GsmWorld → UInt8 × GsmWorld)
    (hrecv : ∀ callback w, Acts gsmProcess w (recv callback w).2)
    (hend : ∀ callback phase w, Acts gsmProcess w (endCb callback phase w).2)
    (w₀ : GsmWorld) (hw₀ : SentBeforeWait w₀) (is : List EngineInput) :
    Runs.Throughout (engineStep (engineCode recv endCb)) SentBeforeWait w₀ is ↔
      Runs.StepsMeet (engineStep (engineCode recv endCb)) SendsItself w₀ is := by
  refine Runs.throughout_iff_stepsMeet (I := SentBeforeWait) (fun _ h => h)
    (fun w i h hi => engineStep_sentBeforeWait hrecv hend h i hi) (fun w i _ hi => ?_) hw₀
  cases i with
  | task app clock =>
      simp only [SendsItself, Classical.not_imp, Bool.not_eq_false] at hi
      obtain ⟨hphase, hexp, hcb, hloads⟩ := hi
      exact cmdTask_not_sentBeforeWait hphase hexp hcb hloads
  | _ => exact absurd trivial hi

/-! ### A message without a service centre -/

/-- A message in PDU mode is being sent, and the modem did not answer `AT+CSCA?`. -/
def noCentreState : GsmState :=
  { gsmReset with
    smsHeap := fun _ =>
      { zeroMsg with
        phone := some [48, 57, 55], msg := some [104, 105], len := 2, timeout := 60
        timeoutReload := 60, tryNum := 2, flag := smsNewMsg, mode := .pdu8 }
    smsNext := 2
    smsList := [1]
    smsMsg := 1 }

/-- `smsSendCmdProcess_3` ended in `AMPM_CMD_ERROR`. -/
def noCentreStart : GsmWorld := engineAt .smsSendCmdProcess3 .error noCentreState

/-- Calls of `Ampm_Cmd_Task` at the given ticks. -/
def tasksAt (app : GsmState) (ticks : List UInt32) : List EngineInput :=
  ticks.map fun t => .task app fun _ => t

instance (w : GsmWorld) : Decidable (SentBeforeWait w) :=
  inferInstanceAs (Decidable (_ → _ → _))

/-- The library's receive and end callbacks meet the hypotheses. -/
theorem engine_sentBeforeWait_iff_noCentre :
    Runs.Throughout (engineStep (engineCode (fun _ => gsmRecvCallback) (gsmCode idleOther).endCb))
        SentBeforeWait noCentreStart (tasksAt noCentreState [0, 600]) ↔
      Runs.StepsMeet (engineStep (engineCode (fun _ => gsmRecvCallback) (gsmCode idleOther).endCb))
        SendsItself noCentreStart (tasksAt noCentreState [0, 600]) :=
  engine_sentBeforeWait_iff _ _ (fun _ w => (gsmRecvCallback_quiet w).acts)
    (gsmCode_endCb_acts fun _ _ w => .nothing w) noCentreStart (by decide) _

/-- The engine waits for the answer to `smsSendCmdProcess_0`, which was never sent: the send
callback of `smsSendCmdProcess_4` loaded it. -/
theorem engine_waits_unsent :
    ¬ ∀ (recv : GsmRecvCb → GsmWorld → UInt32 × GsmWorld)
      (endCb : GsmEndCb → CmdPhase → GsmWorld → UInt8 × GsmWorld),
      (∀ callback w, Acts gsmProcess w (recv callback w).2) →
      (∀ callback phase w, Acts gsmProcess w (endCb callback phase w).2) →
      ∀ (w₀ : GsmWorld), SentBeforeWait w₀ → ∀ is : List EngineInput,
      Runs.Throughout (engineStep (engineCode recv endCb)) SentBeforeWait w₀ is := by
  intro h
  have hrun := h (fun _ => gsmRecvCallback) (gsmCode idleOther).endCb
    (fun _ w => (gsmRecvCallback_quiet w).acts) (gsmCode_endCb_acts fun _ _ w => .nothing w)
    noCentreStart (by decide) (tasksAt noCentreState [0, 600])
  exact absurd hrun.last (by decide)

end Ampm

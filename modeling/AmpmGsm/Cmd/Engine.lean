import AmpmGsm.Cmd.SysTick
import AmpmGsm.Lib.Runs
import Mathlib.Tactic.Simps.Basic

/-!
# The AT command engine

`lib/sparser.c`: `Ampm_Cmd_Task` drives one command descriptor at a time through its phases, and
calls the descriptor's three callbacks on the way.  The engine's variables are globals: a callback
may load another descriptor with `Ampm_SendCmdNow` while `Ampm_Cmd_Task` is in the middle of a case.

* `CmdWorld` — the engine's variables, the tick counter, everything else the callbacks work on, and
  a log of what happened, newest first.
* `sendCmd`, `sendCmdNow`, `cmdTask` — the code.
* `TaskStep`, `cmdTask_step` — all that one call of `Ampm_Cmd_Task` can do.
* `Acts` — what a callback may do to the engine: load descriptors, and store `AMPM_CMD_OK`.
-/

namespace Ampm

/-! ## Descriptors and the state they work on -/

/-- `AMPM_CMD_PHASE_TYPE`. -/
inductive CmdPhase
  | send
  | resend
  | wait
  | delay
  | gotoError
  | error
  | ok
  deriving DecidableEq

/-- The value of the enumeration constant, as callbacks return it. -/
def CmdPhase.code : CmdPhase → UInt8
  | .send => 0
  | .resend => 1
  | .wait => 2
  | .delay => 3
  | .gotoError => 4
  | .error => 5
  | .ok => 6

/-- What a firmware built on the engine supplies: the names of its constant descriptors, what
`appStruct` points to, its callbacks, the state they work on and what they let be seen. -/
structure CmdTypes where
  Name : Type
  App : Type
  SendCb : Type
  RecvCb : Type
  EndCb : Type
  State : Type
  Event : Type

/-- `AMPM_CMD_PROCESS_TYPE`.  `none` is the pointer `NULL`. -/
structure CmdProcess (S : CmdTypes) where
  next : Option S.Name
  appStruct : Option S.App
  sendDataCallback : Option S.SendCb
  recvDataCallback : Option S.RecvCb
  endDataCallback : Option S.EndCb
  retryNum : UInt8
  timeout : UInt16
  delay : UInt16

/-- What the log of a run records. -/
inductive CmdEvent (S : CmdTypes)
  /-- A descriptor was copied into `cmdSend`; `none` stands for one built in place. -/
  | load (name : Option S.Name)
  /-- `send_data_callback` was invoked. -/
  | send (name : Option S.Name)
  /-- `recv_data_callback` returned `res`. -/
  | recv (name : Option S.Name) (res : UInt8)
  /-- The response did not come in time. -/
  | timeout (name : Option S.Name)
  /-- `end_data_callback` was invoked with `phase`. -/
  | endCall (name : Option S.Name) (phase : CmdPhase)
  /-- A callback stored `AMPM_CMD_OK` into the phase. -/
  | setOk
  /-- Something a callback lets be seen. -/
  | app (event : S.Event)

def CmdEvent.isLoad {S : CmdTypes} : CmdEvent S → Bool
  | .load _ => true
  | _ => false

/-- The engine's variables, the values that the tick counter will be read with, the state of the
callbacks, and the log.  `loaded` names the descriptor that `cmdSend` is a copy of. -/
structure CmdWorld (S : CmdTypes) where
  phase : CmdPhase
  cmdSend : CmdProcess S
  loaded : Option S.Name
  cmdList : List S.Name
  taskTimeout : Timeout
  clock : ℕ → UInt32
  app : S.State
  hist : List (CmdEvent S)

/-- The constant descriptors of a firmware, and the callbacks as functions.  What
`send_data_callback` returns is not used by the engine. -/
structure CmdCode (S : CmdTypes) where
  process : S.Name → CmdProcess S
  send : S.SendCb → CmdWorld S → CmdWorld S
  recv : S.RecvCb → CmdWorld S → UInt32 × CmdWorld S
  endCb : S.EndCb → CmdPhase → CmdWorld S → UInt8 × CmdWorld S

variable {S : CmdTypes}

namespace CmdWorld

/-- Append to the log. -/
@[simps]
def log (w : CmdWorld S) (e : CmdEvent S) : CmdWorld S := { w with hist := e :: w.hist }

/-- The tick counter has been read once. -/
@[simps]
def ticked (w : CmdWorld S) : CmdWorld S := { w with clock := fun k => w.clock (k + 1) }

@[simps]
def setPhase (w : CmdWorld S) (phase : CmdPhase) : CmdWorld S := { w with phase := phase }

/-- `InitTimeout(taskTimeout, ms)`. -/
@[simps]
def initTask (w : CmdWorld S) (ms : UInt16) : CmdWorld S :=
  { w.ticked with taskTimeout := initTimeout (w.clock 0) ms.toUInt32 }

/-- `CheckTimeout(taskTimeout) == SYSTICK_TIMEOUT`. -/
def taskExpired (w : CmdWorld S) : Bool := (checkTimeout w.taskTimeout (w.clock 0)).1 = 0

/-- The state after `CheckTimeout(taskTimeout)`. -/
@[simps]
def checkTask (w : CmdWorld S) : CmdWorld S :=
  { w.ticked with taskTimeout := (checkTimeout w.taskTimeout (w.clock 0)).2 }

/-- `*cmdSend = *cmd; InitTimeout(taskTimeout, cmdSend->delay); *ampmCmdPhase = AMPM_CMD_SEND;` -/
@[simps]
def load (process : S.Name → CmdProcess S) (w : CmdWorld S) (name : S.Name) : CmdWorld S :=
  { w with
    phase := .send
    cmdSend := process name
    loaded := some name
    taskTimeout := initTimeout (w.clock 0) (process name).delay.toUInt32
    clock := fun k => w.clock (k + 1)
    hist := .load (some name) :: w.hist }

end CmdWorld

/-! ## The code -/

/-- `Ampm_CmdTask_IsIdle`. -/
def cmdTaskIsIdle : CmdPhase → Bool
  | .error => true
  | .ok => true
  | _ => false

/-- `Ampm_CmdCheck_IsEmpty`. -/
def cmdCheckIsEmpty (p : CmdProcess S) : Bool := p.next.isNone

/-- `Ampm_SendCmd`: the return value and the state. -/
def sendCmd (process : S.Name → CmdProcess S) (w : CmdWorld S) (cmd : S.Name) :
    UInt8 × CmdWorld S :=
  if cmdTaskIsIdle w.phase then (1, w.load process cmd) else (0, w)

/-- `Ampm_SendCmdNow`. -/
def sendCmdNow (process : S.Name → CmdProcess S) (w : CmdWorld S) (cmd : S.Name) : CmdWorld S :=
  w.load process cmd

/-- `Ampm_CmdAddToList`. -/
def cmdAddToList (w : CmdWorld S) (cmd : S.Name) : CmdWorld S :=
  { w with cmdList := w.cmdList ++ [cmd] }

/-- `Ampm_SetCmdOK`. -/
def setCmdOk (w : CmdWorld S) : UInt8 × CmdWorld S := (0, (w.setPhase .ok).log .setOk)

section Task

variable (code : CmdCode S) (w : CmdWorld S)

/-- `case AMPM_CMD_SEND`. -/
def cmdTaskSend : CmdWorld S :=
  if w.taskExpired then
    match w.cmdSend.sendDataCallback with
    | some callback =>
        let w := code.send callback (w.checkTask.log (.send w.loaded))
        (w.initTask w.cmdSend.timeout).setPhase .wait
    | none => w.checkTask.setPhase .delay
  else w.checkTask

/-- `case AMPM_CMD_RESEND`. -/
def cmdTaskResend : CmdWorld S :=
  if w.cmdSend.retryNum ≠ 0 then
    let w := { w with cmdSend := { w.cmdSend with retryNum := w.cmdSend.retryNum - 1 } }
    (w.initTask w.cmdSend.delay).setPhase .send
  else w.setPhase .gotoError

/-- The call of `end_data_callback` with `res` from the phase `here`, which the engine leaves for
`res` if the callback returns non-zero and has not changed the phase itself. -/
def cmdTaskEnd (here res : CmdPhase) : CmdWorld S :=
  match w.cmdSend.endDataCallback with
  | some callback =>
      let r := code.endCb callback res (w.log (.endCall w.loaded res))
      if r.1 ≠ 0 then
        if r.2.phase = here then r.2.setPhase res else r.2
      else r.2
  | none => w.setPhase res

/-- `case AMPM_CMD_WAIT`. -/
def cmdTaskWait : CmdWorld S :=
  match w.cmdSend.recvDataCallback with
  | none => w.setPhase .delay
  | some callback =>
      if w.taskExpired then (w.checkTask.log (.timeout w.loaded)).setPhase .resend
      else
        let r := code.recv callback w.checkTask
        let res := r.1.toUInt8
        let w := r.2.log (.recv r.2.loaded res)
        if res = CmdPhase.delay.code then (w.initTask w.cmdSend.delay).setPhase .delay
        else if res = CmdPhase.resend.code then (w.setPhase .resend).initTask w.cmdSend.delay
        else w

/-- `case AMPM_CMD_DELAY`. -/
def cmdTaskDelay : CmdWorld S :=
  if w.taskExpired then cmdTaskEnd code w.checkTask .delay .ok else w.checkTask

/-- `case AMPM_CMD_ERROR` and `case AMPM_CMD_OK`. -/
def cmdTaskIdle : CmdWorld S :=
  match w.cmdSend.next with
  | some name => w.load code.process name
  | none =>
      match w.cmdList with
      | [] => w
      | cmd :: rest =>
          if w.phase ≠ .error then ({ w with cmdList := rest } : CmdWorld S).load code.process cmd
          else { w with cmdList := [] }

/-- `Ampm_Cmd_Task`. -/
def cmdTask : CmdWorld S :=
  match w.phase with
  | .send => cmdTaskSend code w
  | .resend => cmdTaskResend w
  | .gotoError => cmdTaskEnd code w .gotoError .error
  | .wait => cmdTaskWait code w
  | .delay => cmdTaskDelay code w
  | .error => cmdTaskIdle code w
  | .ok => cmdTaskIdle code w

end Task

/-! ## All that a call can do -/

/-- What one call of `Ampm_Cmd_Task` does, with the branch it takes. -/
inductive TaskStep (code : CmdCode S) (w : CmdWorld S) : CmdWorld S → Prop
  /-- The time has not come. -/
  | tooEarly (hphase : w.phase = .send ∨ w.phase = .delay) (hexp : w.taskExpired = false) :
      TaskStep code w w.checkTask
  /-- The command is sent. -/
  | sent (callback : S.SendCb) (hphase : w.phase = .send) (hexp : w.taskExpired = true)
      (hcb : w.cmdSend.sendDataCallback = some callback) :
      TaskStep code w
        (let w' := code.send callback (w.checkTask.log (.send w.loaded))
         (w'.initTask w'.cmdSend.timeout).setPhase .wait)
  /-- There is nothing to send. -/
  | notSent (hphase : w.phase = .send) (hexp : w.taskExpired = true)
      (hcb : w.cmdSend.sendDataCallback = none) :
      TaskStep code w (w.checkTask.setPhase .delay)
  /-- Another try. -/
  | retry (hphase : w.phase = .resend) (hnum : w.cmdSend.retryNum ≠ 0) :
      TaskStep code w
        ((({ w with cmdSend := { w.cmdSend with retryNum := w.cmdSend.retryNum - 1 } } :
          CmdWorld S).initTask w.cmdSend.delay).setPhase .send)
  /-- No try is left. -/
  | giveUp (hphase : w.phase = .resend) (hnum : w.cmdSend.retryNum = 0) :
      TaskStep code w (w.setPhase .gotoError)
  /-- The command failed, and is finished if its end callback lets it. -/
  | failed (hphase : w.phase = .gotoError) :
      TaskStep code w (cmdTaskEnd code w .gotoError .error)
  /-- There is no answer to wait for. -/
  | notAwaited (hphase : w.phase = .wait) (hcb : w.cmdSend.recvDataCallback = none) :
      TaskStep code w (w.setPhase .delay)
  /-- The answer did not come in time. -/
  | lapsed (callback : S.RecvCb) (hphase : w.phase = .wait) (hexp : w.taskExpired = true)
      (hcb : w.cmdSend.recvDataCallback = some callback) :
      TaskStep code w ((w.checkTask.log (.timeout w.loaded)).setPhase .resend)
  /-- The receive callback was asked. -/
  | asked (callback : S.RecvCb) (hphase : w.phase = .wait) (hexp : w.taskExpired = false)
      (hcb : w.cmdSend.recvDataCallback = some callback) :
      TaskStep code w
        (let r := code.recv callback w.checkTask
         let res := r.1.toUInt8
         let w' := r.2.log (.recv r.2.loaded res)
         if res = CmdPhase.delay.code then (w'.initTask w'.cmdSend.delay).setPhase .delay
         else if res = CmdPhase.resend.code then (w'.setPhase .resend).initTask w'.cmdSend.delay
         else w')
  /-- The command succeeded, and is finished if its end callback lets it. -/
  | succeeded (hphase : w.phase = .delay) (hexp : w.taskExpired = true) :
      TaskStep code w (cmdTaskEnd code w.checkTask .delay .ok)
  /-- The next descriptor of a chain, or of the list, is loaded. -/
  | loaded (name : S.Name) (rest : List S.Name) (hphase : cmdTaskIsIdle w.phase = true)
      (hnext : w.cmdSend.next = some name ∧ rest = w.cmdList ∨
        w.cmdSend.next = none ∧ w.phase ≠ .error ∧ w.cmdList = name :: rest) :
      TaskStep code w (({ w with cmdList := rest } : CmdWorld S).load code.process name)
  /-- Nothing is left to load; after an error the list is emptied. -/
  | idle (hphase : cmdTaskIsIdle w.phase = true) (hnext : w.cmdSend.next = none) :
      TaskStep code w { w with cmdList := [] }

lemma cmdTaskIdle_step (code : CmdCode S) (w : CmdWorld S)
    (hphase : cmdTaskIsIdle w.phase = true) : TaskStep code w (cmdTaskIdle code w) := by
  simp only [cmdTaskIdle]
  cases hnext : w.cmdSend.next with
  | some name => exact .loaded name w.cmdList hphase (Or.inl ⟨hnext, rfl⟩)
  | none =>
      cases hlist : w.cmdList with
      | nil =>
          have hidle : TaskStep code w { w with cmdList := [] } := .idle hphase hnext
          rwa [← hlist] at hidle
      | cons cmd rest =>
          simp only
          split_ifs with herr
          · exact .loaded cmd rest hphase (Or.inr ⟨hnext, herr, hlist⟩)
          · exact .idle hphase hnext

/-- The branches of `Ampm_Cmd_Task` are those of `TaskStep`. -/
theorem cmdTask_step (code : CmdCode S) (w : CmdWorld S) : TaskStep code w (cmdTask code w) := by
  unfold cmdTask
  cases hphase : w.phase with
  | send =>
      simp only [cmdTaskSend]
      split_ifs with hexp
      · cases hcb : w.cmdSend.sendDataCallback with
        | some callback => exact .sent callback hphase hexp hcb
        | none => exact .notSent hphase hexp hcb
      · exact .tooEarly (Or.inl hphase) (Bool.not_eq_true _ ▸ hexp)
  | resend =>
      by_cases hnum : w.cmdSend.retryNum = 0
      · simp only [cmdTaskResend, hnum, ne_eq, not_true_eq_false, if_false]
        exact .giveUp hphase hnum
      · simp only [cmdTaskResend, ne_eq, hnum, not_false_eq_true, if_true]
        exact .retry hphase hnum
  | gotoError => exact .failed hphase
  | wait =>
      simp only [cmdTaskWait]
      cases hcb : w.cmdSend.recvDataCallback with
      | none => exact .notAwaited hphase hcb
      | some callback =>
          by_cases hexp : w.taskExpired = true
          · simp only [hexp, if_true]
            exact .lapsed callback hphase hexp hcb
          · simp only [hexp, Bool.false_eq_true, if_false]
            exact .asked callback hphase (Bool.not_eq_true _ ▸ hexp) hcb
  | delay =>
      simp only [cmdTaskDelay]
      split_ifs with hexp
      · exact .succeeded hphase hexp
      · exact .tooEarly (Or.inr hphase) (Bool.not_eq_true _ ▸ hexp)
  | error => exact cmdTaskIdle_step code w (by rw [hphase]; rfl)
  | ok => exact cmdTaskIdle_step code w (by rw [hphase]; rfl)

/-- A call that sends. -/
lemma cmdTask_of_send (code : CmdCode S) {w : CmdWorld S} {callback : S.SendCb}
    (hphase : w.phase = .send) (hexp : w.taskExpired = true)
    (hcb : w.cmdSend.sendDataCallback = some callback) :
    cmdTask code w =
      (let w' := code.send callback (w.checkTask.log (.send w.loaded))
       (w'.initTask w'.cmdSend.timeout).setPhase .wait) := by
  simp only [cmdTask, hphase, cmdTaskSend, hexp, if_true, hcb]

/-- A call that follows the `next` link. -/
lemma cmdTask_of_next (code : CmdCode S) {w : CmdWorld S} {name : S.Name}
    (hphase : cmdTaskIsIdle w.phase = true) (hnext : w.cmdSend.next = some name) :
    cmdTask code w = w.load code.process name := by
  unfold cmdTask
  cases hp : w.phase with
  | error => simp only [cmdTaskIdle, hnext]
  | ok => simp only [cmdTaskIdle, hnext]
  | _ =>
      rw [hp] at hphase
      exact absurd hphase Bool.false_ne_true

/-- A call with nothing to load. -/
lemma cmdTask_of_idle (code : CmdCode S) {w : CmdWorld S} (hphase : cmdTaskIsIdle w.phase = true)
    (hnext : w.cmdSend.next = none) (hlist : w.cmdList = []) : cmdTask code w = w := by
  unfold cmdTask
  cases hp : w.phase with
  | error => simp only [cmdTaskIdle, hnext, hlist]
  | ok => simp only [cmdTaskIdle, hnext, hlist]
  | _ =>
      rw [hp] at hphase
      exact absurd hphase Bool.false_ne_true

section End

variable {code : CmdCode S} {w : CmdWorld S} {here res : CmdPhase} {callback : S.EndCb}

lemma cmdTaskEnd_of_none (hcb : w.cmdSend.endDataCallback = none) :
    cmdTaskEnd code w here res = w.setPhase res := by
  simp only [cmdTaskEnd, hcb]

/-- The end callback has changed the phase. -/
lemma cmdTaskEnd_of_left (hcb : w.cmdSend.endDataCallback = some callback)
    (hleft : (code.endCb callback res (w.log (.endCall w.loaded res))).2.phase ≠ here) :
    cmdTaskEnd code w here res = (code.endCb callback res (w.log (.endCall w.loaded res))).2 := by
  simp only [cmdTaskEnd, hcb, hleft, if_false, ite_self]

/-- The end callback leaves the phase to the engine. -/
lemma cmdTaskEnd_of_stayed (hcb : w.cmdSend.endDataCallback = some callback)
    (hret : (code.endCb callback res (w.log (.endCall w.loaded res))).1 ≠ 0)
    (hstay : (code.endCb callback res (w.log (.endCall w.loaded res))).2.phase = here) :
    cmdTaskEnd code w here res =
      (code.endCb callback res (w.log (.endCall w.loaded res))).2.setPhase res := by
  simp only [cmdTaskEnd, hcb, hret, ne_eq, not_false_eq_true, if_true, hstay]

end End

/-! ## What a callback may do -/

/-- The callbacks' own state, the tick counter and the log of their own events. -/
@[simps]
def CmdWorld.own (w : CmdWorld S) (app : S.State) (clock : ℕ → UInt32) (events : List S.Event) :
    CmdWorld S :=
  { w with app := app, clock := clock, hist := events.map .app ++ w.hist }

lemma CmdWorld.own_own (w : CmdWorld S) (app app' : S.State) (clock clock' : ℕ → UInt32)
    (events events' : List S.Event) :
    (w.own app clock events).own app' clock' events' = w.own app' clock' (events' ++ events) := by
  simp [CmdWorld.own]

/-- From `w`, by work on the callbacks' own state, `Ampm_SendCmdNow` and `Ampm_SetCmdOK`, to
`w'`. -/
inductive Acts (process : S.Name → CmdProcess S) : CmdWorld S → CmdWorld S → Prop
  | nothing (w : CmdWorld S) : Acts process w w
  | own {w w' : CmdWorld S} (h : Acts process w w') (app : S.State) (clock : ℕ → UInt32)
      (events : List S.Event) : Acts process w (w'.own app clock events)
  | load {w w' : CmdWorld S} (h : Acts process w w') (name : S.Name) :
      Acts process w (sendCmdNow process w' name)
  | setOk {w w' : CmdWorld S} (h : Acts process w w') : Acts process w (setCmdOk w').2

/-- A callback that leaves the engine alone. -/
def Quiet (w w' : CmdWorld S) : Prop := ∃ app clock events, w' = w.own app clock events

namespace Quiet

variable {w w' w'' : CmdWorld S}

lemma refl (w : CmdWorld S) : Quiet w w := ⟨w.app, w.clock, [], rfl⟩

lemma trans (h : Quiet w w') (h' : Quiet w' w'') : Quiet w w'' := by
  obtain ⟨app, clock, events, rfl⟩ := h
  obtain ⟨app', clock', events', rfl⟩ := h'
  exact ⟨app', clock', events' ++ events, w.own_own app app' clock clock' events events'⟩

lemma ticked (h : Quiet w w') : Quiet w w'.ticked :=
  h.trans ⟨w'.app, fun k => w'.clock (k + 1), [], rfl⟩

lemma log (h : Quiet w w') (e : S.Event) : Quiet w (w'.log (.app e)) :=
  h.trans ⟨w'.app, w'.clock, [e], rfl⟩

end Quiet

/-- A callback that loads `name`, and leaves the engine alone before and after. -/
def Loads (process : S.Name → CmdProcess S) (name : S.Name) (w w' : CmdWorld S) : Prop :=
  ∃ w₁, Quiet w w₁ ∧ Quiet (sendCmdNow process w₁ name) w'

namespace Loads

variable {process : S.Name → CmdProcess S} {name : S.Name} {w w' w'' : CmdWorld S}

lemma after (h : Loads process name w' w'') (hbefore : Quiet w w') : Loads process name w w'' := by
  obtain ⟨w₁, hw₁, hw''⟩ := h
  exact ⟨w₁, hbefore.trans hw₁, hw''⟩

lemma log (h : Loads process name w w') (e : S.Event) :
    Loads process name w (w'.log (.app e)) := by
  obtain ⟨w₁, hw₁, hw'⟩ := h
  exact ⟨w₁, hw₁, hw'.log e⟩

end Loads

/-- One call of `Ampm_Cmd_Task`, after anything may have happened to the callbacks' state and to
the tick counter. -/
def cmdTaskAfter (code : CmdCode S) (w : CmdWorld S) (i : S.State × (ℕ → UInt32)) : CmdWorld S :=
  cmdTask code (w.own i.1 i.2 [])

/-! ### What it cannot do -/

/-- Events that a callback can log. -/
def CmdEvent.passive : CmdEvent S → Bool
  | .load _ => true
  | .setOk => true
  | .app _ => true
  | _ => false

/-- All that a callback does to the engine: it logs passive events, and unless one of them is a
load, the descriptor is the same and so is the phase, unless `AMPM_CMD_OK` was stored. -/
structure ActsOutcome (w w' : CmdWorld S) (events : List (CmdEvent S)) : Prop where
  hist_eq : w'.hist = events ++ w.hist
  passive : ∀ e ∈ events, e.passive = true
  kept : (∀ e ∈ events, e.isLoad = false) → w'.cmdSend = w.cmdSend ∧ w'.loaded = w.loaded ∧
    (w'.phase = w.phase ∨ w'.phase = .ok ∧ .setOk ∈ events)

theorem Acts.outcome {process : S.Name → CmdProcess S} {w w' : CmdWorld S}
    (h : Acts process w w') : ∃ events, ActsOutcome w w' events := by
  induction h with
  | nothing => exact ⟨[], rfl, by simp, fun _ => ⟨rfl, rfl, Or.inl rfl⟩⟩
  | own h app clock events ih =>
      obtain ⟨es, hhist, hpassive, hkept⟩ := ih
      refine ⟨events.map .app ++ es, ?_, ?_, fun hload => ?_⟩
      · rw [CmdWorld.own_hist, hhist, List.append_assoc]
      · intro e he
        rcases List.mem_append.mp he with hmem | hmem
        · obtain ⟨x, -, rfl⟩ := List.mem_map.mp hmem
          rfl
        · exact hpassive e hmem
      · obtain ⟨hcmd, hname, hphase⟩ :=
          hkept fun e he => hload e (List.mem_append_right _ he)
        exact ⟨hcmd, hname, hphase.imp id fun hok => ⟨hok.1, List.mem_append_right _ hok.2⟩⟩
  | load h name ih =>
      obtain ⟨es, hhist, hpassive, -⟩ := ih
      refine ⟨.load (some name) :: es, ?_, ?_, fun hload => ?_⟩
      · rw [sendCmdNow, CmdWorld.load_hist, hhist, List.cons_append]
      · exact fun e he => (List.mem_cons.mp he).elim (fun heq => heq ▸ rfl) (hpassive e)
      · exact absurd (hload _ (List.mem_cons_self ..)) Bool.noConfusion
  | setOk h ih =>
      obtain ⟨es, hhist, hpassive, hkept⟩ := ih
      refine ⟨.setOk :: es, ?_, ?_, fun hload => ?_⟩
      · rw [setCmdOk, CmdWorld.log_hist, CmdWorld.setPhase_hist, hhist, List.cons_append]
      · exact fun e he => (List.mem_cons.mp he).elim (fun heq => heq ▸ rfl) (hpassive e)
      · obtain ⟨hcmd, hname, -⟩ := hkept fun e he => hload e (List.mem_cons_of_mem _ he)
        exact ⟨hcmd, hname, Or.inr ⟨rfl, List.mem_cons_self ..⟩⟩

lemma Loads.acts {process : S.Name → CmdProcess S} {name : S.Name} {w w' : CmdWorld S}
    (h : Loads process name w w') : Acts process w w' := by
  obtain ⟨w₁, ⟨app, clock, events, rfl⟩, ⟨app', clock', events', rfl⟩⟩ := h
  exact .own (.load (.own (.nothing w) app clock events) name) app' clock' events'

lemma Quiet.acts {process : S.Name → CmdProcess S} {w w' : CmdWorld S} (h : Quiet w w') :
    Acts process w w' := by
  obtain ⟨app, clock, events, rfl⟩ := h
  exact .own (.nothing w) app clock events

end Ampm

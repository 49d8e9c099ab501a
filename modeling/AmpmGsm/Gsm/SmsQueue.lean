import AmpmGsm.Gsm.Callbacks
import AmpmGsm.Gsm.SmsTask
import AmpmGsm.Lib.Gates

/-!
# The message being sent

What is asked of the messages while `Ampm_SmsTask`, `Ampm_SmsTaskPeriodic_1Sec` and the end
callbacks decide on their own when a message is done with, what carries it, and what one call of
`Ampm_Cmd_Task` does about it.

* `Sending`, `outcomeGate`, `SmsSound` — the property.
* `SmsInv` — the invariant.
* `QueueKept`, `SmsInv.kept` — steps that leave the queue alone; `cmdTask_queueKept` — the engine's
  are of this kind.
-/

namespace Ampm

open Gates

/-! ## The property -/

/-- `smsSendCmdProcess_0` to `smsSendCmdProcess_6`. -/
def smsSteps : List GsmCmd :=
  [.smsSendCmdProcess0, .smsSendCmdProcess1, .smsSendCmdProcess2, .smsSendCmdProcess3,
    .smsSendCmdProcess4, .smsSendCmdProcess5, .smsSendCmdProcess6]

/-- A step of the send chain is in `cmdSend` and is not finished. -/
def Sending (w : GsmWorld) : Prop :=
  ∃ n ∈ smsSteps, w.loaded = some n ∧ cmdTaskIsIdle w.phase = false

/-- The outcome of the last attempt to send a message is known: shut by an attempt, opened when
the chain is through, which is when `smsSendCmdProcess_end` is loaded or `smsSendCmdProcess_6`
ends. -/
def outcomeGate (msg : ℕ) : Gate (CmdEvent gsmTypes) where
  opens
    | .app (.queued m) => m = msg
    | .load (some .smsSendCmdProcessEnd) => true
    | .endCall (some .smsSendCmdProcess6) _ => true
    | _ => false
  shuts
    | .app (.attempt m) => m = msg
    | _ => false

/-- A message is completed when its outcome is known. -/
def doneLaw : CmdEvent gsmTypes → Option (Gate (CmdEvent gsmTypes))
  | .app (.completed msg) => some (outcomeGate msg)
  | _ => none

/-- How often the completion callback of a message ran. -/
def completions (msg : ℕ) : List (CmdEvent gsmTypes) → ℕ
  | [] => 0
  | .app (.completed m) :: es => completions msg es + if m = msg then 1 else 0
  | _ :: es => completions msg es

/-- A message was queued. -/
def wasQueued (msg : ℕ) (hist : List (CmdEvent gsmTypes)) : Prop := .app (.queued msg) ∈ hist

/-- While a message is being sent it is queued and not freed; a queued message is not freed and not
completed, and one that has left the queue is freed and was completed once; no message is
completed before the outcome of its last attempt is known. -/
structure SmsSound (w : GsmWorld) : Prop where
  alive : Sending w → w.app.smsMsg ∈ w.app.smsList ∧ w.app.smsFreed w.app.smsMsg = false
  queued : ∀ m ∈ w.app.smsList, w.app.smsFreed m = false ∧ completions m w.hist = 0
  done : ∀ m, wasQueued m w.hist → m ∉ w.app.smsList → w.app.smsFreed m = true ∧
    completions m w.hist = if (w.app.smsHeap m).callback then 1 else 0
  known : obeys doneLaw w.hist = true

/-! ## The invariant -/

/-- A step of the chain is in `cmdSend`, or one that has a successor is finished. -/
def Running (n : GsmCmd) (phase : CmdPhase) : Prop :=
  cmdTaskIsIdle phase = false ∨ (gsmProcess n).next ≠ none

/-- The chain works on `smsMsg`. -/
def Busy (w : GsmWorld) : Prop := ∃ n ∈ smsSteps, Holds n w ∧ Running n w.phase

/-- The engine has nothing to do, or a descriptor of the chain. -/
inductive InChain (w : GsmWorld) : Prop
  | free (hphase : cmdTaskIsIdle w.phase = true) (hnext : w.cmdSend.next = none)
  | step (n : GsmCmd) (hn : n ∈ smsSteps) (hholds : Holds n w)
  | last (hholds : Holds .smsSendCmdProcessEnd w)

structure SmsInv (w : GsmWorld) : Prop where
  cmdList_eq : w.cmdList = []
  engine : InChain w
  nodup : w.app.smsList.Nodup
  fresh : ∀ m ∈ w.app.smsList, m < w.app.smsNext
  unused : ∀ m, w.app.smsNext ≤ m → w.app.smsFreed m = false ∧ completions m w.hist = 0 ∧
    ¬ wasQueued m w.hist
  queued : ∀ m ∈ w.app.smsList, w.app.smsFreed m = false ∧ completions m w.hist = 0
  done : ∀ m, wasQueued m w.hist → m ∉ w.app.smsList → w.app.smsFreed m = true ∧
    completions m w.hist = if (w.app.smsHeap m).callback then 1 else 0
  known : obeys doneLaw w.hist = true
  busy : Busy w → w.app.smsMsg ∈ w.app.smsList ∧ (w.app.smsHeap w.app.smsMsg).waits = true
  outcome : ∀ m ∈ w.app.smsList, (outcomeGate m).isOpen w.hist = true ∨
    Busy w ∧ w.app.smsMsg = m

/-! ### Events that say nothing about a message -/

/-- The event is about no message. -/
def CmdEvent.silent : CmdEvent gsmTypes → Bool
  | .app (.queued _) => false
  | .app (.completed _) => false
  | .app (.attempt _) => false
  | _ => true

section Silent

variable {es : List (CmdEvent gsmTypes)} {hist : List (CmdEvent gsmTypes)}

lemma completions_cons_silent (msg : ℕ) {e : CmdEvent gsmTypes} (he : e.silent = true)
    (hist : List (CmdEvent gsmTypes)) : completions msg (e :: hist) = completions msg hist := by
  cases e with
  | app event => cases event <;> first | rfl | exact absurd he Bool.false_ne_true
  | _ => rfl

lemma completions_append_silent (hes : ∀ e ∈ es, e.silent = true) (msg : ℕ) :
    completions msg (es ++ hist) = completions msg hist := by
  induction es with
  | nil => rfl
  | cons e es ih =>
      rw [List.cons_append, completions_cons_silent msg (hes e (List.mem_cons_self ..)),
        ih fun x hx => hes x (List.mem_cons_of_mem _ hx)]

lemma wasQueued_append_silent (hes : ∀ e ∈ es, e.silent = true) (msg : ℕ) :
    wasQueued msg (es ++ hist) ↔ wasQueued msg hist := by
  refine ⟨fun h => (List.mem_append.mp h).resolve_left fun hmem => ?_, List.mem_append_right es⟩
  exact Bool.false_ne_true (hes _ hmem)

lemma doneLaw_silent {e : CmdEvent gsmTypes} (he : e.silent = true) : doneLaw e = none := by
  cases e with
  | app event => cases event <;> first | rfl | exact absurd he Bool.false_ne_true
  | _ => rfl

lemma shuts_silent (msg : ℕ) {e : CmdEvent gsmTypes} (he : e.silent = true) :
    (outcomeGate msg).shuts e = false := by
  cases e with
  | app event => cases event <;> first | rfl | exact absurd he Bool.false_ne_true
  | _ => rfl

/-- Silent events do not shut a gate. -/
lemma isOpen_append_silent (hes : ∀ e ∈ es, e.silent = true) {msg : ℕ}
    (h : (outcomeGate msg).isOpen hist = true) : (outcomeGate msg).isOpen (es ++ hist) = true := by
  induction es with
  | nil => exact h
  | cons e es ih =>
      have hrest := ih fun x hx => hes x (List.mem_cons_of_mem _ hx)
      simp [Gate.isOpen, shuts_silent msg (hes e (List.mem_cons_self ..)), hrest]

/-- The chain is through. -/
def CmdEvent.outcome : CmdEvent gsmTypes → Bool
  | .load (some .smsSendCmdProcessEnd) => true
  | .endCall (some .smsSendCmdProcess6) _ => true
  | _ => false

lemma opens_outcome (msg : ℕ) {e : CmdEvent gsmTypes} (he : e.outcome = true) :
    (outcomeGate msg).opens e = true := by
  unfold CmdEvent.outcome at he
  split at he <;> first | rfl | exact absurd he Bool.false_ne_true

/-- An outcome among silent events opens every gate. -/
lemma isOpen_append_outcome (hes : ∀ e ∈ es, e.silent = true)
    (hout : ∃ e ∈ es, e.outcome = true) (msg : ℕ) :
    (outcomeGate msg).isOpen (es ++ hist) = true := by
  induction es with
  | nil =>
      obtain ⟨e, he, -⟩ := hout
      exact absurd he List.not_mem_nil
  | cons e es ih =>
      obtain ⟨x, hx, hxout⟩ := hout
      rcases List.mem_cons.mp hx with rfl | hx
      · exact Gate.isOpen_cons_of_opens (opens_outcome msg hxout) _
      · have hrest := ih (fun y hy => hes y (List.mem_cons_of_mem _ hy)) ⟨x, hx, hxout⟩
        simp [Gate.isOpen, shuts_silent msg (hes e (List.mem_cons_self ..)), hrest]

end Silent

/-! ### What the engine does -/

/-- A step that leaves the queue alone, and the message in hand too unless the chain is through,
which the log then says. -/
structure QueueKept (w w' : GsmWorld) : Prop where
  cmdList_eq : w'.cmdList = []
  engine : InChain w'
  hist_eq : ∃ es, w'.hist = es ++ w.hist ∧ (∀ e ∈ es, e.silent = true) ∧
    (Busy w → ¬ Busy w' → ∃ e ∈ es, e.outcome = true)
  list_eq : w'.app.smsList = w.app.smsList
  next_eq : w'.app.smsNext = w.app.smsNext
  freed_eq : w'.app.smsFreed = w.app.smsFreed
  msg_eq : w'.app.smsMsg = w.app.smsMsg
  callback_eq : ∀ m, (w'.app.smsHeap m).callback = (w.app.smsHeap m).callback
  kept : Busy w' → Busy w ∧
    (w'.app.smsHeap w.app.smsMsg).waits = (w.app.smsHeap w.app.smsMsg).waits

theorem SmsInv.kept {w w' : GsmWorld} (h : SmsInv w) (hstep : QueueKept w w') :
    SmsInv w' := by
  obtain ⟨es, hhist, hsilent, hout⟩ := hstep.hist_eq
  have hcompl : ∀ m, completions m w'.hist = completions m w.hist := fun m => by
    rw [hhist, completions_append_silent hsilent]
  have hqueued : ∀ m, wasQueued m w'.hist ↔ wasQueued m w.hist := fun m => by
    rw [hhist, wasQueued_append_silent hsilent]
  refine ⟨hstep.cmdList_eq, hstep.engine, ?_, ?_, ?_, ?_, ?_, ?_, ?_, ?_⟩
  · rw [hstep.list_eq]
    exact h.nodup
  · rw [hstep.list_eq, hstep.next_eq]
    exact h.fresh
  · intro m hm
    rw [hstep.freed_eq, hcompl, hqueued]
    exact h.unused m (hstep.next_eq ▸ hm)
  · intro m hm
    rw [hstep.freed_eq, hcompl]
    exact h.queued m (hstep.list_eq ▸ hm)
  · intro m hm hlist
    rw [hstep.freed_eq, hcompl, hstep.callback_eq]
    exact h.done m ((hqueued m).mp hm) (hstep.list_eq ▸ hlist)
  · rw [hhist, obeys_append_of_none fun e he => doneLaw_silent (hsilent e he)]
    exact h.known
  · intro hbusy
    obtain ⟨hbusy', hwaits⟩ := hstep.kept hbusy
    rw [hstep.list_eq, hstep.msg_eq, hwaits]
    exact h.busy hbusy'
  · intro m hm
    rw [hhist]
    rcases h.outcome m (hstep.list_eq ▸ hm) with hopen | ⟨hbusy, hmsg⟩
    · exact Or.inl (isOpen_append_silent hsilent hopen)
    · by_cases hbusy' : Busy w'
      · exact Or.inr ⟨hbusy', hstep.msg_eq.trans hmsg⟩
      · exact Or.inl (isOpen_append_outcome hsilent (hout hbusy hbusy') m)

lemma smsSteps_ne_end {n : GsmCmd} (hn : n ∈ smsSteps) : n ≠ .smsSendCmdProcessEnd := by
  rintro rfl
  exact absurd hn (by decide)

lemma Holds.unique {n m : GsmCmd} {w : GsmWorld} (h : Holds n w) (h' : Holds m w) : n = m :=
  Option.some.inj (h.loaded_eq.symm.trans h'.loaded_eq)

lemma not_busy_end {w : GsmWorld} (h : Holds .smsSendCmdProcessEnd w) : ¬ Busy w := by
  rintro ⟨n, hn, hholds, -⟩
  exact smsSteps_ne_end hn (hholds.unique h)

lemma not_busy_free {w : GsmWorld} (hphase : cmdTaskIsIdle w.phase = true)
    (hnext : w.cmdSend.next = none) : ¬ Busy w := by
  rintro ⟨n, -, hholds, hbusy | hsome⟩
  · exact Bool.false_ne_true (hbusy.symm.trans hphase)
  · rw [hholds.cmdSend_eq] at hnext
    exact hsome hnext

section Messages

variable {w w' : GsmWorld} {n n' : GsmCmd} {es : List (CmdEvent gsmTypes)}

/-- The chain goes on. -/
lemma QueueKept.goesOn (es : List (CmdEvent gsmTypes)) (hlist : w'.cmdList = [])
    (hn : n ∈ smsSteps) (hholds : Holds n w)
    (hrun : Running n w.phase) (hn' : n' ∈ smsSteps) (hholds' : Holds n' w')
    (hrun' : Running n' w'.phase) (hframe : IoFrame { w.app with smsDataBuf := w'.app.smsDataBuf }
      w'.app) (hhist : w'.hist = es ++ w.hist) (hsilent : ∀ e ∈ es, e.silent = true) :
    QueueKept w w' where
  cmdList_eq := hlist
  engine := .step n' hn' hholds'
  hist_eq := ⟨es, hhist, hsilent, fun _ hnot => absurd ⟨n', hn', hholds', hrun'⟩ hnot⟩
  list_eq := by rw [hframe]
  next_eq := by rw [hframe]
  freed_eq := by rw [hframe]
  msg_eq := by rw [hframe]
  callback_eq := fun m => by rw [hframe]
  kept := fun _ => ⟨⟨n, hn, hholds, hrun⟩, by rw [hframe]⟩

/-- The chain is through, or was. -/
lemma QueueKept.through (es : List (CmdEvent gsmTypes)) (hlist : w'.cmdList = [])
    (hengine : InChain w') (hnot : ¬ Busy w')
    (hframe : FinishFrame w.app w'.app ∨
      IoFrame { w.app with smsDataBuf := w'.app.smsDataBuf } w'.app)
    (hhist : w'.hist = es ++ w.hist) (hsilent : ∀ e ∈ es, e.silent = true)
    (hout : Busy w → ∃ e ∈ es, e.outcome = true) : QueueKept w w' := by
  have hfields : w'.app.smsList = w.app.smsList ∧ w'.app.smsNext = w.app.smsNext ∧
      w'.app.smsFreed = w.app.smsFreed ∧ w'.app.smsMsg = w.app.smsMsg ∧
      ∀ m, (w'.app.smsHeap m).callback = (w.app.smsHeap m).callback := by
    rcases hframe with ⟨flag, hframe⟩ | hframe
    · refine ⟨by rw [hframe], by rw [hframe], by rw [hframe], by rw [hframe], fun m => ?_⟩
      rw [hframe]
      by_cases hm : m = w.app.smsMsg
      · subst hm
        simp [GsmState.sms]
      · simp [hm]
    · exact ⟨by rw [hframe], by rw [hframe], by rw [hframe], by rw [hframe],
        fun m => by rw [hframe]⟩
  obtain ⟨hsms, hnext, hfreed, hmsg, hcallback⟩ := hfields
  exact ⟨hlist, hengine, ⟨es, hhist, hsilent, fun hbusy _ => hout hbusy⟩, hsms, hnext, hfreed, hmsg,
    hcallback, fun hbusy => absurd hbusy hnot⟩

end Messages

lemma QueueKept.refl {w : GsmWorld} (hlist : w.cmdList = []) (hengine : InChain w) :
    QueueKept w w :=
  ⟨hlist, hengine, ⟨[], rfl, List.forall_mem_nil _, fun h h' => absurd h h'⟩, rfl, rfl, rfl, rfl,
    fun _ => rfl, fun h => ⟨h, rfl⟩⟩

lemma QueueKept.trans {w w' w'' : GsmWorld} (h : QueueKept w w') (h' : QueueKept w' w'') :
    QueueKept w w'' := by
  obtain ⟨es, hhist, hsilent, hout⟩ := h.hist_eq
  obtain ⟨es', hhist', hsilent', hout'⟩ := h'.hist_eq
  refine ⟨h'.cmdList_eq, h'.engine, ⟨es' ++ es, ?_, ?_, ?_⟩, h'.list_eq.trans h.list_eq,
    h'.next_eq.trans h.next_eq, h'.freed_eq.trans h.freed_eq, h'.msg_eq.trans h.msg_eq,
    fun m => (h'.callback_eq m).trans (h.callback_eq m), fun hbusy => ?_⟩
  · rw [hhist', hhist, List.append_assoc]
  · exact fun e he => (List.mem_append.mp he).elim (hsilent' e) (hsilent e)
  · intro hbusy hnot
    by_cases hbusy' : Busy w'
    · obtain ⟨e, he, heout⟩ := hout' hbusy' hnot
      exact ⟨e, List.mem_append_left _ he, heout⟩
    · obtain ⟨e, he, heout⟩ := hout hbusy hbusy'
      exact ⟨e, List.mem_append_right _ he, heout⟩
  · obtain ⟨hbusy', hwaits'⟩ := h'.kept hbusy
    obtain ⟨hbusy, hwaits⟩ := h.kept hbusy'
    rw [h.msg_eq] at hwaits'
    exact ⟨hbusy, hwaits'.trans hwaits⟩

lemma InChain.cases {w : GsmWorld} (h : InChain w) :
    (cmdTaskIsIdle w.phase = true ∧ w.cmdSend.next = none) ∨ ∃ n ∈ sendChain, Holds n w := by
  cases h with
  | free hphase hnext => exact Or.inl ⟨hphase, hnext⟩
  | step n hn hholds =>
      exact Or.inr ⟨n, List.mem_append_left [GsmCmd.smsSendCmdProcessEnd] hn, hholds⟩
  | last hholds =>
      exact Or.inr ⟨_, List.mem_append_right smsSteps (List.mem_singleton_self _), hholds⟩

lemma mem_sendChain {n : GsmCmd} (hn : n ∈ sendChain) :
    n ∈ smsSteps ∨ n = .smsSendCmdProcessEnd := by
  have hsplit : n ∈ smsSteps ++ [GsmCmd.smsSendCmdProcessEnd] := hn
  rcases List.mem_append.mp hsplit with hmem | hmem
  · exact Or.inl hmem
  · exact Or.inr (List.mem_singleton.mp hmem)

lemma silent_app {events : List GsmEvent}
    (hevents : ∀ e ∈ events, (CmdEvent.app e : CmdEvent gsmTypes).silent = true) :
    ∀ e ∈ events.map (CmdEvent.app (S := gsmTypes)), e.silent = true := by
  rintro _ he
  obtain ⟨x, hx, rfl⟩ := List.mem_map.mp he
  exact hevents x hx

lemma silent_tx {events : List GsmEvent} (htx : ∀ e ∈ events, e.isTx = true) :
    ∀ e ∈ events.map (CmdEvent.app (S := gsmTypes)), e.silent = true := by
  refine silent_app fun e he => ?_
  cases e with
  | tx bytes => rfl
  | _ => exact absurd (htx _ he) Bool.false_ne_true

lemma silent_format (s : GsmState) (f : Option GsmSprintf) :
    ∀ e ∈ formatEvents s f, (CmdEvent.app e : CmdEvent gsmTypes).silent = true := by
  intro e he
  unfold formatEvents at he
  split at he
  · obtain rfl := List.mem_singleton.mp he
    rfl
  · obtain rfl := List.mem_singleton.mp he
    rfl
  · exact absurd he List.not_mem_nil

/-! ### One call of the engine -/

section Engine

variable {other : GsmEndCb → CmdPhase → GsmWorld → UInt8 × GsmWorld} {w w' : GsmWorld}
  {n : GsmCmd} {es : List (CmdEvent gsmTypes)}

/-- The descriptor stays, and is not finished. -/
lemma QueueKept.stays (es : List (CmdEvent gsmTypes)) (hlist : w'.cmdList = [])
    (hn : n ∈ sendChain) (hholds : Holds n w)
    (hphase : cmdTaskIsIdle w.phase = false) (hholds' : Holds n w')
    (hphase' : cmdTaskIsIdle w'.phase = false) (hframe : PduFrame w.app w'.app)
    (hhist : w'.hist = es ++ w.hist) (hsilent : ∀ e ∈ es, e.silent = true) : QueueKept w w' := by
  rcases mem_sendChain hn with hn | rfl
  · exact .goesOn _ hlist hn hholds (Or.inl hphase) hn hholds' (Or.inl hphase') hframe hhist hsilent
  · exact .through _ hlist (.last hholds') (not_busy_end hholds') (Or.inr hframe) hhist hsilent
      fun hbusy => absurd hbusy (not_busy_end hholds)

/-- Another descriptor of the chain is loaded. -/
lemma QueueKept.loads {m : GsmCmd} (es : List (CmdEvent gsmTypes)) (hlist : w'.cmdList = [])
    (hn : n ∈ sendChain) (hholds : Holds n w) (hrun : Running n w.phase) (hm : m ∈ sendChain)
    (hloaded : w'.loaded = some m) (hcmd : w'.cmdSend = gsmProcess m) (hphase' : w'.phase = .send)
    (hframe : PduFrame w.app w'.app) (hhist : w'.hist = es ++ w.hist)
    (hsilent : ∀ e ∈ es, e.silent = true) (hload : CmdEvent.load (some m) ∈ es)
    (hend : n = .smsSendCmdProcessEnd → m = .smsSendCmdProcessEnd) : QueueKept w w' := by
  have hholds' : Holds m w' := ⟨hloaded, by rw [hcmd]⟩
  rcases mem_sendChain hm with hm | rfl
  · have hn : n ∈ smsSteps := (mem_sendChain hn).resolve_right fun h =>
      smsSteps_ne_end hm (hend h)
    exact .goesOn _ hlist hn hholds hrun hm hholds' (Or.inl (by rw [hphase']; rfl)) hframe hhist
      hsilent
  · exact .through _ hlist (.last hholds') (not_busy_end hholds') (Or.inr hframe) hhist hsilent
      fun _ => ⟨_, hload, rfl⟩

lemma gsmSmsSendCallbackCmgf_eq (w : GsmWorld) :
    ∃ m ∈ sendChain, gsmSmsSendCallbackCmgf w = (1, sendAtCmdNow w m) := by
  unfold gsmSmsSendCallbackCmgf
  split_ifs
  · exact ⟨.smsSendCmdProcess1, by decide, rfl⟩
  · exact ⟨.smsSendCmdProcess2, by decide, rfl⟩

lemma gsmSmsSendCallbackCsca_eq (w : GsmWorld) :
    gsmSmsSendCallbackCsca w = (1, w) ∨ ∃ m ∈ sendChain, ∃ app, IoFrame w.app app ∧
      gsmSmsSendCallbackCsca w = (1, sendAtCmdNow (w.setApp app) m) := by
  unfold gsmSmsSendCallbackCsca
  dsimp only
  split_ifs
  · exact Or.inr ⟨.smsSendCmdProcess3, by decide, _, rfl, rfl⟩
  · exact Or.inl rfl
  · exact Or.inr ⟨.smsSendCmdProcessEnd, by decide, w.app, rfl, rfl⟩

lemma gsmCreg_eq (res : CmdPhase) (w : GsmWorld) :
    ∃ app, IoFrame w.app app ∧ gsmCreg res w = (1, w.setApp app) := by
  unfold gsmCreg
  split_ifs
  · exact ⟨_, rfl, rfl⟩
  · exact ⟨w.app, rfl, rfl⟩

/-- The descriptor `n` of the chain has got to the phase `here`, in which its end callback is called
with `res`. -/
structure Ending (n : GsmCmd) (here res : CmdPhase) (w : GsmWorld) : Prop where
  cmdList_eq : w.cmdList = []
  mem : n ∈ sendChain
  holds : Holds n w
  phase_eq : w.phase = here
  ends : here = .gotoError ∨ here = .delay
  idle : cmdTaskIsIdle res = true

namespace Ending

variable {here res : CmdPhase}

lemma callback (h : Ending n here res w) :
    w.cmdSend.endDataCallback = (gsmProcess n).endDataCallback := by
  rw [h.holds.cmdSend_eq]

lemma send_ne (h : Ending n here res w) : CmdPhase.send ≠ here := by
  rcases h.ends with rfl | rfl <;> decide

lemma running (h : Ending n here res w) : Running n w.phase := by
  rw [h.phase_eq]
  rcases h.ends with rfl | rfl <;> exact Or.inl rfl

/-- The descriptor stays where it is, with another one linked behind it. -/
lemma stays (h : Ending n here res w) (es : List (CmdEvent gsmTypes)) (hn : n ∈ smsSteps)
    (hnext : (gsmProcess n).next ≠ none) (hloaded : w'.loaded = w.loaded)
    (hcmd : w'.cmdSend = w.cmdSend) (hlist : w'.cmdList = []) (happ : w'.app = w.app)
    (hhist : w'.hist = es ++ w.hist) (hsilent : ∀ e ∈ es, e.silent = true) : QueueKept w w' := by
  refine .goesOn _ hlist hn h.holds h.running hn ⟨hloaded.trans h.holds.loaded_eq, ?_⟩
    (Or.inr hnext) ?_ hhist hsilent
  · rw [hcmd]
    exact h.holds.cmdSend_eq
  · rw [happ]

/-- The callback loads another descriptor of the chain. -/
lemma loads (h : Ending n here res w) {m : GsmCmd} (hm : m ∈ sendChain)
    (hne : n ≠ .smsSendCmdProcessEnd) (hlist : w'.cmdList = []) (hloaded : w'.loaded = some m)
    (hcmd : w'.cmdSend = gsmProcess m) (hphase : w'.phase = .send) (hframe : PduFrame w.app w'.app)
    (hhist : w'.hist = .load (some m) :: .endCall w.loaded res :: w.hist) : QueueKept w w' :=
  .loads [.load (some m), .endCall w.loaded res] hlist h.mem h.holds h.running hm hloaded hcmd
    hphase hframe hhist (by simp [CmdEvent.silent]) (List.mem_cons_self ..)
    fun heq => absurd heq hne

/-- There is no callback, and another descriptor is linked behind it. -/
lemma silent (h : Ending n here res w) (hcb : (gsmProcess n).endDataCallback = none)
    (hn : n ∈ smsSteps) (hnext : (gsmProcess n).next ≠ none) :
    QueueKept w (cmdTaskEnd (gsmCode other) w here res) := by
  rw [cmdTaskEnd_of_none (h.callback.trans hcb)]
  exact h.stays [] hn hnext rfl rfl h.cmdList_eq rfl rfl (List.forall_mem_nil _)

/-- `Ampm_GsmSmsSendCallback_CMGF` loads one of two descriptors. -/
lemma cmgf (h : Ending .smsSendCmdProcess0 here res w) :
    QueueKept w (cmdTaskEnd (gsmCode other) w here res) := by
  obtain ⟨m, hm, heq⟩ := gsmSmsSendCallbackCmgf_eq (w.log (.endCall w.loaded res))
  have hcode : (gsmCode other).endCb .gsmSmsSendCallbackCmgf res (w.log (.endCall w.loaded res)) =
      _ := heq
  rw [cmdTaskEnd_of_left h.callback (by rw [hcode]; exact h.send_ne), hcode]
  exact h.loads hm (by decide) h.cmdList_eq rfl rfl rfl rfl rfl

/-- `Ampm_GsmSmsSendCallback_CSCA` leaves the descriptor where it is, or loads another one. -/
lemma csca (h : Ending n here res w)
    (hcb : (gsmProcess n).endDataCallback = some .gsmSmsSendCallbackCsca) (hn : n ∈ smsSteps)
    (hnext : (gsmProcess n).next ≠ none) :
    QueueKept w (cmdTaskEnd (gsmCode other) w here res) := by
  have hcb' := h.callback.trans hcb
  have hone : (1 : UInt8) ≠ 0 := by decide
  rcases gsmSmsSendCallbackCsca_eq (w.log (.endCall w.loaded res)) with
    heq | ⟨m, hm, app, happ, heq⟩
  · have hcode : (gsmCode other).endCb .gsmSmsSendCallbackCsca res
        (w.log (.endCall w.loaded res)) = _ := heq
    rw [cmdTaskEnd_of_stayed hcb' (by rw [hcode]; exact hone) (by rw [hcode]; exact h.phase_eq),
      hcode]
    exact h.stays [_] hn hnext rfl rfl h.cmdList_eq rfl rfl (List.forall_mem_singleton.mpr rfl)
  · have hcode : (gsmCode other).endCb .gsmSmsSendCallbackCsca res
        (w.log (.endCall w.loaded res)) = _ := heq
    rw [cmdTaskEnd_of_left hcb' (by rw [hcode]; exact h.send_ne), hcode]
    exact h.loads hm (smsSteps_ne_end hn) h.cmdList_eq rfl rfl rfl happ.pdu rfl

/-- `Ampm_GsmSmsSent` marks the message as sent and leaves the chain, or asks for the network. -/
lemma sent (h : Ending .smsSendCmdProcess5 here res w) :
    QueueKept w (cmdTaskEnd (gsmCode other) w here res) := by
  have hleft : (gsmSmsSent res (w.log (.endCall w.loaded res))).2.phase = .send := by
    unfold gsmSmsSent
    dsimp only
    split_ifs <;> rfl
  rw [cmdTaskEnd_of_left h.callback (by exact hleft.trans_ne h.send_ne)]
  show QueueKept w (gsmSmsSent res (w.log (.endCall w.loaded res))).2
  unfold gsmSmsSent
  dsimp only
  split_ifs
  · refine .through [.load _, .app (.flagSent _), .endCall w.loaded res] h.cmdList_eq
      (.last ⟨rfl, rfl⟩) (not_busy_end ⟨rfl, rfl⟩) (Or.inl ⟨smsMsgSent, rfl⟩) rfl ?_
      fun _ => ⟨_, List.mem_cons_self .., rfl⟩
    simp [CmdEvent.silent]
  · exact .loads [.load _, .app (.tx _), .endCall w.loaded res] h.cmdList_eq h.mem h.holds
      h.running (by decide) rfl rfl rfl rfl rfl (by simp [CmdEvent.silent])
      (List.mem_cons_self ..) fun heq => absurd heq (by decide)

/-- `Ampm_GsmCREG` ends the chain. -/
lemma creg (h : Ending .smsSendCmdProcess6 here res w) :
    QueueKept w (cmdTaskEnd (gsmCode other) w here res) := by
  have hone : (1 : UInt8) ≠ 0 := by decide
  obtain ⟨app, happ, heq⟩ := gsmCreg_eq res (w.log (.endCall w.loaded res))
  have hcode : (gsmCode other).endCb .gsmCreg res (w.log (.endCall w.loaded res)) = _ := heq
  rw [cmdTaskEnd_of_stayed h.callback (by rw [hcode]; exact hone)
    (by rw [hcode]; exact h.phase_eq), hcode]
  have hnext : w.cmdSend.next = none := by
    rw [h.holds.cmdSend_eq]
    rfl
  refine .through [.endCall w.loaded res] h.cmdList_eq (.free h.idle hnext)
    (not_busy_free h.idle hnext) (Or.inr ?_) rfl (List.forall_mem_singleton.mpr rfl)
    fun _ => ⟨_, List.mem_singleton_self _, ?_⟩
  · exact happ.pdu
  · rw [h.holds.loaded_eq]
    rfl

/-- The chain was left before. -/
lemma last (h : Ending .smsSendCmdProcessEnd here res w) :
    QueueKept w (cmdTaskEnd (gsmCode other) w here res) := by
  rw [cmdTaskEnd_of_none h.callback]
  have hholds' : Holds .smsSendCmdProcessEnd (w.setPhase res) :=
    ⟨h.holds.loaded_eq, h.holds.cmdSend_eq⟩
  exact .through [] h.cmdList_eq (.last hholds') (not_busy_end hholds') (Or.inr rfl) rfl
    (List.forall_mem_nil _) fun hbusy => absurd hbusy (not_busy_end h.holds)

end Ending

/-- The end callback of the descriptor is called with `res`. -/
theorem QueueKept.ends {here res : CmdPhase} (hlist : w.cmdList = []) (hn : n ∈ sendChain)
    (hholds : Holds n w) (hphase : w.phase = here) (hhere : here = .gotoError ∨ here = .delay)
    (hres : cmdTaskIsIdle res = true) : QueueKept w (cmdTaskEnd (gsmCode other) w here res) := by
  have h : Ending n here res w := ⟨hlist, hn, hholds, hphase, hhere, hres⟩
  simp only [sendChain, List.mem_cons, List.not_mem_nil, or_false] at hn
  rcases hn with rfl | rfl | rfl | rfl | rfl | rfl | rfl | rfl
  · exact h.cmgf
  · exact h.csca rfl (by decide) (Option.some_ne_none _)
  · exact h.csca rfl (by decide) (Option.some_ne_none _)
  · exact h.silent rfl (by decide) (Option.some_ne_none _)
  · exact h.silent rfl (by decide) (Option.some_ne_none _)
  · exact h.sent
  · exact h.creg
  · exact h.last

lemma silent_append {es' : List (CmdEvent gsmTypes)} (hes : ∀ e ∈ es, e.silent = true)
    (hes' : ∀ e ∈ es', e.silent = true) : ∀ e ∈ es ++ es', e.silent = true :=
  fun e he => (List.mem_append.mp he).elim (hes e) (hes' e)

/-- The descriptor is sent. -/
lemma QueueKept.sends (hlist : w.cmdList = []) (hn : n ∈ sendChain) (hholds : Holds n w)
    (hphase : w.phase = .send) :
    QueueKept w (afterSend (gsmSendCallback (w.log (.send (some n))))) := by
  have hnot : cmdTaskIsIdle w.phase = false := by
    rw [hphase]
    rfl
  have happend : ∀ (events : List GsmEvent) (before : List (CmdEvent gsmTypes)),
      events.map (CmdEvent.app (S := gsmTypes)) ++ (before ++ w.hist) =
        (events.map (CmdEvent.app (S := gsmTypes)) ++ before) ++ w.hist :=
    fun events before => (List.append_assoc ..).symm
  have hsent : ∀ e ∈ [(CmdEvent.send (some n) : CmdEvent gsmTypes)], e.silent = true :=
    List.forall_mem_singleton.mpr rfl
  by_cases h4 : n = .smsSendCmdProcess4
  · subst h4
    have hpacket : w.cmdSend.appStruct = some .smsSendCmdAtCmgs := by
      rw [hholds.cmdSend_eq]
      rfl
    obtain ⟨hcmgs, -⟩ :=
      gsmSendCallback_cmgs (w := w.log (.send (some .smsSendCmdProcess4))) hpacket
    generalize gsmSendCallback (w.log (.send (some .smsSendCmdProcess4))) = w' at hcmgs
    cases hcmgs with
    | formatted app events hframe htx =>
        exact .stays _ hlist hn hholds hnot ⟨hholds.loaded_eq, hholds.cmdSend_eq⟩ rfl hframe
          (happend events [.send _]) (silent_append (silent_tx htx) hsent)
    | restarted app events hframe htx =>
        exact .goesOn _ hlist (by decide) hholds (Or.inl hnot)
          (show .smsSendCmdProcess0 ∈ smsSteps by decide)
          ⟨rfl, rfl⟩ (Or.inl rfl) hframe.pdu (happend events [.load _, .send _])
          (silent_append (silent_tx htx) (List.forall_mem_cons.mpr ⟨rfl, hsent⟩))
    | givenUp app events hframe htx =>
        refine .through _ hlist (.last ⟨rfl, rfl⟩) (not_busy_end ⟨rfl, rfl⟩) (Or.inl hframe)
          (happend events [.load _, .send _]) (silent_append (silent_tx htx) ?_)
          fun _ => ⟨.load (some .smsSendCmdProcessEnd), ?_, rfl⟩
        · exact List.forall_mem_cons.mpr ⟨rfl, hsent⟩
        · exact List.mem_append_right _ (List.mem_cons_self ..)
  · obtain ⟨packet, hpacket, hcmgs, hchld, -, -⟩ := sendChain_packet hn h4 w.app
    have hstruct : (w.log (.send (some n))).cmdSend.appStruct = some packet := by
      rw [CmdWorld.log_cmdSend, hholds.cmdSend_eq]
      exact hpacket
    obtain ⟨app, clock, bytes, heq, hframe, -⟩ := gsmSendCallback_own hstruct hcmgs hchld
    rw [heq]
    refine .stays _ hlist hn hholds hnot ⟨hholds.loaded_eq, hholds.cmdSend_eq⟩ rfl hframe.pdu
      (happend (_ :: _) [.send _]) (silent_append (silent_app ?_) hsent)
    exact List.forall_mem_cons.mpr ⟨rfl, silent_format _ _⟩

/-- The `next` links stay in the chain. -/
lemma sendChain_next {m : GsmCmd} (hn : n ∈ sendChain) (hnext : (gsmProcess n).next = some m) :
    m ∈ sendChain ∧ n ≠ .smsSendCmdProcessEnd := by
  have hmem : ∀ {k}, (gsmProcess n).next = some k → k ∈ sendChain → m ∈ sendChain := by
    intro k hk hmem
    rwa [Option.some.inj (hnext.symm.trans hk)]
  simp only [sendChain, List.mem_cons, List.not_mem_nil, or_false] at hn
  rcases hn with rfl | rfl | rfl | rfl | rfl | rfl | rfl | rfl
  · exact ⟨hmem rfl (by decide), by decide⟩
  · exact ⟨hmem rfl (by decide), by decide⟩
  · exact ⟨hmem rfl (by decide), by decide⟩
  · exact ⟨hmem rfl (by decide), by decide⟩
  · exact ⟨hmem rfl (by decide), by decide⟩
  · exact ⟨hmem rfl (by decide), by decide⟩
  · exact absurd hnext.symm (Option.some_ne_none m)
  · exact absurd hnext.symm (Option.some_ne_none m)

/-- **One call of `Ampm_Cmd_Task` on the send chain.** -/
theorem cmdTask_queueKept (hlist : w.cmdList = []) (hengine : InChain w) :
    QueueKept w (cmdTask (gsmCode other) w) := by
  rcases hengine.cases with ⟨hidle, hnext⟩ | ⟨n, hn, hholds⟩
  · rw [cmdTask_of_idle (gsmCode other) hidle hnext hlist]
    exact .refl hlist hengine
  have hstep : GsmTaskStep other n w (cmdTask (gsmCode other) w) := gsmTask_step hlist hholds
  have hchecked : ∀ {phase : CmdPhase}, w.phase = phase → cmdTaskIsIdle phase = false →
      QueueKept w w.checkTask := by
    rintro phase rfl hnot
    exact .stays [] hlist hn hholds hnot hholds.checkTask hnot rfl rfl
      (List.forall_mem_nil _)
  generalize cmdTask (gsmCode other) w = w' at hstep
  cases hstep with
  | tooEarly hphase => rcases hphase with hphase | hphase <;> exact hchecked hphase rfl
  | sent hphase hexp =>
      exact (hchecked hphase rfl).trans (.sends hlist hn hholds.checkTask hphase)
  | retry hphase =>
      refine .stays [] hlist hn hholds (by rw [hphase]; rfl) ⟨hholds.loaded_eq, ?_⟩ rfl rfl rfl
        (List.forall_mem_nil _)
      show ({ w.cmdSend with retryNum := _ } : CmdProcess gsmTypes) = _
      rw [hholds.cmdSend_eq]
      rfl
  | giveUp hphase =>
      exact .stays [] hlist hn hholds (by rw [hphase]; rfl) (hholds.setPhase _) rfl
        rfl rfl (List.forall_mem_nil _)
  | failed hphase => exact .ends hlist hn hholds hphase (Or.inl rfl) rfl
  | lapsed hphase =>
      exact .stays [_] hlist hn hholds (by rw [hphase]; rfl)
        ((hholds.checkTask.log _).setPhase _) rfl
        rfl rfl (List.forall_mem_singleton.mpr rfl)
  | asked hphase =>
      refine (hchecked hphase rfl).trans ?_
      obtain ⟨app, clock, res, hframe, -, hcases⟩ := afterRecv_cases w.checkTask
      have hholds' : ∀ events, Holds n (w.checkTask.own app clock events) :=
        fun events => hholds.checkTask.own app clock events
      have hnot : cmdTaskIsIdle w.checkTask.phase = false := by
        rw [show w.checkTask.phase = .wait from hphase]
        rfl
      rcases hcases with heq | heq | heq
      · rw [heq]
        exact .stays [.recv _ res, .app (.okFound _)] hlist hn hholds.checkTask hnot
          ((((hholds' _).log _).initTask _).setPhase _) rfl hframe.pdu rfl
          (List.forall_mem_cons.mpr ⟨rfl, List.forall_mem_singleton.mpr rfl⟩)
      · rw [heq]
        exact .stays [.recv _ res] hlist hn hholds.checkTask hnot
          ((((hholds' _).log _).setPhase _).initTask _) rfl hframe.pdu rfl
          (List.forall_mem_singleton.mpr rfl)
      · rw [heq]
        exact .stays [.recv _ res] hlist hn hholds.checkTask hnot ((hholds' _).log _) hnot
          hframe.pdu rfl (List.forall_mem_singleton.mpr rfl)
  | succeeded hphase =>
      exact (hchecked hphase rfl).trans
        (.ends hlist hn hholds.checkTask hphase (Or.inr rfl) rfl)
  | next m hphase hnext =>
      obtain ⟨hm, hne⟩ := sendChain_next hn hnext
      refine .loads [_] hlist hn hholds (Or.inr ?_) hm rfl rfl rfl rfl rfl
        (List.forall_mem_singleton.mpr rfl) (List.mem_singleton_self _) fun h => absurd h hne
      rw [hnext]
      exact Option.some_ne_none m
  | idle hphase hnext => exact .refl hlist hengine

end Engine

end Ampm

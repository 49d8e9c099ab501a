import AmpmGsm.Gsm.SmsSound
import AmpmGsm.Gsm.TextSms

/-!
# The status cell of a message

`AmpmGsm::SendSmsWait` allocates a byte, has its message queued with a pointer to it, looks at it
once a second for a minute and frees it.  `Ampm_SmsTask` and `Ampm_SmsTaskPeriodic_1Sec` write
`SMS_OK` there when they complete a message that was sent, whether or not anybody waits for it.

* `Client`, `clientStep` — the client, one atomic step after another.
* `WaitRun`, `waitStep` — the client and the main task, in any order.
* `completing` — the message that a task is about to report as sent.
* `statusCell_sound_iff` — the runs on which the cell is not written after it was freed, and freed
  once.
-/

namespace Ampm

open Runs

/-! ## The client -/

/-- Where `SendSmsWait` is: before `SendSms`; in its loop, with the value of `timeout`; behind the
loop; before the call of `Ampm_UpdateStatus` that frees the cell; behind that. -/
inductive Client
  | start
  | waiting (timeout : UInt16)
  | looked
  | leaving (ret : UInt16)
  | done (ret : UInt16)
  deriving DecidableEq

/-- The cell has the address `cell`; `value` is what it holds, `frees` counts the calls of `free`
for it and `strays` the writes to it that came after one. -/
structure WaitRun where
  world : GsmWorld
  client : Client
  value : UInt8
  frees : ℕ
  strays : ℕ

/-- `Ampm_UpdateStatus(smsStatus, 0xff)`. -/
def WaitRun.freeCell (s : WaitRun) (osOk : Bool) : WaitRun :=
  if osOk then { s with frees := s.frees + 1 } else s

/-- The next step of `SendSmsWait`; `osOk` is whether a wait for the mutex ends with `osOK`. -/
def clientStep (cell : ℕ) (args : SendMsgArgs) (s : WaitRun) (osOk : Bool) : WaitRun :=
  match s.client with
  | .start =>
      let r := smsSendMsg s.world osOk { args with status := some cell }
      { s with
        world := r.2
        value := 1
        client := if r.1 = 0 then .waiting 60 else .looked }
  | .waiting timeout =>
      if s.value ≠ 0 ∧ timeout ≠ 0 then { s with client := .waiting (timeout - 1) }
      else { s with client := .looked }
  | .looked => { s with client := .leaving (if s.value = 0 then 0 else 1) }
  | .leaving ret => { s.freeCell osOk with client := .done ret }
  | .done _ => s

/-! ## The main task -/

/-- What was logged between two states. -/
def newEvents (w w' : GsmWorld) : List (CmdEvent gsmTypes) :=
  w'.hist.take (w'.hist.length - w.hist.length)

/-- `SMS_OK` is written to the cell. -/
def CmdEvent.writesOk (cell : ℕ) (w : GsmWorld) : CmdEvent gsmTypes → Bool
  | .app (.statusOk msg) => (w.app.smsHeap msg).status = some cell
  | _ => false

/-- The calls of `Ampm_UpdateStatus` that write to the cell.  Only the two tasks make any. -/
def okWrites (cell : ℕ) (w : GsmWorld) (i : SmsInput × (ℕ → UInt32)) (w' : GsmWorld) : ℕ :=
  match i.1 with
  | .smsTask _ | .smsTaskPeriodic1Sec _ => (newEvents w w').countP (CmdEvent.writesOk cell w)
  | _ => 0

/-- A step of the client, or of the main task. -/
inductive WaitInput
  | client (osOk : Bool)
  | gsm (i : SmsInput × (ℕ → UInt32))

/-- One step. -/
def waitStep (other : GsmEndCb → CmdPhase → GsmWorld → UInt8 × GsmWorld) (cell : ℕ)
    (args : SendMsgArgs) (s : WaitRun) : WaitInput → WaitRun
  | .client osOk => clientStep cell args s osOk
  | .gsm i =>
      let w := smsStep other s.world i
      let writes := okWrites cell s.world i w
      { s with
        world := w
        value := if writes = 0 then s.value else 0
        strays := if s.frees = 0 then s.strays else s.strays + writes }

/-- The cell was not written after it was freed, and it is freed once, when the client is through. -/
structure CellSound (s : WaitRun) : Prop where
  strays_eq : s.strays = 0
  frees_eq : s.frees = match s.client with
    | .done _ => 1
    | _ => 0

/-- A message was sent, and somebody is to be told. -/
def SmsMsg.reports (m : SmsMsg) : Bool := m.flag = smsMsgSent && m.status.isSome

/-- The message that the tasks would complete now, if it is one of these. -/
def sentTail (w : GsmWorld) : Option ℕ :=
  (listTail w.app.smsList).filter fun m => (w.app.smsHeap m).reports

/-- `Ampm_SmsTask` gets to the list. -/
def tasksDue (w : GsmWorld) : Prop :=
  cmdCheckIsEmpty w.cmdSend ∧ cmdTaskIsIdle w.phase ∧ w.app.checkCnt + 1 < 10

instance (w : GsmWorld) : Decidable (tasksDue w) := inferInstanceAs (Decidable (_ ∧ _ ∧ _))

/-- The message that a step completes as sent. -/
def completing (w : GsmWorld) (i : SmsInput × (ℕ → UInt32)) : Option ℕ :=
  match i.1 with
  | .smsTask osOk => if tasksDue w ∧ osOk then sentTail w else none
  | .smsTaskPeriodic1Sec osOk => if osOk then sentTail w else none
  | _ => none

/-- No message with the cell is completed as sent when the cell is freed, and the client gets the
mutex when it frees the cell. -/
def CompletesInTime (cell : ℕ) (s : WaitRun) : WaitInput → Prop
  | .client osOk => (∃ ret, s.client = .leaving ret) → osOk = true
  | .gsm i => s.frees ≠ 0 → ∀ m ∈ completing s.world i, (s.world.app.smsHeap m).status ≠ some cell

/-! ## The list -/

/-- What holds of the list and the engine between steps. -/
structure ListInv (w : GsmWorld) : Prop where
  cmdList_eq : w.cmdList = []
  engine : InChain w
  nodup : w.app.smsList.Nodup
  fresh : ∀ m ∈ w.app.smsList, m < w.app.smsNext

/-- Messages only leave the list. -/
structure ListStep (w w' : GsmWorld) : Prop where
  cmdList_eq : w'.cmdList = w.cmdList
  engine : InChain w → InChain w'
  sub : w'.app.smsList.Sublist w.app.smsList
  next_le : w.app.smsNext ≤ w'.app.smsNext

section List

variable {w w' w'' : GsmWorld} {msg : ℕ}

lemma ListInv.step (h : ListInv w) (hstep : ListStep w w') : ListInv w' :=
  ⟨hstep.cmdList_eq.trans h.cmdList_eq, hstep.engine h.engine, h.nodup.sublist hstep.sub,
    fun m hm => Nat.lt_of_lt_of_le (h.fresh m (hstep.sub.subset hm)) hstep.next_le⟩

lemma ListStep.refl (w : GsmWorld) : ListStep w w :=
  ⟨rfl, id, List.Sublist.refl _, le_rfl⟩

lemma ListStep.trans (h : ListStep w w') (h' : ListStep w' w'') : ListStep w w'' :=
  ⟨h'.cmdList_eq.trans h.cmdList_eq, fun hengine => h'.engine (h.engine hengine), h'.sub.trans h.sub,
    h.next_le.trans h'.next_le⟩

/-- The engine is not touched, and neither are the list and the heap's end. -/
lemma ListStep.of_same (hsame : SameEngine w w') (hlist : w'.app.smsList = w.app.smsList)
    (hnext : w'.app.smsNext = w.app.smsNext) : ListStep w w' :=
  ⟨hsame.cmdList_eq, hsame.inChain, hlist ▸ List.Sublist.refl _, hnext.ge⟩

lemma smsFinish_step (w : GsmWorld) (msg : ℕ) : ListStep w (smsFinish w msg) := by
  rw [smsFinish_eq]
  have hsame : SameEngine w (w.own
      (({ w.app with smsList := listRemove w.app.smsList msg } : GsmState).free msg) w.clock
      (finishEvents msg (w.app.smsHeap msg))) := ⟨rfl, rfl, rfl, rfl⟩
  exact ⟨rfl, hsame.inChain, List.erase_sublist, le_rfl⟩

lemma smsStart_step (w : GsmWorld) (msg : ℕ) : ListStep w (smsStart w msg) :=
  ⟨rfl, fun _ => .step .smsSendCmdProcess0 (by decide) ⟨rfl, rfl⟩, List.Sublist.refl _, le_rfl⟩

lemma smsLook_step (w : GsmWorld) (msg : ℕ) : ListStep w (smsLook w msg) :=
  .of_same ⟨rfl, rfl, rfl, rfl⟩ rfl rfl

lemma smsTaskBody_step (msg : ℕ) (w : GsmWorld) : ListStep w (smsTaskBody msg w).2 := by
  have hlook := smsLook_step w msg
  simp only [smsTaskBody]
  split_ifs
  · exact hlook.trans (smsStart_step _ msg)
  · exact hlook
  · exact hlook.trans (smsFinish_step _ msg)

lemma smsPeriodicBody_step (msg : ℕ) (r : UInt8 × GsmWorld) :
    ListStep r.2 (smsPeriodicBody msg r).2.2 := by
  simp only [smsPeriodicBody]
  split_ifs
  · exact .of_same ⟨rfl, rfl, rfl, rfl⟩ rfl rfl
  · exact .refl r.2
  · exact smsFinish_step r.2 msg

/-- The loops, for what each round does to the world in their state. -/
lemma smsWalk_step {σ : Type} {body : ℕ → σ → Option ℕ × σ} (world : σ → GsmWorld)
    (hbody : ∀ msg s, ListStep (world s) (world (body msg s).2)) :
    ∀ (rounds : ℕ) (msg : Option ℕ) (s : σ),
      ListStep (world s) (world (smsWalk body rounds msg s).2)
  | 0, _, s => .refl (world s)
  | _ + 1, none, s => .refl (world s)
  | rounds + 1, some msg, s => (hbody msg s).trans (smsWalk_step world hbody rounds _ _)

lemma smsTask_listStep (w : GsmWorld) (osOk : Bool) : ListStep w (smsTask w osOk).2 := by
  have hstep := smsTask_step w osOk
  generalize (smsTask w osOk).2 = w' at hstep
  cases hstep with
  | nothing => exact .refl w
  | counts cnt => exact .of_same ⟨rfl, rfl, rfl, rfl⟩ rfl rfl
  | walks msg rounds =>
      have hcounted : ListStep w (counted w) := .of_same ⟨rfl, rfl, rfl, rfl⟩ rfl rfl
      exact hcounted.trans (smsWalk_step id (fun msg w => smsTaskBody_step msg w) _ _ _)

lemma smsTaskPeriodic1Sec_listStep (w : GsmWorld) (osOk : Bool) :
    ListStep w (smsTaskPeriodic1Sec w osOk).2 := by
  unfold smsTaskPeriodic1Sec
  split_ifs
  · exact .refl w
  · exact smsWalk_step Prod.snd (fun msg r => smsPeriodicBody_step msg r) _ _
      ((0, w) : UInt8 × GsmWorld)
  · exact .refl w

/-- The engine leaves the list alone. -/
lemma ListInv.kept (h : ListInv w) (hkept : QueueKept w w') : ListInv w' := by
  refine ⟨hkept.cmdList_eq, hkept.engine, ?_, ?_⟩
  · rw [hkept.list_eq]
    exact h.nodup
  · rw [hkept.list_eq, hkept.next_eq]
    exact h.fresh

lemma SmsInv.list (h : SmsInv w) : ListInv w := ⟨h.cmdList_eq, h.engine, h.nodup, h.fresh⟩

lemma smsListAdd_same (w : GsmWorld) (msg : ℕ) : SameEngine w (smsListAdd w msg) :=
  ⟨rfl, rfl, rfl, rfl⟩

lemma smsListAdd_smsList (h : msg ∉ w.app.smsList) :
    (smsListAdd w msg).app.smsList = w.app.smsList ++ [msg] := by
  show listAdd w.app.smsList msg = _
  rw [listAdd, listRemove, List.erase_of_not_mem h]

/-- `Ampm_Sms_SendMsg` adds a new message at most. -/
lemma ListInv.sendMsg (h : ListInv w) (osOk : Bool) (args : SendMsgArgs) :
    ListInv (smsSendMsg w osOk args).2 := by
  have hsame : SameEngine w (w.setApp (w.app.malloc (newMsg args))) := ⟨rfl, rfl, rfl, rfl⟩
  have halloc : ListInv (w.setApp (w.app.malloc (newMsg args))) :=
    ⟨h.cmdList_eq, hsame.inChain h.engine, h.nodup, fun m hm => Nat.lt_succ_of_lt (h.fresh m hm)⟩
  have hnew : w.app.smsNext ∉ w.app.smsList := fun hmem => lt_irrefl _ (h.fresh _ hmem)
  have hfree : ListInv ((w.setApp (w.app.malloc (newMsg args))).setApp
      ((w.setApp (w.app.malloc (newMsg args))).app.free w.app.smsNext)) :=
    halloc.step (.of_same ⟨rfl, rfl, rfl, rfl⟩ rfl rfl)
  unfold smsSendMsg
  dsimp only
  split_ifs
  · exact hfree
  · cases osOk with
    | false => exact halloc
    | true =>
        show ListInv (smsListAdd (w.setApp (w.app.malloc (newMsg args))) w.app.smsNext)
        have hlist : (smsListAdd (w.setApp (w.app.malloc (newMsg args)))
            w.app.smsNext).app.smsList = w.app.smsList ++ [w.app.smsNext] :=
          smsListAdd_smsList hnew
        have hadded := smsListAdd_same (w.setApp (w.app.malloc (newMsg args))) w.app.smsNext
        refine ⟨hadded.cmdList_eq.trans halloc.cmdList_eq, hadded.inChain halloc.engine, ?_,
          fun m hm => ?_⟩
        · rw [hlist, ← List.concat_eq_append]
          exact h.nodup.concat hnew
        · rw [hlist] at hm
          rcases List.mem_append.mp hm with hold | hlast
          · exact Nat.lt_succ_of_lt (h.fresh m hold)
          · rw [List.mem_singleton.mp hlast]
            exact Nat.lt_succ_self _
  · exact hfree

/-- One step of the main task. -/
theorem smsStep_listInv {other : GsmEndCb → CmdPhase → GsmWorld → UInt8 × GsmWorld}
    (h : ListInv w) (i : SmsInput × (ℕ → UInt32)) : ListInv (smsStep other w i) := by
  obtain ⟨input, clock⟩ := i
  have hclock : ListInv (w.own w.app clock []) := h.step (.of_same ⟨rfl, rfl, rfl, rfl⟩ rfl rfl)
  cases input with
  | smsTask osOk => exact hclock.step (smsTask_listStep _ osOk)
  | smsTaskPeriodic1Sec osOk => exact hclock.step (smsTaskPeriodic1Sec_listStep _ osOk)
  | smsSendMsg osOk args => exact hclock.sendMsg osOk args
  | cmdTask app =>
      have hbetween : ListInv (w.own (keepMessages w.app app) clock []) :=
        h.step (.of_same ⟨rfl, rfl, rfl, rfl⟩ rfl rfl)
      exact hbetween.kept (cmdTask_queueKept hbetween.cmdList_eq hbetween.engine)

end List

/-! ## What is reported -/

/-- `SMS_OK` is written to a status cell. -/
def CmdEvent.isStatusOk : CmdEvent gsmTypes → Bool
  | .app (.statusOk _) => true
  | _ => false

lemma writesOk_of_not {e : CmdEvent gsmTypes} (he : e.isStatusOk = false) (cell : ℕ)
    (w : GsmWorld) : e.writesOk cell w = false := by
  cases e with
  | app event => cases event <;> first | rfl | exact absurd he (Bool.false_ne_true ∘ Eq.symm)
  | _ => rfl

/-- Nothing was reported between the two states. -/
def Unreported (w w' : GsmWorld) : Prop :=
  ∃ es, w'.hist = es ++ w.hist ∧ ∀ e ∈ es, e.isStatusOk = false

section Report

variable {w w' w'' : GsmWorld} {msg cell : ℕ} {o : Option ℕ}

lemma newEvents_eq {es : List (CmdEvent gsmTypes)} (h : w'.hist = es ++ w.hist) :
    newEvents w w' = es := by
  rw [newEvents, h, List.length_append, Nat.add_sub_cancel, List.take_left]

lemma Unreported.of_hist (h : w'.hist = w.hist) : Unreported w w' :=
  ⟨[], h, List.forall_mem_nil _⟩

lemma Unreported.trans (h : Unreported w w') (h' : Unreported w' w'') : Unreported w w'' := by
  obtain ⟨es, hhist, hes⟩ := h
  obtain ⟨es', hhist', hes'⟩ := h'
  refine ⟨es' ++ es, by rw [hhist', hhist, List.append_assoc], fun e he => ?_⟩
  exact (List.mem_append.mp he).elim (hes' e) (hes e)

lemma Unreported.countP_eq (h : Unreported w w') (cell : ℕ) (v : GsmWorld) :
    (newEvents w w').countP (CmdEvent.writesOk cell v) = 0 := by
  obtain ⟨es, hhist, hes⟩ := h
  rw [newEvents_eq hhist, List.countP_eq_zero]
  intro e he
  rw [writesOk_of_not (hes e he)]
  exact Bool.false_ne_true

lemma smsFinish_hist (w : GsmWorld) (msg : ℕ) :
    (smsFinish w msg).hist =
      (finishEvents msg (w.app.smsHeap msg)).map (CmdEvent.app (S := gsmTypes)) ++ w.hist := by
  rw [smsFinish_eq]
  rfl

/-- A message that was not sent, or has no status cell, is completed silently. -/
lemma smsFinish_unreported (h : (w.app.smsHeap msg).reports = false) :
    Unreported w (smsFinish w msg) := by
  refine ⟨_, smsFinish_hist w msg, fun e he => ?_⟩
  obtain ⟨event, hevent, rfl⟩ := List.mem_map.mp he
  rw [SmsMsg.reports] at h
  simp only [finishEvents] at hevent
  split_ifs at hevent with hsent hcallback <;> simp_all
  · subst hevent
    rfl

/-- A message that was sent is reported to its own status cell. -/
lemma smsFinish_reports (h : (w.app.smsHeap msg).reports = true) (cell : ℕ) (v : GsmWorld) :
    (newEvents w (smsFinish w msg)).countP (CmdEvent.writesOk cell v) =
      if (v.app.smsHeap msg).status = some cell then 1 else 0 := by
  rw [newEvents_eq (smsFinish_hist w msg)]
  rw [SmsMsg.reports, Bool.and_eq_true, decide_eq_true_eq] at h
  rw [finishEvents, if_pos h]
  split_ifs <;> simp_all [CmdEvent.writesOk]

lemma trimText_reports (m : SmsMsg) : (trimText m).reports = m.reports := by
  unfold trimText
  split_ifs <;> rfl

/-- A message that was sent does not wait. -/
lemma SmsMsg.not_waits_of_reports {m : SmsMsg} (h : m.reports = true) : m.waits = false := by
  rw [SmsMsg.reports, Bool.and_eq_true, decide_eq_true_eq] at h
  have hflag : decide (m.flag = smsNewMsg) = false := by
    rw [h.1]
    decide
  simp only [SmsMsg.waits, hflag, Bool.false_and]

/-- The loop of `Ampm_SmsTask` on the tail of the list, if it is not a message to be reported: what
the loop starts or frees, it reports nothing. -/
lemma smsWalk_unreported :
    ∀ (rounds : ℕ) {w : GsmWorld}, listItemNext w.app.smsList msg = none →
      (w.app.smsHeap msg).reports = false →
      Unreported w (smsWalk smsTaskBody rounds (some msg) w).2
  | 0, w, _, _ => .of_hist rfl
  | rounds + 1, w, hnext, hnot => by
      have hlook : Unreported w (smsLook w msg) := .of_hist rfl
      have hnext' : listItemNext (smsLook w msg).app.smsList msg = none := hnext
      have hnot' : ((smsLook w msg).app.smsHeap msg).reports = false := by
        rw [smsLook_heap, trimText_reports, hnot]
      cases hwaits : ((smsLook w msg).app.smsHeap msg).waits with
      | false =>
          rw [smsWalk_last (smsTaskBody_finish hnext hwaits)]
          exact hlook.trans (smsFinish_unreported hnot')
      | true =>
          by_cases htime : ((smsLook w msg).app.smsHeap msg).timeout = 0
          · have hstart : Unreported (smsLook w msg) (smsStart (smsLook w msg) msg) :=
              ⟨[.load (some .smsSendCmdProcess0), .app (.attempt msg)], rfl,
                by simp [CmdEvent.isStatusOk]⟩
            show Unreported w
              (smsWalk smsTaskBody rounds (smsTaskBody msg w).1 (smsTaskBody msg w).2).2
            rw [smsTaskBody_start hwaits htime]
            refine (hlook.trans hstart).trans (smsWalk_unreported rounds ?_ ?_)
            · rwa [smsStart_smsList]
            · rw [smsStart_heap]
              exact hnot'
          · rw [smsWalk_last (smsTaskBody_wait hnext hwaits htime)]
            exact hlook

/-- On a message to be reported the loop makes one round. -/
lemma smsWalk_reports (rounds : ℕ) (hnext : listItemNext w.app.smsList msg = none)
    (hreports : (w.app.smsHeap msg).reports = true) (cell : ℕ) (v : GsmWorld) :
    (newEvents w (smsWalk smsTaskBody (rounds + 1) (some msg) w).2).countP
        (CmdEvent.writesOk cell v) = if (v.app.smsHeap msg).status = some cell then 1 else 0 := by
  have hreports' : ((smsLook w msg).app.smsHeap msg).reports = true := by
    rw [smsLook_heap, trimText_reports, hreports]
  rw [smsWalk_last (smsTaskBody_finish hnext (SmsMsg.not_waits_of_reports hreports'))]
  exact smsFinish_reports hreports' cell v

/-- What is written to the cell if the message is reported. -/
def okWritesOf (cell : ℕ) (w : GsmWorld) (msg : Option ℕ) : ℕ :=
  if ∃ m ∈ msg, (w.app.smsHeap m).status = some cell then 1 else 0

lemma okWritesOf_none (cell : ℕ) (w : GsmWorld) : okWritesOf cell w none = 0 := by
  simp [okWritesOf]

lemma okWritesOf_some (cell : ℕ) (w : GsmWorld) (msg : ℕ) :
    okWritesOf cell w (some msg) = if (w.app.smsHeap msg).status = some cell then 1 else 0 := by
  simp [okWritesOf]

lemma okWritesOf_eq_zero : okWritesOf cell w o = 0 ↔
    ∀ m ∈ o, (w.app.smsHeap m).status ≠ some cell := by
  simp [okWritesOf]

lemma sentTail_of_tail (htail : listTail w.app.smsList = some msg) :
    sentTail w = if (w.app.smsHeap msg).reports then some msg else none := by
  rw [sentTail, htail, Option.filter_some]

lemma smsTask_okWrites (hnodup : w.app.smsList.Nodup) (osOk : Bool) (cell : ℕ) :
    (newEvents w (smsTask w osOk).2).countP (CmdEvent.writesOk cell w) =
      okWritesOf cell w (if tasksDue w ∧ osOk then sentTail w else none) := by
  have hsilent : ∀ {app : GsmState},
      (newEvents w (w.setApp app)).countP (CmdEvent.writesOk cell w) = 0 :=
    fun {app} => Unreported.countP_eq (.of_hist rfl) cell w
  unfold smsTask
  split_ifs with hfree hos hdue hdue hdue
  · dsimp only
    split_ifs with hcnt hlen
    · exact absurd hcnt (UInt8.not_le.mpr hdue.1.2.2)
    · have hne : w.app.smsList ≠ [] := fun h => hlen (congrArg List.length h)
      have htail : listTail w.app.smsList = some (w.app.smsList.getLast hne) :=
        List.getLast?_eq_getLast_of_ne_nil hne
      generalize w.app.smsList.getLast hne = msg at htail
      have hlast : listItemNext w.app.smsList msg = none := listItemNext_tail hnodup htail
      have hcounted : Unreported w (counted w) := .of_hist rfl
      have hrounds : smsRounds w.app = smsRounds w.app - 1 + 1 := by
        unfold smsRounds
        omega
      show (newEvents w (smsWalk smsTaskBody (smsRounds w.app) (listTail w.app.smsList)
        (counted w)).2).countP _ = _
      rw [htail, sentTail_of_tail htail]
      cases hreports : (w.app.smsHeap msg).reports with
      | false =>
          rw [(hcounted.trans (smsWalk_unreported _ hlast hreports)).countP_eq]
          simp [okWritesOf_none]
      | true =>
          rw [hrounds, if_pos rfl, okWritesOf_some]
          exact smsWalk_reports (w := counted w) _ hlast hreports cell w
    · have hnil : w.app.smsList = [] := List.length_eq_zero_iff.mp (not_not.mp hlen)
      rw [hsilent, sentTail, hnil]
      exact (okWritesOf_none cell w).symm
  · dsimp only
    rw [okWritesOf_none]
    split_ifs with hcnt hlen
    · exact hsilent
    · exact absurd ⟨⟨hfree.1, hfree.2, UInt8.not_le.mp hcnt⟩, hos⟩ hdue
    · exact hsilent
  · exact absurd hdue.2 hos
  · rw [okWritesOf_none]
    exact hsilent
  · exact absurd ⟨hdue.1.1, hdue.1.2.1⟩ hfree
  · rw [okWritesOf_none]
    exact hsilent

lemma smsTaskPeriodic1Sec_okWrites (hnodup : w.app.smsList.Nodup) (osOk : Bool) (cell : ℕ) :
    (newEvents w (smsTaskPeriodic1Sec w osOk).2).countP (CmdEvent.writesOk cell w) =
      okWritesOf cell w (if osOk then sentTail w else none) := by
  unfold smsTaskPeriodic1Sec
  split_ifs with hos hlen
  · have hnil : w.app.smsList = [] := List.length_eq_zero_iff.mp hlen
    rw [Unreported.countP_eq (.of_hist rfl), sentTail, hnil]
    exact (okWritesOf_none cell w).symm
  rotate_left
  · rw [Unreported.countP_eq (.of_hist rfl), okWritesOf_none]
  have hne : w.app.smsList ≠ [] := fun hnil => hlen (congrArg List.length hnil)
  have htail : listTail w.app.smsList = some (w.app.smsList.getLast hne) :=
    List.getLast?_eq_getLast_of_ne_nil hne
  generalize w.app.smsList.getLast hne = msg at htail
  have hlast : listItemNext w.app.smsList msg = none := listItemNext_tail hnodup htail
  have hrounds : smsRounds w.app = smsRounds w.app - 1 + 1 := by
    unfold smsRounds
    omega
  rw [htail, hrounds, sentTail_of_tail htail]
  cases hwaits : (w.app.smsHeap msg).waits with
  | false =>
      have hbody : smsPeriodicBody msg (0, w) = (none, 0, smsFinish w msg) := by
        simp only [smsPeriodicBody, hwaits, Bool.false_eq_true, if_false, hlast]
      rw [smsWalk_last hbody]
      cases hreports : (w.app.smsHeap msg).reports with
      | false =>
          rw [(smsFinish_unreported hreports).countP_eq]
          simp [okWritesOf_none]
      | true =>
          rw [if_pos rfl, okWritesOf_some]
          exact smsFinish_reports hreports cell w
  | true =>
      have hreports : (w.app.smsHeap msg).reports = false := by
        rw [← Bool.not_eq_true]
        intro h
        rw [SmsMsg.not_waits_of_reports h] at hwaits
        cases hwaits
      obtain ⟨r, hbody, hquiet⟩ : ∃ r : UInt8 × GsmWorld,
          smsPeriodicBody msg (0, w) = (none, r) ∧ Unreported w r.2 := by
        by_cases htime : (w.app.smsHeap msg).timeout = 0
        · refine ⟨(1, w), ?_, .of_hist rfl⟩
          simp only [smsPeriodicBody, hwaits, if_true, htime, ne_eq, not_true_eq_false, if_false,
            hlast]
        · refine ⟨(0, w.setApp (w.app.setMsg msg (aged (w.app.smsHeap msg)))), ?_, .of_hist rfl⟩
          simp only [smsPeriodicBody, hwaits, if_true, htime, ne_eq, not_false_eq_true, hlast, aged]
      rw [smsWalk_last hbody, hquiet.countP_eq, hreports]
      simp [okWritesOf_none]

/-- **What a step writes to the cell**: `SMS_OK`, if it completes a message with this cell as
sent. -/
theorem okWrites_eq {other : GsmEndCb → CmdPhase → GsmWorld → UInt8 × GsmWorld}
    (h : ListInv w) (cell : ℕ) (i : SmsInput × (ℕ → UInt32)) :
    okWrites cell w i (smsStep other w i) = okWritesOf cell w (completing w i) := by
  obtain ⟨input, clock⟩ := i
  cases input with
  | smsTask osOk => exact smsTask_okWrites (w := w.own w.app clock []) h.nodup osOk cell
  | smsTaskPeriodic1Sec osOk =>
      exact smsTaskPeriodic1Sec_okWrites (w := w.own w.app clock []) h.nodup osOk cell
  | smsSendMsg osOk args => exact (okWritesOf_none cell w).symm
  | cmdTask app => exact (okWritesOf_none cell w).symm

end Report

/-! ## Runs -/

/-- Nothing is queued, and the client has not begun. -/
structure WaitStart (s : WaitRun) : Prop where
  world : SmsStart s.world
  client_eq : s.client = .start
  frees_eq : s.frees = 0
  strays_eq : s.strays = 0

/-- What holds between steps. -/
structure WaitInv (s : WaitRun) : Prop where
  list : ListInv s.world
  cell : CellSound s

section WaitRuns

variable {other : GsmEndCb → CmdPhase → GsmWorld → UInt8 × GsmWorld} {cell : ℕ}
  {args : SendMsgArgs} {s : WaitRun}

lemma WaitStart.inv (h : WaitStart s) : WaitInv s where
  list := h.world.inv.list
  cell := ⟨h.strays_eq, by rw [h.client_eq]; exact h.frees_eq⟩

/-- A step of the client. -/
lemma clientStep_inv (h : WaitInv s) {osOk : Bool}
    (hi : (∃ ret, s.client = .leaving ret) → osOk = true) :
    WaitInv (clientStep cell args s osOk) := by
  obtain ⟨hlist, hstrays, hfrees⟩ := h
  rcases s with ⟨w, client, value, frees, strays⟩
  cases client with
  | start =>
      refine ⟨hlist.sendMsg osOk _, hstrays, ?_⟩
      simp only [clientStep]
      split_ifs
      · exact hfrees
      · exact hfrees
  | waiting timeout =>
      simp only [clientStep]
      split_ifs
      · exact ⟨hlist, hstrays, hfrees⟩
      · exact ⟨hlist, hstrays, hfrees⟩
  | looked => exact ⟨hlist, hstrays, hfrees⟩
  | leaving ret =>
      obtain rfl := hi ⟨ret, rfl⟩
      exact ⟨hlist, hstrays, congrArg (· + 1) hfrees⟩
  | done ret => exact ⟨hlist, hstrays, hfrees⟩

/-- A step of the main task. -/
lemma gsmStep_inv (h : WaitInv s) {i : SmsInput × (ℕ → UInt32)}
    (hi : CompletesInTime cell s (.gsm i)) : WaitInv (waitStep other cell args s (.gsm i)) := by
  refine ⟨smsStep_listInv h.list i, ?_, h.cell.frees_eq⟩
  simp only [waitStep]
  split_ifs with hfrees
  · exact h.cell.strays_eq
  · rw [okWrites_eq h.list, okWritesOf_eq_zero.mpr (hi hfrees)]
    exact h.cell.strays_eq

theorem waitStep_inv (h : WaitInv s) (i : WaitInput) (hi : CompletesInTime cell s i) :
    WaitInv (waitStep other cell args s i) := by
  cases i with
  | client osOk => exact clientStep_inv h hi
  | gsm i => exact gsmStep_inv h hi

/-- A step that breaks the condition writes to the freed cell, or never frees it. -/
theorem waitStep_not_sound (h : WaitInv s) (i : WaitInput) (hi : ¬ CompletesInTime cell s i) :
    ¬ CellSound (waitStep other cell args s i) := by
  cases i with
  | client osOk =>
      simp only [CompletesInTime, not_forall] at hi
      obtain ⟨⟨ret, hleaving⟩, hos⟩ := hi
      have hfrees := h.cell.frees_eq
      rw [hleaving] at hfrees
      intro hsound
      have hdone := hsound.frees_eq
      simp only [waitStep, clientStep, hleaving, WaitRun.freeCell, if_neg hos] at hdone
      rw [hfrees] at hdone
      cases hdone
  | gsm i =>
      simp only [CompletesInTime, not_forall] at hi
      obtain ⟨hfrees, m, hm, hcell⟩ := hi
      intro hsound
      have hstrays := hsound.strays_eq
      simp only [waitStep, if_neg hfrees] at hstrays
      rw [okWrites_eq h.list] at hstrays
      exact hcell (okWritesOf_eq_zero.mp (Nat.add_eq_zero_iff.mp hstrays).2 m hm)

/-- **The status cell is not written after it was freed, and freed once.**  From an empty queue,
whatever other messages are queued, in whatever order the client and the tasks take their steps and
whatever the modem answers, this holds in every state of a run just if no message with the cell is
completed as sent once the client has freed it, and the client gets the mutex to free it. -/
theorem statusCell_sound_iff (other : GsmEndCb → CmdPhase → GsmWorld → UInt8 × GsmWorld) (cell : ℕ)
    (args : SendMsgArgs) (s₀ : WaitRun) (hs₀ : WaitStart s₀) (is : List WaitInput) :
    Throughout (waitStep other cell args) CellSound s₀ is ↔
      StepsMeet (waitStep other cell args) (CompletesInTime cell) s₀ is :=
  throughout_iff_stepsMeet (I := WaitInv) (fun _ h => h.cell) (fun _ i h hi => waitStep_inv h i hi)
    (fun _ i h hi => waitStep_not_sound h i hi) hs₀.inv

end WaitRuns

/-! ### A message that is late -/

/-- One letter, with what `SendSms` passes on for the rest. -/
def waitArgs : SendMsgArgs :=
  { status := none, callback := false, phone := some [49], msg := [72], len := 1, mode := .text
    timeout := 10, tryNum := 3 }

def waitStart₀ : WaitRun := ⟨smsStart₀, .start, 0, 0, 0⟩

/-- The client is through before `Ampm_SmsTask` is called for the first time. -/
def waitedInVain : List WaitInput :=
  List.replicate 64 (.client true) ++ [.gsm (.smsTask true, fun _ => 0)]

/-- Calls of `Ampm_Cmd_Task` every 600 ms with a modem that answers each command. -/
def modemAnswers : ℕ → UInt32 → WaitRun → List WaitInput
  | 0, _, _ => []
  | calls + 1, time, s =>
      let i := .gsm (.cmdTask { s.world.app with rx := bytesOf "\r\r\n>OK" }, fun _ => time)
      i :: modemAnswers calls (time + 600) (waitStep idleOther 0 waitArgs s i)

/-- The message is delivered and completed after that. -/
def lateDelivery : List WaitInput :=
  waitedInVain ++
    modemAnswers 14 600 (run (waitStep idleOther 0 waitArgs) waitStart₀ waitedInVain) ++
    [.gsm (.smsTaskPeriodic1Sec true, fun _ => 0)]

/-- The hypothesis is met at reset. -/
theorem statusCell_sound_iff_reset :
    Throughout (waitStep idleOther 0 waitArgs) CellSound waitStart₀ lateDelivery ↔
      StepsMeet (waitStep idleOther 0 waitArgs) (CompletesInTime 0) waitStart₀ lateDelivery :=
  statusCell_sound_iff idleOther 0 waitArgs waitStart₀
    ⟨⟨rfl, fun _ => rfl, rfl, rfl, rfl, rfl⟩, rfl, rfl, rfl⟩ lateDelivery

/-- A message that is delivered after a minute writes to the freed cell. -/
theorem statusCell_written_late :
    ¬ ∀ (other : GsmEndCb → CmdPhase → GsmWorld → UInt8 × GsmWorld) (cell : ℕ)
      (args : SendMsgArgs) (s₀ : WaitRun), WaitStart s₀ →
        ∀ is, Throughout (waitStep other cell args) CellSound s₀ is := by
  intro h
  have hrun := h idleOther 0 waitArgs waitStart₀
    ⟨⟨rfl, fun _ => rfl, rfl, rfl, rfl, rfl⟩, rfl, rfl, rfl⟩ lateDelivery
  exact absurd hrun.last.strays_eq (by decide +kernel)

end Ampm

import AmpmGsm.Gsm.Io

/-!
# The queue of messages to send

`ampm_gsm_sms.c`: messages are allocated and queued by `Ampm_Sms_SendMsg`, sent by `Ampm_SmsTask`
and aged by `Ampm_SmsTaskPeriodic_1Sec`; the latter two also complete and free them.

* `listTail`, `listItemNext` — the two ways the list is read.
* `smsSendMsg`, `smsTask`, `smsTaskPeriodic1Sec` — the functions.
* `smsWalk_start`, `smsWalk_frees` — what the loop of `smsTask` makes of an attempt.
-/

namespace Ampm

/-! ## The list -/

/-- `list_tail`: the last item. -/
def listTail (list : List ℕ) : Option ℕ := list.getLast?

/-- `list_item_next`. -/
def listItemNext (list : List ℕ) (item : ℕ) : Option ℕ :=
  (list.dropWhile fun x => x ≠ item).tail.head?

/-- `list_remove`. -/
def listRemove (list : List ℕ) (item : ℕ) : List ℕ := list.erase item

/-- `list_add`. -/
def listAdd (list : List ℕ) (item : ℕ) : List ℕ := listRemove list item ++ [item]

/-! ## Queueing -/

/-- The arguments of `Ampm_Sms_SendMsg`; `callback` says whether the pointer is not `NULL`. -/
structure SendMsgArgs where
  status : Option ℕ
  callback : Bool
  phone : Option (List UInt8)
  msg : List UInt8
  len : UInt8
  mode : SmsMode
  timeout : UInt16
  tryNum : UInt8

/-- The message that `Ampm_Sms_SendMsg` fills in; `timeoutReload` has eight bits. -/
def newMsg (args : SendMsgArgs) : SmsMsg :=
  { phone := args.phone
    msg := some ((List.range args.len.toNat).map fun i => args.msg.getD i 0)
    len := args.len
    timeout := 0
    timeoutReload := args.timeout.toUInt8
    tryNum := args.tryNum
    flag := smsNewMsg
    status := args.status
    callback := args.callback
    mode := args.mode }

/-- `free`. -/
def GsmState.free (s : GsmState) (address : ℕ) : GsmState :=
  { s with smsFreed := Function.update s.smsFreed address true }

/-- `malloc` and what is written there. -/
def GsmState.malloc (s : GsmState) (msg : SmsMsg) : GsmState :=
  { s.setMsg s.smsNext msg with smsNext := s.smsNext + 1 }

/-- `list_add(smsList, msg)`. -/
def smsListAdd (w : GsmWorld) (msg : ℕ) : GsmWorld :=
  (w.setApp { w.app with smsList := listAdd w.app.smsList msg }).log (.app (.queued msg))

/-- `Ampm_SmsAddMsg`; here and below, `osOk` is whether `osMutexWait` returns `osOK`. -/
def smsAddMsg (w : GsmWorld) (osOk : Bool) (msg : ℕ) : UInt8 × GsmWorld :=
  if osOk then (0, smsListAdd w msg) else (1, w)

/-- `Ampm_Sms_SendMsg`: `SMS_OK` is 0.  What it allocated is not freed if the mutex is not free. -/
def smsSendMsg (w : GsmWorld) (osOk : Bool) (args : SendMsgArgs) : UInt8 × GsmWorld :=
  let sms := w.app.smsNext
  let w := w.setApp (w.app.malloc (newMsg args))
  if args.mode ≠ .text ∧ args.len = 0 then (1, w.setApp (w.app.free sms))
  else if firstChar args.phone ≠ 0 then smsAddMsg w osOk sms
  else (1, w.setApp (w.app.free sms))

/-! ## Sending and ageing -/

/-- The condition under which both tasks keep a message. -/
def SmsMsg.waits (m : SmsMsg) : Bool :=
  m.flag = smsNewMsg && m.msg.isSome && m.phone.isSome && m.len ≠ 0 && m.tryNum ≠ 0

/-- The other branch of both tasks: the message at `msg` is completed, taken off the list and
freed. -/
def smsFinish (w : GsmWorld) (msg : ℕ) : GsmWorld :=
  let m := w.app.smsHeap msg
  let w := if m.callback then w.log (.app (.completed msg)) else w
  let w := if m.flag = smsMsgSent ∧ m.status.isSome then w.log (.app (.statusOk msg)) else w
  w.setApp (({ w.app with smsList := listRemove w.app.smsList msg } : GsmState).free msg)

/-- An attempt to send the message at `msg` is started. -/
def smsStart (w : GsmWorld) (msg : ℕ) : GsmWorld :=
  let m := w.app.smsHeap msg
  let s := w.app.setMsg msg { m with timeout := m.timeoutReload, tryNum := m.tryNum - 1 }
  sendAtCmdNow ((w.setApp { s with smsMsg := msg }).log (.app (.attempt msg))) .smsSendCmdProcess0

/-- The length of an empty text message is cleared. -/
def trimText (m : SmsMsg) : SmsMsg :=
  if m.mode = .text then if firstChar m.msg = 0 then { m with len := 0 } else m else m

/-- The start of a round of `Ampm_SmsTask`. -/
def smsLook (w : GsmWorld) (msg : ℕ) : GsmWorld :=
  w.setApp { w.app.setMsg msg (trimText (w.app.smsHeap msg)) with checkCnt := 0 }

/-- The body of the loop of `Ampm_SmsTask`: the next value of `msg`, and the state. -/
def smsTaskBody (msg : ℕ) (w : GsmWorld) : Option ℕ × GsmWorld :=
  let w := smsLook w msg
  let m := w.app.smsHeap msg
  if m.waits then
    -- `msg` is not advanced: the loop looks at the same message again
    if m.timeout = 0 then (some msg, smsStart w msg)
    else (listItemNext w.app.smsList msg, w)
  else (listItemNext w.app.smsList msg, smsFinish w msg)

/-- The body of the loop of `Ampm_SmsTaskPeriodic_1Sec`: the next value of `msg`, `res`, and the
state. -/
def smsPeriodicBody (msg : ℕ) (r : UInt8 × GsmWorld) : Option ℕ × UInt8 × GsmWorld :=
  let w := r.2
  let m := w.app.smsHeap msg
  if m.waits then
    if m.timeout ≠ 0 then
      (listItemNext w.app.smsList msg, r.1,
        w.setApp (w.app.setMsg msg { m with timeout := m.timeout - 1 }))
    else (listItemNext w.app.smsList msg, 1, w)
  else (listItemNext w.app.smsList msg, r.1, smsFinish w msg)

/-- `while(msg != NULL)`, for at most the given number of rounds. -/
def smsWalk {σ : Type} (body : ℕ → σ → Option ℕ × σ) : ℕ → Option ℕ → σ → Option ℕ × σ
  | 0, msg, w => (msg, w)
  | _, none, w => (none, w)
  | rounds + 1, some msg, w =>
      let r := body msg w
      smsWalk body rounds r.1 r.2

/-- More rounds than the loops take: a message has at most 255 tries. -/
def smsRounds (s : GsmState) : ℕ := 257 * (s.smsList.length + 1)

/-- `Ampm_SmsTask`. -/
def smsTask (w : GsmWorld) (osOk : Bool) : UInt8 × GsmWorld :=
  if cmdCheckIsEmpty w.cmdSend ∧ cmdTaskIsIdle w.phase then
    if osOk then
      let w := w.setApp { w.app with checkCnt := w.app.checkCnt + 1 }
      if w.app.checkCnt ≥ 10 then (1, w.setApp { w.app with checkCnt := 0 })
      else if w.app.smsList.length ≠ 0 then
        (0, (smsWalk smsTaskBody (smsRounds w.app) (listTail w.app.smsList) w).2)
      else (1, w)
    else (0, w)
  else (0, w)

/-- `Ampm_SmsTaskPeriodic_1Sec`. -/
def smsTaskPeriodic1Sec (w : GsmWorld) (osOk : Bool) : UInt8 × GsmWorld :=
  if osOk then
    if w.app.smsList.length = 0 then (0, w)
    else (smsWalk smsPeriodicBody (smsRounds w.app) (listTail w.app.smsList) (0, w)).2
  else (0, w)

/-! ## The loops end -/

lemma listItemNext_tail {list : List ℕ} {item : ℕ} (hnodup : list.Nodup)
    (htail : listTail list = some item) : listItemNext list item = none := by
  obtain ⟨init, rfl⟩ : ∃ init, list = init ++ [item] := List.getLast?_eq_some_iff.mp htail
  have hnot : ∀ x ∈ init, decide (x ≠ item) = true := by
    intro x hx
    have hne := (List.nodup_append.mp hnodup).2.2 x hx item (List.mem_singleton_self _)
    exact decide_eq_true hne
  rw [listItemNext, List.dropWhile_append_of_pos hnot]
  simp

lemma smsWalk_none {σ : Type} (body : ℕ → σ → Option ℕ × σ) (rounds : ℕ) (w : σ) :
    smsWalk body rounds none w = (none, w) := by
  cases rounds <;> rfl

/-- A round that leaves the tail is the last. -/
lemma smsWalk_last {σ : Type} {body : ℕ → σ → Option ℕ × σ} {msg : ℕ} {w w' : σ}
    (hbody : body msg w = (none, w')) (rounds : ℕ) :
    smsWalk body (rounds + 1) (some msg) w = (none, w') := by
  show smsWalk body rounds (body msg w).1 (body msg w).2 = _
  rw [hbody, smsWalk_none]

section Tail

variable {w : GsmWorld} {msg : ℕ}

@[simp] lemma trimText_tryNum (m : SmsMsg) : (trimText m).tryNum = m.tryNum := by
  unfold trimText
  split_ifs <;> rfl

@[simp] lemma trimText_timeout (m : SmsMsg) : (trimText m).timeout = m.timeout := by
  unfold trimText
  split_ifs <;> rfl

@[simp] lemma trimText_timeoutReload (m : SmsMsg) :
    (trimText m).timeoutReload = m.timeoutReload := by
  unfold trimText
  split_ifs <;> rfl

@[simp] lemma smsLook_smsList (w : GsmWorld) (msg : ℕ) :
    (smsLook w msg).app.smsList = w.app.smsList := rfl

@[simp] lemma smsStart_smsList (w : GsmWorld) (msg : ℕ) :
    (smsStart w msg).app.smsList = w.app.smsList := rfl

lemma smsLook_heap (w : GsmWorld) (msg : ℕ) :
    (smsLook w msg).app.smsHeap msg = trimText (w.app.smsHeap msg) := by
  simp [smsLook]

/-- What an attempt makes of a message. -/
def tried (m : SmsMsg) : SmsMsg := { m with timeout := m.timeoutReload, tryNum := m.tryNum - 1 }

lemma smsStart_heap (w : GsmWorld) (msg : ℕ) :
    (smsStart w msg).app.smsHeap msg = tried (w.app.smsHeap msg) := by
  show Function.update w.app.smsHeap msg _ msg = _
  rw [Function.update_self]
  rfl

/-- A second look at a message finds nothing more to clear. -/
lemma smsLook_start_heap (w : GsmWorld) (msg : ℕ) :
    (smsLook (smsStart (smsLook w msg) msg) msg).app.smsHeap msg =
      tried ((smsLook w msg).app.smsHeap msg) := by
  rw [smsLook_heap, smsStart_heap, smsLook_heap]
  unfold trimText tried
  split_ifs <;> simp_all

lemma smsTaskBody_finish (hnext : listItemNext w.app.smsList msg = none)
    (hwaits : ((smsLook w msg).app.smsHeap msg).waits = false) :
    smsTaskBody msg w = (none, smsFinish (smsLook w msg) msg) := by
  have hnext' : listItemNext (smsLook w msg).app.smsList msg = none := hnext
  simp only [smsTaskBody, hwaits, Bool.false_eq_true, if_false, hnext']

lemma smsTaskBody_wait (hnext : listItemNext w.app.smsList msg = none)
    (hwaits : ((smsLook w msg).app.smsHeap msg).waits = true)
    (htime : ((smsLook w msg).app.smsHeap msg).timeout ≠ 0) :
    smsTaskBody msg w = (none, smsLook w msg) := by
  have hnext' : listItemNext (smsLook w msg).app.smsList msg = none := hnext
  simp only [smsTaskBody, hwaits, if_true, htime, if_false, hnext']

lemma smsTaskBody_start (hwaits : ((smsLook w msg).app.smsHeap msg).waits = true)
    (htime : ((smsLook w msg).app.smsHeap msg).timeout = 0) :
    smsTaskBody msg w = (some msg, smsStart (smsLook w msg) msg) := by
  simp only [smsTaskBody, hwaits, if_true, htime]

lemma sub_one_toNat_lt {n : UInt8} (h : n ≠ 0) : (n - 1).toNat < n.toNat := by
  have hpos : n.toNat ≠ 0 := fun hzero => h (UInt8.toNat_inj.mp hzero)
  rw [UInt8.toNat_sub_of_le]
  · exact Nat.sub_one_lt hpos
  · exact UInt8.le_iff_toNat_le.mpr (Nat.one_le_iff_ne_zero.mpr hpos)

lemma SmsMsg.waits_tried {m : SmsMsg} (hwaits : m.waits = true) (htry : m.tryNum ≠ 1) :
    (tried m).waits = true := by
  have htry' : m.tryNum - 1 ≠ 0 := fun h => htry (by grind)
  simp_all [SmsMsg.waits, tried]

/-- An attempt with a try left and time to wait: the loop looks once more and leaves. -/
lemma smsWalk_start (hnext : listItemNext w.app.smsList msg = none)
    (hwaits : ((smsLook w msg).app.smsHeap msg).waits = true)
    (htime : ((smsLook w msg).app.smsHeap msg).timeout = 0)
    (htry : ((smsLook w msg).app.smsHeap msg).tryNum ≠ 1)
    (hreload : ((smsLook w msg).app.smsHeap msg).timeoutReload ≠ 0) (rounds : ℕ) :
    smsWalk smsTaskBody (rounds + 2) (some msg) w =
      (none, smsLook (smsStart (smsLook w msg) msg) msg) := by
  show smsWalk smsTaskBody (rounds + 1) (smsTaskBody msg w).1 (smsTaskBody msg w).2 = _
  rw [smsTaskBody_start hwaits htime]
  have hheap := smsLook_start_heap w msg
  have hnext' : listItemNext (smsStart (smsLook w msg) msg).app.smsList msg = none := by
    rw [smsStart_smsList, smsLook_smsList, hnext]
  refine smsWalk_last (smsTaskBody_wait hnext' ?_ ?_) rounds
  · rw [hheap]
    exact SmsMsg.waits_tried hwaits htry
  · rw [hheap]
    exact hreload

lemma smsFinish_freed (w : GsmWorld) (msg : ℕ) :
    (smsFinish w msg).app.smsFreed msg = true ∧ (smsFinish w msg).loaded = w.loaded ∧
      (smsFinish w msg).phase = w.phase ∧ (smsFinish w msg).app.smsMsg = w.app.smsMsg := by
  unfold smsFinish
  dsimp only
  split_ifs <;> exact ⟨Function.update_self .., rfl, rfl, rfl⟩

/-- The descriptor and the message of a chain that was just started. -/
structure Started (msg : ℕ) (w : GsmWorld) : Prop where
  loaded_eq : w.loaded = some .smsSendCmdProcess0
  phase_eq : w.phase = .send
  smsMsg_eq : w.app.smsMsg = msg

lemma smsStart_started (w : GsmWorld) (msg : ℕ) : Started msg (smsStart w msg) := ⟨rfl, rfl, rfl⟩

/-- A message without a try, or without time to wait, is freed before the loop ends. -/
lemma smsWalk_frees (rounds : ℕ) :
    ∀ {w : GsmWorld}, Started msg w → listItemNext w.app.smsList msg = none →
      (w.app.smsHeap msg).tryNum.toNat < rounds →
      (w.app.smsHeap msg).tryNum = 0 ∨
        (w.app.smsHeap msg).timeout = 0 ∧ (w.app.smsHeap msg).timeoutReload = 0 →
      ∃ w', smsWalk smsTaskBody rounds (some msg) w = (none, w') ∧ Started msg w' ∧
        w'.app.smsFreed msg = true := by
  induction rounds with
  | zero => exact fun _ _ h _ => absurd h (Nat.not_lt_zero _)
  | succ rounds ih =>
      intro w hw hnext hrounds hlost
      have htrim : trimText (w.app.smsHeap msg) = (smsLook w msg).app.smsHeap msg :=
        (smsLook_heap w msg).symm
      have hfields : ((smsLook w msg).app.smsHeap msg).tryNum = (w.app.smsHeap msg).tryNum ∧
          ((smsLook w msg).app.smsHeap msg).timeout = (w.app.smsHeap msg).timeout ∧
          ((smsLook w msg).app.smsHeap msg).timeoutReload =
            (w.app.smsHeap msg).timeoutReload := by
        rw [← htrim]
        exact ⟨trimText_tryNum _, trimText_timeout _, trimText_timeoutReload _⟩
      cases hwaits : ((smsLook w msg).app.smsHeap msg).waits with
      | false =>
          refine ⟨_, smsWalk_last (smsTaskBody_finish hnext hwaits) rounds, ?_, ?_⟩
          · obtain ⟨-, hloaded, hphase, hmsg⟩ := smsFinish_freed (smsLook w msg) msg
            exact ⟨hloaded.trans hw.loaded_eq, hphase.trans hw.phase_eq, hmsg.trans hw.smsMsg_eq⟩
          · exact (smsFinish_freed _ msg).1
      | true =>
          have htry : (w.app.smsHeap msg).tryNum ≠ 0 := by
            rw [← hfields.1]
            simp only [SmsMsg.waits, Bool.and_eq_true, decide_eq_true_eq] at hwaits
            exact hwaits.2
          obtain ⟨htime, hreload⟩ := hlost.resolve_left htry
          have hheap := smsStart_heap (smsLook w msg) msg
          have hless := sub_one_toNat_lt htry
          show ∃ w', smsWalk smsTaskBody rounds (smsTaskBody msg w).1 (smsTaskBody msg w).2 = _ ∧ _
          rw [smsTaskBody_start hwaits (hfields.2.1.trans htime)]
          have hnext' : listItemNext (smsStart (smsLook w msg) msg).app.smsList msg = none := by
            rw [smsStart_smsList, smsLook_smsList, hnext]
          refine ih (smsStart_started _ msg) hnext' ?_ (Or.inr ?_)
          · rw [hheap]
            show (((smsLook w msg).app.smsHeap msg).tryNum - 1).toNat < rounds
            rw [hfields.1]
            omega
          · rw [hheap]
            exact ⟨hfields.2.2.trans hreload, hfields.2.2.trans hreload⟩

end Tail

end Ampm

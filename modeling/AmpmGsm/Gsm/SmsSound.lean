import AmpmGsm.Gsm.SmsQueue
import Mathlib.Data.List.Nodup

/-!
# The message being sent stays alive

`Ampm_SmsTask`, `Ampm_SmsTaskPeriodic_1Sec`, `Ampm_Sms_SendMsg` and `Ampm_Cmd_Task` agree on when
a message is done with as long as every attempt leaves the message a try and time to wait.  Without
either, the loop of `Ampm_SmsTask` frees the message that it has just begun to send.

* `SmsInput`, `smsStep` — the steps of the main task.
* `LeavesTry` — the condition.
* `SmsInv.finish`, `SmsInv.start`, `SmsInv.sendMsg`, `SmsInv.smsTask` — what the steps preserve.
* `sms_sound_iff` — the runs on which the message being sent stays alive.
-/

namespace Ampm

open Gates

/-! ## Runs of the main task -/

/-- Between two steps any variable may change but for the messages. -/
def keepMessages (s new : GsmState) : GsmState :=
  { new with
    smsHeap := s.smsHeap
    smsNext := s.smsNext
    smsFreed := s.smsFreed
    smsList := s.smsList
    smsMsg := s.smsMsg
    checkCnt := s.checkCnt }

/-- The steps of the main task that work on the messages; `osOk` is whether the wait for the mutex
ends with `osOK`. -/
inductive SmsInput
  | smsTask (osOk : Bool)
  | smsTaskPeriodic1Sec (osOk : Bool)
  | smsSendMsg (osOk : Bool) (args : SendMsgArgs)
  | cmdTask (app : GsmState)

/-- A step; the clock may have advanced before it. -/
def smsStep (other : GsmEndCb → CmdPhase → GsmWorld → UInt8 × GsmWorld) (w : GsmWorld)
    (i : SmsInput × (ℕ → UInt32)) : GsmWorld :=
  let w := w.own w.app i.2 []
  match i.1 with
  | .smsTask osOk => (smsTask w osOk).2
  | .smsTaskPeriodic1Sec osOk => (smsTaskPeriodic1Sec w osOk).2
  | .smsSendMsg osOk args => (smsSendMsg w osOk args).2
  | .cmdTask app => cmdTask (gsmCode other) (w.own (keepMessages w.app app) w.clock [])

/-- The message with which `Ampm_SmsTask` would start an attempt. -/
def smsDue (w : GsmWorld) (osOk : Bool) : Option ℕ :=
  if osOk ∧ cmdCheckIsEmpty w.cmdSend ∧ cmdTaskIsIdle w.phase ∧ w.app.checkCnt + 1 < 10 then
    (listTail w.app.smsList).filter fun m =>
      (trimText (w.app.smsHeap m)).waits && (w.app.smsHeap m).timeout = 0
  else none

/-- An attempt leaves the message a try and time to wait. -/
def LeavesTry (w : GsmWorld) (i : SmsInput × (ℕ → UInt32)) : Prop :=
  match i.1 with
  | .smsTask osOk =>
      ∀ m ∈ smsDue w osOk,
        (w.app.smsHeap m).tryNum ≠ 1 ∧ (w.app.smsHeap m).timeoutReload ≠ 0
  | _ => True

/-- Nothing is queued and the engine has nothing to do. -/
structure SmsStart (w : GsmWorld) : Prop where
  smsList_eq : w.app.smsList = []
  freed_eq : ∀ m, w.app.smsFreed m = false
  phase_eq : cmdTaskIsIdle w.phase = true
  next_eq : w.cmdSend.next = none
  cmdList_eq : w.cmdList = []
  hist_eq : w.hist = []

/-! ## The invariant and the queue -/

section Queue

variable {w w' : GsmWorld} {msg : ℕ}

/-- A step that the engine takes no part in. -/
structure SameEngine (w w' : GsmWorld) : Prop where
  loaded_eq : w'.loaded = w.loaded
  cmdSend_eq : w'.cmdSend = w.cmdSend
  phase_eq : w'.phase = w.phase
  cmdList_eq : w'.cmdList = w.cmdList

namespace SameEngine

lemma holds (h : SameEngine w w') {n : GsmCmd} (hholds : Holds n w) : Holds n w' :=
  ⟨h.loaded_eq.trans hholds.loaded_eq, by rw [h.cmdSend_eq]; exact hholds.cmdSend_eq⟩

lemma symm (h : SameEngine w w') : SameEngine w' w :=
  ⟨h.loaded_eq.symm, h.cmdSend_eq.symm, h.phase_eq.symm, h.cmdList_eq.symm⟩

lemma busy (h : SameEngine w w') (hbusy : Busy w) : Busy w' := by
  obtain ⟨n, hn, hholds, hrun⟩ := hbusy
  exact ⟨n, hn, h.holds hholds, by rw [h.phase_eq]; exact hrun⟩

lemma busy_iff (h : SameEngine w w') : Busy w' ↔ Busy w := ⟨h.symm.busy, h.busy⟩

lemma inChain (h : SameEngine w w') (hengine : InChain w) : InChain w' := by
  cases hengine with
  | free hphase hnext =>
      exact .free (by rw [h.phase_eq]; exact hphase) (by rw [h.cmdSend_eq]; exact hnext)
  | step n hn hholds => exact .step n hn (h.holds hholds)
  | last hholds => exact .last (h.holds hholds)

end SameEngine

/-- Other variables change, and so may what the messages do not wait for. -/
lemma SmsInv.edit (h : SmsInv w) (app : GsmState) (clock : ℕ → UInt32)
    (hlist : app.smsList = w.app.smsList) (hnext : app.smsNext = w.app.smsNext)
    (hfreed : app.smsFreed = w.app.smsFreed) (hmsg : app.smsMsg = w.app.smsMsg)
    (hcallback : ∀ m, (app.smsHeap m).callback = (w.app.smsHeap m).callback)
    (hwaits : Busy w → (app.smsHeap w.app.smsMsg).waits = (w.app.smsHeap w.app.smsMsg).waits) :
    SmsInv (w.own app clock []) := by
  have hsame : SameEngine w (w.own app clock []) := ⟨rfl, rfl, rfl, rfl⟩
  refine h.kept ⟨h.cmdList_eq, hsame.inChain h.engine, ⟨[], rfl, List.forall_mem_nil _, ?_⟩, hlist,
    hnext, hfreed, hmsg, hcallback, fun hbusy => ?_⟩
  · exact fun hbusy hnot => absurd (hsame.busy hbusy) hnot
  · exact ⟨hsame.symm.busy hbusy, hwaits (hsame.symm.busy hbusy)⟩

/-- What completing a message logs. -/
def finishEvents (msg : ℕ) (m : SmsMsg) : List GsmEvent :=
  (if m.flag = smsMsgSent ∧ m.status.isSome then [.statusOk msg] else []) ++
    if m.callback then [.completed msg] else []

lemma smsFinish_eq (w : GsmWorld) (msg : ℕ) :
    smsFinish w msg = w.own
      (({ w.app with smsList := listRemove w.app.smsList msg } : GsmState).free msg) w.clock
      (finishEvents msg (w.app.smsHeap msg)) := by
  unfold smsFinish finishEvents
  dsimp only
  split_ifs <;> rfl

lemma completions_finish (m msg : ℕ) (b : SmsMsg) (hist : List (CmdEvent gsmTypes)) :
    completions m ((finishEvents msg b).map (CmdEvent.app (S := gsmTypes)) ++ hist) =
      completions m hist + if b.callback ∧ msg = m then 1 else 0 := by
  unfold finishEvents
  split_ifs <;> simp_all [completions]

lemma wasQueued_finish (m msg : ℕ) (b : SmsMsg) (hist : List (CmdEvent gsmTypes)) :
    wasQueued m ((finishEvents msg b).map (CmdEvent.app (S := gsmTypes)) ++ hist) ↔
      wasQueued m hist := by
  unfold finishEvents wasQueued
  split_ifs <;> simp

lemma isOpen_finish (m msg : ℕ) (b : SmsMsg) (hist : List (CmdEvent gsmTypes)) :
    (outcomeGate m).isOpen ((finishEvents msg b).map (CmdEvent.app (S := gsmTypes)) ++ hist) =
      (outcomeGate m).isOpen hist := by
  refine Gate.isOpen_append_of_ignores (fun e he => ?_) hist
  obtain ⟨x, hx, rfl⟩ := List.mem_map.mp he
  unfold finishEvents at hx
  split_ifs at hx <;> simp at hx
  · rcases hx with rfl | rfl <;> exact ⟨rfl, rfl⟩
  · subst hx
    exact ⟨rfl, rfl⟩
  · subst hx
    exact ⟨rfl, rfl⟩

lemma known_finish {b : SmsMsg} {hist : List (CmdEvent gsmTypes)}
    (hknown : obeys doneLaw hist = true) (hopen : (outcomeGate msg).isOpen hist = true) :
    obeys doneLaw ((finishEvents msg b).map (CmdEvent.app (S := gsmTypes)) ++ hist) = true := by
  unfold finishEvents
  split_ifs <;> simp [obeys, doneLaw, hknown, hopen]

/-- **A message is completed, taken off the list and freed**, if it is not being sent. -/
theorem SmsInv.finish (h : SmsInv w) (hm : msg ∈ w.app.smsList)
    (hidle : ¬ (Busy w ∧ w.app.smsMsg = msg)) : SmsInv (smsFinish w msg) := by
  have hsame : SameEngine w (smsFinish w msg) := by
    rw [smsFinish_eq]
    exact ⟨rfl, rfl, rfl, rfl⟩
  have herase : ∀ {m}, m ∈ w.app.smsList.erase msg ↔ m ≠ msg ∧ m ∈ w.app.smsList :=
    h.nodup.mem_erase_iff
  have hother : ∀ {m}, m ≠ msg → (smsFinish w msg).app.smsFreed m = w.app.smsFreed m ∧
      completions m (smsFinish w msg).hist = completions m w.hist := by
    intro m hne
    rw [smsFinish_eq, CmdWorld.own_hist, completions_finish]
    refine ⟨Function.update_of_ne hne .., ?_⟩
    simp [Ne.symm hne]
  have hengine := hsame.inChain h.engine
  have hbusy := hsame.busy_iff
  refine ⟨hsame.cmdList_eq.trans h.cmdList_eq, hengine, ?_, ?_, ?_, ?_, ?_, ?_, ?_, ?_⟩
  · rw [smsFinish_eq]
    exact h.nodup.erase msg
  · intro m hmem
    rw [smsFinish_eq] at hmem ⊢
    exact h.fresh m (List.mem_of_mem_erase hmem)
  · intro m hle
    have hne : m ≠ msg := by
      rintro rfl
      rw [smsFinish_eq] at hle
      exact absurd (h.fresh m hm) (Nat.not_lt.mpr hle)
    rw [(hother hne).1, (hother hne).2]
    rw [smsFinish_eq] at hle ⊢
    rw [CmdWorld.own_hist, wasQueued_finish]
    exact h.unused m hle
  · intro m hmem
    rw [smsFinish_eq] at hmem
    obtain ⟨hne, hmem⟩ := herase.mp hmem
    rw [(hother hne).1, (hother hne).2]
    exact h.queued m hmem
  · intro m hqueued hnot
    by_cases hne : m = msg
    · subst hne
      rw [smsFinish_eq, CmdWorld.own_hist, completions_finish, (h.queued m hm).2]
      exact ⟨Function.update_self .., by simp [GsmState.free]⟩
    · rw [(hother hne).1, (hother hne).2]
      rw [smsFinish_eq] at hqueued hnot ⊢
      rw [CmdWorld.own_hist, wasQueued_finish] at hqueued
      exact h.done m hqueued fun hmem => hnot (herase.mpr ⟨hne, hmem⟩)
  · rw [smsFinish_eq]
    exact known_finish h.known ((h.outcome msg hm).resolve_right hidle)
  · intro hb
    obtain ⟨hmem, hwaits⟩ := h.busy (hbusy.mp hb)
    have hne : w.app.smsMsg ≠ msg := fun heq => hidle ⟨hbusy.mp hb, heq⟩
    rw [smsFinish_eq]
    exact ⟨herase.mpr ⟨hne, hmem⟩, hwaits⟩
  · intro m hmem
    rw [hbusy, smsFinish_eq, CmdWorld.own_hist, isOpen_finish]
    rw [smsFinish_eq] at hmem
    exact h.outcome m (List.mem_of_mem_erase hmem)

/-- **An attempt is started**, for a queued message that will still wait. -/
theorem SmsInv.start (h : SmsInv w) (hm : msg ∈ w.app.smsList) (hidle : ¬ Busy w)
    (hwaits : (tried (w.app.smsHeap msg)).waits = true) : SmsInv (smsStart w msg) := by
  have hheap := smsStart_heap w msg
  have hother : ∀ {m}, m ≠ msg → (smsStart w msg).app.smsHeap m = w.app.smsHeap m :=
    fun hne => Function.update_of_ne hne ..
  have hbusy : Busy (smsStart w msg) :=
    ⟨.smsSendCmdProcess0, by decide, ⟨rfl, rfl⟩, Or.inl rfl⟩
  have hhist : (smsStart w msg).hist =
      .load (some .smsSendCmdProcess0) :: .app (.attempt msg) :: w.hist := rfl
  have hcompl : ∀ m, completions m (smsStart w msg).hist = completions m w.hist := fun _ => rfl
  have hqueued : ∀ m, wasQueued m (smsStart w msg).hist ↔ wasQueued m w.hist := by
    intro m
    rw [hhist]
    simp [wasQueued]
  refine ⟨h.cmdList_eq, .step .smsSendCmdProcess0 (by decide) ⟨rfl, rfl⟩, h.nodup, h.fresh, ?_,
    h.queued, ?_, ?_, ?_, ?_⟩
  · intro m hle
    rw [hcompl, hqueued]
    exact h.unused m hle
  · intro m hmq hnot
    have hne : m ≠ msg := by
      rintro rfl
      exact hnot hm
    rw [hcompl, hother hne]
    exact h.done m ((hqueued m).mp hmq) hnot
  · rw [hhist, obeys_cons_of_none rfl, obeys_cons_of_none rfl]
    exact h.known
  · exact fun _ => ⟨hm, by rw [← hwaits, ← hheap]; rfl⟩
  · intro m hmem
    by_cases hne : m = msg
    · exact Or.inr ⟨hbusy, hne.symm⟩
    · have hopen := (h.outcome m hmem).resolve_right fun hb => hidle hb.1
      refine Or.inl ?_
      rw [hhist, Gate.isOpen_cons_of_ignores ⟨rfl, rfl⟩, Gate.isOpen_cons_of_ignores ⟨rfl, ?_⟩]
      · exact hopen
      · exact decide_eq_false (Ne.symm hne)

/-! ### Queueing -/

/-- The message is allocated. -/
lemma SmsInv.malloc (h : SmsInv w) (m : SmsMsg) : SmsInv (w.setApp (w.app.malloc m)) := by
  have hsame : SameEngine w (w.setApp (w.app.malloc m)) := ⟨rfl, rfl, rfl, rfl⟩
  have hne : ∀ {k}, k ∈ w.app.smsList → k ≠ w.app.smsNext := fun hk => (h.fresh _ hk).ne
  refine ⟨h.cmdList_eq, hsame.inChain h.engine, h.nodup, fun k hk => ?_, fun k hk => ?_, h.queued,
    fun k hk hnot => ?_, h.known, fun hb => ?_, fun k hk => ?_⟩
  · exact Nat.lt_succ_of_lt (h.fresh k hk)
  · exact h.unused k (Nat.le_of_succ_le hk)
  · have hkn : k ≠ w.app.smsNext := by
      rintro rfl
      exact (h.unused _ le_rfl).2.2 hk
    have hheap : (w.app.malloc m).smsHeap k = w.app.smsHeap k := Function.update_of_ne hkn ..
    obtain ⟨hfreed, hcompl⟩ := h.done k hk hnot
    refine ⟨hfreed, ?_⟩
    rw [CmdWorld.setApp_app, hheap]
    exact hcompl
  · obtain ⟨hmem, hwaits⟩ := h.busy (hsame.busy_iff.mp hb)
    refine ⟨hmem, ?_⟩
    have hheap : (w.app.malloc m).smsHeap w.app.smsMsg = w.app.smsHeap w.app.smsMsg :=
      Function.update_of_ne (hne hmem) ..
    rw [← hwaits, ← hheap]
    rfl
  · exact (h.outcome k hk).imp id fun hb => ⟨hsame.busy hb.1, hb.2⟩

/-- A block that was never queued. -/
structure Unqueued (w : GsmWorld) (msg : ℕ) : Prop where
  fresh : msg < w.app.smsNext
  unlisted : msg ∉ w.app.smsList
  alive : w.app.smsFreed msg = false ∧ completions msg w.hist = 0
  unqueued : ¬ wasQueued msg w.hist

/-- It may be freed. -/
lemma SmsInv.free (h : SmsInv w) (hmsg : Unqueued w msg) : SmsInv (w.setApp (w.app.free msg)) := by
  have hsame : SameEngine w (w.setApp (w.app.free msg)) := ⟨rfl, rfl, rfl, rfl⟩
  have hother : ∀ {m}, m ≠ msg → (w.app.free msg).smsFreed m = w.app.smsFreed m :=
    fun hne => Function.update_of_ne hne ..
  refine ⟨h.cmdList_eq, hsame.inChain h.engine, h.nodup, h.fresh, fun m hle => ?_, fun m hmem => ?_,
    fun m hqueued hnot => ?_, h.known, fun hb => h.busy (hsame.busy_iff.mp hb), fun m hmem => ?_⟩
  · have hne : m ≠ msg := by
      rintro rfl
      exact absurd hmsg.fresh (Nat.not_lt.mpr hle)
    rw [CmdWorld.setApp_app, hother hne]
    exact h.unused m hle
  · have hne : m ≠ msg := by
      rintro rfl
      exact hmsg.unlisted hmem
    rw [CmdWorld.setApp_app, hother hne]
    exact h.queued m hmem
  · have hne : m ≠ msg := by
      rintro rfl
      exact hmsg.unqueued hqueued
    rw [CmdWorld.setApp_app, hother hne]
    exact h.done m hqueued hnot
  · exact (h.outcome m hmem).imp id fun hb => ⟨hsame.busy hb.1, hb.2⟩

/-- It may be queued. -/
lemma SmsInv.add (h : SmsInv w) (hmsg : Unqueued w msg) : SmsInv (smsListAdd w msg) := by
  have hsame : SameEngine w (smsListAdd w msg) := ⟨rfl, rfl, rfl, rfl⟩
  have hlist : (smsListAdd w msg).app.smsList = w.app.smsList ++ [msg] := by
    show w.app.smsList.erase msg ++ [msg] = _
    rw [List.erase_of_not_mem hmsg.unlisted]
  have hhist : (smsListAdd w msg).hist = .app (.queued msg) :: w.hist := rfl
  have hcompl : ∀ m, completions m (smsListAdd w msg).hist = completions m w.hist := fun _ => rfl
  have hqueued : ∀ m, wasQueued m (smsListAdd w msg).hist ↔ m = msg ∨ wasQueued m w.hist := by
    intro m
    rw [hhist]
    simp [wasQueued]
  refine ⟨h.cmdList_eq, hsame.inChain h.engine, ?_, ?_, ?_, ?_, ?_, ?_, ?_, ?_⟩
  · rw [hlist]
    refine List.nodup_append.mpr ⟨h.nodup, List.nodup_singleton msg, fun x hx y hy => ?_⟩
    rw [List.mem_singleton.mp hy]
    exact ne_of_mem_of_not_mem hx hmsg.unlisted
  · intro m hmem
    rw [hlist] at hmem
    rcases List.mem_append.mp hmem with hmem | hmem
    · exact h.fresh m hmem
    · rw [List.mem_singleton.mp hmem]
      exact hmsg.fresh
  · intro m hle
    have hne : m ≠ msg := by
      rintro rfl
      exact absurd hmsg.fresh (Nat.not_lt.mpr hle)
    rw [hcompl, hqueued]
    obtain ⟨hfreed, hc, hnot⟩ := h.unused m hle
    exact ⟨hfreed, hc, not_or.mpr ⟨hne, hnot⟩⟩
  · intro m hmem
    rw [hlist] at hmem
    rcases List.mem_append.mp hmem with hmem | hmem
    · exact h.queued m hmem
    · rw [List.mem_singleton.mp hmem]
      exact hmsg.alive
  · intro m hmq hnot
    rw [hlist] at hnot
    have hne : m ≠ msg := by
      rintro rfl
      exact hnot (List.mem_append_right _ (List.mem_singleton_self _))
    exact h.done m (((hqueued m).mp hmq).resolve_left hne)
      fun hmem => hnot (List.mem_append_left _ hmem)
  · rw [hhist, obeys_cons_of_none rfl]
    exact h.known
  · intro hb
    obtain ⟨hmem, hwaits⟩ := h.busy (hsame.busy_iff.mp hb)
    refine ⟨?_, hwaits⟩
    rw [hlist]
    exact List.mem_append_left _ hmem
  · intro m hmem
    rw [hlist] at hmem
    rw [hhist, hsame.busy_iff]
    rcases List.mem_append.mp hmem with hmem | hmem
    · have hne : m ≠ msg := ne_of_mem_of_not_mem hmem hmsg.unlisted
      rw [Gate.isOpen_cons_of_ignores ⟨decide_eq_false (Ne.symm hne), rfl⟩]
      exact h.outcome m hmem
    · rw [List.mem_singleton.mp hmem]
      exact Or.inl (Gate.isOpen_cons_of_opens (decide_eq_true rfl) _)

/-- **`Ampm_Sms_SendMsg`.** -/
theorem SmsInv.sendMsg (h : SmsInv w) (osOk : Bool) (args : SendMsgArgs) :
    SmsInv (smsSendMsg w osOk args).2 := by
  have halloc := h.malloc (newMsg args)
  obtain ⟨hfreed, hcompl, hnot⟩ := h.unused w.app.smsNext le_rfl
  have hnew : Unqueued (w.setApp (w.app.malloc (newMsg args))) w.app.smsNext :=
    ⟨Nat.lt_succ_self _, fun hmem => absurd (h.fresh _ hmem) (lt_irrefl _), ⟨hfreed, hcompl⟩, hnot⟩
  unfold smsSendMsg
  dsimp only
  split_ifs
  · exact halloc.free hnew
  · cases osOk with
    | false => exact halloc
    | true => exact halloc.add hnew
  · exact halloc.free hnew

/-! ### The two tasks -/

/-- A message changes, but not in what decides whether it waits while it is being sent. -/
lemma SmsInv.setMsg (h : SmsInv w) {m : SmsMsg}
    (hcallback : m.callback = (w.app.smsHeap msg).callback)
    (hwaits : Busy w → w.app.smsMsg = msg → m.waits = (w.app.smsHeap msg).waits) :
    SmsInv (w.setApp (w.app.setMsg msg m)) := by
  refine h.edit _ w.clock rfl rfl rfl rfl (fun k => ?_) fun hbusy => ?_
  · by_cases hk : k = msg
    · rw [hk, GsmState.setMsg_smsHeap, Function.update_self]
      exact hcallback
    · rw [GsmState.setMsg_smsHeap, Function.update_of_ne hk]
  · by_cases hk : w.app.smsMsg = msg
    · rw [hk, GsmState.setMsg_smsHeap, Function.update_self]
      exact hwaits hbusy hk
    · rw [GsmState.setMsg_smsHeap, Function.update_of_ne hk]

lemma SmsInv.check (h : SmsInv w) (cnt : UInt8) :
    SmsInv (w.setApp { w.app with checkCnt := cnt }) :=
  h.edit _ w.clock rfl rfl rfl rfl (fun _ => rfl) fun _ => rfl

/-- `Ampm_SmsTask` looks at a message. -/
lemma SmsInv.look (h : SmsInv w) (hwaits : Busy w → w.app.smsMsg = msg →
    (trimText (w.app.smsHeap msg)).waits = (w.app.smsHeap msg).waits) : SmsInv (smsLook w msg) := by
  have hset : SmsInv (w.setApp (w.app.setMsg msg (trimText (w.app.smsHeap msg)))) := by
    refine h.setMsg ?_ hwaits
    unfold trimText
    split_ifs <;> rfl
  exact hset.check 0

/-- `++checkCnt`. -/
def counted (w : GsmWorld) : GsmWorld := w.setApp { w.app with checkCnt := w.app.checkCnt + 1 }

/-- What `Ampm_SmsTask` does: at most it counts, or it walks from the tail of the list. -/
inductive SmsTaskStep (w : GsmWorld) (osOk : Bool) : GsmWorld → Prop
  | nothing (hdue : smsDue w osOk = none) : SmsTaskStep w osOk w
  | counts (cnt : UInt8) (hdue : smsDue w osOk = none) :
      SmsTaskStep w osOk (w.setApp { w.app with checkCnt := cnt })
  | walks (msg rounds : ℕ) (hidle : cmdTaskIsIdle w.phase = true) (hnext : w.cmdSend.next = none)
      (htail : listTail w.app.smsList = some msg) (hrounds : 256 ≤ rounds)
      (hdue : smsDue w osOk = (some msg).filter fun m =>
        (trimText (w.app.smsHeap m)).waits && (w.app.smsHeap m).timeout = 0) :
      SmsTaskStep w osOk (smsWalk smsTaskBody (rounds + 1) (some msg) (counted w)).2

lemma smsTask_step (w : GsmWorld) (osOk : Bool) : SmsTaskStep w osOk (smsTask w osOk).2 := by
  unfold smsTask
  split_ifs with hfree hos
  · dsimp only
    split_ifs with hcnt hlen
    · exact .counts 0 (if_neg fun h => absurd hcnt (UInt8.not_le.mpr h.2.2.2))
    · obtain ⟨hempty, hidle⟩ := hfree
      have hne : w.app.smsList ≠ [] := fun h => hlen (congrArg List.length h)
      have htail : listTail w.app.smsList = some (w.app.smsList.getLast hne) :=
        List.getLast?_eq_getLast_of_ne_nil hne
      have hrounds : smsRounds w.app = smsRounds w.app - 1 + 1 := by
        unfold smsRounds
        omega
      show SmsTaskStep w osOk (smsWalk smsTaskBody (smsRounds w.app) (listTail w.app.smsList) _).2
      rw [htail, hrounds]
      refine .walks _ _ hidle (Option.isNone_iff_eq_none.mp hempty) htail ?_ ?_
      · unfold smsRounds
        omega
      · rw [smsDue, if_pos ⟨hos, hempty, hidle, UInt8.not_le.mp hcnt⟩, htail]
    · refine .counts _ ?_
      have hnil : w.app.smsList = [] := List.length_eq_zero_iff.mp (not_not.mp hlen)
      rw [smsDue, hnil]
      split_ifs <;> rfl
  · exact .nothing (if_neg fun h => hos h.1)
  · exact .nothing (if_neg fun h => hfree ⟨h.2.1, h.2.2.1⟩)

/-- **`Ampm_SmsTask`**, if an attempt leaves the message a try and time to wait. -/
theorem SmsInv.smsTask (h : SmsInv w) {osOk : Bool}
    (hleaves : ∀ m ∈ smsDue w osOk,
      (w.app.smsHeap m).tryNum ≠ 1 ∧ (w.app.smsHeap m).timeoutReload ≠ 0) :
    SmsInv (smsTask w osOk).2 := by
  have hstep := smsTask_step w osOk
  generalize (Ampm.smsTask w osOk).2 = w' at hstep
  cases hstep with
  | nothing hdue => exact h
  | counts cnt hdue => exact h.check cnt
  | walks msg rounds hidle hnext htail hrounds hdue =>
      have hcounted : SmsInv (counted w) := h.check _
      have hfree : ¬ Busy (counted w) := not_busy_free hidle hnext
      have hlook : SmsInv (smsLook (counted w) msg) := hcounted.look fun hb => absurd hb hfree
      have hmem : msg ∈ w.app.smsList := List.mem_of_getLast? htail
      have hlast : listItemNext (counted w).app.smsList msg = none :=
        listItemNext_tail h.nodup htail
      have hlookfree : ¬ Busy (smsLook (counted w) msg) := not_busy_free hidle hnext
      have hheap : (smsLook (counted w) msg).app.smsHeap msg = trimText (w.app.smsHeap msg) :=
        smsLook_heap (counted w) msg
      cases hwaits : ((smsLook (counted w) msg).app.smsHeap msg).waits with
      | false =>
          rw [smsWalk_last (smsTaskBody_finish hlast hwaits)]
          exact hlook.finish hmem fun hb => hlookfree hb.1
      | true =>
          by_cases htime : ((smsLook (counted w) msg).app.smsHeap msg).timeout = 0
          · have hmsg : smsDue w osOk = some msg := by
              rw [hheap] at hwaits htime
              rw [hdue, Option.filter_some, if_pos]
              simpa [hwaits] using htime
            obtain ⟨htry, hreload⟩ := hleaves msg hmsg
            have htry' : ((smsLook (counted w) msg).app.smsHeap msg).tryNum ≠ 1 := by
              rw [hheap, trimText_tryNum]
              exact htry
            obtain ⟨k, rfl⟩ : ∃ k, rounds = k + 1 := ⟨rounds - 1, by omega⟩
            rw [smsWalk_start hlast hwaits htime htry' ?_]
            · have hstart := hlook.start hmem hlookfree (SmsMsg.waits_tried hwaits htry')
              refine hstart.look fun _ _ => ?_
              rw [← smsLook_heap, smsLook_start_heap, smsStart_heap]
            · rw [hheap, trimText_timeoutReload]
              exact hreload
          · rw [smsWalk_last (smsTaskBody_wait hlast hwaits htime)]
            exact hlook

/-- A second has passed. -/
def aged (m : SmsMsg) : SmsMsg := { m with timeout := m.timeout - 1 }

/-- **`Ampm_SmsTaskPeriodic_1Sec`.** -/
theorem SmsInv.periodic (h : SmsInv w) (osOk : Bool) :
    SmsInv (smsTaskPeriodic1Sec w osOk).2 := by
  unfold smsTaskPeriodic1Sec
  split_ifs with hos hlen
  · exact h
  rotate_left
  · exact h
  have hne : w.app.smsList ≠ [] := fun hnil => hlen (congrArg List.length hnil)
  have htail : listTail w.app.smsList = some (w.app.smsList.getLast hne) :=
    List.getLast?_eq_getLast_of_ne_nil hne
  generalize w.app.smsList.getLast hne = msg at htail
  have hmem : msg ∈ w.app.smsList := List.mem_of_getLast? htail
  have hlast : listItemNext w.app.smsList msg = none := listItemNext_tail h.nodup htail
  have hrounds : smsRounds w.app = smsRounds w.app - 1 + 1 := by
    unfold smsRounds
    omega
  rw [htail, hrounds]
  cases hwaits : (w.app.smsHeap msg).waits with
  | false =>
      have hbody : smsPeriodicBody msg (0, w) = (none, 0, smsFinish w msg) := by
        simp only [smsPeriodicBody, hwaits, Bool.false_eq_true, if_false, hlast]
      rw [smsWalk_last hbody]
      refine h.finish hmem fun hb => ?_
      obtain ⟨-, hwaits'⟩ := h.busy hb.1
      rw [hb.2, hwaits] at hwaits'
      exact Bool.false_ne_true hwaits'
  | true =>
      by_cases htime : (w.app.smsHeap msg).timeout = 0
      · have hbody : smsPeriodicBody msg (0, w) = (none, 1, w) := by
          simp only [smsPeriodicBody, hwaits, if_true, htime, ne_eq, not_true_eq_false, if_false,
            hlast]
        rw [smsWalk_last hbody]
        exact h
      · have hbody : smsPeriodicBody msg (0, w) =
            (none, 0, w.setApp (w.app.setMsg msg (aged (w.app.smsHeap msg)))) := by
          simp only [smsPeriodicBody, hwaits, if_true, htime, ne_eq, not_false_eq_true, hlast, aged]
        rw [smsWalk_last hbody]
        exact h.setMsg rfl fun _ _ => rfl

end Queue

/-! ## Runs -/

section Runs

variable {other : GsmEndCb → CmdPhase → GsmWorld → UInt8 × GsmWorld} {w : GsmWorld}

theorem SmsInv.sound (h : SmsInv w) : SmsSound w := by
  refine ⟨?_, h.queued, h.done, h.known⟩
  rintro ⟨n, hn, hloaded, hphase⟩
  have hbusy : Busy w := by
    cases h.engine with
    | free hidle hnext => exact absurd (hphase.symm.trans hidle) Bool.false_ne_true
    | step m hm hholds => exact ⟨m, hm, hholds, Or.inl hphase⟩
    | last hholds =>
        exact absurd (Option.some.inj (hloaded.symm.trans hholds.loaded_eq)) (smsSteps_ne_end hn)
  obtain ⟨hmem, -⟩ := h.busy hbusy
  exact ⟨hmem, (h.queued _ hmem).1⟩

lemma SmsStart.inv (h : SmsStart w) : SmsInv w where
  cmdList_eq := h.cmdList_eq
  engine := .free h.phase_eq h.next_eq
  nodup := by rw [h.smsList_eq]; exact List.nodup_nil
  fresh := by rw [h.smsList_eq]; exact List.forall_mem_nil _
  unused := fun m _ => by
    rw [h.hist_eq]
    exact ⟨h.freed_eq m, rfl, List.not_mem_nil⟩
  queued := by rw [h.smsList_eq]; exact List.forall_mem_nil _
  done := fun m hm _ => by
    rw [h.hist_eq] at hm
    exact absurd hm List.not_mem_nil
  known := by rw [h.hist_eq]; rfl
  busy := fun hb => absurd hb (not_busy_free h.phase_eq h.next_eq)
  outcome := by rw [h.smsList_eq]; exact List.forall_mem_nil _

/-- One step. -/
theorem smsStep_inv (h : SmsInv w) (i : SmsInput × (ℕ → UInt32)) (hi : LeavesTry w i) :
    SmsInv (smsStep other w i) := by
  obtain ⟨input, clock⟩ := i
  have hclock : SmsInv (w.own w.app clock []) :=
    h.edit w.app clock rfl rfl rfl rfl (fun _ => rfl) fun _ => rfl
  cases input with
  | smsTask osOk => exact hclock.smsTask hi
  | smsTaskPeriodic1Sec osOk => exact hclock.periodic osOk
  | smsSendMsg osOk args => exact hclock.sendMsg osOk args
  | cmdTask app =>
      have hbetween := hclock.edit (keepMessages w.app app) clock rfl rfl rfl rfl
        (fun _ => rfl) fun _ => rfl
      exact hbetween.kept (cmdTask_queueKept hbetween.cmdList_eq hbetween.engine)

/-- `Ampm_SmsTask` starts an attempt that leaves no try, or no time to wait: the message is freed
while it is being sent. -/
lemma smsTask_frees {osOk : Bool} {m : ℕ} (h : SmsInv w) (hm : m ∈ smsDue w osOk)
    (hlost : ¬ ((w.app.smsHeap m).tryNum ≠ 1 ∧ (w.app.smsHeap m).timeoutReload ≠ 0)) :
    ∃ msg, Started msg (smsTask w osOk).2 ∧ (smsTask w osOk).2.app.smsFreed msg = true := by
  have hstep := smsTask_step w osOk
  generalize (smsTask w osOk).2 = w' at hstep
  cases hstep with
  | nothing hdue =>
      rw [hdue] at hm
      exact absurd hm (Option.not_mem_none m)
  | counts cnt hdue =>
      rw [hdue] at hm
      exact absurd hm (Option.not_mem_none m)
  | walks msg rounds hidle hnext htail hrounds hdue =>
      obtain ⟨rfl, hwaits⟩ : m = msg ∧
          ((trimText (w.app.smsHeap m)).waits && (w.app.smsHeap m).timeout = 0) = true := by
        rw [hdue] at hm
        obtain ⟨heq, hfilter⟩ := Option.mem_filter_iff.mp hm
        exact ⟨(Option.some.inj heq).symm, hfilter⟩
      obtain ⟨hwaits, htime⟩ := Bool.and_eq_true_iff.mp hwaits
      have hheap : (smsLook (counted w) m).app.smsHeap m = trimText (w.app.smsHeap m) :=
        smsLook_heap (counted w) m
      have hstart := smsStart_heap (smsLook (counted w) m) m
      rw [hheap] at hstart
      have hlast : listItemNext (smsStart (smsLook (counted w) m) m).app.smsList m = none := by
        rw [smsStart_smsList, smsLook_smsList]
        exact listItemNext_tail h.nodup htail
      have hgone : ((smsStart (smsLook (counted w) m) m).app.smsHeap m).tryNum = 0 ∨
          ((smsStart (smsLook (counted w) m) m).app.smsHeap m).timeout = 0 ∧
          ((smsStart (smsLook (counted w) m) m).app.smsHeap m).timeoutReload = 0 := by
        rw [hstart]
        simp only [tried, trimText_tryNum, trimText_timeoutReload]
        by_cases htry : (w.app.smsHeap m).tryNum = 1
        · exact Or.inl (by rw [htry]; decide)
        · have hreload := not_not.mp fun hne => hlost ⟨htry, hne⟩
          exact Or.inr ⟨hreload, hreload⟩
      have hfew := UInt8.toNat_lt ((smsStart (smsLook (counted w) m) m).app.smsHeap m).tryNum
      obtain ⟨w', heq, hstarted, hfreed⟩ := smsWalk_frees rounds
        (smsStart_started (smsLook (counted w) m) m) hlast (by omega) hgone
      have hwalk : smsWalk smsTaskBody (rounds + 1) (some m) (counted w) = (none, w') := by
        show smsWalk smsTaskBody rounds (smsTaskBody m (counted w)).1
          (smsTaskBody m (counted w)).2 = _
        rw [smsTaskBody_start]
        · exact heq
        · rw [hheap]
          exact hwaits
        · rw [hheap, trimText_timeout]
          exact of_decide_eq_true htime
      rw [hwalk]
      exact ⟨m, hstarted, hfreed⟩

lemma Started.not_sound {msg : ℕ} (h : Started msg w) (hfreed : w.app.smsFreed msg = true) :
    ¬ SmsSound w := by
  intro hsound
  have hsending : Sending w :=
    ⟨.smsSendCmdProcess0, by decide, h.loaded_eq, by rw [h.phase_eq]; rfl⟩
  have hfree := (hsound.alive hsending).2
  rw [h.smsMsg_eq, hfreed] at hfree
  exact Bool.false_ne_true hfree.symm

theorem smsStep_not_sound (h : SmsInv w) (i : SmsInput × (ℕ → UInt32)) (hi : ¬ LeavesTry w i) :
    ¬ SmsSound (smsStep other w i) := by
  obtain ⟨input, clock⟩ := i
  cases input with
  | smsTask osOk =>
      obtain ⟨m, hm, hlost⟩ : ∃ m ∈ smsDue w osOk, ¬ ((w.app.smsHeap m).tryNum ≠ 1 ∧
          (w.app.smsHeap m).timeoutReload ≠ 0) := by
        by_contra hall
        refine hi fun m hm => ?_
        by_contra hlost
        exact hall ⟨m, hm, hlost⟩
      have hclock : SmsInv (w.own w.app clock []) :=
        h.edit w.app clock rfl rfl rfl rfl (fun _ => rfl) fun _ => rfl
      obtain ⟨msg, hstarted, hfreed⟩ := smsTask_frees hclock hm hlost
      exact hstarted.not_sound hfreed
  | smsTaskPeriodic1Sec osOk => exact absurd trivial hi
  | smsSendMsg osOk args => exact absurd trivial hi
  | cmdTask app => exact absurd trivial hi

/-- **The message being sent stays alive.**  From an empty queue, whatever messages are queued, in
whatever order the tasks run and whatever the modem answers, the messages are sound in every state
of a run just if every attempt that `Ampm_SmsTask` starts leaves its message a try and time to
wait. -/
theorem sms_sound_iff (other : GsmEndCb → CmdPhase → GsmWorld → UInt8 × GsmWorld) (w₀ : GsmWorld)
    (hw₀ : SmsStart w₀) (is : List (SmsInput × (ℕ → UInt32))) :
    Runs.Throughout (smsStep other) SmsSound w₀ is ↔
      Runs.StepsMeet (smsStep other) LeavesTry w₀ is :=
  Runs.throughout_iff_stepsMeet (I := SmsInv) (fun _ h => h.sound)
    (fun _ i h hi => smsStep_inv h i hi) (fun _ i h hi => smsStep_not_sound h i hi) hw₀.inv

end Runs

/-! ### The last permitted try -/

/-- A text message with the given number of tries, to be tried again after a minute. -/
def textArgs (tryNum : UInt8) : SendMsgArgs :=
  { status := none, callback := true, phone := some [48, 57, 55], msg := [65, 84, 72], len := 3
    mode := .text, timeout := 60, tryNum := tryNum }

/-- Nothing has happened yet. -/
def smsStart₀ : GsmWorld := engineAt .smsSendCmdProcessEnd .ok gsmReset

/-- The message is queued and `Ampm_SmsTask` runs. -/
def sendOne (tryNum : UInt8) : List (SmsInput × (ℕ → UInt32)) :=
  [(.smsSendMsg true (textArgs tryNum), fun _ => 0), (.smsTask true, fun _ => 0)]

/-- The hypothesis is met at reset. -/
theorem sms_sound_iff_reset :
    Runs.Throughout (smsStep idleOther) SmsSound smsStart₀ (sendOne 3) ↔
      Runs.StepsMeet (smsStep idleOther) LeavesTry smsStart₀ (sendOne 3) :=
  sms_sound_iff idleOther smsStart₀ ⟨rfl, fun _ => rfl, rfl, rfl, rfl, rfl⟩ (sendOne 3)

/-- A message with one try is completed and freed by the call of `Ampm_SmsTask` that begins to send
it. -/
theorem sms_freed_while_sending :
    ¬ ∀ (other : GsmEndCb → CmdPhase → GsmWorld → UInt8 × GsmWorld) (w₀ : GsmWorld),
      SmsStart w₀ → ∀ is, Runs.Throughout (smsStep other) SmsSound w₀ is := by
  intro h
  have hrun := h idleOther smsStart₀ ⟨rfl, fun _ => rfl, rfl, rfl, rfl, rfl⟩ (sendOne 1)
  have hsending : Sending (Runs.run (smsStep idleOther) smsStart₀ (sendOne 1)) :=
    ⟨.smsSendCmdProcess0, by decide, rfl, rfl⟩
  exact absurd (hrun.last.alive hsending).2 (by decide)

end Ampm

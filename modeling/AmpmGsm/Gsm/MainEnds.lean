import AmpmGsm.Lib.Fuel
import AmpmGsm.Gsm.MainBranches
import Mathlib.Data.List.TakeWhile

/-!
# Whether an iteration ends

The loops of an iteration are those over the lists of messages and calls, and the one of
`Ampm_Gsm_Error`, which is entered when ten attempts to send a message have failed.  The former
always end; the latter never does.

* `Ends`, `AllEnd` — an iteration ends; every iteration of a run does.
* `smsWalk_ends` — a loop over a list whose rounds descend.
* `smsTaskWithin_settles`, `callTask_settles`, … — the loops over the lists.
* **`allEnd_iff`** — the runs whose iterations all end.
* `allEnd_refusals` — a run that does not, with a modem that sends no message.
-/

namespace Ampm

open Fuel Runs

/-! ## The property -/

/-- An iteration from `w` ends: with enough passes allowed for its loops, there is a result. -/
def Ends (i : MainInput) (w : GsmWorld) : Prop :=
  Settles fun rounds => mainTask { i with rounds := rounds } w

/-- Every iteration of the run ends. -/
def AllEnd (start : GsmWorld) (is : List MainInput) : Prop :=
  StepsMeet mainStep (fun w i => Ends i (w.outside i.outside)) start is

/-! ## The loops over the lists -/

/-- A loop whose rounds keep `P` and descend in `m`. -/
lemma smsWalk_ends {σ : Type} {body : ℕ → σ → Option ℕ × σ} {P : ℕ → σ → Prop}
    {m : ℕ → σ → ℕ}
    (hbody : ∀ {item s item'}, P item s → (body item s).1 = some item' →
      P item' (body item s).2 ∧ m item' (body item s).2 < m item s) :
    ∀ (bound : ℕ) {item : ℕ} {s : σ}, P item s → m item s < bound →
      ∃ s', ∀ rounds ≥ bound, smsWalk body rounds (some item) s = (none, s') := by
  intro bound
  induction bound with
  | zero => exact fun _ h => absurd h (Nat.not_lt_zero _)
  | succ bound ih =>
      intro item s hP hsize
      have hstep : ∀ rounds ≥ bound + 1, smsWalk body rounds (some item) s =
          smsWalk body (rounds - 1) (body item s).1 (body item s).2 := by
        intro rounds hrounds
        obtain ⟨rounds, rfl⟩ : ∃ n, rounds = n + 1 := ⟨rounds - 1, by omega⟩
        rfl
      cases hnext : (body item s).1 with
      | none =>
          refine ⟨(body item s).2, fun rounds hrounds => ?_⟩
          rw [hstep rounds hrounds, hnext, smsWalk_none]
      | some item' =>
          obtain ⟨hP', hless⟩ := hbody hP hnext
          obtain ⟨s', hs'⟩ := ih hP' (by omega)
          refine ⟨s', fun rounds hrounds => ?_⟩
          rw [hstep rounds hrounds, hnext]
          exact hs' _ (by omega)

/-- The loop of `Ampm_SmsTask` stays with a message as long as it has tries. -/
lemma smsTaskBody_descends {msg msg' : ℕ} {w : GsmWorld}
    (hlast : listItemNext w.app.smsList msg = none) (hnext : (smsTaskBody msg w).1 = some msg') :
    listItemNext (smsTaskBody msg w).2.app.smsList msg' = none ∧
      ((smsTaskBody msg w).2.app.smsHeap msg').tryNum.toNat < (w.app.smsHeap msg).tryNum.toNat := by
  have hlook : ((smsLook w msg).app.smsHeap msg).tryNum = (w.app.smsHeap msg).tryNum := by
    rw [smsLook_heap, trimText_tryNum]
  cases hwaits : ((smsLook w msg).app.smsHeap msg).waits with
  | false =>
      rw [smsTaskBody_finish hlast hwaits] at hnext
      cases hnext
  | true =>
      by_cases htime : ((smsLook w msg).app.smsHeap msg).timeout = 0
      · rw [smsTaskBody_start hwaits htime] at hnext ⊢
        obtain rfl : msg = msg' := Option.some_inj.mp hnext
        refine ⟨by rw [smsStart_smsList, smsLook_smsList, hlast], ?_⟩
        have htry : (w.app.smsHeap msg).tryNum ≠ 0 := by
          rw [← hlook]
          simp only [SmsMsg.waits, Bool.and_eq_true, decide_eq_true_eq] at hwaits
          exact hwaits.2
        rw [smsStart_heap]
        show (((smsLook w msg).app.smsHeap msg).tryNum - 1).toNat < _
        rw [hlook]
        exact sub_one_toNat_lt htry
      · rw [smsTaskBody_wait hlast hwaits htime] at hnext
        cases hnext

/-- The loop of `Ampm_SmsTaskPeriodic_1Sec` ends after the last message, with which it starts. -/
lemma smsPeriodicBody_last {msg : ℕ} {r : UInt8 × GsmWorld}
    (hlast : listItemNext r.2.app.smsList msg = none) : (smsPeriodicBody msg r).1 = none := by
  unfold smsPeriodicBody
  dsimp only
  split_ifs <;> exact hlast

/-- What follows a call is closer to the end of the list. -/
lemma listItemNext_descends {list : List ℕ} {item item' : ℕ} (hnodup : list.Nodup)
    (hnext : listItemNext list item = some item') :
    (list.dropWhile fun x => x ≠ item').length < (list.dropWhile fun x => x ≠ item).length := by
  induction list with
  | nil => exact absurd hnext nofun
  | cons x rest ih =>
      obtain ⟨hnot, hrest⟩ := List.nodup_cons.mp hnodup
      by_cases hx : x = item
      · subst hx
        have hhead : rest.head? = some item' := by simpa [listItemNext] using hnext
        obtain ⟨rest', rfl⟩ := List.head?_eq_some_iff.mp hhead
        have hne : x ≠ item' := fun heq => hnot (heq ▸ List.mem_cons_self)
        simp [hne]
      · have hskip : listItemNext rest item = some item' := by simpa [listItemNext, hx] using hnext
        have hmem : item' ∈ rest := by
          have hsuffix := (List.dropWhile_suffix (l := rest) fun x => decide (x ≠ item)).subset
          exact hsuffix (List.mem_of_mem_tail (List.mem_of_mem_head? hskip))
        have hne : x ≠ item' := fun heq => hnot (heq ▸ hmem)
        simpa [hx, hne] using ih hrest hskip

/-- Nothing follows what is not on the list. -/
lemma listItemNext_of_not_mem {list : List ℕ} {item : ℕ} (h : item ∉ list) :
    listItemNext list item = none := by
  have hall : ∀ x ∈ list, decide (x ≠ item) = true :=
    fun x hx => decide_eq_true fun heq => h (heq ▸ hx)
  have hnil : (list.dropWhile fun x => x ≠ item) = [] := List.dropWhile_eq_nil_iff.mpr hall
  rw [listItemNext, hnil]
  rfl

/-- The loop of `Ampm_CallTask` ends after its first round. -/
lemma callTaskBody_last {call : ℕ} {w : GsmWorld} (hnodup : w.app.main.callList.Nodup) :
    (callTaskBody call w).1 = none := by
  unfold callTaskBody
  split_ifs
  · rfl
  · exact listItemNext_of_not_mem fun h => (List.Nodup.mem_erase_iff hnodup).mp h |>.1 rfl

section Settles

/-- A loop that starts nowhere, or descends. -/
lemma smsWalkWithin_settlesTo {σ : Type} {body : ℕ → σ → Option ℕ × σ} {item : Option ℕ} {s : σ}
    (hwalk : ∀ first, item = some first →
      ∃ bound s', ∀ rounds ≥ bound, smsWalk body rounds (some first) s = (none, s')) :
    ∃ s', SettlesTo (fun rounds => smsWalkWithin body rounds item s) s' := by
  cases item with
  | none =>
      refine ⟨s, 0, fun rounds _ => ?_⟩
      simp only [smsWalkWithin, smsWalk_none]
  | some first =>
      obtain ⟨bound, s', hs'⟩ := hwalk first rfl
      refine ⟨s', bound, fun rounds hrounds => ?_⟩
      simp only [smsWalkWithin, hs' rounds hrounds]

variable {w : GsmWorld}

lemma smsTaskWalk_settles (hnodup : w.app.smsList.Nodup) :
    Settles fun rounds => smsWalkWithin smsTaskBody rounds (listTail w.app.smsList) w :=
  smsWalkWithin_settlesTo fun _ htail =>
    ⟨_, smsWalk_ends (P := fun msg (w : GsmWorld) => listItemNext w.app.smsList msg = none)
      (m := fun msg w => (w.app.smsHeap msg).tryNum.toNat) smsTaskBody_descends _
      (listItemNext_tail hnodup htail) (Nat.lt_succ_self _)⟩

lemma smsTaskWithin_settles (hnodup : w.app.smsList.Nodup) :
    Settles fun rounds => smsTaskWithin rounds w := by
  unfold smsTaskWithin
  dsimp only
  split_ifs
  · exact (settlesTo_some _).settles
  · exact Settles.map (smsTaskWalk_settles
      (w := w.setApp { w.app with checkCnt := w.app.checkCnt + 1 }) hnodup) _
  · exact (settlesTo_some _).settles
  · exact (settlesTo_some _).settles

lemma smsTaskPeriodicWithin_settles (hnodup : w.app.smsList.Nodup) :
    Settles fun rounds => smsTaskPeriodicWithin rounds w := by
  have hwalk : Settles fun rounds =>
      smsWalkWithin smsPeriodicBody rounds (listTail w.app.smsList) (0, w) :=
    smsWalkWithin_settlesTo fun _ htail =>
      ⟨1, smsWalk_ends
        (P := fun msg (r : UInt8 × GsmWorld) => listItemNext r.2.app.smsList msg = none)
        (m := fun _ _ => 0)
        (fun hlast hnext => absurd ((smsPeriodicBody_last hlast).symm.trans hnext) nofun) _
        (listItemNext_tail hnodup htail) Nat.one_pos⟩
  unfold smsTaskPeriodicWithin
  split_ifs
  · exact (settlesTo_some _).settles
  · exact hwalk.map _

lemma callPeriodicBody_list (call : ℕ) (w : GsmWorld) :
    (callPeriodicBody call w).2.app.main.callList = w.app.main.callList ∧
      (callPeriodicBody call w).1 = listItemNext w.app.main.callList call := by
  unfold callPeriodicBody
  dsimp only
  split_ifs <;> exact ⟨rfl, rfl⟩

lemma callTaskPeriodic1Sec_settles (hnodup : w.app.main.callList.Nodup) :
    Settles fun rounds => callTaskPeriodic1Sec rounds w := by
  have hlist : (callTaskCount w).app.main.callList = w.app.main.callList := by
    unfold callTaskCount
    dsimp only
    split_ifs <;> rfl
  unfold callTaskPeriodic1Sec
  dsimp only
  split_ifs
  · exact (settlesTo_some _).settles
  · refine smsWalkWithin_settlesTo fun call _ => ?_
    refine ⟨_, smsWalk_ends (P := fun _ (w : GsmWorld) => w.app.main.callList.Nodup)
      (m := fun call w => (w.app.main.callList.dropWhile fun x => x ≠ call).length)
      (fun {call w call'} hnodup hnext => ?_) _ (hlist ▸ hnodup) (Nat.lt_succ_self _)⟩
    obtain ⟨heq, hfirst⟩ := callPeriodicBody_list call w
    rw [heq]
    exact ⟨hnodup, listItemNext_descends hnodup (hfirst.symm.trans hnext)⟩

lemma callTaskWalk_settles (hnodup : w.app.main.callList.Nodup) :
    Settles fun rounds => smsWalkWithin callTaskBody rounds w.app.main.callList.head? w :=
  smsWalkWithin_settlesTo fun _ _ =>
    ⟨1, smsWalk_ends (P := fun _ (w : GsmWorld) => w.app.main.callList.Nodup) (m := fun _ _ => 0)
      (fun hnodup hnext => absurd ((callTaskBody_last hnodup).symm.trans hnext) nofun) _
      hnodup Nat.one_pos⟩

lemma callTask_settles (hnodup : w.app.main.callList.Nodup) :
    Settles fun rounds => callTask rounds w := by
  have hdelay : (checkCallDelay (w.setMain
      { w.app.main with callTaskIsRunningCnt := 1 })).2.app.main.callList.Nodup := hnodup
  unfold callTask
  dsimp only
  split_ifs
  · exact (settlesTo_some _).settles
  · exact (callTaskWalk_settles hdelay).map _
  · exact (settlesTo_some _).settles
  · exact (settlesTo_some _).settles
  · exact (settlesTo_some _).settles

/-- The loop over the messages leaves the calls alone. -/
lemma smsTaskPeriodicWithin_callList {rounds : ℕ} {w' : GsmWorld}
    (h : smsTaskPeriodicWithin rounds w = some w') :
    w'.app.main.callList = w.app.main.callList := by
  have hbody (msg : ℕ) (r : UInt8 × GsmWorld) :
      (smsPeriodicBody msg r).2.2.app.main.callList = r.2.app.main.callList := by
    unfold smsPeriodicBody smsFinish
    dsimp only
    split_ifs <;> rfl
  unfold smsTaskPeriodicWithin at h
  split_ifs at h
  · rw [Option.some_inj.mp h]
  · obtain ⟨r, hwalk, rfl⟩ := Option.map_eq_some_iff.mp h
    exact smsWalk_keeps
      (R := fun r r' : UInt8 × GsmWorld => r'.2.app.main.callList = r.2.app.main.callList)
      (fun _ => rfl) (fun h h' => h'.trans h) hbody hwalk

lemma mainSecond_settles (hsms : w.app.smsList.Nodup) (hcall : w.app.main.callList.Nodup) :
    Settles fun rounds => mainSecond rounds w := by
  have hboth : ∀ w : GsmWorld, w.app.smsList.Nodup → w.app.main.callList.Nodup →
      Settles fun rounds => (smsTaskPeriodicWithin rounds (onRing Ring.ringingTimer w)).bind
        (callTaskPeriodic1Sec rounds) := by
    intro w hsms hcall
    obtain ⟨w1, bound, hw1⟩ := smsTaskPeriodicWithin_settles (w := onRing Ring.ringingTimer w) hsms
    have hlist := smsTaskPeriodicWithin_callList (hw1 bound (Nat.le_refl _))
    obtain ⟨w2, hw2⟩ := callTaskPeriodic1Sec_settles (w := w1) (by rw [hlist]; exact hcall)
    exact (SettlesTo.bind ⟨bound, hw1⟩ hw2).settles
  unfold mainSecond
  dsimp only
  split_ifs
  · exact hboth _ hsms hcall
  · exact hboth _ hsms hcall
  · exact (settlesTo_some _).settles

end Settles

/-! ## The iteration -/

section Iteration

variable {i : MainInput} {w : GsmWorld}

lemma PhaseStep.shrinks {w' : GsmWorld} (h : PhaseStep i w w') : ListsShrink w.app w'.app := by
  by_cases hinit : w.app.main.taskPhase = .init
  · cases h with
    | init hphase =>
        obtain ⟨-, -, -, hshrinks, -⟩ := mainInit_eq w
        exact hshrinks
    | works hphase hnot h => exact h.serves.lists
    | _ hphase => exact absurd (hphase.symm.trans hinit) nofun
  · exact (h.serves hinit).lists

/-- A branch of the `switch` ends. -/
lemma mainPhase_settles (hsms : w.app.smsList.Nodup) (hcall : w.app.main.callList.Nodup) :
    Settles fun rounds => mainPhase { i with rounds := rounds } w := by
  unfold mainPhase
  cases w.app.main.taskPhase with
  | smsSend => exact (smsTaskWithin_settles hsms).map mainTaskDone
  | voicecall => exact (callTask_settles hcall).map mainTaskDone
  | datacall => exact (settlesTo_some (mainDatacall i w)).settles
  | dialUp => exact (settlesTo_some (mainDialUp i w)).settles
  | _ => exact (settlesTo_some _).settles

lemma mainModemReset_eq (w : GsmWorld) :
    (mainModemReset w).app.smsTaskFailCnt = w.app.smsTaskFailCnt ∧
      (mainModemReset w).app.smsList = w.app.smsList ∧
      (mainModemReset w).app.main.callList = w.app.main.callList := by
  unfold mainModemReset
  split_ifs <;> exact ⟨rfl, rfl, rfl⟩

/-- What follows the `switch` leaves the lists to the loops over them. -/
lemma mainEngine_lists (w : GsmWorld) :
    ListsShrink w.app (mainRinging (mainEngine (mainWantsCmd w))).app := by
  refine ((mainWantsCmd_aside w).lists.trans ?_).trans (mainRinging_aside _).lists
  unfold mainEngine
  split_ifs
  · rw [mainCmdTask_app]
    have hmoves := (cmdTask_moves ((mainWantsCmd w).setApp
      { (mainWantsCmd w).app with atCommandParserEnable := true })).main
    exact .of_eq ⟨hmoves.smsList_eq, hmoves.callList_eq⟩
  · exact .refl _

/-- **An iteration ends unless ten attempts have failed.** -/
theorem ends_iff (hsms : w.app.smsList.Nodup) (hcall : w.app.main.callList.Nodup) :
    Ends i w ↔ w.app.smsTaskFailCnt < 10 := by
  obtain ⟨hfail, hsmsList, hcallList⟩ := mainModemReset_eq w
  by_cases hten : w.app.smsTaskFailCnt ≥ 10
  · refine iff_of_false (not_settles fun rounds => ?_) (UInt8.not_lt.mpr hten)
    unfold mainTask
    rw [mainFailCnt_eq, if_pos (by rw [hfail]; exact hten)]
    rfl
  · refine iff_of_true ?_ (UInt8.not_le.mp hten)
    rw [← hsmsList] at hsms
    rw [← hcallList] at hcall
    obtain ⟨w1, bound, hw1⟩ := mainPhase_settles (i := i) hsms hcall
    have hshrinks := (mainPhase_step (hw1 bound (Nat.le_refl _))).shrinks
    have hlists := hshrinks.trans (mainEngine_lists w1)
    obtain ⟨w2, hw2⟩ := mainSecond_settles (hsms.sublist hlists.smsList_sub)
      (hcall.sublist hlists.callList_sub)
    have hrest := SettlesTo.bind
      (g := fun rounds w => mainSecond rounds (mainRinging (mainEngine (mainWantsCmd w))))
      ⟨bound, hw1⟩ hw2
    have hnot : ¬ (mainModemReset w).app.smsTaskFailCnt ≥ 10 := by rw [hfail]; exact hten
    refine ⟨w2, ?_⟩
    simp only [mainTask, mainFailCnt_eq, if_neg hnot, Option.bind_some]
    exact hrest

end Iteration

/-! ## Over a run -/

/-- **The main task never hangs as long as no ten attempts to send a message have failed in a
row.** -/
theorem allEnd_iff (start : GsmWorld) (is : List MainInput) :
    AllEnd start is ↔ StepsMeet mainStep (fun w _ => w.app.smsTaskFailCnt < 10) start is := by
  have heq : (fun (w : GsmWorld) (i : MainInput) => Ends i (w.outside i.outside)) =
      fun w _ => w.app.smsTaskFailCnt < 10 :=
    funext fun w => funext fun i =>
      propext (ends_iff i.outside.smsList_nodup i.outside.callList_nodup)
  rw [AllEnd, heq]

/-! ### A modem that sends no message -/

/-- What an iteration meets after `time` ticks, if in between `app` came about. -/
def meets (app : GsmState) (time : ℕ) : MainInput :=
  { outside :=
      if h : app.smsList.Nodup ∧ app.main.callList.Nodup then
        { app := app, clock := fun _ => time.toUInt32, smsList_nodup := h.1, callList_nodup := h.2 }
      else
        { app := gsmReset, clock := fun _ => time.toUInt32, smsList_nodup := List.nodup_nil
          callList_nodup := List.nodup_nil }
    rounds := 3, openResult := 0, inputResult := 0, inputStatus := [], tcpIpResult := false }

/-- The message `A`, with twenty tries. -/
def refusedMsg : SendMsgArgs :=
  { status := none, callback := false, phone := some (bytesOf "123"), msg := bytesOf "A", len := 1
    mode := .text, timeout := 1, tryNum := 20 }

/-- What the `k`-th iteration meets: the modem answers `OK` until, after 84 of them, a message is
queued, and `ERROR` from then on. -/
def refuses (k : ℕ) (w : GsmWorld) : MainInput :=
  let app := if k = 84 then (smsSendMsg w true refusedMsg).2.app else w.app
  meets { app with rx := if k ≤ 84 then bytesOf "OK +CREG: 0,1" else bytesOf "ERROR" } (600 * k)

/-- What `n` iterations from the `k`-th meet. -/
def refusals : ℕ → ℕ → GsmWorld → List MainInput
  | 0, _, _ => []
  | n + 1, k, w => refuses k w :: refusals n (k + 1) (mainStep w (refuses k w))

/-- After the `n` iterations ten attempts have failed.  The comparison on the way holds; it has the
states computed one after the other. -/
def failsAfter : ℕ → ℕ → GsmWorld → Bool
  | 0, _, w => 10 ≤ w.app.smsTaskFailCnt
  | n + 1, k, w =>
      (w.phase = .ok || w.phase ≠ .ok) && failsAfter n (k + 1) (mainStep w (refuses k w))

lemma failsAfter_refusals (n : ℕ) : ∀ (k : ℕ) (w : GsmWorld), failsAfter n k w = true →
    ¬ StepsMeet mainStep (fun w _ => w.app.smsTaskFailCnt < 10) w (refusals (n + 1) k w) := by
  induction n with
  | zero => exact fun _ _ hten h => UInt8.not_lt.mpr (of_decide_eq_true hten) h.1
  | succ n ih => exact fun k w hfails h => ih (k + 1) _ (Bool.and_eq_true_iff.mp hfails).2 h.2

/-- The last of 279 iterations does not end. -/
theorem allEnd_refusals : ¬ AllEnd mainStart (refusals 279 0 mainStart) := by
  rw [allEnd_iff]
  exact failsAfter_refusals 278 0 mainStart (by decide +kernel)

end Ampm

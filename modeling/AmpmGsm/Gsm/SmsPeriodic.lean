import AmpmGsm.Gsm.SmsSound
import Mathlib.Algebra.Group.Basic
import Mathlib.Data.UInt

/-!
# One second of the queue

`Ampm_SmsTaskPeriodic_1Sec` is to age every message on `smsList` that still waits, and to complete
and free the others.  It starts its walk at `list_tail`, which is the last item.

* `periodicVisits` — the messages that its loop looks at.
* `Serviced` — what a second is to make of the list, the messages and the callbacks.
* `periodic_last` — what it makes of the last message, and of no other.
* **`periodic_services_iff`** — every message is looked at exactly if there is none, or one and the
  mutex is free, and what is to happen happens exactly if there is nothing to do for any but the
  last.
-/

namespace Ampm

/-! ## What is to happen -/

/-- The messages that a loop looks at, in order. -/
def smsVisits {σ : Type} (body : ℕ → σ → Option ℕ × σ) : ℕ → Option ℕ → σ → List ℕ
  | 0, _, _ => []
  | _ + 1, none, _ => []
  | rounds + 1, some msg, w => msg :: smsVisits body rounds (body msg w).1 (body msg w).2

/-- The messages that `Ampm_SmsTaskPeriodic_1Sec` looks at. -/
def periodicVisits (w : GsmWorld) (osOk : Bool) : List ℕ :=
  if osOk then
    if w.app.smsList.length = 0 then []
    else smsVisits smsPeriodicBody (smsRounds w.app) (listTail w.app.smsList) (0, w)
  else []

/-- A message that waits has a second less to wait, if it had any. -/
def servicedMsg (m : SmsMsg) : SmsMsg := if m.timeout ≠ 0 then aged m else m

/-- What a second makes of the queue: messages that wait stay, in their order and a second older;
the others leave the list, are freed, and are completed if there is somebody to tell. -/
structure Serviced (w w' : GsmWorld) : Prop where
  list_eq : w'.app.smsList = w.app.smsList.filter fun m => (w.app.smsHeap m).waits
  kept : ∀ m ∈ w.app.smsList, (w.app.smsHeap m).waits = true →
    w'.app.smsHeap m = servicedMsg (w.app.smsHeap m) ∧ w'.app.smsFreed m = w.app.smsFreed m ∧
      completions m w'.hist = completions m w.hist
  removed : ∀ m ∈ w.app.smsList, (w.app.smsHeap m).waits = false →
    w'.app.smsFreed m = true ∧
      completions m w'.hist =
        completions m w.hist + if (w.app.smsHeap m).callback then 1 else 0

/-- Every message is looked at once, and so serviced. -/
def ServicesEach (w : GsmWorld) (osOk : Bool) : Prop :=
  periodicVisits w osOk = w.app.smsList ∧ Serviced w (smsTaskPeriodic1Sec w osOk).2

/-- There is nothing to do for a message. -/
def Untouched (m : SmsMsg) : Prop := m.waits = true ∧ m.timeout = 0

instance (m : SmsMsg) : Decidable (Untouched m) := inferInstanceAs (Decidable (_ ∧ _))

/-! ## What happens -/

section Walk

variable {w : GsmWorld} {init : List ℕ} {last : ℕ}

/-- What a round makes of a message. -/
def smsService (w : GsmWorld) (msg : ℕ) : GsmWorld :=
  if (w.app.smsHeap msg).waits then w.setApp (w.app.setMsg msg (servicedMsg (w.app.smsHeap msg)))
  else smsFinish w msg

lemma smsPeriodicBody_eq (msg : ℕ) (r : UInt8) (w : GsmWorld) :
    ∃ r', smsPeriodicBody msg (r, w) =
      (listItemNext w.app.smsList msg, r', smsService w msg) := by
  by_cases hwaits : (w.app.smsHeap msg).waits = true
  · by_cases htime : (w.app.smsHeap msg).timeout = 0
    · have hsame : w.app.setMsg msg (w.app.smsHeap msg) = w.app := by
        simp [GsmState.setMsg]
      refine ⟨1, ?_⟩
      simp only [smsPeriodicBody, smsService, hwaits, if_true, servicedMsg, htime, ne_eq,
        not_true_eq_false, if_false, hsame]
      rfl
    · refine ⟨r, ?_⟩
      simp only [smsPeriodicBody, smsService, hwaits, if_true, servicedMsg, htime, ne_eq,
        not_false_eq_true, aged]
  · refine ⟨r, ?_⟩
    simp only [smsPeriodicBody, smsService, hwaits, Bool.false_eq_true, if_false]

/-- **The walk begins and ends with the last message.** -/
theorem periodic_last (hlist : w.app.smsList = init ++ [last]) (hnodup : w.app.smsList.Nodup) :
    periodicVisits w true = [last] ∧ (smsTaskPeriodic1Sec w true).2 = smsService w last := by
  have htail : listTail w.app.smsList = some last := by
    rw [hlist, listTail, List.getLast?_append]
    rfl
  have hnext : listItemNext w.app.smsList last = none := listItemNext_tail hnodup htail
  have hlen : ¬ w.app.smsList.length = 0 := by
    rw [hlist, List.length_append]
    simp
  have hrounds : smsRounds w.app = smsRounds w.app - 1 + 1 := by
    unfold smsRounds
    omega
  obtain ⟨r, hbody⟩ := smsPeriodicBody_eq last 0 w
  rw [hnext] at hbody
  constructor
  · rw [periodicVisits, if_pos rfl, if_neg hlen, htail, hrounds, smsVisits, hbody]
    cases smsRounds w.app - 1 <;> rfl
  · rw [smsTaskPeriodic1Sec, if_pos rfl, if_neg hlen, htail, hrounds, smsWalk_last hbody]

/-- A message that is not looked at is left as it is. -/
lemma smsService_other {msg m : ℕ} (hne : m ≠ msg) :
    (smsService w msg).app.smsHeap m = w.app.smsHeap m ∧
      (smsService w msg).app.smsFreed m = w.app.smsFreed m ∧
      completions m (smsService w msg).hist = completions m w.hist := by
  unfold smsService
  split_ifs
  · exact ⟨Function.update_of_ne hne .., rfl, rfl⟩
  · rw [smsFinish_eq]
    refine ⟨rfl, Function.update_of_ne hne .., ?_⟩
    rw [CmdWorld.own_hist, completions_finish, if_neg fun h => hne h.2.symm]
    rfl

lemma smsService_list (msg : ℕ) : (smsService w msg).app.smsList =
    if (w.app.smsHeap msg).waits then w.app.smsList else listRemove w.app.smsList msg := by
  unfold smsService
  split_ifs with hwaits
  · rfl
  · rw [smsFinish_eq]
    rfl

/-- A message that is looked at is serviced. -/
lemma smsService_self (msg : ℕ) :
    ((w.app.smsHeap msg).waits = true →
      (smsService w msg).app.smsHeap msg = servicedMsg (w.app.smsHeap msg) ∧
        (smsService w msg).app.smsFreed msg = w.app.smsFreed msg ∧
        completions msg (smsService w msg).hist = completions msg w.hist) ∧
    ((w.app.smsHeap msg).waits = false →
      (smsService w msg).app.smsFreed msg = true ∧
        completions msg (smsService w msg).hist =
          completions msg w.hist + if (w.app.smsHeap msg).callback then 1 else 0) := by
  constructor
  · intro hwaits
    rw [smsService, if_pos hwaits]
    exact ⟨Function.update_self .., rfl, rfl⟩
  · intro hwaits
    rw [smsService, hwaits, if_neg Bool.false_ne_true, smsFinish_eq]
    refine ⟨Function.update_self .., ?_⟩
    rw [CmdWorld.own_hist, completions_finish]
    simp only [and_true]

end Walk

/-! ## When it is what is to happen -/

lemma servicedMsg_eq_self {m : SmsMsg} (h : servicedMsg m = m) : m.timeout = 0 := by
  by_contra hne
  have htime : m.timeout - 1 = m.timeout := by
    rw [servicedMsg, if_pos hne] at h
    exact congrArg SmsMsg.timeout h
  exact absurd (sub_eq_self.mp htime) (by decide)

section Services

variable {w : GsmWorld} {init : List ℕ} {last : ℕ}

/-- The filtered list, if all but the last message wait. -/
lemma filter_waits (hlist : w.app.smsList = init ++ [last]) (hnodup : w.app.smsList.Nodup)
    (hinit : ∀ m ∈ init, (w.app.smsHeap m).waits = true) :
    w.app.smsList.filter (fun m => (w.app.smsHeap m).waits) =
      if (w.app.smsHeap last).waits then w.app.smsList else listRemove w.app.smsList last := by
  have hfilter : init.filter (fun m => (w.app.smsHeap m).waits) = init :=
    List.filter_eq_self.mpr hinit
  have hlast : last ∉ init := by
    rw [hlist] at hnodup
    intro hmem
    exact (List.nodup_append.mp hnodup).2.2 last hmem last (List.mem_singleton_self _) rfl
  rw [hlist, List.filter_append, hfilter]
  split_ifs with hwaits
  · simp [hwaits]
  · simp [hwaits, listRemove, List.erase_append_right _ hlast]

/-- Nothing happens, as is to be, exactly if no message has to be touched. -/
theorem serviced_self_iff :
    Serviced w w ↔ ∀ m ∈ w.app.smsList, Untouched (w.app.smsHeap m) := by
  constructor
  · intro h m hm
    have hwaits : (w.app.smsHeap m).waits = true := by
      rw [h.list_eq] at hm
      exact (List.mem_filter.mp hm).2
    exact ⟨hwaits, servicedMsg_eq_self (h.kept m hm hwaits).1.symm⟩
  · intro h
    constructor
    · exact (List.filter_eq_self.mpr fun m hm => (h m hm).1).symm
    · intro m hm hwaits
      rw [servicedMsg, if_neg (not_not.mpr (h m hm).2)]
      exact ⟨rfl, rfl, rfl⟩
    · intro m hm hwaits
      rw [(h m hm).1] at hwaits
      exact absurd hwaits Bool.noConfusion

/-- What is to happen happens exactly if only the last message has to be touched. -/
theorem serviced_iff (hlist : w.app.smsList = init ++ [last]) (hnodup : w.app.smsList.Nodup) :
    Serviced w (smsService w last) ↔ ∀ m ∈ init, Untouched (w.app.smsHeap m) := by
  have hne (m : ℕ) (hm : m ∈ init) : m ≠ last := by
    rw [hlist] at hnodup
    exact (List.nodup_append.mp hnodup).2.2 m hm last (List.mem_singleton_self _)
  have hmem (m : ℕ) (hm : m ∈ init) : m ∈ w.app.smsList := by
    rw [hlist]
    exact List.mem_append_left _ hm
  constructor
  · intro h m hm
    have hwaits : (w.app.smsHeap m).waits = true := by
      have hstays : m ∈ (smsService w last).app.smsList := by
        rw [smsService_list]
        split_ifs
        · exact hmem m hm
        · exact (List.mem_erase_of_ne (hne m hm)).mpr (hmem m hm)
      rw [h.list_eq] at hstays
      exact (List.mem_filter.mp hstays).2
    refine ⟨hwaits, servicedMsg_eq_self ?_⟩
    rw [← (h.kept m (hmem m hm) hwaits).1]
    exact (smsService_other (hne m hm)).1
  · intro hinit
    constructor
    · rw [smsService_list, filter_waits hlist hnodup fun m hm => (hinit m hm).1]
    · intro m hm hwaits
      rw [hlist] at hm
      rcases List.mem_append.mp hm with hm | hm
      · have hsame : servicedMsg (w.app.smsHeap m) = w.app.smsHeap m := by
          rw [servicedMsg, if_neg (not_not.mpr (hinit m hm).2)]
        rw [hsame]
        exact smsService_other (hne m hm)
      · rw [List.mem_singleton.mp hm] at hwaits ⊢
        exact (smsService_self last).1 hwaits
    · intro m hm hwaits
      rw [hlist] at hm
      rcases List.mem_append.mp hm with hm | hm
      · rw [(hinit m hm).1] at hwaits
        exact absurd hwaits Bool.noConfusion
      · rw [List.mem_singleton.mp hm] at hwaits ⊢
        exact (smsService_self last).2 hwaits

end Services

/-- Without the mutex no message is looked at. -/
lemma periodic_noMutex (w : GsmWorld) :
    periodicVisits w false = [] ∧ (smsTaskPeriodic1Sec w false).2 = w := ⟨rfl, rfl⟩

/-- An empty list is left as it is. -/
lemma periodic_empty (hnil : w.app.smsList = []) (osOk : Bool) :
    periodicVisits w osOk = [] ∧ (smsTaskPeriodic1Sec w osOk).2 = w := by
  cases osOk with
  | false => exact periodic_noMutex w
  | true =>
      rw [periodicVisits, smsTaskPeriodic1Sec, hnil]
      exact ⟨rfl, rfl⟩

/-- **Who is serviced.**  Every message is looked at exactly if there is none, or one and the mutex
is free.  What is to happen happens exactly if every message but the last (or every message, if the
mutex is not free) waits and has no time to lose. -/
theorem periodic_services_iff (w : GsmWorld) (osOk : Bool) (hnodup : w.app.smsList.Nodup) :
    (ServicesEach w osOk ↔
      w.app.smsList = [] ∨ osOk = true ∧ w.app.smsList.length = 1) ∧
    (Serviced w (smsTaskPeriodic1Sec w osOk).2 ↔
      ∀ m ∈ if osOk then w.app.smsList.dropLast else w.app.smsList,
        Untouched (w.app.smsHeap m)) := by
  rcases List.eq_nil_or_concat w.app.smsList with hnil | ⟨init, last, hlist⟩
  · obtain ⟨hvisits, hresult⟩ := periodic_empty hnil osOk
    rw [ServicesEach, hvisits, hresult, serviced_self_iff, hnil]
    simp
  rw [List.concat_eq_append] at hlist
  cases osOk with
  | false =>
      obtain ⟨hvisits, hresult⟩ := periodic_noMutex w
      rw [ServicesEach, hvisits, hresult, serviced_self_iff, hlist]
      simp
  | true =>
      obtain ⟨hvisits, hresult⟩ := periodic_last hlist hnodup
      rw [ServicesEach, hvisits, hresult, serviced_iff hlist hnodup, if_pos rfl, hlist,
        List.dropLast_concat]
      refine ⟨?_, Iff.rfl⟩
      cases init with
      | nil => simp
      | cons first init => simp

/-- Messages that were tried once and have thirty seconds to wait. -/
def triedQueue (smsList : List ℕ) : GsmWorld :=
  engineAt .smsSendCmdProcessEnd .ok
    { gsmReset with
      smsHeap := fun _ =>
        { zeroMsg with phone := some [48], msg := some [104], len := 1, timeout := 30, tryNum := 2,
                       flag := smsNewMsg }
      smsList := smsList }

/-- With one message in the queue. -/
theorem periodic_services_one : ServicesEach (triedQueue [1]) true :=
  (periodic_services_iff (triedQueue [1]) true (by decide)).1.2 (by decide)

/-- Of two messages the first is not looked at and not aged. -/
theorem periodic_misses_first :
    ¬ ServicesEach (triedQueue [1, 2]) true ∧
    (smsTaskPeriodic1Sec (triedQueue [1, 2]) true).2.app.smsHeap 1 = (triedQueue [1, 2]).app.smsHeap 1 ∧
    ¬ Untouched ((triedQueue [1, 2]).app.smsHeap 1) := by
  obtain ⟨hvisits, hresult⟩ :=
    periodic_last (show (triedQueue [1, 2]).app.smsList = [1] ++ [2] from rfl)
    (by decide)
  refine ⟨fun h => ?_, ?_, by decide⟩
  · have := hvisits.symm.trans h.1
    exact absurd this (by decide)
  · rw [hresult]
    exact (smsService_other (by decide)).1

end Ampm

import AmpmGsm.Lib.Runs
import Mathlib.Data.List.Count
import Mathlib.Data.UInt

/-!
# The ring machine

`ampm_gsm_ring.c`: pulses on the ring pin and the reports of the modem set flags from interrupts,
and `Ampm_RingingProcess` decides from them whether a pulse announced a call or a message.

* `Ring`, `ringingStep` — the variables and the functions of the file.
* `Ring.outcome` — what the machine makes of a pulse.
* `Ring.waits_kept`, `Ring.reported_kept` — the two invariants of a machine that has not decided.
* **`Ring.alwaysCall_iff`** — a report decides for a call on every schedule exactly if the machine
  was called between the pulse and the report.
-/

namespace Ampm

/-! ## The code -/

/-- `AMPM_GSM_RING_PHASE`. -/
inductive RingPhase
  | idle
  | isDetecting
  | isASms
  | isACall
  deriving DecidableEq

/-- The variables of the file. -/
structure Ring where
  missCall : Bool
  newSmsFlag : Bool
  ringingFlagTimes : UInt8
  ringingFlag : UInt8
  ringingTime : UInt8
  ringingPauseTime : UInt8
  ringingPhase : RingPhase
  deriving DecidableEq

/-- `AMPM_RINGING_FLAG`, `AMPM_RING_GOT_AT_CLIP`, `AMPM_RING_GOT_AT_RING`,
`AMPM_RING_GOT_AT_CMTI`. -/
def ampmRingingFlag : UInt8 := 0x01

def ampmRingGotAtClip : UInt8 := 0x02

def ampmRingGotAtRing : UInt8 := 0x04

def ampmRingGotAtCmti : UInt8 := 0x08

namespace Ring

/-- `Ampm_RingingTimer`, called once a second. -/
def ringingTimer (r : Ring) : Ring :=
  { r with
    ringingTime := r.ringingTime + 1
    ringingPauseTime :=
      if r.ringingPauseTime ≠ 0 then r.ringingPauseTime - 1 else r.ringingPauseTime }

/-- `Ampm_RingingDisable`. -/
def ringingDisable (r : Ring) : Ring :=
  { r with ringingPauseTime := 15, ringingFlag := 0, ringingPhase := .idle }

/-- `Ampm_RingingEnable`. -/
def ringingEnable (r : Ring) : Ring := { r with ringingPauseTime := 0 }

/-- `Ampm_RingingReset`. -/
def ringingReset (r : Ring) : Ring :=
  { r with ringingFlag := 0, ringingPhase := .idle, ringingPauseTime := 1 }

/-- `Ampm_SetRinging`. -/
def setRinging (r : Ring) : Ring :=
  if r.ringingPauseTime = 0 then
    { r with
      ringingFlag := r.ringingFlag ||| ampmRingingFlag
      ringingFlagTimes := r.ringingFlagTimes + 1
      ringingTime := 0 }
  else r

/-- `Ampm_SetAtRing`. -/
def setAtRing (r : Ring) : Ring :=
  { r with ringingFlag := r.ringingFlag ||| ampmRingGotAtRing, ringingTime := 0 }

/-- `Ampm_SetAtClip`. -/
def setAtClip (r : Ring) : Ring :=
  { r with ringingFlag := r.ringingFlag ||| ampmRingGotAtClip, ringingTime := 0 }

/-- `Ampm_SetAtCmti`. -/
def setAtCmti (r : Ring) : Ring :=
  { r with newSmsFlag := true, ringingFlag := r.ringingFlag ||| ampmRingGotAtCmti }

/-- `Ampm_RingingProcess`. -/
def ringingProcess (r : Ring) : Ring :=
  match r.ringingPhase with
  | .idle =>
      if r.ringingFlag &&& ampmRingingFlag ≠ 0 then
        { r with
          ringingFlag := 0, ringingFlagTimes := 0, ringingTime := 0
          ringingPhase := .isDetecting }
      else r
  | .isDetecting =>
      if r.ringingFlag &&& ampmRingGotAtClip ≠ 0 ∨ r.ringingFlag &&& ampmRingGotAtRing ≠ 0 ∨
          r.ringingFlagTimes ≠ 0 then
        { r with ringingFlag := 0, ringingPhase := .isACall }
      else if r.ringingFlag &&& ampmRingGotAtCmti ≠ 0 then
        { r with ringingFlag := 0, ringingPhase := .isASms }
      else if r.ringingTime ≥ 6 then { r with ringingPhase := .isASms }
      else r
  | .isASms =>
      { r with newSmsFlag := true, ringingFlag := 0, ringingTime := 0, ringingPhase := .idle }
  | .isACall =>
      if r.ringingTime ≥ 6 then
        { r with missCall := true, ringingFlag := 0, ringingPhase := .idle }
      else r

end Ring

/-- Everything that the rest of the firmware calls. -/
inductive RingEvent
  | setRinging
  | setAtRing
  | setAtClip
  | setAtCmti
  | ringingProcess
  | ringingTimer
  | ringingReset
  | ringingDisable
  | ringingEnable
  deriving DecidableEq

def ringingStep (r : Ring) : RingEvent → Ring
  | .setRinging => r.setRinging
  | .setAtRing => r.setAtRing
  | .setAtClip => r.setAtClip
  | .setAtCmti => r.setAtCmti
  | .ringingProcess => r.ringingProcess
  | .ringingTimer => r.ringingTimer
  | .ringingReset => r.ringingReset
  | .ringingDisable => r.ringingDisable
  | .ringingEnable => r.ringingEnable

/-! ## What becomes of a pulse -/

/-- The main task takes the machine back to its idle phase. -/
def RingEvent.cancels : RingEvent → Bool
  | .ringingReset => true
  | .ringingDisable => true
  | _ => false

/-- A RING or a +CLIP report. -/
def RingEvent.isReport : RingEvent → Bool
  | .setAtRing => true
  | .setAtClip => true
  | _ => false

/-- The machine has left its detection. -/
def RingPhase.decided : RingPhase → Bool
  | .isASms => true
  | .isACall => true
  | _ => false

namespace Ring

/-- The phase that the machine leaves its detection for; `none` if it has not left it, or if the
main task has taken it back before. -/
def outcome : Ring → List RingEvent → Option RingPhase
  | _, [] => none
  | r, e :: es =>
      if e.cancels then none
      else if (ringingStep r e).ringingPhase.decided then some (ringingStep r e).ringingPhase
      else outcome (ringingStep r e) es

/-- During these events the machine is not taken back and does not leave its detection. -/
def Undecided (r : Ring) (es : List RingEvent) : Prop :=
  (∀ e ∈ es, e.cancels = false) ∧ r.outcome es = none

/-- Whatever happens next, the machine decides for a call: never for a message, and for a call
when it was called twice, unless the main task takes it back. -/
def AlwaysCall (r : Ring) : Prop :=
  ∀ es, r.outcome es ≠ some .isASms ∧
    ((∀ e ∈ es, e.cancels = false) → 2 ≤ es.count .ringingProcess → r.outcome es = some .isACall)

/-! ## Flags -/

lemma flag_or_self (x f : UInt8) : (x ||| f) &&& f = f := by
  rw [← UInt8.toBitVec_inj]
  ext i hi
  simp only [UInt8.toBitVec_and, UInt8.toBitVec_or, BitVec.getElem_and, BitVec.getElem_or]
  cases x.toBitVec[i] <;> cases f.toBitVec[i] <;> rfl

/-- A flag that is set stays set when another one is. -/
lemma flag_or_of_ne {x f : UInt8} (g : UInt8) (h : x &&& f ≠ 0) : (x ||| g) &&& f ≠ 0 := by
  have hdistrib : (x ||| g) &&& f = (x &&& f) ||| (g &&& f) := by
    rw [← UInt8.toBitVec_inj]
    ext i hi
    simp only [UInt8.toBitVec_and, UInt8.toBitVec_or, BitVec.getElem_and, BitVec.getElem_or]
    cases x.toBitVec[i] <;> cases f.toBitVec[i] <;> cases g.toBitVec[i] <;> rfl
  rw [hdistrib, Ne, UInt8.or_eq_zero_iff]
  exact fun hzero => h hzero.1

/-! ## Before the decision -/

/-- The machine is idle with a pulse to look at, or it is detecting. -/
def Waits (r : Ring) : Prop :=
  r.ringingPhase = .idle ∧ r.ringingFlag &&& ampmRingingFlag ≠ 0 ∨ r.ringingPhase = .isDetecting

/-- The machine is detecting and a report has come. -/
structure Reported (r : Ring) : Prop where
  detecting : r.ringingPhase = .isDetecting
  report : r.ringingFlag &&& ampmRingGotAtClip ≠ 0 ∨ r.ringingFlag &&& ampmRingGotAtRing ≠ 0

variable {r : Ring} {e : RingEvent} {es : List RingEvent}

/-- Only the process changes the phase, apart from the main task. -/
lemma ringingStep_phase (hcancel : e.cancels = false) (hprocess : e ≠ .ringingProcess) :
    (ringingStep r e).ringingPhase = r.ringingPhase := by
  cases e with
  | setRinging =>
      simp only [ringingStep, setRinging]
      split <;> rfl
  | ringingProcess => exact absurd rfl hprocess
  | ringingReset => exact absurd hcancel Bool.noConfusion
  | ringingDisable => exact absurd hcancel Bool.noConfusion
  | _ => rfl

/-- Only the process clears a flag, apart from the main task. -/
lemma ringingStep_flag {f : UInt8} (hcancel : e.cancels = false) (hprocess : e ≠ .ringingProcess)
    (h : r.ringingFlag &&& f ≠ 0) : (ringingStep r e).ringingFlag &&& f ≠ 0 := by
  cases e with
  | setRinging =>
      simp only [ringingStep, setRinging]
      split
      · exact flag_or_of_ne _ h
      · exact h
  | setAtRing => exact flag_or_of_ne _ h
  | setAtClip => exact flag_or_of_ne _ h
  | setAtCmti => exact flag_or_of_ne _ h
  | ringingProcess => exact absurd rfl hprocess
  | ringingReset => exact absurd hcancel Bool.noConfusion
  | ringingDisable => exact absurd hcancel Bool.noConfusion
  | ringingTimer => exact h
  | ringingEnable => exact h

/-- The process finds the pulse, or is detecting already. -/
lemma process_detects (hr : r.Waits) (hstay : r.ringingProcess.ringingPhase.decided = false) :
    r.ringingProcess.ringingPhase = .isDetecting := by
  rcases hr with ⟨hphase, hflag⟩ | hphase
  · simp only [ringingProcess, hphase, hflag, ne_eq, not_false_eq_true, if_true]
  · simp only [ringingProcess, hphase] at hstay ⊢
    split_ifs at hstay ⊢ with hreport hcmti hlate
    · exact absurd hstay Bool.noConfusion
    · exact absurd hstay Bool.noConfusion
    · exact absurd hstay Bool.noConfusion
    · exact hphase

/-- A waiting machine that does not decide keeps waiting, and after a call of the process it is
detecting. -/
lemma waits_kept (hr : r.Waits) (hcancel : e.cancels = false)
    (hstay : (ringingStep r e).ringingPhase.decided = false) :
    (ringingStep r e).Waits ∧
      (e = .ringingProcess ∨ r.ringingPhase = .isDetecting →
        (ringingStep r e).ringingPhase = .isDetecting) := by
  by_cases hprocess : e = .ringingProcess
  · subst hprocess
    have hdetects := process_detects hr hstay
    exact ⟨Or.inr hdetects, fun _ => hdetects⟩
  · have hphase := ringingStep_phase (r := r) hcancel hprocess
    refine ⟨?_, fun h => hphase.trans (h.resolve_left hprocess)⟩
    rcases hr with ⟨hidle, hflag⟩ | hdetecting
    · exact Or.inl ⟨hphase.trans hidle, ringingStep_flag hcancel hprocess hflag⟩
    · exact Or.inr (hphase.trans hdetecting)

/-- One more event without a decision. -/
lemma undecided_cons (h : r.Undecided (e :: es)) :
    e.cancels = false ∧ (ringingStep r e).ringingPhase.decided = false ∧
      (ringingStep r e).Undecided es := by
  obtain ⟨hcancels, hnone⟩ := h
  have hcancel := hcancels e (List.mem_cons_self ..)
  simp only [outcome, hcancel, Bool.false_eq_true, if_false] at hnone
  split at hnone
  · exact absurd hnone (Option.some_ne_none _)
  · rename_i hundecided
    exact ⟨hcancel, Bool.not_eq_true _ ▸ hundecided,
      fun e he => hcancels e (List.mem_cons_of_mem _ he), hnone⟩

/-- After events without a decision the machine still waits; it is detecting if it was, or if the
process was called. -/
lemma waits_run (hr : r.Waits) (hes : r.Undecided es) :
    (Runs.run ringingStep r es).Waits ∧
      (.ringingProcess ∈ es ∨ r.ringingPhase = .isDetecting →
        (Runs.run ringingStep r es).ringingPhase = .isDetecting) := by
  induction es generalizing r with
  | nil => exact ⟨hr, fun h => h.resolve_left List.not_mem_nil⟩
  | cons e es ih =>
      obtain ⟨hcancel, hstay, hrest⟩ := undecided_cons hes
      obtain ⟨hwaits, hdetects⟩ := waits_kept hr hcancel hstay
      obtain ⟨hwaits', hdetects'⟩ := ih hwaits hrest
      refine ⟨hwaits', fun h => hdetects' ?_⟩
      rcases h with hmem | hphase
      · rcases List.mem_cons.mp hmem with heq | hmem
        · exact Or.inr (hdetects (Or.inl heq.symm))
        · exact Or.inl hmem
      · exact Or.inr (hdetects (Or.inr hphase))

/-- Without a call of the process nothing but the flags changes. -/
lemma idle_run (hr : r.ringingPhase = .idle) (hes : r.Undecided es)
    (hprocess : .ringingProcess ∉ es) : (Runs.run ringingStep r es).ringingPhase = .idle := by
  induction es generalizing r with
  | nil => exact hr
  | cons e es ih =>
      obtain ⟨hcancel, -, hrest⟩ := undecided_cons hes
      obtain ⟨hne, hnot⟩ := not_or.mp fun h => hprocess (List.mem_cons.mpr h)
      exact ih ((ringingStep_phase hcancel (Ne.symm hne)).trans hr) hrest hnot

/-! ## After a report -/

lemma report_sets (he : e.isReport = true) (hr : r.ringingPhase = .isDetecting) :
    (ringingStep r e).Reported := by
  cases e with
  | setAtRing =>
      refine ⟨hr, Or.inr ?_⟩
      show (_ ||| ampmRingGotAtRing) &&& ampmRingGotAtRing ≠ 0
      rw [flag_or_self]
      decide
  | setAtClip =>
      refine ⟨hr, Or.inl ?_⟩
      show (_ ||| ampmRingGotAtClip) &&& ampmRingGotAtClip ≠ 0
      rw [flag_or_self]
      decide
  | _ => exact absurd he Bool.noConfusion

lemma process_reported (h : r.Reported) : r.ringingProcess.ringingPhase = .isACall := by
  have hreport := h.report
  have hcall : r.ringingFlag &&& ampmRingGotAtClip ≠ 0 ∨ r.ringingFlag &&& ampmRingGotAtRing ≠ 0 ∨
      r.ringingFlagTimes ≠ 0 := by
    rcases hreport with hclip | hring
    · exact Or.inl hclip
    · exact Or.inr (Or.inl hring)
  simp only [ringingProcess, h.detecting]
  rw [if_pos hcall]

lemma reported_kept (h : r.Reported) (hcancel : e.cancels = false) (hprocess : e ≠ .ringingProcess) :
    (ringingStep r e).Reported :=
  ⟨(ringingStep_phase hcancel hprocess).trans h.detecting,
    h.report.imp (ringingStep_flag hcancel hprocess) (ringingStep_flag hcancel hprocess)⟩

/-- A machine that has heard a report while it was detecting decides for a call. -/
theorem Reported.alwaysCall (h : r.Reported) : r.AlwaysCall := by
  intro es
  induction es generalizing r with
  | nil => exact ⟨nofun, fun _ hcount => absurd hcount (by simp)⟩
  | cons e es ih =>
      by_cases hcancel : e.cancels = false
      · by_cases hprocess : e = .ringingProcess
        · have hcall : r.outcome (e :: es) = some .isACall := by
            simp only [outcome, hprocess, ringingStep, process_reported h]
            rfl
          rw [hcall]
          exact ⟨fun heq => RingPhase.noConfusion (Option.some.inj heq), fun _ _ => rfl⟩
        · have hkept := reported_kept h hcancel hprocess
          have hundecided : (ringingStep r e).ringingPhase.decided = false := by
            rw [hkept.detecting]
            rfl
          have houtcome : r.outcome (e :: es) = (ringingStep r e).outcome es := by
            simp only [outcome, hcancel, hundecided, Bool.false_eq_true, if_false]
          obtain ⟨hnever, hcall⟩ := ih hkept
          rw [houtcome]
          refine ⟨hnever, fun hcancels hcount => ?_⟩
          refine hcall (fun e he => hcancels e (List.mem_cons_of_mem _ he)) ?_
          rwa [List.count_cons_of_ne hprocess] at hcount
      · have hnone : r.outcome (e :: es) = none := by
          simp only [outcome, Bool.not_eq_false _ ▸ hcancel, if_true]
        rw [hnone]
        exact ⟨nofun, fun hcancels _ =>
          absurd (hcancels e (List.mem_cons_self ..)) hcancel⟩

/-! ## Before the first call of the process -/

/-- The process, six seconds, and the process again. -/
def lateSchedule : List RingEvent :=
  .ringingProcess :: (List.replicate 6 .ringingTimer ++ [.ringingProcess])

/-- An idle machine forgets what it was told before it looks at the pulse. -/
theorem outcome_lateSchedule (hidle : r.ringingPhase = .idle)
    (hflag : r.ringingFlag &&& ampmRingingFlag ≠ 0) :
    r.outcome lateSchedule = some .isASms := by
  have hfirst : ringingStep r .ringingProcess =
      { r with
        ringingFlag := 0, ringingFlagTimes := 0, ringingTime := 0
        ringingPhase := .isDetecting } := by
    simp only [ringingStep, ringingProcess, hidle, hflag, ne_eq, not_false_eq_true, if_true]
  rw [lateSchedule, outcome, hfirst]
  simp [outcome, ringingStep, ringingTimer, ringingProcess, RingEvent.cancels, RingPhase.decided,
    List.replicate]

/-- **When a report decides.**  A pulse has come, then `es` without a decision, then a report: the
machine decides for a call on every further schedule exactly if the process was called
between the pulse and the report. -/
theorem alwaysCall_iff (r : Ring) (es : List RingEvent) (e : RingEvent)
    (hidle : r.ringingPhase = .idle) (hpause : r.ringingPauseTime = 0)
    (hes : r.setRinging.Undecided es) (he : e.isReport = true) :
    (Runs.run ringingStep r.setRinging (es ++ [e])).AlwaysCall ↔ .ringingProcess ∈ es := by
  have hpulse : r.setRinging.ringingFlag &&& ampmRingingFlag ≠ 0 := by
    simp only [setRinging, hpause, if_true, flag_or_self]
    decide
  have hphase : r.setRinging.ringingPhase = .idle := by
    simp only [setRinging, hpause, if_true, hidle]
  have hwaits : r.setRinging.Waits := Or.inl ⟨hphase, hpulse⟩
  obtain ⟨hwaits', hdetects⟩ := waits_run hwaits hes
  rw [Runs.run_append, Runs.run_cons, Runs.run_nil]
  constructor
  · intro halways
    by_contra hnot
    have hidle' := idle_run hphase hes hnot
    have hpulse' : (Runs.run ringingStep r.setRinging es).ringingFlag &&& ampmRingingFlag ≠ 0 := by
      rcases hwaits' with ⟨-, hflag⟩ | hdetecting
      · exact hflag
      · rw [hidle'] at hdetecting
        exact RingPhase.noConfusion hdetecting
    have hcancel : e.cancels = false := by
      cases e <;> first | rfl | exact absurd he Bool.noConfusion
    have hprocess : e ≠ .ringingProcess := by
      rintro rfl
      exact absurd he Bool.noConfusion
    refine (halways lateSchedule).1 (outcome_lateSchedule ?_ ?_)
    · exact (ringingStep_phase hcancel hprocess).trans hidle'
    · exact ringingStep_flag hcancel hprocess hpulse'
  · intro hmem
    exact (report_sets he (hdetects (Or.inl hmem))).alwaysCall

/-- A machine in its idle phase that nothing has happened to. -/
def silent : Ring := ⟨false, false, 0, 0, 0, 0, .idle⟩

/-- A pulse, a call of the process, two seconds, a report. -/
theorem alwaysCall_after_process :
    (Runs.run ringingStep silent.setRinging
      ([.ringingProcess, .ringingTimer, .ringingTimer] ++ [.setAtRing])).AlwaysCall :=
  (alwaysCall_iff silent [.ringingProcess, .ringingTimer, .ringingTimer] .setAtRing rfl rfl
    ⟨by decide, by decide⟩ rfl).2 (by decide)

/-- A report that comes before the process is called is lost, and the call taken for a message. -/
theorem not_alwaysCall_at_once :
    silent.setRinging.Undecided [] ∧
    (Runs.run ringingStep silent.setRinging ([] ++ [.setAtRing])).outcome lateSchedule =
      some .isASms ∧
    ¬ (Runs.run ringingStep silent.setRinging ([] ++ [.setAtRing])).AlwaysCall := by
  have hsms : (Runs.run ringingStep silent.setRinging ([] ++ [.setAtRing])).outcome lateSchedule =
      some .isASms := by
    decide
  exact ⟨⟨by decide, rfl⟩, hsms, fun halways => (halways lateSchedule).1 hsms⟩

end Ring

end Ampm

import AmpmGsm.Cmd.Engine
import Mathlib.Data.Nat.Notation

/-!
# Retry accounting of the engine

What the engine does with one descriptor between its load and the next one.

* `sends`, `answered`, `eachFailed` — read off the log: how often the command was sent, whether it
  was answered after the latest send, whether every send was followed by a timeout or a resend.
* `Tries` — the invariant that ties them to the phase and to `retryNum`.
* `cmdTask_retries` — at most `retryNum + 1` sends; `AMPM_CMD_OK` only after an answer or because
  the end callback stored it; `AMPM_CMD_GOTO_ERROR` only after `retryNum + 1` failed sends.
-/

namespace Ampm

variable {S : CmdTypes}

/-! ## Reading the log, newest event first -/

/-- How often `send_data_callback` was invoked. -/
def sends : List (CmdEvent S) → ℕ
  | [] => 0
  | .send _ :: es => sends es + 1
  | _ :: es => sends es

/-- `recv_data_callback` returned `AMPM_CMD_DELAY` after the latest send. -/
def answered : List (CmdEvent S) → Bool
  | [] => false
  | .send _ :: _ => false
  | .recv _ res :: es => res = CmdPhase.delay.code || answered es
  | _ :: es => answered es

/-- Every send was followed, before the next one, by a timeout or by `AMPM_CMD_RESEND`; `failed`
says that the latest one was. -/
def eachFailed : Bool → List (CmdEvent S) → Bool
  | _, [] => true
  | failed, .send _ :: es => failed && eachFailed false es
  | _, .timeout _ :: es => eachFailed true es
  | failed, .recv _ res :: es => eachFailed (failed || res = CmdPhase.resend.code) es
  | failed, _ :: es => eachFailed failed es

/-- What takes no notice of one passive event takes no notice of many. -/
lemma skips_passive {β : Type*} {f : List (CmdEvent S) → β}
    (hf : ∀ e es, e.passive = true → f (e :: es) = f es) {es : List (CmdEvent S)}
    (hes : ∀ e ∈ es, e.passive = true) (hist : List (CmdEvent S)) :
    f (es ++ hist) = f hist := by
  induction es with
  | nil => rfl
  | cons e es ih =>
      rw [List.cons_append, hf e _ (hes e (List.mem_cons_self ..)),
        ih fun x hx => hes x (List.mem_cons_of_mem _ hx)]

lemma sends_cons_passive (e : CmdEvent S) (es : List (CmdEvent S)) (he : e.passive = true) :
    sends (e :: es) = sends es := by
  cases e <;> first | rfl | exact absurd he Bool.false_ne_true

lemma answered_cons_passive (e : CmdEvent S) (es : List (CmdEvent S)) (he : e.passive = true) :
    answered (e :: es) = answered es := by
  cases e <;> first | rfl | exact absurd he Bool.false_ne_true

lemma eachFailed_cons_passive (failed : Bool) (e : CmdEvent S) (es : List (CmdEvent S))
    (he : e.passive = true) : eachFailed failed (e :: es) = eachFailed failed es := by
  cases e <;> first | rfl | exact absurd he Bool.false_ne_true

/-! ## The invariant -/

/-- The log and `retryNum` for each phase of a descriptor that may be retried `r` times. -/
def PhaseTally (r ρ : ℕ) (hist : List (CmdEvent S)) : CmdPhase → Prop
  | .send => sends hist + ρ = r ∧ eachFailed false hist = true
  | .wait => sends hist + ρ = r + 1 ∧ eachFailed true hist = true
  | .resend => sends hist + ρ = r + 1 ∧ eachFailed false hist = true
  | .gotoError => sends hist = r + 1 ∧ eachFailed false hist = true
  | .delay => sends hist ≤ r + 1 ∧ answered hist = true
  | .ok => sends hist ≤ r + 1 ∧ (answered hist = true ∨ .setOk ∈ hist)
  | .error => sends hist ≤ r + 1

lemma PhaseTally.sends_le {r ρ : ℕ} {hist : List (CmdEvent S)} {phase : CmdPhase}
    (h : PhaseTally r ρ hist phase) : sends hist ≤ r + 1 := by
  cases phase <;> simp only [PhaseTally] at h <;> omega

/-- The log may grow by passive events, and a stored `AMPM_CMD_OK` takes the phase to `ok`. -/
lemma PhaseTally.passive {r ρ : ℕ} {hist : List (CmdEvent S)} {phase phase' : CmdPhase}
    (h : PhaseTally r ρ hist phase) {es : List (CmdEvent S)} (hes : ∀ e ∈ es, e.passive = true)
    (hphase : phase' = phase ∨ phase' = .ok ∧ .setOk ∈ es) :
    PhaseTally r ρ (es ++ hist) phase' := by
  have hsends : sends (es ++ hist) = sends hist := skips_passive sends_cons_passive hes hist
  have hans : answered (es ++ hist) = answered hist := skips_passive answered_cons_passive hes hist
  have hfail : ∀ b, eachFailed b (es ++ hist) = eachFailed b hist :=
    fun b => skips_passive (eachFailed_cons_passive b) hes hist
  rcases hphase with rfl | ⟨rfl, hok⟩
  · cases phase' <;> simp only [PhaseTally, hsends, hans, hfail] at h ⊢ <;> try exact h
    exact ⟨h.1, h.2.imp id (List.mem_append_right es)⟩
  · exact ⟨hsends ▸ h.sends_le, Or.inr (List.mem_append_left _ hok)⟩

/-- The descriptor `p`, first loaded with `retryNum = r`, is still loaded and the tally is
right. -/
structure Tries (p : CmdProcess S) (w : CmdWorld S) : Prop where
  cmdSend_eq : w.cmdSend = { p with retryNum := w.cmdSend.retryNum }
  tally : PhaseTally p.retryNum.toNat w.cmdSend.retryNum.toNat w.hist w.phase

/-- No descriptor was loaded since the log began. -/
def NoLoad (w : CmdWorld S) : Prop := ∀ e ∈ w.hist, e.isLoad = false

instance (w : CmdWorld S) : Decidable (NoLoad w) :=
  inferInstanceAs (Decidable (∀ e ∈ w.hist, e.isLoad = false))

section Steps

variable {code : CmdCode S} {p : CmdProcess S} {w : CmdWorld S}

/-- What a callback does between two loads keeps the invariant. -/
lemma Tries.acts {w' : CmdWorld S} (hw : Tries p w) (h : Acts code.process w w')
    (hload : NoLoad w') : Tries p w' := by
  obtain ⟨events, hhist, hpassive, hkept⟩ := h.outcome
  obtain ⟨hcmd, -, hphase⟩ := hkept fun e he =>
    hload e (hhist ▸ List.mem_append_left _ he)
  refine ⟨hcmd ▸ hw.cmdSend_eq, ?_⟩
  rw [hhist, hcmd]
  exact hw.tally.passive hpassive hphase

/-- The end callback, called after a success or a failure. -/
lemma Tries.end {here res : CmdPhase} (hw : Tries p w) (hhere : w.phase = here)
    (hend : ∀ cb, p.endDataCallback = some cb →
      ∀ phase w, Acts code.process w (code.endCb cb phase w).2)
    (hres : ∀ ρ hist, PhaseTally (S := S) p.retryNum.toNat ρ hist here →
      PhaseTally p.retryNum.toNat ρ hist res)
    (hload : NoLoad (cmdTaskEnd code w here res)) : Tries p (cmdTaskEnd code w here res) := by
  have hcb : w.cmdSend.endDataCallback = p.endDataCallback := by rw [hw.cmdSend_eq]
  have hlog : Tries p (w.log (.endCall w.loaded res)) := by
    refine ⟨hw.cmdSend_eq, ?_⟩
    have htally := hw.tally
    rw [hhere] at htally
    show PhaseTally _ _ (_ :: w.hist) w.phase
    rw [hhere]
    cases here <;> simp only [PhaseTally, sends, answered, eachFailed] at htally ⊢ <;>
      try exact htally
    exact ⟨htally.1, htally.2.imp id (List.mem_cons_of_mem _)⟩
  unfold cmdTaskEnd at hload ⊢
  cases hcase : w.cmdSend.endDataCallback with
  | none =>
      refine ⟨hw.cmdSend_eq, ?_⟩
      exact hres _ _ (hhere ▸ hw.tally)
  | some callback =>
      simp only [hcase] at hload ⊢
      have hacts := hend callback (hcb ▸ hcase) res (w.log (.endCall w.loaded res))
      split_ifs at hload ⊢ with hret hstay
      · have hafter := hlog.acts hacts hload
        exact ⟨hafter.cmdSend_eq, hres _ _ (hstay ▸ hafter.tally)⟩
      · exact hlog.acts hacts hload
      · exact hlog.acts hacts hload

/-- What is assumed of the callbacks of `p`: sending and receiving leave the engine alone. -/
structure QuietCallbacks (code : CmdCode S) (p : CmdProcess S) : Prop where
  send : ∃ cb, p.sendDataCallback = some cb ∧ ∀ w, Quiet w (code.send cb w)
  recv : ∃ cb, p.recvDataCallback = some cb ∧ ∀ w, Quiet w (code.recv cb w).2
  endCb : ∀ cb, p.endDataCallback = some cb →
    ∀ phase w, Acts code.process w (code.endCb cb phase w).2

/-- A callback that leaves the engine alone adds events of its own to the log. -/
lemma PhaseTally.quiet {r ρ : ℕ} {phase : CmdPhase} {w' : CmdWorld S}
    (h : PhaseTally r ρ w.hist phase) (hq : Quiet w w') : PhaseTally r ρ w'.hist phase := by
  obtain ⟨app, clock, events, rfl⟩ := hq
  refine h.passive (fun e he => ?_) (Or.inl rfl)
  obtain ⟨x, -, rfl⟩ := List.mem_map.mp he
  rfl

lemma Quiet.cmdSend_eq {w' : CmdWorld S} (hq : Quiet w w') : w'.cmdSend = w.cmdSend := by
  obtain ⟨app, clock, events, rfl⟩ := hq
  rfl

/-- The first send, or another one. -/
lemma Tries.sent {callback : S.SendCb} (hp : QuietCallbacks code p) (hw : Tries p w)
    (hphase : w.phase = .send) (hcb : w.cmdSend.sendDataCallback = some callback) :
    let w' := code.send callback (w.checkTask.log (.send w.loaded))
    Tries p ((w'.initTask w'.cmdSend.timeout).setPhase .wait) := by
  intro w'
  obtain ⟨cb, hsome, hquiet⟩ := hp.send
  have hsame : cb = callback := by
    rw [hw.cmdSend_eq] at hcb
    exact Option.some.inj (hsome.symm.trans hcb)
  subst hsame
  have hq : Quiet (w.checkTask.log (.send w.loaded)) w' := hquiet _
  have hcmd : w'.cmdSend = w.cmdSend := hq.cmdSend_eq
  have htally := hw.tally
  rw [hphase] at htally
  have hsent : PhaseTally p.retryNum.toNat w.cmdSend.retryNum.toNat
      (w.checkTask.log (.send w.loaded)).hist .wait := by
    refine ⟨?_, ?_⟩
    · show sends w.hist + 1 + _ = _
      have := htally.1
      omega
    · exact htally.2
  refine ⟨?_, ?_⟩
  · show w'.cmdSend = { p with retryNum := w'.cmdSend.retryNum }
    rw [hcmd]
    exact hw.cmdSend_eq
  · show PhaseTally _ w'.cmdSend.retryNum.toNat w'.hist .wait
    rw [hcmd]
    exact hsent.quiet hq

/-- The receive callback was asked, whatever it returned. -/
lemma Tries.asked {callback : S.RecvCb} (hp : QuietCallbacks code p) (hw : Tries p w)
    (hphase : w.phase = .wait) (hcb : w.cmdSend.recvDataCallback = some callback) :
    let r := code.recv callback w.checkTask
    let res := r.1.toUInt8
    let w' := r.2.log (.recv r.2.loaded res)
    Tries p (if res = CmdPhase.delay.code then (w'.initTask w'.cmdSend.delay).setPhase .delay
      else if res = CmdPhase.resend.code then (w'.setPhase .resend).initTask w'.cmdSend.delay
      else w') := by
  intro r res w'
  obtain ⟨cb, hsome, hquiet⟩ := hp.recv
  have hsame : cb = callback := by
    rw [hw.cmdSend_eq] at hcb
    exact Option.some.inj (hsome.symm.trans hcb)
  subst hsame
  have hq : Quiet w.checkTask r.2 := hquiet _
  have hcmd : r.2.cmdSend = w.cmdSend := hq.cmdSend_eq
  have hcmdSend : r.2.cmdSend = { p with retryNum := r.2.cmdSend.retryNum } := by
    rw [hcmd]
    exact hw.cmdSend_eq
  have hwait := hw.tally
  rw [hphase] at hwait
  have htally : PhaseTally p.retryNum.toNat r.2.cmdSend.retryNum.toNat r.2.hist .wait := by
    rw [hcmd]
    exact PhaseTally.quiet (w := w.checkTask) hwait hq
  have hphase' : r.2.phase = .wait := by
    obtain ⟨app, clock, events, heq⟩ := hq
    rw [heq]
    exact hphase
  split_ifs with hdelay hresend
  · refine ⟨hcmdSend, htally.sends_le, ?_⟩
    show answered (.recv r.2.loaded res :: r.2.hist) = true
    rw [answered, decide_eq_true hdelay, Bool.true_or]
  · refine ⟨hcmdSend, htally.1, ?_⟩
    show eachFailed false (.recv r.2.loaded res :: r.2.hist) = true
    rw [eachFailed, decide_eq_true hresend, Bool.or_true]
    exact htally.2
  · refine ⟨hcmdSend, ?_⟩
    show PhaseTally _ _ (.recv r.2.loaded res :: r.2.hist) r.2.phase
    rw [hphase']
    refine ⟨htally.1, ?_⟩
    rw [eachFailed, Bool.true_or]
    exact htally.2

/-- One call of `Ampm_Cmd_Task` keeps the invariant, up to the next load. -/
theorem cmdTask_tries (hp : QuietCallbacks code p) (hw : Tries p w)
    (hload : NoLoad (cmdTask code w)) : Tries p (cmdTask code w) := by
  have htally := hw.tally
  have hstep := cmdTask_step code w
  generalize cmdTask code w = w' at hstep hload
  cases hstep with
  | tooEarly hphase hexp => exact ⟨hw.cmdSend_eq, htally⟩
  | sent callback hphase hexp hcb => exact hw.sent hp hphase hcb
  | notSent hphase hexp hcb =>
      obtain ⟨cb, hsome, -⟩ := hp.send
      rw [hw.cmdSend_eq] at hcb
      exact absurd (hsome.symm.trans hcb) (Option.some_ne_none cb)
  | retry hphase hnum =>
      rw [hphase] at htally
      refine ⟨?_, ?_, htally.2⟩
      · show ({ w.cmdSend with retryNum := _ } : CmdProcess S) = _
        rw [hw.cmdSend_eq]
        rfl
      · show sends w.hist + (w.cmdSend.retryNum - 1).toNat = p.retryNum.toNat
        have hpos : w.cmdSend.retryNum.toNat ≠ 0 := fun h => hnum (UInt8.toNat_inj.mp h)
        have hsub : (w.cmdSend.retryNum - 1).toNat = w.cmdSend.retryNum.toNat - 1 := by
          rw [UInt8.toNat_sub_of_le]
          · rfl
          · exact UInt8.le_iff_toNat_le.mpr (Nat.one_le_iff_ne_zero.mpr hpos)
        have := htally.1
        omega
  | giveUp hphase hnum =>
      rw [hphase, hnum] at htally
      exact ⟨hw.cmdSend_eq, htally.1, htally.2⟩
  | failed hphase =>
      exact hw.end hphase hp.endCb (fun ρ hist h => Nat.le_of_eq h.1) hload
  | notAwaited hphase hcb =>
      obtain ⟨cb, hsome, -⟩ := hp.recv
      rw [hw.cmdSend_eq] at hcb
      exact absurd (hsome.symm.trans hcb) (Option.some_ne_none cb)
  | lapsed callback hphase hexp hcb =>
      rw [hphase] at htally
      exact ⟨hw.cmdSend_eq, htally.1, htally.2⟩
  | asked callback hphase hexp hcb => exact hw.asked hp hphase hcb
  | succeeded hphase hexp =>
      have hchecked : Tries p w.checkTask := ⟨hw.cmdSend_eq, htally⟩
      exact hchecked.end hphase hp.endCb (fun ρ hist h => ⟨h.1, Or.inl h.2⟩) hload
  | loaded name rest hphase hnext =>
      exact absurd (hload _ (List.mem_cons_self ..)) Bool.noConfusion
  | idle hphase hnext => exact ⟨hw.cmdSend_eq, htally⟩

end Steps

/-! ## Runs -/

/-- A descriptor was just loaded, and the log begins here. -/
structure JustLoaded (w : CmdWorld S) : Prop where
  phase_eq : w.phase = .send
  hist_eq : w.hist = []

lemma JustLoaded.tries {w : CmdWorld S} (h : JustLoaded w) : Tries w.cmdSend w where
  cmdSend_eq := rfl
  tally := by
    rw [h.phase_eq, h.hist_eq]
    exact ⟨Nat.zero_add _, rfl⟩

/-- The invariant holds for any number of calls, whatever happens between them. -/
theorem cmdTaskAfter_tries {code : CmdCode S} {p : CmdProcess S} (hp : QuietCallbacks code p)
    {w : CmdWorld S} (i : S.State × (ℕ → UInt32)) (hw : Tries p w)
    (hload : NoLoad (cmdTaskAfter code w i)) : Tries p (cmdTaskAfter code w i) :=
  cmdTask_tries (w := w.own i.1 i.2 []) hp ⟨hw.cmdSend_eq, hw.tally⟩ hload

/-- **Retry accounting.**  Between the load of a descriptor with `retryNum = r`, whose send and
receive callbacks leave the engine alone, and the next load: the command is sent at most `r + 1`
times; `AMPM_CMD_OK` is reached only if the receive callback returned `AMPM_CMD_DELAY` after the
latest send or the end callback stored `AMPM_CMD_OK` itself; and `AMPM_CMD_GOTO_ERROR` is reached
only after exactly `r + 1` sends, each followed by a timeout or by `AMPM_CMD_RESEND`. -/
theorem cmdTask_retries (code : CmdCode S) (w₀ : CmdWorld S) (hw₀ : JustLoaded w₀)
    (hp : QuietCallbacks code w₀.cmdSend) (is : List (S.State × (ℕ → UInt32)))
    (hload : Runs.Throughout (cmdTaskAfter code) NoLoad w₀ is) :
    let r := w₀.cmdSend.retryNum.toNat
    let w := Runs.run (cmdTaskAfter code) w₀ is
    sends w.hist ≤ r + 1 ∧
    (w.phase = .ok → answered w.hist = true ∨ .setOk ∈ w.hist) ∧
    (w.phase = .gotoError → sends w.hist = r + 1 ∧ eachFailed false w.hist = true) := by
  intro r w
  have hw : Tries w₀.cmdSend w :=
    Runs.run_invariant_within (fun _ i hs hP => cmdTaskAfter_tries hp i hs hP) hw₀.tries hload
  have htally := hw.tally
  refine ⟨htally.sends_le, fun hok => ?_, fun herr => ?_⟩
  · rw [hok] at htally
    exact htally.2
  · rw [herr] at htally
    exact htally

/-! ### A command whose success is not checked -/

/-- A firmware with one descriptor and nothing else to see. -/
abbrev uncheckedTypes : CmdTypes :=
  { Name := Unit, App := Unit, SendCb := Unit, RecvCb := Unit, EndCb := Unit, State := Unit,
    Event := Unit }

/-- A start-up command as case `'F'` of `AMPM_GSM_Startup` builds it: one retry, `Ampm_SetCmdOK` at
the end.  The modem never answers. -/
def uncheckedCode : CmdCode uncheckedTypes where
  process _ := ⟨none, none, some (), some (), some (), 1, 1000, 100⟩
  send _ w := w
  recv _ w := (CmdPhase.wait.code.toUInt32, w)
  endCb _ _ w := setCmdOk w

/-- The engine just after that command was loaded. -/
def uncheckedStart : CmdWorld uncheckedTypes :=
  { phase := .send, cmdSend := uncheckedCode.process (), loaded := none, cmdList := [],
    taskTimeout := initTimeout 0 100, clock := fun _ => 0, app := (), hist := [] }

/-- Calls at the given ticks. -/
def callsAt (ticks : List UInt32) : List (uncheckedTypes.State × (ℕ → UInt32)) :=
  ticks.map fun t => ((), fun _ => t)

lemma uncheckedCode_quiet : QuietCallbacks uncheckedCode uncheckedStart.cmdSend where
  send := ⟨(), rfl, fun w => ⟨w.app, w.clock, [], rfl⟩⟩
  recv := ⟨(), rfl, fun w => ⟨w.app, w.clock, [], rfl⟩⟩
  endCb _ _ _ w := .setOk (.nothing w)

/-- The hypotheses are met by the unanswered start-up command: two sends, then the error phase. -/
theorem cmdTask_retries_unchecked :
    let w := Runs.run (cmdTaskAfter uncheckedCode) uncheckedStart
      (callsAt [1000, 5000, 6000, 9000, 13000, 14000])
    sends w.hist ≤ 1 + 1 ∧
    (w.phase = .ok → answered w.hist = true ∨ .setOk ∈ w.hist) ∧
    (w.phase = .gotoError → sends w.hist = 1 + 1 ∧ eachFailed false w.hist = true) :=
  cmdTask_retries uncheckedCode uncheckedStart ⟨rfl, rfl⟩ uncheckedCode_quiet
    (callsAt [1000, 5000, 6000, 9000, 13000, 14000])  (by decide)

/-- `AMPM_CMD_OK` is not only reached after an answer: the unanswered start-up command ends in
it. -/
theorem cmdTask_ok_unanswered :
    ¬ ∀ (S : CmdTypes) (code : CmdCode S) (w₀ : CmdWorld S), JustLoaded w₀ →
      QuietCallbacks code w₀.cmdSend → ∀ is : List (S.State × (ℕ → UInt32)),
      Runs.Throughout (cmdTaskAfter code) NoLoad w₀ is →
      (Runs.run (cmdTaskAfter code) w₀ is).phase = .ok →
      answered (Runs.run (cmdTaskAfter code) w₀ is).hist = true := by
  intro h
  have hans := h uncheckedTypes uncheckedCode uncheckedStart ⟨rfl, rfl⟩ uncheckedCode_quiet
    (callsAt [1000, 5000, 6000, 9000, 13000, 14000, 15000])  (by decide) (by decide)
  exact absurd hans (by decide)

end Ampm

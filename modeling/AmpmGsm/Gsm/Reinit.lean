import AmpmGsm.Gsm.MainEnds

/-!
# What a re-initialisation leaves of pending work

`AMPM_GSM_MAIN_INIT_PHASE` empties the list of commands and sets the phase of the engine to
`AMPM_CMD_OK`, and so drops the command in hand; the link of that command stays.  With the next
call of `Ampm_Cmd_Task` the chain goes on where it was.

* `Renewed` — in a log, no callback was invoked before the main task handed over a command.
* `Discards` — what is asked of the first branch.
* `OldInv` — the invariant: until a command is handed over, the engine has nothing to do.
* **`discards_iff`** — the branch discards what is pending just if the command in hand has no link.
-/

namespace Ampm

open Runs Fuel

/-! ## The property -/

/-- In the log since the branch, newest first, every call of a send or end callback comes after a
command of the main task, which replaces the descriptor in hand, link and all. -/
def Renewed : List (CmdEvent gsmTypes) → Prop
  | [] => True
  | e :: older => (e.isCall = true → ∃ x ∈ older, CmdEvent.isIssue x = true) ∧ Renewed older

/-- The state in which the `switch` finds the task. -/
def atSwitch (i : MainInput) (w : GsmWorld) : GsmWorld := mainModemReset (w.outside i.outside)

/-- The iteration executes its first branch, and ends. -/
def ExecutesInit (i : MainInput) (w : GsmWorld) : Prop :=
  (atSwitch i w).app.main.taskPhase = .init ∧ (mainTask i (w.outside i.outside)).isSome = true

/-- In no continuation a callback is invoked of a descriptor from before the branch. -/
def Discards (i : MainInput) (w : GsmWorld) : Prop :=
  ∀ is events, (run mainStep (mainStep w i) is).hist =
    events ++ (mainInit (atSwitch i w)).hist → Renewed events

lemma Renewed.append_quiet {es : List (CmdEvent gsmTypes)} (h : Renewed es) :
    ∀ {es' : List (CmdEvent gsmTypes)}, (∀ e ∈ es', CmdEvent.isCall e = false) →
      Renewed (es' ++ es) := by
  intro es' hquiet
  induction es' with
  | nil => exact h
  | cons e rest ih =>
      obtain ⟨he, hrest⟩ := List.forall_mem_cons.mp hquiet
      exact ⟨fun hcall => absurd (he.symm.trans hcall) Bool.false_ne_true, ih hrest⟩

lemma Renewed.append_issued {es : List (CmdEvent gsmTypes)} (h : Renewed es)
    (hissue : ∃ e ∈ es, CmdEvent.isIssue e = true) (es' : List (CmdEvent gsmTypes)) :
    Renewed (es' ++ es) := by
  induction es' with
  | nil => exact h
  | cons e rest ih =>
      obtain ⟨x, hx, hxi⟩ := hissue
      exact ⟨fun _ => ⟨x, List.mem_append_right _ hx, hxi⟩, ih⟩

/-- What is asked of a call in the middle of the log. -/
lemma Renewed.call {e : CmdEvent gsmTypes} {newer older : List (CmdEvent gsmTypes)}
    (h : Renewed (newer ++ e :: older)) (hcall : e.isCall = true) :
    ∃ x ∈ older, CmdEvent.isIssue x = true := by
  induction newer with
  | nil => exact h.1 hcall
  | cons _ _ ih => exact ih h.2

/-! ## The invariant -/

/-- The engine has nothing to do. -/
structure Fresh (w : GsmWorld) : Prop where
  idle : cmdTaskIsIdle w.phase = true
  next_eq : w.cmdSend.next = none
  cmdList_eq : w.cmdList = []

/-- Since the log was `base`, no old descriptor was served, and none will be. -/
def OldInv (base : List (CmdEvent gsmTypes)) (w : GsmWorld) : Prop :=
  ∃ events, w.hist = events ++ base ∧ Renewed events ∧
    ((∃ e ∈ events, CmdEvent.isIssue e = true) ∨ Fresh w)

section Invariant

variable {base : List (CmdEvent gsmTypes)} {w w' : GsmWorld}

/-- A step without a call that issues a command or leaves the engine idle. -/
lemma OldInv.quiet (h : OldInv base w) {es : List (CmdEvent gsmTypes)}
    (hhist : w'.hist = es ++ w.hist) (hquiet : ∀ e ∈ es, CmdEvent.isCall e = false)
    (hfresh : (∃ e ∈ es, CmdEvent.isIssue e = true) ∨ (Fresh w → Fresh w')) :
    OldInv base w' := by
  obtain ⟨events, hevents, hrenewed, hor⟩ := h
  refine ⟨es ++ events, by rw [hhist, hevents, List.append_assoc],
    hrenewed.append_quiet hquiet, ?_⟩
  rcases hfresh with ⟨e, he, hissue⟩ | hfresh
  · exact Or.inl ⟨e, List.mem_append_left _ he, hissue⟩
  · rcases hor with ⟨e, he, hissue⟩ | hold
    · exact Or.inl ⟨e, List.mem_append_right _ he, hissue⟩
    · exact Or.inr (hfresh hold)

lemma OldInv.serves (h : OldInv base w) (hserves : Serves w w') : OldInv base w' := by
  obtain ⟨-, ⟨es, hes, hquiet, hkept⟩, hlist⟩ := hserves
  refine h.quiet hes hquiet (hkept.imp_right fun ⟨hnext, hphase⟩ hold => ?_)
  refine ⟨?_, hnext.trans hold.next_eq, hlist.trans hold.cmdList_eq⟩
  rcases hphase with heq | hok
  · rw [heq]
    exact hold.idle
  · rw [hok]
    rfl

lemma OldInv.init (h : OldInv base w) : OldInv base (mainInit w) := by
  obtain ⟨hphase, hcmd, hlist, -, hhist, -⟩ := mainInit_eq w
  have hhist' : (mainInit w).hist = (.app .mainInit :: closedLink w) ++ w.hist := hhist
  refine h.quiet hhist' ?_ (Or.inr fun hold => ?_)
  · unfold closedLink
    split_ifs
    · exact List.forall_mem_cons.mpr ⟨rfl, List.forall_mem_singleton.mpr rfl⟩
    · exact List.forall_mem_singleton.mpr rfl
  · exact ⟨by rw [hphase]; rfl, by rw [hcmd, hold.next_eq], hlist⟩

/-- The log of an engine call. -/
lemma mainCmdTask_hist (w : GsmWorld) : ∃ es, (mainCmdTask w).hist = es ++ w.hist := by
  obtain ⟨es, hes, -⟩ := (cmdTask_moves w).hist
  unfold mainCmdTask
  dsimp only
  split_ifs
  · exact ⟨.app (.ended w.loaded (cmdTask mainCode w).phase) :: es, congrArg _ hes⟩
  · exact ⟨es, hes⟩

lemma mainCmdTask_of_fresh (h : Fresh w) : mainCmdTask w = w := by
  unfold mainCmdTask
  rw [cmdTask_of_idle mainCode h.idle h.next_eq h.cmdList_eq, h.idle]
  rfl

lemma OldInv.cmdTask (h : OldInv base w) : OldInv base (mainCmdTask w) := by
  obtain ⟨events, hevents, hrenewed, ⟨e, he, hissue⟩ | hold⟩ := h
  · obtain ⟨es, hes⟩ := mainCmdTask_hist w
    exact ⟨es ++ events, by rw [hes, hevents, List.append_assoc],
      hrenewed.append_issued ⟨e, he, hissue⟩ es, Or.inl ⟨e, List.mem_append_right _ he, hissue⟩⟩
  · rw [mainCmdTask_of_fresh hold]
    exact ⟨events, hevents, hrenewed, Or.inr hold⟩

lemma OldInv.engine (h : OldInv base w) : OldInv base (mainEngine w) := by
  unfold mainEngine
  split_ifs
  · exact (h.serves ((Serves.refl w).setApp _ (by exact .of_eq ⟨rfl, rfl⟩))).cmdTask
  · exact h

lemma OldInv.phase {i : MainInput} (h : OldInv base w) (hphase : mainPhase i w = some w') :
    OldInv base w' := by
  have hstep := mainPhase_step hphase
  by_cases hinit : w.app.main.taskPhase = .init
  · obtain rfl : w' = mainInit w := by
      unfold mainPhase at hphase
      rw [hinit] at hphase
      exact (Option.some_inj.mp hphase).symm
    exact h.init
  · exact h.serves (hstep.serves hinit)

lemma OldInv.outside (h : OldInv base w) (o : Outside) : OldInv base (w.outside o) := by
  obtain ⟨events, hevents, hrenewed, hor⟩ := h
  exact ⟨events, hevents, hrenewed, hor.imp_right fun hold => ⟨hold.1, hold.2, hold.3⟩⟩

lemma OldInv.modemReset (h : OldInv base w) : OldInv base (mainModemReset w) := by
  unfold mainModemReset
  split_ifs
  · exact h.serves (((Serves.refl w).setMain _ (by exact rfl)).setTask _)
  · exact h

/-- **An iteration keeps the invariant.** -/
theorem OldInv.step (h : OldInv base w) (i : MainInput) : OldInv base (mainStep w i) := by
  have hout := h.outside i.outside
  unfold mainStep
  cases htask : mainTask i (w.outside i.outside) with
  | none => exact hout
  | some w' =>
      obtain ⟨w1, w2, -, hphase, haside, haside'⟩ := mainTask_step htask
      exact (((hout.modemReset.phase hphase).serves haside.serves).engine).serves haside'.serves

end Invariant

/-! ## The iteration of the branch -/

section Branch

variable {i : MainInput} {w : GsmWorld}

lemma atSwitch_eq (i : MainInput) (w : GsmWorld) :
    (atSwitch i w).cmdSend = w.cmdSend ∧
      (atSwitch i w).app.smsTaskFailCnt = w.app.smsTaskFailCnt := by
  unfold atSwitch mainModemReset
  split_ifs <;> exact ⟨rfl, rfl⟩

/-- What the iteration consists of. -/
lemma init_iteration (h : ExecutesInit i w) :
    ∃ w2, w.app.smsTaskFailCnt < 10 ∧ Aside (mainInit (atSwitch i w)) w2 ∧
      Aside (mainEngine w2) (mainStep w i) := by
  obtain ⟨htask, hends⟩ := h
  obtain ⟨w', hw'⟩ := Option.isSome_iff_exists.mp hends
  obtain ⟨w1, w2, hcnt, hphase, haside, haside'⟩ := mainTask_step hw'
  obtain rfl : w1 = mainInit (atSwitch i w) := by
    unfold mainPhase at hphase
    rw [show (mainModemReset (w.outside i.outside)).app.main.taskPhase = .init from htask] at hphase
    exact (Option.some_inj.mp hphase).symm
  refine ⟨w2, hcnt, haside, ?_⟩
  unfold mainStep
  rw [hw']
  exact haside'

/-- **A descriptor in hand without a link leaves nothing behind.** -/
theorem discards_of_unlinked (h : ExecutesInit i w) (hnext : w.cmdSend.next = none) :
    Discards i w := by
  intro is events hrun
  obtain ⟨w2, -, haside, haside'⟩ := init_iteration h
  obtain ⟨hphase, hcmd, hlist, -⟩ := mainInit_eq (atSwitch i w)
  have hfresh : Fresh (mainInit (atSwitch i w)) :=
    ⟨by rw [hphase]; rfl, by rw [hcmd, (atSwitch_eq i w).1, hnext], hlist⟩
  have hstart : OldInv (mainInit (atSwitch i w)).hist (mainInit (atSwitch i w)) :=
    ⟨[], rfl, trivial, Or.inr hfresh⟩
  have hfirst := (hstart.serves haside.serves).engine.serves haside'.serves
  obtain ⟨events', hevents', hrenewed, -⟩ := run_invariant (I := OldInv _)
    (fun _ i hold => hold.step i) is hfirst
  rwa [List.append_cancel_right (hrun.symm.trans hevents')]

/-! ## The link -/

/-- The engine is about to send the command `name`, which was loaded at the tick `t` after the
branch, with no command of the main task since. -/
structure Resumed (base : List (CmdEvent gsmTypes)) (name : GsmCmd) (t : UInt32) (w : GsmWorld) :
    Prop where
  phase_eq : w.phase = .send
  cmdSend_eq : w.cmdSend = gsmProcess name
  timeout_eq : w.taskTimeout = initTimeout t (gsmProcess name).delay.toUInt32
  hist_eq : ∃ events, w.hist = events ++ base ∧ ∀ e ∈ events, CmdEvent.isIssue e = false

variable {base : List (CmdEvent gsmTypes)} {name : GsmCmd} {t : UInt32} {w' : GsmWorld}

lemma Resumed.aside (h : Resumed base name t w) (haside : Aside w w') :
    Resumed base name t w' := by
  obtain ⟨hphase, hcmd, -, -, htimeout⟩ := haside.engine
  obtain ⟨es, hes, hreport⟩ := haside.hist
  obtain ⟨events, hevents, hissue⟩ := h.hist_eq
  refine ⟨hphase.trans h.phase_eq, hcmd.trans h.cmdSend_eq, htimeout.trans h.timeout_eq,
    es ++ events, ?_, ?_⟩
  · rw [hes, hevents, List.append_assoc]
  · exact List.forall_mem_append.mpr
      ⟨fun e he => (CmdEvent.isReport_only (hreport e he)).1, hissue⟩

/-- With a link the engine loads the next command of the old chain. -/
lemma resumed_of_linked (h : ExecutesInit i w) (hnext : w.cmdSend.next = some name) :
    (∃ t, Resumed (mainInit (atSwitch i w)).hist name t (mainStep w i)) ∧
      (mainStep w i).app.main.taskPhase = .startup ∧
      (mainStep w i).app.main.startupPhase = .init ∧
      (mainStep w i).app.smsTaskFailCnt < 10 := by
  obtain ⟨w2, hcnt, haside, haside'⟩ := init_iteration h
  obtain ⟨hphase, hcmd, -, -, -, htask, hstartup, -, hfail⟩ := mainInit_eq (atSwitch i w)
  obtain ⟨hphase2, hcmd2, -⟩ := haside.engine
  obtain ⟨es, hes, hreport⟩ := haside.hist
  have htask2 : w2.app.main.taskPhase = .startup := haside.taskPhase_eq.trans htask
  have hfail2 : w2.app.smsTaskFailCnt < 10 := by
    rw [haside.failCnt_eq, hfail, (atSwitch_eq i w).2]
    exact hcnt
  have hengine : mainEngine w2 =
      (w2.setApp { w2.app with atCommandParserEnable := true }).load gsmProcess name := by
    have hidle : cmdTaskIsIdle w2.phase = true := by
      rw [hphase2, hphase]
      rfl
    unfold mainEngine mainCmdTask
    rw [if_pos (by rw [htask2]; exact nofun), cmdTask_of_next mainCode (by exact hidle)
      (by rw [CmdWorld.setApp_cmdSend, hcmd2, hcmd, (atSwitch_eq i w).1, hnext]),
      CmdWorld.setApp_phase, hidle]
    rfl
  rw [hengine] at haside'
  refine ⟨⟨w2.clock 0, Resumed.aside ⟨rfl, rfl, rfl, .load (some name) :: es, ?_, ?_⟩ haside'⟩,
    ?_, ?_, ?_⟩
  · rw [CmdWorld.load_hist, CmdWorld.setApp_hist, hes]
    rfl
  · exact List.forall_mem_cons.mpr
      ⟨rfl, fun e he => (CmdEvent.isReport_only (hreport e he)).1⟩
  · exact haside'.taskPhase_eq.trans htask2
  · exact haside'.startupPhase_eq.trans (haside.startupPhase_eq.trans hstartup)
  · rw [haside'.failCnt_eq]
    exact hfail2

/-- When its delay has passed the command is sent. -/
lemma Resumed.sends (h : Resumed base name t w) (hclock : w.clock 0 = t - 1) :
    ∃ es events, (mainCmdTask w).hist = es ++ .send w.loaded :: (events ++ base) ∧
      ∀ e ∈ events, CmdEvent.isIssue e = false := by
  obtain ⟨events, hevents, hissue⟩ := h.hist_eq
  have hdelay : (gsmProcess name).delay.toUInt32 ≤ 0xFFFFFFFE := by
    have hlt := (gsmProcess name).delay.toNat_lt
    rw [UInt32.le_iff_toNat_le, UInt16.toNat_toUInt32]
    simp only [UInt32.reduceToNat]
    omega
  have hexp : w.taskExpired = true := by
    unfold CmdWorld.taskExpired
    rw [h.timeout_eq, hclock, checkTimeout_before _ _ hdelay]
    rfl
  have hcallback : w.cmdSend.sendDataCallback = some .gsmSendCallback := by
    rw [h.cmdSend_eq]
    exact (gsmProcess_callbacks name).1
  have hsend := cmdTask_of_send mainCode h.phase_eq hexp hcallback
  obtain ⟨es, hes, -⟩ := (gsmSendCallback_moves (w.checkTask.log (.send w.loaded))).hist
  have hhist : (cmdTask mainCode w).hist = es ++ .send w.loaded :: (events ++ base) := by
    rw [hsend, ← hevents]
    exact hes
  unfold mainCmdTask
  dsimp only
  split_ifs
  · exact ⟨.app (.ended w.loaded (cmdTask mainCode w).phase) :: es, events,
      by rw [CmdWorld.log_hist, hhist]; rfl, hissue⟩
  · exact ⟨es, events, hhist, hissue⟩

/-- The first step of the start-up only sets its delay. -/
lemma mainStartup_init (h : w.app.main.startupPhase = .init) :
    (mainStartup w).phase = w.phase ∧ (mainStartup w).cmdSend = w.cmdSend ∧
      (mainStartup w).taskTimeout = w.taskTimeout ∧ (mainStartup w).hist = w.hist ∧
      (∀ k, (mainStartup w).clock k = w.clock (k + 1)) ∧
      (mainStartup w).app.main.taskPhase = w.app.main.taskPhase := by
  simp [mainStartup, startup, h, startupDelay, setStartup]

/-- What the iteration after the branch meets when nothing happened and time has passed. -/
def quietly (t : UInt32) : MainInput :=
  { answers 0 with
    outside :=
      { app := gsmReset
        clock := fun _ => t - 1
        smsList_nodup := List.nodup_nil
        callList_nodup := List.nodup_nil } }

/-- An iteration that ends, with what it takes. -/
lemma exists_mainTask (h : Ends i (w.outside i.outside)) :
    ∃ rounds, mainTask { i with rounds := rounds } (w.outside i.outside) =
      some (mainStep w { i with rounds := rounds }) := by
  obtain ⟨w', rounds, hrounds⟩ := h
  have hsome : mainTask { i with rounds := rounds } (w.outside i.outside) = some w' :=
    hrounds rounds (Nat.le_refl _)
  refine ⟨rounds, ?_⟩
  unfold mainStep
  dsimp only
  rw [hsome, Option.getD_some]

/-- The iteration of the start-up that sends the command which the engine has loaded. -/
lemma Resumed.step (h : Resumed base name t w) (htask : w.app.main.taskPhase = .startup)
    (hstartup : w.app.main.startupPhase = .init) (hfail : w.app.smsTaskFailCnt < 10) :
    ∃ i' es sent events, (mainStep w i').hist = es ++ .send sent :: (events ++ base) ∧
      ∀ e ∈ events, CmdEvent.isIssue e = false := by
  obtain ⟨rounds, hrounds⟩ := exists_mainTask (i := quietly t) (w := w)
    ((ends_iff List.nodup_nil List.nodup_nil).mpr hfail)
  refine ⟨{ quietly t with rounds := rounds }, ?_⟩
  obtain ⟨w1, w2, -, hphase, haside, haside'⟩ := mainTask_step hrounds
  generalize mainStep w { quietly t with rounds := rounds } = w' at haside'
  have hreset : mainModemReset (w.outside (quietly t).outside) = w.outside (quietly t).outside :=
    if_neg Bool.false_ne_true
  have hclock : ∀ k, (w.outside (quietly t).outside).clock k = t - 1 := fun _ => rfl
  have hout : Resumed base name t (w.outside (quietly t).outside) := ⟨h.1, h.2, h.3, h.4⟩
  have htask' : (w.outside (quietly t).outside).app.main.taskPhase = .startup := htask
  have hstartup' : (w.outside (quietly t).outside).app.main.startupPhase = .init := hstartup
  rw [hreset] at hphase
  generalize w.outside (quietly t).outside = u at hphase hclock hout htask' hstartup'
  obtain rfl : w1 = mainStartup u := by
    unfold mainPhase at hphase
    rw [htask'] at hphase
    exact (Option.some_inj.mp hphase).symm
  obtain ⟨hphase1, hcmd1, htimeout1, hhist1, hclock1, htask1⟩ := mainStartup_init hstartup'
  have hresumed1 : Resumed base name t (mainStartup u) :=
    ⟨hphase1.trans hout.phase_eq, hcmd1.trans hout.cmdSend_eq, htimeout1.trans hout.timeout_eq,
      by rw [hhist1]; exact hout.hist_eq⟩
  obtain ⟨ticks, hticks⟩ := haside.clock
  have hclock2 : w2.clock 0 = t - 1 := by rw [hticks, hclock1, hclock]
  have hresumed2 := hresumed1.aside haside
  obtain ⟨es, events, hes, hissue⟩ := Resumed.sends
    (w := w2.setApp { w2.app with atCommandParserEnable := true })
    ⟨hresumed2.1, hresumed2.2, hresumed2.3, hresumed2.4⟩ hclock2
  have hengine : mainEngine w2 =
      mainCmdTask (w2.setApp { w2.app with atCommandParserEnable := true }) :=
    if_pos (by rw [haside.taskPhase_eq, htask1, htask']; exact nofun)
  obtain ⟨es', hes', -⟩ := haside'.hist
  refine ⟨es' ++ es, w2.loaded, events, ?_, hissue⟩
  rw [hes', hengine, hes, List.append_assoc]
  rfl

/-- **A link brings the rest of the old chain back.** -/
theorem not_discards_of_linked (h : ExecutesInit i w) (hnext : w.cmdSend.next = some name) :
    ¬ Discards i w := by
  intro hdiscards
  obtain ⟨⟨t, hresumed⟩, htask, hstartup, hfail⟩ := resumed_of_linked h hnext
  obtain ⟨i', es, sent, events, hes, hissue⟩ := hresumed.step htask hstartup hfail
  have hrenewed := hdiscards [i'] (es ++ .send sent :: events)
    (by rw [List.append_assoc]; exact hes)
  obtain ⟨e, he, hissued⟩ := hrenewed.call rfl
  exact Bool.false_ne_true ((hissue e he).symm.trans hissued)

/-- **The branch discards what is pending just if the command in hand has no link.** -/
theorem discards_iff (i : MainInput) (w : GsmWorld) (h : ExecutesInit i w) :
    Discards i w ↔ w.cmdSend.next = none := by
  refine ⟨fun hdiscards => ?_, discards_of_unlinked h⟩
  cases hnext : w.cmdSend.next with
  | none => rfl
  | some name => exact absurd hdiscards (not_discards_of_linked h hnext)

/-- What the `k`-th iteration meets after a request to reset the modem. -/
def resets (k : ℕ) : MainInput :=
  { answers k with
    outside :=
      { (answers k).outside with
        app := { gsmReset with main := { gsmReset.main with modemResetFlag := true } } } }

/-- The modem is reset while a command that is followed by none waits for its answer. -/
theorem discards_waiting :
    (run mainStep mainStart ((List.range 17).map answers)).phase = .wait ∧
      Discards (resets 17) (run mainStep mainStart ((List.range 17).map answers)) :=
  ⟨by decide +kernel,
    (discards_iff _ _ ⟨by decide +kernel, by decide +kernel⟩).mpr (by decide +kernel)⟩

/-- The modem is reset while the first of the commands that read the messages is on its way. -/
theorem discards_polling :
    ¬ Discards (resets 66) (run mainStep mainStart ((List.range 66).map answers)) := by
  rw [discards_iff _ _ ⟨by decide +kernel, by decide +kernel⟩]
  intro hnext
  have hlinked : (run mainStep mainStart ((List.range 66).map answers)).cmdSend.next.isSome =
      true := by decide +kernel
  rw [hnext] at hlinked
  exact Bool.false_ne_true hlinked

end Branch

end Ampm

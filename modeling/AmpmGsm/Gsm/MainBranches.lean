import AmpmGsm.Gsm.MainTask

/-!
# What the branches of the main task do

What holds over a run of the main task rests on what each branch of its `switch`, and what follows
the `switch`, does to the engine, to the link and to the lists.  This file says it once.

* `ListsShrink` — the lists lost items at most.
* `Aside` — neither the engine nor the phase of the task nor the link was touched.
* `Serves` — no callback of a descriptor was invoked, and what was in hand was left or replaced.
* `Works` — besides, the link was left alone.
* `mainSecond_aside`, … — what follows the `switch` is done aside.
* `PhaseStep`, `mainPhase_step` — the branches, with the phases that they lead to.
* `PhaseStep.serves` — every branch but the first serves.
-/

namespace Ampm

/-! ## Events -/

/-- The report on a message. -/
def CmdEvent.isReport : CmdEvent gsmTypes → Bool
  | .app (.completed _) => true
  | .app (.statusOk _) => true
  | _ => false

/-- The main task handed a command to the engine. -/
def CmdEvent.isIssue : CmdEvent gsmTypes → Bool
  | .app (.attempt _) => true
  | .app (.issued _) => true
  | .app (.issuedText _) => true
  | _ => false

/-- The send or the end callback of a descriptor was invoked. -/
def CmdEvent.isCall : CmdEvent gsmTypes → Bool
  | .send _ => true
  | .endCall _ _ => true
  | _ => false

/-- The link was opened, closed or read. -/
def CmdEvent.isLink : CmdEvent gsmTypes → Bool
  | .app (.pppOpened _) => true
  | .app (.pppClosed _) => true
  | .app (.pppInput _) => true
  | _ => false

/-- What was done to the link, newest first. -/
def linkEvents (hist : List (CmdEvent gsmTypes)) : List (CmdEvent gsmTypes) :=
  hist.filter CmdEvent.isLink

lemma CmdEvent.isReport_only {e : CmdEvent gsmTypes} (h : e.isReport = true) :
    e.isIssue = false ∧ e.isCall = false ∧ e.isLink = false := by
  cases e with
  | app e => cases e <;> first | exact ⟨rfl, rfl, rfl⟩ | exact absurd h Bool.false_ne_true
  | _ => exact absurd h Bool.false_ne_true

/-! ## Aside -/

/-- The lists lost items at most. -/
structure ListsShrink (s s' : GsmState) : Prop where
  smsList_sub : s'.smsList.Sublist s.smsList
  callList_sub : s'.main.callList.Sublist s.main.callList

namespace ListsShrink

variable {s s' s'' : GsmState}

lemma of_eq (h : s'.smsList = s.smsList ∧ s'.main.callList = s.main.callList) :
    ListsShrink s s' :=
  ⟨h.1 ▸ .refl _, h.2 ▸ .refl _⟩

lemma refl (s : GsmState) : ListsShrink s s := of_eq ⟨rfl, rfl⟩

lemma trans (h : ListsShrink s s') (h' : ListsShrink s' s'') : ListsShrink s s'' :=
  ⟨h'.smsList_sub.trans h.smsList_sub, h'.callList_sub.trans h.callList_sub⟩

end ListsShrink

/-- The variables that only the branches and the commands write. -/
structure Vitals where
  commonAppStruct : AtCmdPacket
  atCmd : GsmPacket
  smsTaskFailCnt : UInt8
  taskPhase : MainPhase
  startupPhase : StartupPhase
  dialupPhase : DialupPhase
  thisPpp : ℤ
  mainTaskTryCnt : UInt8

/-- Their values. -/
def GsmState.vitals (s : GsmState) : Vitals :=
  { commonAppStruct := s.commonAppStruct
    atCmd := s.atCmd
    smsTaskFailCnt := s.smsTaskFailCnt
    taskPhase := s.main.taskPhase
    startupPhase := s.main.startupPhase
    dialupPhase := s.main.dialupPhase
    thisPpp := s.main.thisPpp
    mainTaskTryCnt := s.main.mainTaskTryCnt }

/-- From `w` to `w'`, beside the engine and these variables. -/
structure Aside (w w' : GsmWorld) : Prop where
  lists : ListsShrink w.app w'.app
  engine : w'.phase = w.phase ∧ w'.cmdSend = w.cmdSend ∧ w'.loaded = w.loaded ∧
    w'.cmdList = w.cmdList ∧ w'.taskTimeout = w.taskTimeout
  clock : ∃ ticks, ∀ k, w'.clock k = w.clock (k + ticks)
  vitals : w'.app.vitals = w.app.vitals
  hist : ∃ events, w'.hist = events ++ w.hist ∧ ∀ e ∈ events, CmdEvent.isReport e = true

namespace Aside

variable {w w' w'' : GsmWorld}

lemma refl (w : GsmWorld) : Aside w w :=
  ⟨.refl _, ⟨rfl, rfl, rfl, rfl, rfl⟩, ⟨0, fun _ => rfl⟩, rfl, [], rfl, List.forall_mem_nil _⟩

lemma trans (h : Aside w w') (h' : Aside w' w'') : Aside w w'' := by
  obtain ⟨hlists, ⟨hp, hc, hl, hs, ht⟩, ⟨ticks, hticks⟩, hvitals, es, hes, hreport⟩ := h
  obtain ⟨hlists', ⟨hp', hc', hl', hs', ht'⟩, ⟨ticks', hticks'⟩, hvitals', es', hes', hreport'⟩ := h'
  refine ⟨hlists.trans hlists',
    ⟨hp'.trans hp, hc'.trans hc, hl'.trans hl, hs'.trans hs, ht'.trans ht⟩,
    ⟨ticks' + ticks, fun k => ?_⟩, hvitals'.trans hvitals, es' ++ es, ?_, ?_⟩
  · rw [hticks', hticks, Nat.add_assoc]
  · rw [hes', hes, List.append_assoc]
  · exact List.forall_mem_append.mpr ⟨hreport', hreport⟩

/-- A write to other variables. -/
lemma setApp (h : Aside w w') (app : GsmState) (hlists : ListsShrink w'.app app)
    (hvitals : app.vitals = w'.app.vitals) : Aside w (w'.setApp app) :=
  h.trans ⟨hlists, ⟨rfl, rfl, rfl, rfl, rfl⟩, ⟨0, fun _ => rfl⟩, hvitals, [], rfl,
    List.forall_mem_nil _⟩

/-- A write to other variables of the main task. -/
lemma setMain (h : Aside w w') (main : MainVars) (hcall : main.callList = w'.app.main.callList)
    (hvitals : ({ w'.app with main := main } : GsmState).vitals = w'.app.vitals) :
    Aside w (w'.setMain main) :=
  h.setApp _ (.of_eq ⟨rfl, hcall⟩) hvitals

lemma ticked (h : Aside w w') : Aside w w'.ticked :=
  h.trans ⟨.refl _, ⟨rfl, rfl, rfl, rfl, rfl⟩, ⟨1, fun _ => rfl⟩, rfl, [], rfl,
    List.forall_mem_nil _⟩

lemma log (h : Aside w w') (e : CmdEvent gsmTypes) (he : e.isReport = true) :
    Aside w (w'.log e) :=
  h.trans ⟨.refl _, ⟨rfl, rfl, rfl, rfl, rfl⟩, ⟨0, fun _ => rfl⟩, rfl, [e], rfl,
    List.forall_mem_singleton.mpr he⟩

lemma taskPhase_eq (h : Aside w w') : w'.app.main.taskPhase = w.app.main.taskPhase :=
  congrArg Vitals.taskPhase h.vitals

lemma startupPhase_eq (h : Aside w w') : w'.app.main.startupPhase = w.app.main.startupPhase :=
  congrArg Vitals.startupPhase h.vitals

lemma failCnt_eq (h : Aside w w') : w'.app.smsTaskFailCnt = w.app.smsTaskFailCnt :=
  congrArg Vitals.smsTaskFailCnt h.vitals

lemma dialupPhase_eq (h : Aside w w') : w'.app.main.dialupPhase = w.app.main.dialupPhase :=
  congrArg Vitals.dialupPhase h.vitals

lemma thisPpp_eq (h : Aside w w') : w'.app.main.thisPpp = w.app.main.thisPpp :=
  congrArg Vitals.thisPpp h.vitals

lemma linkEvents_eq (h : Aside w w') : linkEvents w'.hist = linkEvents w.hist := by
  obtain ⟨es, hes, hreport⟩ := h.hist
  have hnone : es.filter CmdEvent.isLink = [] :=
    List.filter_eq_nil_iff.mpr fun e he =>
      Bool.not_eq_true _ ▸ (CmdEvent.isReport_only (hreport e he)).2.2
  rw [linkEvents, hes, List.filter_append, hnone, List.nil_append]
  rfl

end Aside

/-! ### What is done aside -/

lemma smsWalkWithin_some {σ : Type} {body : ℕ → σ → Option ℕ × σ} {rounds : ℕ}
    {item : Option ℕ} {s s' : σ} (h : smsWalkWithin body rounds item s = some s') :
    smsWalk body rounds item s = (none, s') := by
  unfold smsWalkWithin at h
  split at h
  · next heq => exact heq.trans (congrArg _ (Option.some_inj.mp h))
  · exact absurd h nofun

/-- What the rounds of a loop keep, the loop keeps. -/
lemma smsWalk_keeps {σ : Type} {R : σ → σ → Prop} (hrefl : ∀ s, R s s)
    (htrans : ∀ {s s' s''}, R s s' → R s' s'' → R s s'') {body : ℕ → σ → Option ℕ × σ}
    (hbody : ∀ item s, R s (body item s).2) {rounds : ℕ} :
    ∀ {item : Option ℕ} {s s' : σ}, smsWalkWithin body rounds item s = some s' → R s s' := by
  induction rounds with
  | zero =>
      intro item s s' h
      obtain ⟨-, rfl⟩ := Prod.mk.inj (smsWalkWithin_some h)
      exact hrefl _
  | succ rounds ih =>
      intro item s s' h
      cases item with
      | none =>
          obtain ⟨-, rfl⟩ := Prod.mk.inj (smsWalkWithin_some h)
          exact hrefl _
      | some item => exact htrans (hbody item s) (ih h)

section Aside

variable (w : GsmWorld)

lemma onRing_aside (f : Ring → Ring) : Aside w (onRing f w) :=
  (Aside.refl w).setApp _ (by exact .of_eq ⟨rfl, rfl⟩) (by exact rfl)

lemma statusCb_aside (errCode : ℤ) : Aside w (statusCb w errCode) := by
  have hw := Aside.refl w
  unfold statusCb
  split_ifs
  · exact hw.setMain _ (by exact rfl) (by exact rfl)
  · exact hw.setMain _ (by exact rfl) (by exact rfl)
  · exact hw

lemma inputStatus_aside (codes : List ℤ) : Aside w (codes.foldl statusCb w) := by
  induction codes generalizing w with
  | nil => exact .refl w
  | cons code rest ih => exact (statusCb_aside w code).trans (ih _)

lemma smsFinish_aside (msg : ℕ) : Aside w (smsFinish w msg) := by
  have hw := Aside.refl w
  unfold smsFinish
  dsimp only
  split_ifs
  · exact ((hw.log _ rfl).log _ rfl).setApp _ ⟨List.erase_sublist, .refl _⟩ rfl
  · exact (hw.log _ rfl).setApp _ ⟨List.erase_sublist, .refl _⟩ rfl
  · exact (hw.log _ rfl).setApp _ ⟨List.erase_sublist, .refl _⟩ rfl
  · exact hw.setApp _ ⟨List.erase_sublist, .refl _⟩ rfl

lemma smsPeriodicBody_aside (msg : ℕ) (r : UInt8 × GsmWorld) :
    Aside r.2 (smsPeriodicBody msg r).2.2 := by
  unfold smsPeriodicBody
  dsimp only
  split_ifs
  · exact (Aside.refl r.2).setApp _ (.of_eq ⟨rfl, rfl⟩) rfl
  · exact .refl r.2
  · exact smsFinish_aside r.2 msg

lemma smsTaskPeriodicWithin_aside {rounds : ℕ} {w' : GsmWorld}
    (h : smsTaskPeriodicWithin rounds w = some w') : Aside w w' := by
  unfold smsTaskPeriodicWithin at h
  split_ifs at h with hempty
  · obtain rfl := Option.some_inj.mp h
    exact .refl w
  · obtain ⟨r, hwalk, rfl⟩ := Option.map_eq_some_iff.mp h
    exact smsWalk_keeps (R := fun r r' : UInt8 × GsmWorld => Aside r.2 r'.2)
      (fun r => .refl r.2) Aside.trans smsPeriodicBody_aside hwalk

lemma setCall_aside (pointer : CallRef) (call : Call) :
    Aside w (w.setApp (w.app.setCall pointer call)) := by
  cases pointer <;> exact (Aside.refl w).setApp _ (.of_eq ⟨rfl, rfl⟩) rfl

lemma callPeriodicBody_aside (call : ℕ) : Aside w (callPeriodicBody call w).2 := by
  unfold callPeriodicBody
  dsimp only
  split_ifs
  · exact setCall_aside w _ _
  · exact .refl w

lemma callTaskCount_aside : Aside w (callTaskCount w) := by
  unfold callTaskCount
  dsimp only
  split_ifs <;> exact (Aside.refl w).setMain _ rfl rfl

lemma callTaskPeriodic1Sec_aside {rounds : ℕ} {w' : GsmWorld}
    (h : callTaskPeriodic1Sec rounds w = some w') : Aside w w' := by
  have hcount := callTaskCount_aside w
  unfold callTaskPeriodic1Sec at h
  dsimp only at h
  split_ifs at h with hempty
  · obtain rfl := Option.some_inj.mp h
    exact hcount
  · exact hcount.trans
      (smsWalk_keeps Aside.refl Aside.trans (fun call w => callPeriodicBody_aside w call) h)

lemma mainWantsCmd_aside : Aside w (mainWantsCmd w) := by
  have hw := Aside.refl w
  unfold mainWantsCmd
  dsimp only
  split_ifs
  · exact hw.setMain _ rfl rfl
  · exact hw
  · exact hw.ticked.setMain _ (by exact rfl) (by exact rfl)
  · exact hw.ticked

lemma mainRinging_aside : Aside w (mainRinging w) := by
  unfold mainRinging
  split_ifs
  · exact onRing_aside w _
  · exact .refl w

lemma periodic_aside {rounds : ℕ} {w' : GsmWorld}
    (h : (smsTaskPeriodicWithin rounds (onRing Ring.ringingTimer w)).bind
      (callTaskPeriodic1Sec rounds) = some w') : Aside w w' := by
  obtain ⟨w1, hsms, hcall⟩ := Option.bind_eq_some_iff.mp h
  exact (onRing_aside w _).trans ((smsTaskPeriodicWithin_aside _ hsms).trans
    (callTaskPeriodic1Sec_aside _ hcall))

/-- **What is done once a second, is done aside.** -/
theorem mainSecond_aside {rounds : ℕ} {w' : GsmWorld} (h : mainSecond rounds w = some w') :
    Aside w w' := by
  have htimer := (Aside.refl w).ticked.setMain
    { w.app.main with tRingTask := (checkTimeout w.app.main.tRingTask (w.clock 0)).2 }
    rfl rfl
  unfold mainSecond at h
  dsimp only at h
  split_ifs at h
  · exact (htimer.ticked.setMain _ (by exact rfl) (by exact rfl)).trans (periodic_aside _ h)
  · exact (htimer.ticked.setMain _ (by exact rfl) (by exact rfl)).trans (periodic_aside _ h)
  · obtain rfl := Option.some_inj.mp h
    exact htimer

end Aside

/-! ## Serving the engine -/

lemma issue_eq (w : GsmWorld) (cmd : GsmCmd) :
    issue w cmd = if cmdTaskIsIdle w.phase then (1, issueNow w cmd) else (0, w) := by
  unfold issue sendAtCmd sendCmd
  cases cmdTaskIsIdle w.phase <;> rfl

/-- From `w` to `w'` no callback of a descriptor was invoked; the descriptor in hand is the same,
or was replaced by a command of the main task. -/
structure Serves (w w' : GsmWorld) : Prop where
  lists : ListsShrink w.app w'.app
  hist : ∃ events, w'.hist = events ++ w.hist ∧ (∀ e ∈ events, CmdEvent.isCall e = false) ∧
    ((∃ e ∈ events, CmdEvent.isIssue e = true) ∨
      w'.cmdSend.next = w.cmdSend.next ∧ (w'.phase = w.phase ∨ w'.phase = .ok))
  cmdList_eq : w'.cmdList = w.cmdList

namespace Serves

variable {w w' w'' : GsmWorld}

lemma of_kept (hlists : ListsShrink w.app w'.app) (events : List (CmdEvent gsmTypes))
    (hhist : w'.hist = events ++ w.hist) (hcall : ∀ e ∈ events, CmdEvent.isCall e = false)
    (hnext : w'.cmdSend.next = w.cmdSend.next) (hphase : w'.phase = w.phase ∨ w'.phase = .ok)
    (hlist : w'.cmdList = w.cmdList) : Serves w w' :=
  ⟨hlists, ⟨events, hhist, hcall, Or.inr ⟨hnext, hphase⟩⟩, hlist⟩

lemma refl (w : GsmWorld) : Serves w w :=
  of_kept (.refl _) [] rfl (List.forall_mem_nil _) rfl (Or.inl rfl) rfl

lemma trans (h : Serves w w') (h' : Serves w' w'') : Serves w w'' := by
  obtain ⟨hlists, ⟨es, hes, hcall, hkept⟩, hlist⟩ := h
  obtain ⟨hlists', ⟨es', hes', hcall', hkept'⟩, hlist'⟩ := h'
  refine ⟨hlists.trans hlists', ⟨es' ++ es, by rw [hes', hes, List.append_assoc],
    List.forall_mem_append.mpr ⟨hcall', hcall⟩, ?_⟩, hlist'.trans hlist⟩
  rcases hkept' with ⟨e, he, hissue⟩ | ⟨hnext', hphase'⟩
  · exact Or.inl ⟨e, List.mem_append_left _ he, hissue⟩
  · rcases hkept with ⟨e, he, hissue⟩ | ⟨hnext, hphase⟩
    · exact Or.inl ⟨e, List.mem_append_right _ he, hissue⟩
    · refine Or.inr ⟨hnext'.trans hnext, ?_⟩
      rcases hphase' with heq | hok
      · exact heq ▸ hphase
      · exact Or.inr hok

/-- A step of which neither the engine nor the log knows. -/
lemma step (h : Serves w w') (hlists : ListsShrink w'.app w''.app) (hhist : w''.hist = w'.hist)
    (hnext : w''.cmdSend.next = w'.cmdSend.next) (hphase : w''.phase = w'.phase ∨ w''.phase = .ok)
    (hlist : w''.cmdList = w'.cmdList) : Serves w w'' :=
  h.trans (of_kept hlists [] hhist (List.forall_mem_nil _) hnext hphase hlist)

lemma setApp (h : Serves w w') (app : GsmState) (hlists : ListsShrink w'.app app) :
    Serves w (w'.setApp app) :=
  h.step hlists rfl rfl (Or.inl rfl) rfl

lemma setMain (h : Serves w w') (main : MainVars) (hcall : main.callList = w'.app.main.callList) :
    Serves w (w'.setMain main) :=
  h.setApp _ (.of_eq ⟨rfl, hcall⟩)

lemma setTask (h : Serves w w') (phase : MainPhase) : Serves w (Ampm.setTask w' phase) :=
  h.setMain _ rfl

lemma ticked (h : Serves w w') : Serves w w'.ticked := h.step (.refl _) rfl rfl (Or.inl rfl) rfl

lemma log (h : Serves w w') (e : CmdEvent gsmTypes) (he : e.isCall = false) :
    Serves w (w'.log e) :=
  h.trans (of_kept (.refl _) [e] rfl (List.forall_mem_singleton.mpr he) rfl (Or.inl rfl) rfl)

/-- A command is loaded, and the log says so. -/
lemma load (h : Serves w w') (cmd : GsmCmd) (e : CmdEvent gsmTypes) (he : e.isIssue = true)
    (he' : e.isCall = false) : Serves w ((sendAtCmdNow w' cmd).log e) := by
  refine h.trans ⟨.refl _, ⟨[e, .load (some cmd)], rfl, ?_, Or.inl ⟨e, ?_, he⟩⟩, rfl⟩
  · exact List.forall_mem_cons.mpr ⟨he', List.forall_mem_singleton.mpr rfl⟩
  · exact List.mem_cons_self

lemma issueNow (h : Serves w w') (cmd : GsmCmd) : Serves w (Ampm.issueNow w' cmd) :=
  h.load cmd _ rfl rfl

lemma issue (h : Serves w w') (cmd : GsmCmd) : Serves w (Ampm.issue w' cmd).2 := by
  rw [issue_eq]
  split_ifs
  · exact h.issueNow cmd
  · exact h

lemma issueText (h : Serves w w') (args : SendCmdArgs) : Serves w (Ampm.issueText w' args).2 := by
  unfold Ampm.issueText cmdTaskSendCmd
  split_ifs
  · refine h.trans ⟨.of_eq ⟨rfl, rfl⟩, ⟨[.app (.issuedText (args.text.getD [])), .load none], rfl, ?_,
      Or.inl ⟨_, List.mem_cons_self, rfl⟩⟩, rfl⟩
    exact List.forall_mem_cons.mpr ⟨rfl, List.forall_mem_singleton.mpr rfl⟩
  · exact h

end Serves

lemma Aside.serves {w w' : GsmWorld} (h : Aside w w') : Serves w w' := by
  obtain ⟨hlists, ⟨hphase, hcmd, -, hlist, -⟩, -, -, es, hes, hreport⟩ := h
  refine .of_kept hlists es hes (fun e he => ?_) (by rw [hcmd]) (Or.inl hphase) hlist
  exact (CmdEvent.isReport_only (hreport e he)).2.1

/-! ## Working -/

/-- The phases in which the task deals with the link, but for `AMPM_GSM_MAIN_GOTO_DATA_MODE_PHASE`,
from which it starts to. -/
def MainPhase.isSession : MainPhase → Bool
  | .dialUp => true
  | .datacall => true
  | .waitGotoDataMode => true
  | .gotoCmdMode => true
  | .gotoCmdModeCheck => true
  | .waitGotoCmdMode => true
  | _ => false

/-- The link was left alone, but for a reset of the dial-up, and no session was entered. -/
structure LinkKept (w w' : GsmWorld) : Prop where
  task : w'.app.main.taskPhase = w.app.main.taskPhase ∨ w'.app.main.taskPhase.isSession = false
  thisPpp_eq : w'.app.main.thisPpp = w.app.main.thisPpp
  dialup : w'.app.main.dialupPhase = w.app.main.dialupPhase ∨ w'.app.main.dialupPhase = .start
  events_eq : linkEvents w'.hist = linkEvents w.hist

/-- What a branch does that does not deal with the link. -/
structure Works (w w' : GsmWorld) : Prop where
  serves : Serves w w'
  kept : LinkKept w w'

namespace LinkKept

variable {w w' w'' : GsmWorld}

lemma of_eq (htask : w'.app.main.taskPhase = w.app.main.taskPhase)
    (hppp : w'.app.main.thisPpp = w.app.main.thisPpp)
    (hdial : w'.app.main.dialupPhase = w.app.main.dialupPhase)
    (hevents : linkEvents w'.hist = linkEvents w.hist) : LinkKept w w' :=
  ⟨Or.inl htask, hppp, Or.inl hdial, hevents⟩

lemma trans (h : LinkKept w w') (h' : LinkKept w' w'') : LinkKept w w'' := by
  refine ⟨?_, h'.thisPpp_eq.trans h.thisPpp_eq, ?_, h'.events_eq.trans h.events_eq⟩
  · rcases h'.task with heq | hout
    · exact heq ▸ h.task
    · exact Or.inr hout
  · rcases h'.dialup with heq | hstart
    · exact heq ▸ h.dialup
    · exact Or.inr hstart

end LinkKept

namespace Works

variable {w w' w'' : GsmWorld}

lemma refl (w : GsmWorld) : Works w w := ⟨.refl w, .of_eq rfl rfl rfl rfl⟩

lemma trans (h : Works w w') (h' : Works w' w'') : Works w w'' :=
  ⟨h.serves.trans h'.serves, h.kept.trans h'.kept⟩

/-- A write to variables that are neither those of the link nor the lists. -/
lemma setApp (h : Works w w') (app : GsmState)
    (heq : app.main.taskPhase = w'.app.main.taskPhase ∧
      app.main.thisPpp = w'.app.main.thisPpp ∧
      app.main.dialupPhase = w'.app.main.dialupPhase ∧ app.smsList = w'.app.smsList ∧
      app.main.callList = w'.app.main.callList) : Works w (w'.setApp app) :=
  h.trans ⟨(Serves.refl w').setApp app (.of_eq heq.2.2.2),
    .of_eq heq.1 heq.2.1 heq.2.2.1 rfl⟩

lemma setMain (h : Works w w') (main : MainVars)
    (heq : main.taskPhase = w'.app.main.taskPhase ∧ main.thisPpp = w'.app.main.thisPpp ∧
      main.dialupPhase = w'.app.main.dialupPhase ∧ main.callList = w'.app.main.callList) :
    Works w (w'.setMain main) :=
  h.setApp _ ⟨heq.1, heq.2.1, heq.2.2.1, rfl, heq.2.2.2⟩

lemma setTask (h : Works w w') (phase : MainPhase) (hout : phase.isSession = false) :
    Works w (Ampm.setTask w' phase) :=
  h.trans ⟨(Serves.refl w').setTask phase, Or.inr hout, rfl, Or.inl rfl, rfl⟩

lemma ticked (h : Works w w') : Works w w'.ticked :=
  h.trans ⟨(Serves.refl w').ticked, .of_eq rfl rfl rfl rfl⟩

lemma onRing (h : Works w w') (f : Ring → Ring) : Works w (Ampm.onRing f w') :=
  h.setApp _ (by exact ⟨rfl, rfl, rfl, rfl, rfl⟩)

lemma setPhaseOk (h : Works w w') : Works w (w'.setPhase .ok) :=
  h.trans ⟨(Serves.refl w').step (.refl _) rfl rfl (Or.inr rfl) rfl, .of_eq rfl rfl rfl rfl⟩

lemma issueNow (h : Works w w') (cmd : GsmCmd) : Works w (Ampm.issueNow w' cmd) :=
  h.trans ⟨(Serves.refl w').issueNow cmd, .of_eq rfl rfl rfl rfl⟩

lemma issue (h : Works w w') (cmd : GsmCmd) : Works w (Ampm.issue w' cmd).2 := by
  rw [issue_eq]
  split_ifs
  · exact h.issueNow cmd
  · exact h

lemma issueText (h : Works w w') (args : SendCmdArgs) : Works w (Ampm.issueText w' args).2 := by
  refine h.trans ⟨(Serves.refl w').issueText args, ?_⟩
  unfold Ampm.issueText cmdTaskSendCmd
  split_ifs <;> exact .of_eq rfl rfl rfl rfl

end Works

/-! ### The branches that work -/

section Branches

variable (w : GsmWorld)

lemma startupDelay_works (ms : UInt32) : Works w (startupDelay w ms) :=
  (Works.refl w).ticked.setMain _ (by exact ⟨rfl, rfl, rfl, rfl⟩)

lemma startupExpired_works : Works w (startupExpired w).2 :=
  (Works.refl w).ticked.setMain _ (by exact ⟨rfl, rfl, rfl, rfl⟩)

lemma setStartup_works (phase : StartupPhase) : Works w (setStartup w phase) :=
  (Works.refl w).setMain _ (by exact ⟨rfl, rfl, rfl, rfl⟩)

lemma endWithOk_works : Works w (endWithOk w) :=
  ⟨(Serves.refl w).step (.refl _) rfl rfl (Or.inl rfl) rfl, .of_eq rfl rfl rfl rfl⟩

lemma startupLine_works (cmd : StartupCmd) : Works w (startupLine w cmd) := by
  unfold startupLine
  cases startupArgs cmd with
  | some line =>
      dsimp only
      split_ifs
      · exact ((Works.refl w).issueText _).trans (endWithOk_works _)
      · exact (Works.refl w).issueText _
  | none =>
      cases cmd with
      | delay ms => exact startupDelay_works w _
      | stop =>
          exact ((Works.refl w).setMain _ (by exact ⟨rfl, rfl, rfl, rfl⟩)).trans (setStartup_works _ _)
      | pin => exact .refl w
      | _ => exact setStartup_works w _

lemma startupGetCmd_works : Works w (startupGetCmd w) := by
  unfold startupGetCmd
  cases w.app.main.atGsmCmdStart with
  | nil => exact (startupDelay_works w 1).trans (setStartup_works _ _)
  | cons cmd rest =>
      refine Works.trans ?_ (startupLine_works _ cmd)
      exact ((Works.refl w).setMain _ (by exact ⟨rfl, rfl, rfl, rfl⟩)).trans (startupDelay_works _ 1)

lemma startup_works (cmdList : List StartupCmd) : Works w (startup cmdList w).2 := by
  have hexp := startupExpired_works w
  unfold startup
  cases w.app.main.startupPhase with
  | init =>
      exact (((Works.refl w).setMain _ (by exact ⟨rfl, rfl, rfl, rfl⟩)).trans
        (startupDelay_works _ _)).trans (setStartup_works _ _)
  | turnOn =>
      dsimp only
      split_ifs
      · exact (hexp.trans (startupDelay_works _ _)).trans (setStartup_works _ _)
      · exact hexp
  | turnOn1 =>
      dsimp only
      split_ifs
      · refine (Works.trans ?_ (startupDelay_works _ 1)).setPhaseOk
        exact (hexp.trans (setStartup_works _ _)).setMain _ (by exact ⟨rfl, rfl, rfl, rfl⟩)
      · exact hexp
  | getCmd =>
      dsimp only
      split_ifs
      · exact hexp.trans (startupGetCmd_works _)
      · exact (hexp.trans (setStartup_works _ _)).trans (startupDelay_works _ _)
      · exact hexp
      · exact hexp
  | idle => exact .refl w

lemma mainStartup_works : Works w (mainStartup w) := by
  have hstart := startup_works w ampmAtGsmCmdStart
  unfold mainStartup startRecvSms
  dsimp only
  split_ifs
  · exact (hstart.issue _).setTask _ rfl
  · exact (hstart.issue _).setTask _ rfl
  · exact hstart

lemma mainSmsRecv_works : Works w (mainSmsRecv w) := by
  unfold mainSmsRecv
  split_ifs
  · exact (Works.refl w).setTask _ rfl
  · exact .refl w

lemma smsStart_works (msg : ℕ) : Works w (smsStart w msg) := by
  refine ⟨⟨.of_eq ⟨rfl, rfl⟩, ⟨[.load (some .smsSendCmdProcess0), .app (.attempt msg)], rfl, ?_,
    Or.inl ⟨.app (.attempt msg), ?_, rfl⟩⟩, rfl⟩, .of_eq rfl rfl rfl rfl⟩
  · exact List.forall_mem_cons.mpr ⟨rfl, List.forall_mem_singleton.mpr rfl⟩
  · exact List.mem_cons_of_mem _ (List.mem_singleton_self _)

lemma smsFinish_works (msg : ℕ) : Works w (smsFinish w msg) := by
  have haside := smsFinish_aside w msg
  exact ⟨haside.serves, Or.inl haside.taskPhase_eq, haside.thisPpp_eq, Or.inl haside.dialupPhase_eq,
    haside.linkEvents_eq⟩

lemma smsLook_works (msg : ℕ) : Works w (smsLook w msg) :=
  (Works.refl w).setApp _ (by exact ⟨rfl, rfl, rfl, rfl, rfl⟩)

lemma smsTaskBody_works (msg : ℕ) : Works w (smsTaskBody msg w).2 := by
  have hlook := smsLook_works w msg
  unfold smsTaskBody
  dsimp only
  split_ifs
  · exact hlook.trans (smsStart_works _ msg)
  · exact hlook
  · exact hlook.trans (smsFinish_works _ msg)

lemma smsTaskWithin_works {rounds : ℕ} {r : UInt8 × GsmWorld}
    (h : smsTaskWithin rounds w = some r) : Works w r.2 := by
  have hcheck (cnt : UInt8) : Works w (w.setApp { w.app with checkCnt := cnt }) :=
    (Works.refl w).setApp _ (by exact ⟨rfl, rfl, rfl, rfl, rfl⟩)
  unfold smsTaskWithin at h
  dsimp only at h
  split_ifs at h
  · obtain rfl := Option.some_inj.mp h
    exact (hcheck _).setApp _ (by exact ⟨rfl, rfl, rfl, rfl, rfl⟩)
  · obtain ⟨w', hwalk, rfl⟩ := Option.map_eq_some_iff.mp h
    exact (hcheck _).trans
      (smsWalk_keeps Works.refl Works.trans (fun msg w => smsTaskBody_works w msg) hwalk)
  · obtain rfl := Option.some_inj.mp h
    exact hcheck _
  · obtain rfl := Option.some_inj.mp h
    exact .refl w

lemma callStart_works (call : ℕ) : Works w (callStart w call) :=
  (((Works.refl w).ticked.setApp _ (by exact ⟨rfl, rfl, rfl, rfl, rfl⟩)).setMain _
    (by exact ⟨rfl, rfl, rfl, rfl⟩)).issueNow _

lemma callDrop_works (call : ℕ) : Works w (callDrop w call) :=
  ⟨(Serves.refl w).setApp _ ⟨.refl _, List.erase_sublist⟩, .of_eq rfl rfl rfl rfl⟩

lemma callTaskBody_works (call : ℕ) : Works w (callTaskBody call w).2 := by
  unfold callTaskBody
  split_ifs
  · exact callStart_works w call
  · exact callDrop_works w call

lemma checkCallDelay_works : Works w (checkCallDelay w).2 :=
  (Works.refl w).ticked.setMain _ (by exact ⟨rfl, rfl, rfl, rfl⟩)

lemma callTask_works {rounds : ℕ} {r : UInt8 × GsmWorld} (h : callTask rounds w = some r) :
    Works w r.2 := by
  have hrun : Works w (w.setMain { w.app.main with callTaskIsRunningCnt := 1 }) :=
    (Works.refl w).setMain _ (by exact ⟨rfl, rfl, rfl, rfl⟩)
  have hdelay := hrun.trans (checkCallDelay_works _)
  unfold callTask at h
  dsimp only at h
  split_ifs at h
  · obtain rfl := Option.some_inj.mp h
    exact (hdelay.setApp _ (by exact ⟨rfl, rfl, rfl, rfl, rfl⟩)).issueNow _
  · obtain ⟨w', hwalk, rfl⟩ := Option.map_eq_some_iff.mp h
    exact hdelay.trans
      (smsWalk_keeps Works.refl Works.trans (fun call w => callTaskBody_works w call) hwalk)
  · obtain rfl := Option.some_inj.mp h
    exact hdelay
  · obtain rfl := Option.some_inj.mp h
    exact hdelay
  · obtain rfl := Option.some_inj.mp h
    exact hrun

lemma mainTaskDone_works (r : UInt8 × GsmWorld) : Works r.2 (mainTaskDone r) := by
  unfold mainTaskDone
  split_ifs
  · exact (Works.refl r.2).setTask _ rfl
  · exact .refl r.2

lemma mainStartRecv_works : Works w (mainStartRecv w) := by
  have hstart := ((Works.refl w).ticked.setMain
    { w.app.main with smsCheckTime := w.clock 0 } (by exact ⟨rfl, rfl, rfl, rfl⟩)).issue
      .smsRecvCmdProcess0
  unfold mainStartRecv startRecvSms
  dsimp only
  split_ifs
  · exact (hstart.setApp _ (by exact ⟨rfl, rfl, rfl, rfl, rfl⟩)).setTask _ rfl
  · exact hstart

lemma mainIdleMode_works : Works w (mainIdleMode w).2 := by
  unfold mainIdleMode
  split_ifs
  · exact .refl w
  · cases w.app.main.mode with
    | gprsEnable => exact (Works.refl w).setMain _ (by exact ⟨rfl, rfl, rfl, rfl⟩)
    | sleepMode =>
        dsimp only
        split_ifs
        · exact ((Works.refl w).issue _).setTask _ rfl
        · exact (Works.refl w).issue _
    | none => exact .refl w

lemma mainIdleDispatch_works : Works w (mainIdleDispatch w).2 := by
  have hw := Works.refl w
  unfold mainIdleDispatch
  split_ifs
  · exact ((hw.setMain _ (by exact ⟨rfl, rfl, rfl, rfl⟩)).onRing _).setTask _ rfl
  · exact hw.setTask _ rfl
  · exact mainStartRecv_works w
  · exact hw.ticked.trans (mainStartRecv_works _)
  · exact hw.ticked.setTask _ rfl
  · exact hw.ticked.trans (mainIdleMode_works _)

lemma mainIdle_works : Works w (mainIdle w) := by
  have hdispatch := mainIdleDispatch_works w
  unfold mainIdle
  dsimp only
  split_ifs
  · exact hdispatch
  · exact hdispatch.setTask _ rfl
  · exact hdispatch

lemma dialUpReset_works : Works w (dialUpReset w) :=
  ⟨(Serves.refl w).setMain _ (by exact rfl), Or.inl rfl, rfl, Or.inr rfl, rfl⟩

lemma mainGoToSleep_works : Works w (mainGoToSleep w) := by
  unfold mainGoToSleep
  split_ifs
  · exact (dialUpReset_works w).setTask _ rfl
  · exact (Works.refl w).setTask _ rfl
  · exact .refl w

lemma mainSleep_works : Works w (mainSleep w) := by
  unfold mainSleep
  split_ifs
  · exact (((Works.refl w).setTask _ rfl).issueNow _).setTask _ rfl
  · exact .refl w

lemma mainWakeup_works : Works w (mainWakeup w) := by
  unfold mainWakeup
  split_ifs
  · exact (Works.refl w).setTask _ rfl
  · exact (Works.refl w).setTask _ rfl
  · exact .refl w

end Branches

/-! ### The branches of the session -/

section Session

variable (i : MainInput) (w : GsmWorld)

lemma pppClose_serves : Serves w (pppClose w) := (Serves.refl w).log _ rfl

lemma mainHangUp_serves : Serves w (mainHangUp w) :=
  ((Serves.refl w).setMain _ (by exact rfl)).setTask _

lemma datacallFlags_serves : Serves w (datacallFlags w) := by
  have hflag := (Serves.refl w).setMain { w.app.main with gotoDataModeFlag := false } rfl
  unfold datacallFlags
  dsimp only
  split_ifs
  · exact (hflag.setMain _ (by exact rfl)).setTask _
  · exact hflag

lemma datacallInput_serves : Serves w (datacallInput i w) := by
  have hstatus := ((Serves.refl w).log (.app (.pppInput w.app.main.thisPpp)) rfl).trans
    (inputStatus_aside _ i.inputStatus).serves
  unfold datacallInput
  dsimp only
  split_ifs
  · exact hstatus.setMain _ (by exact rfl)
  · exact hstatus

lemma datacallClose_serves : Serves w (datacallClose w) := by
  unfold datacallClose
  split_ifs
  · exact (pppClose_serves w).setMain _ (by exact rfl)
  · exact .refl w

lemma mainDatacall_serves : Serves w (mainDatacall i w) := by
  have hinput := (datacallFlags_serves w).trans (datacallInput_serves i _)
  unfold mainDatacall
  dsimp only
  split_ifs
  · exact hinput.trans (mainHangUp_serves _)
  · exact ((hinput.trans (onRing_aside _ _).serves).trans (datacallClose_serves _)).trans
      (mainHangUp_serves _)
  · exact hinput.trans (onRing_aside _ _).serves
  · exact hinput

lemma closeLast_serves : Serves w (closeLast w) := by
  unfold closeLast
  split_ifs
  · exact pppClose_serves w
  · exact .refl w

lemma mainOpen_serves : Serves w (mainOpen i w) :=
  (((((onRing_aside w _).serves.setMain _ (by exact rfl)).trans (closeLast_serves _)).setMain _
    (by exact rfl)).log _ rfl).setTask _

lemma commPutc_serves (bytes : List UInt8) : Serves w (bytes.foldl commPutc w) := by
  induction bytes generalizing w with
  | nil => exact .refl w
  | cons c rest ih => exact ((Serves.refl w).log _ rfl).trans (ih _)

lemma dialUp_serves : Serves w (dialUp w) := by
  unfold dialUp
  cases w.app.main.dialupPhase with
  | start =>
      dsimp only
      split_ifs
      · exact (((Serves.refl w).issue _).setMain _ (by exact rfl)).log _ rfl
      · exact (Serves.refl w).issue _
  | runing =>
      dsimp only
      split_ifs
      · exact (commPutc_serves w _).setMain _ (by exact rfl)
      · exact (Serves.refl w).setMain _ (by exact rfl)
      · exact (Serves.refl w).setMain _ (by exact rfl)
      · exact .refl w
  | ok => exact .refl w
  | fail => exact .refl w

lemma mainDialUp_serves : Serves w (mainDialUp i w) := by
  have hdial := dialUp_serves w
  unfold mainDialUp
  dsimp only
  split_ifs
  · exact hdial.trans (mainOpen_serves i _)
  · exact hdial.setTask _
  · exact hdial

lemma mainGotoData_serves : Serves w (mainGotoData w) := by
  unfold mainGotoData
  dsimp only
  split_ifs
  · exact ((Serves.refl w).issueText _).setTask _
  · exact (Serves.refl w).issueText _
  · exact (((Serves.refl w).setMain _ (by exact rfl)).setTask _).setMain _ (by exact rfl)

lemma mainWaitGotoData_serves : Serves w (mainWaitGotoData w) := by
  unfold mainWaitGotoData
  split_ifs
  · exact ((Serves.refl w).setMain _ (by exact rfl)).setTask _
  · exact mainHangUp_serves w
  · exact .refl w

lemma mainGotoCmd_serves : Serves w (mainGotoCmd w) :=
  (((Serves.refl w).setMain _ (by exact rfl)).trans (onRing_aside _ _).serves).setTask _

lemma mainWaitGotoCmd_serves : Serves w (mainWaitGotoCmd w) := by
  unfold mainWaitGotoCmd
  dsimp only
  split_ifs
  · exact ((Serves.refl w).setMain _ (by exact rfl)).setTask _
  · exact (((Serves.refl w).issueText _).setMain _ (by exact rfl)).setTask _
  · exact (((Serves.refl w).issueText _).setMain _ (by exact rfl)).setTask _
  · exact .refl w

lemma mainGotoCmdCheck_serves : Serves w (mainGotoCmdCheck w) := by
  unfold mainGotoCmdCheck
  refine Serves.trans ?_ (mainWaitGotoCmd_serves _)
  dsimp only
  split_ifs
  · exact ((Serves.refl w).setMain _ (by exact rfl)).setTask _
  · exact ((Serves.refl w).issueText _).setTask _
  · exact (Serves.refl w).issueText _

lemma startupInit_eq :
    (startupInit w).cmdSend = w.cmdSend ∧ (startupInit w).hist = w.hist ∧
      (startupInit w).app.smsList = w.app.smsList ∧
      (startupInit w).app.vitals = { w.app.vitals with startupPhase := .init } :=
  ⟨rfl, rfl, rfl, rfl⟩

lemma initFlags_eq :
    (initFlags w).cmdSend = w.cmdSend ∧ (initFlags w).hist = w.hist ∧
      (initFlags w).app.smsList = w.app.smsList ∧
      (initFlags w).app.vitals = { w.app.vitals with startupPhase := .init } := by
  have hflags : (w.setMain
      { w.app.main with gotoDataModeFlag := false, gotoCmdModeFlag := false }).app.vitals =
        w.app.vitals := rfl
  have hring (w0 : GsmWorld) : (onRing Ring.ringingReset w0).cmdSend = w0.cmdSend ∧
      (onRing Ring.ringingReset w0).hist = w0.hist ∧
      (onRing Ring.ringingReset w0).app.smsList = w0.app.smsList ∧
      (onRing Ring.ringingReset w0).app.vitals = w0.app.vitals := ⟨rfl, rfl, rfl, rfl⟩
  obtain ⟨hcmd, hhist, hsms, hvitals⟩ := hring (w.setMain
    { w.app.main with gotoDataModeFlag := false, gotoCmdModeFlag := false })
  unfold initFlags
  obtain ⟨hcmd', hhist', hsms', hvitals'⟩ := startupInit_eq (onRing Ring.ringingReset (w.setMain
    { w.app.main with gotoDataModeFlag := false, gotoCmdModeFlag := false }))
  refine ⟨hcmd'.trans hcmd, hhist'.trans hhist, hsms'.trans hsms, ?_⟩
  rw [hvitals', hvitals, hflags]

/-- What the first branch does to the link. -/
def closedLink (w : GsmWorld) : List (CmdEvent gsmTypes) :=
  if w.app.main.thisPpp ≥ 0 then [.app (.pppClosed w.app.main.thisPpp)] else []

lemma initLink_eq :
    (initLink w).cmdSend = w.cmdSend ∧ (initLink w).hist = closedLink w ++ w.hist ∧
      (initLink w).app.smsList = w.app.smsList ∧
      (initLink w).app.vitals =
        { w.app.vitals with thisPpp := (initLink w).app.main.thisPpp } := by
  unfold initLink closedLink
  split_ifs <;> exact ⟨rfl, rfl, rfl, rfl⟩

/-- The first branch. -/
lemma mainInit_eq :
    (mainInit w).phase = .ok ∧ (mainInit w).cmdSend = w.cmdSend ∧ (mainInit w).cmdList = [] ∧
      ListsShrink w.app (mainInit w).app ∧
      (mainInit w).hist = .app .mainInit :: (closedLink w ++ w.hist) ∧
      (mainInit w).app.main.taskPhase = .startup ∧ (mainInit w).app.main.startupPhase = .init ∧
      (mainInit w).app.main.dialupPhase = .start ∧
      (mainInit w).app.smsTaskFailCnt = w.app.smsTaskFailCnt := by
  obtain ⟨hcmd, hhist, hsms, hvitals⟩ := initFlags_eq w
  unfold mainInit
  generalize initFlags w = w1 at hcmd hhist hsms hvitals
  obtain ⟨hcmd', hhist', hsms', hvitals'⟩ := initLink_eq (dialUpReset w1)
  have hlink : closedLink (dialUpReset w1) = closedLink w := by
    have hppp : w1.app.main.thisPpp = w.app.main.thisPpp := congrArg Vitals.thisPpp hvitals
    have hreset : (dialUpReset w1).app.main.thisPpp = w1.app.main.thisPpp := rfl
    rw [closedLink, closedLink, hreset, hppp]
  rw [hlink] at hhist'
  generalize initLink (dialUpReset w1) = w2 at hcmd' hhist' hsms' hvitals'
  have hboth : w2.app.vitals = { { w.app.vitals with startupPhase := .init, dialupPhase := .start }
      with thisPpp := w2.app.main.thisPpp } := by
    have hreset : (dialUpReset w1).app.vitals = { w1.app.vitals with dialupPhase := .start } := rfl
    rw [hvitals', hreset, hvitals]
  have hlist : w2.app.smsList = w.app.smsList := hsms'.trans hsms
  refine ⟨rfl, hcmd'.trans hcmd, rfl, ⟨?_, List.nil_sublist _⟩, ?_, rfl,
    congrArg Vitals.startupPhase hboth, congrArg Vitals.dialupPhase hboth,
    congrArg Vitals.smsTaskFailCnt hboth⟩
  · simp only [setTask, callTaskInit, CmdWorld.setMain, CmdWorld.log_app, CmdWorld.setPhase_app,
      CmdWorld.setApp_app]
    rw [hlist]
  · show .app .mainInit :: w2.hist = _
    have hreset : (dialUpReset w1).hist = w.hist := hhist
    rw [hhist', hreset]

/-- **What the branches of the `switch` do.** -/
inductive PhaseStep : GsmWorld → Prop
  | init (hphase : w.app.main.taskPhase = .init) : PhaseStep (mainInit w)
  | works (hphase : w.app.main.taskPhase.isSession = false) (hinit : w.app.main.taskPhase ≠ .init)
      {w' : GsmWorld} (h : Works w w') : PhaseStep w'
  | dialUp (hphase : w.app.main.taskPhase = .dialUp) : PhaseStep (mainDialUp i w)
  | datacall (hphase : w.app.main.taskPhase = .datacall) : PhaseStep (mainDatacall i w)
  | gotoData (hphase : w.app.main.taskPhase = .gotoDataMode) : PhaseStep (mainGotoData w)
  | waitGotoData (hphase : w.app.main.taskPhase = .waitGotoDataMode) :
      PhaseStep (mainWaitGotoData w)
  | gotoCmd (hphase : w.app.main.taskPhase = .gotoCmdMode) : PhaseStep (mainGotoCmd w)
  | gotoCmdCheck (hphase : w.app.main.taskPhase = .gotoCmdModeCheck) :
      PhaseStep (mainGotoCmdCheck w)
  | waitGotoCmd (hphase : w.app.main.taskPhase = .waitGotoCmdMode) : PhaseStep (mainWaitGotoCmd w)

variable {i w}

lemma mainPhase_step {w' : GsmWorld} (h : mainPhase i w = some w') : PhaseStep i w w' := by
  unfold mainPhase at h
  cases hphase : w.app.main.taskPhase <;> rw [hphase] at h <;> dsimp only at h
  case smsSend =>
    obtain ⟨r, hr, rfl⟩ := Option.map_eq_some_iff.mp h
    exact .works (by rw [hphase]; rfl) (by rw [hphase]; nofun)
      ((smsTaskWithin_works w hr).trans (mainTaskDone_works r))
  case voicecall =>
    obtain ⟨r, hr, rfl⟩ := Option.map_eq_some_iff.mp h
    exact .works (by rw [hphase]; rfl) (by rw [hphase]; nofun)
      ((callTask_works w hr).trans (mainTaskDone_works r))
  all_goals obtain rfl := Option.some_inj.mp h
  case init => exact .init hphase
  case dialUp => exact .dialUp hphase
  case datacall => exact .datacall hphase
  case gotoDataMode => exact .gotoData hphase
  case waitGotoDataMode => exact .waitGotoData hphase
  case gotoCmdMode => exact .gotoCmd hphase
  case gotoCmdModeCheck => exact .gotoCmdCheck hphase
  case waitGotoCmdMode => exact .waitGotoCmd hphase
  all_goals refine .works (by rw [hphase]; rfl) (by rw [hphase]; nofun) ?_
  case startup => exact mainStartup_works w
  case smsRecv => exact mainSmsRecv_works w
  case idle => exact mainIdle_works w
  case goToSleep => exact mainGoToSleep_works w
  case sleep => exact mainSleep_works w
  case wakeup => exact mainWakeup_works w

/-- **Every branch but the first serves the engine.** -/
theorem PhaseStep.serves {w' : GsmWorld} (h : PhaseStep i w w')
    (hinit : w.app.main.taskPhase ≠ .init) : Serves w w' := by
  cases h with
  | init hphase => exact absurd hphase hinit
  | works hphase hinit h => exact h.serves
  | dialUp hphase => exact mainDialUp_serves i w
  | datacall hphase => exact mainDatacall_serves i w
  | gotoData hphase => exact mainGotoData_serves w
  | waitGotoData hphase => exact mainWaitGotoData_serves w
  | gotoCmd hphase => exact mainGotoCmd_serves w
  | gotoCmdCheck hphase => exact mainGotoCmdCheck_serves w
  | waitGotoCmd hphase => exact mainWaitGotoCmd_serves w

end Session

/-! ## The iteration -/

/-- The loop of `Ampm_Gsm_Error` has no end. -/
lemma gsmError_none (rounds : ℕ) (w : GsmWorld) : gsmError rounds w = none := by
  induction rounds generalizing w with
  | zero => rfl
  | succ rounds ih => exact ih w.ticked

lemma mainFailCnt_eq (rounds : ℕ) (w : GsmWorld) :
    mainFailCnt rounds w = if w.app.smsTaskFailCnt ≥ 10 then none else some w := by
  unfold mainFailCnt
  rw [gsmError_none]
  rfl

/-- **An iteration that ends**: a branch of the `switch`, the engine, and what is done aside. -/
theorem mainTask_step {i : MainInput} {w w' : GsmWorld} (h : mainTask i w = some w') :
    ∃ w1 w2, w.app.smsTaskFailCnt < 10 ∧ mainPhase i (mainModemReset w) = some w1 ∧
      Aside w1 w2 ∧ Aside (mainEngine w2) w' := by
  obtain ⟨w0, hfail, hrest⟩ := Option.bind_eq_some_iff.mp h
  obtain ⟨w1, hphase, hsecond⟩ := Option.bind_eq_some_iff.mp hrest
  have hcnt : (mainModemReset w).app.smsTaskFailCnt = w.app.smsTaskFailCnt := by
    unfold mainModemReset
    split_ifs <;> rfl
  rw [mainFailCnt_eq, hcnt] at hfail
  split_ifs at hfail with hten
  obtain rfl := Option.some_inj.mp hfail
  exact ⟨w1, mainWantsCmd w1, UInt8.not_le.mp hten, hphase, mainWantsCmd_aside w1,
    (mainRinging_aside _).trans (mainSecond_aside _ hsecond)⟩

end Ampm

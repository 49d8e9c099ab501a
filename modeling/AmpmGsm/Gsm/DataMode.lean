import AmpmGsm.Gsm.DataCall

/-!
# The engine around the data mode

In data mode the engine is not called.  When the main task enters it the engine has nothing to do:
the dial-up ends with the last command of its chain, and `ATO` is a command without a link.

* `Built` — the command in hand is one that `Ampm_CmdTask_SendCmd` has built.
* `built_mainCmdTask` — the engine keeps it.
* `DataInv` — the invariant of the main task; `dataInv_step` — an iteration keeps it.
* **`fresh_of_leaving`** — when the main task begins to leave the data mode, the engine has nothing
  to do.
-/

namespace Ampm

open Runs

/-! ## Commands built by the main task -/

/-- The command in hand is one that `Ampm_CmdTask_SendCmd` has built, and nothing is listed. -/
structure Built (w : GsmWorld) : Prop where
  next_eq : w.cmdSend.next = none
  send_eq : w.cmdSend.sendDataCallback = some .gsmSendCallback
  recv_eq : w.cmdSend.recvDataCallback = some .gsmRecvCallback
  end_eq : w.cmdSend.endDataCallback = none
  app_eq : w.cmdSend.appStruct = some .common
  sprintf_eq : w.app.commonAppStruct.sprintf = none
  cmdList_eq : w.cmdList = []

section Built

variable {w w' : GsmWorld}

/-- The engine moved on with the command in hand. -/
lemma Built.moved (h : Built w)
    (hcmd : w'.cmdSend = { w.cmdSend with retryNum := w'.cmdSend.retryNum })
    (hcommon : w'.app.commonAppStruct = w.app.commonAppStruct) (hlist : w'.cmdList = w.cmdList) :
    Built w' := by
  refine ⟨?_, ?_, ?_, ?_, ?_, ?_, hlist.trans h.cmdList_eq⟩
  · rw [hcmd]
    exact h.next_eq
  · rw [hcmd]
    exact h.send_eq
  · rw [hcmd]
    exact h.recv_eq
  · rw [hcmd]
    exact h.end_eq
  · rw [hcmd]
    exact h.app_eq
  · rw [hcommon]
    exact h.sprintf_eq

lemma IoFrame.common_eq {s s' : GsmState} (h : IoFrame s s') :
    s'.commonAppStruct = s.commonAppStruct := by rw [h]

lemma Built.checkTask (h : Built w) : Built w.checkTask := h.moved rfl rfl rfl

lemma Built.log (h : Built w) (e : CmdEvent gsmTypes) : Built (w.log e) := h.moved rfl rfl rfl

lemma Built.initTask (h : Built w) (ms : UInt16) : Built (w.initTask ms) := h.moved rfl rfl rfl

lemma Built.setPhase (h : Built w) (phase : CmdPhase) : Built (w.setPhase phase) :=
  h.moved rfl rfl rfl

lemma Built.own (h : Built w) {app : GsmState} (clock : ℕ → UInt32) (events : List GsmEvent)
    (hframe : IoFrame w.app app) : Built (w.own app clock events) :=
  h.moved rfl hframe.common_eq rfl

/-- **The engine keeps a built command.** -/
lemma built_cmdTask (h : Built w) : Built (cmdTask mainCode w) := by
  have hstep := cmdTask_step mainCode w
  generalize cmdTask mainCode w = w' at hstep
  cases hstep with
  | tooEarly => exact h.checkTask
  | sent callback hphase hexp hcb =>
      have hsprintf (callback : GsmSprintf) :
          (gsmPacket (w.checkTask.log (.send w.loaded)).app .common).sprintf ≠ some callback := by
        rw [show (gsmPacket (w.checkTask.log (.send w.loaded)).app .common).sprintf = none from
          h.sprintf_eq]
        exact nofun
      obtain ⟨app, clock, bytes, heq, hframe, -⟩ :=
        gsmSendCallback_own (w := w.checkTask.log (.send w.loaded)) h.app_eq (hsprintf _) (hsprintf _)
      show Built (afterSend (gsmSendCallback (w.checkTask.log (.send w.loaded))))
      rw [heq]
      exact (((h.checkTask.log _).own clock _ hframe).initTask _).setPhase _
  | notSent hphase hexp hcb => exact absurd (h.send_eq.symm.trans hcb) (Option.some_ne_none _)
  | retry => exact h.moved rfl rfl rfl
  | giveUp => exact h.moved rfl rfl rfl
  | failed =>
      rw [cmdTaskEnd_of_none h.end_eq]
      exact h.moved rfl rfl rfl
  | notAwaited hphase hcb => exact absurd (h.recv_eq.symm.trans hcb) (Option.some_ne_none _)
  | lapsed => exact h.moved rfl rfl rfl
  | asked callback hphase hexp hcb =>
      show Built (afterRecv (gsmRecvCallback w.checkTask))
      obtain ⟨app, clock, res, hframe, -, heq | heq | heq⟩ := afterRecv_cases w.checkTask
      · rw [heq]
        exact (((h.checkTask.own clock _ hframe).log _).initTask _).setPhase _
      · rw [heq]
        exact (((h.checkTask.own clock _ hframe).log _).setPhase _).initTask _
      · rw [heq]
        exact (h.checkTask.own clock _ hframe).log _
  | succeeded hphase hexp =>
      rw [cmdTaskEnd_of_none (w := w.checkTask) h.end_eq]
      exact h.moved rfl rfl rfl
  | loaded name rest hphase hnext =>
      rcases hnext with ⟨hlink, -⟩ | ⟨-, hcons⟩
      · exact absurd (h.next_eq.symm.trans hlink) (Option.some_ne_none _).symm
      · exact absurd (h.cmdList_eq.symm.trans hcons.2) nofun
  | idle => exact h.moved rfl rfl h.cmdList_eq.symm

lemma built_mainCmdTask (h : Built w) : Built (mainCmdTask w) := by
  have htask := built_cmdTask h
  unfold mainCmdTask
  dsimp only
  split_ifs
  · exact htask.moved rfl rfl rfl
  · exact htask

lemma Built.aside (h : Built w) (haside : Aside w w') : Built w' := by
  obtain ⟨-, hcmd, -, hlist, -⟩ := haside.engine
  refine h.moved ?_ (congrArg Vitals.commonAppStruct haside.vitals) hlist
  rw [hcmd]

/-- What `Ampm_CmdTask_SendCmd` leaves when it accepts. -/
lemma built_issueText (args : SendCmdArgs) (hlist : w.cmdList = [])
    (hidle : cmdTaskIsIdle w.phase = true) : Built (issueText w args).2 := by
  unfold issueText cmdTaskSendCmd
  rw [if_pos hidle]
  exact ⟨rfl, rfl, rfl, rfl, rfl, rfl, hlist⟩

/-- Once it has ended, the engine has nothing to do. -/
lemma Built.fresh (h : Built w) (hidle : cmdTaskIsIdle w.phase = true) : Fresh w :=
  ⟨hidle, h.next_eq, h.cmdList_eq⟩

end Built

/-! ## Branches that leave the engine alone -/

/-- The engine was not touched. -/
structure EngineKept (w w' : GsmWorld) : Prop where
  phase_eq : w'.phase = w.phase
  cmdSend_eq : w'.cmdSend = w.cmdSend
  cmdList_eq : w'.cmdList = w.cmdList

section EngineKept

variable {w w' w'' : GsmWorld}

lemma EngineKept.refl (w : GsmWorld) : EngineKept w w := ⟨rfl, rfl, rfl⟩

lemma EngineKept.trans (h : EngineKept w w') (h' : EngineKept w' w'') : EngineKept w w'' :=
  ⟨h'.phase_eq.trans h.phase_eq, h'.cmdSend_eq.trans h.cmdSend_eq,
    h'.cmdList_eq.trans h.cmdList_eq⟩

lemma EngineKept.setMain (h : EngineKept w w') (main : MainVars) :
    EngineKept w (w'.setMain main) :=
  h.trans ⟨rfl, rfl, rfl⟩

lemma EngineKept.setTask (h : EngineKept w w') (phase : MainPhase) :
    EngineKept w (Ampm.setTask w' phase) :=
  h.trans ⟨rfl, rfl, rfl⟩

lemma EngineKept.log (h : EngineKept w w') (e : CmdEvent gsmTypes) : EngineKept w (w'.log e) :=
  h.trans ⟨rfl, rfl, rfl⟩

lemma Aside.engineKept (h : Aside w w') : EngineKept w w' := by
  obtain ⟨hphase, hcmd, -, hlist, -⟩ := h.engine
  exact ⟨hphase, hcmd, hlist⟩

lemma Fresh.kept (h : Fresh w) (hkept : EngineKept w w') : Fresh w' :=
  ⟨by rw [hkept.phase_eq]; exact h.idle, by rw [hkept.cmdSend_eq]; exact h.next_eq,
    hkept.cmdList_eq.trans h.cmdList_eq⟩

lemma mainHangUp_kept (w : GsmWorld) : EngineKept w (mainHangUp w) :=
  ((EngineKept.refl w).setMain _).setTask _

lemma datacallFlags_kept (w : GsmWorld) : EngineKept w (datacallFlags w) := by
  have hflag := (EngineKept.refl w).setMain { w.app.main with gotoDataModeFlag := false }
  unfold datacallFlags
  dsimp only
  split_ifs
  · exact (hflag.setMain _).setTask _
  · exact hflag

lemma datacallInput_kept (i : MainInput) (w : GsmWorld) : EngineKept w (datacallInput i w) := by
  have hstatus := ((EngineKept.refl w).log (.app (.pppInput w.app.main.thisPpp))).trans
    (inputStatus_aside _ i.inputStatus).engineKept
  unfold datacallInput
  dsimp only
  split_ifs
  · exact hstatus.setMain _
  · exact hstatus

lemma datacallClose_kept (w : GsmWorld) : EngineKept w (datacallClose w) := by
  unfold datacallClose
  split_ifs
  · exact ((EngineKept.refl w).log _).setMain _
  · exact .refl w

lemma mainDatacall_kept (i : MainInput) (w : GsmWorld) : EngineKept w (mainDatacall i w) := by
  have hinput := (datacallFlags_kept w).trans (datacallInput_kept i _)
  unfold mainDatacall
  dsimp only
  split_ifs
  · exact hinput.trans (mainHangUp_kept _)
  · exact ((hinput.trans (onRing_aside _ _).engineKept).trans (datacallClose_kept _)).trans
      (mainHangUp_kept _)
  · exact hinput.trans (onRing_aside _ _).engineKept
  · exact hinput

lemma mainOpen_kept (i : MainInput) (w : GsmWorld) : EngineKept w (mainOpen i w) := by
  have hlast (w : GsmWorld) : EngineKept w (closeLast w) := by
    unfold closeLast
    split_ifs
    · exact (EngineKept.refl w).log _
    · exact .refl w
  have hring := (onRing_aside w Ring.ringingDisable).engineKept.setMain
    { (onRing Ring.ringingDisable w).app.main with gotoCmdModeFlag := false }
  exact (((hring.trans (hlast _)).setMain _).log _).setTask _

/-- The dial-up is reported done only when the engine has nothing to do. -/
lemma dialUp_fresh (hdial : w.app.main.dialupPhase ≠ .ok) (hlist : w.cmdList = [])
    (hok : (dialUp w).app.main.dialupPhase = .ok) : Fresh (dialUp w) := by
  have hputc (bytes : List UInt8) (w : GsmWorld) : EngineKept w (bytes.foldl commPutc w) := by
    induction bytes generalizing w with
    | nil => exact .refl w
    | cons c rest ih => exact ((EngineKept.refl w).log _).trans (ih _)
  unfold dialUp at hok ⊢
  cases hphase : w.app.main.dialupPhase with
  | start =>
      rw [hphase] at hok
      dsimp only at hok
      split_ifs at hok
      · cases hok
      · rw [issue_eq] at hok
        split_ifs at hok <;> exact absurd (hphase.symm.trans hok) nofun
  | runing =>
      rw [hphase] at hok
      dsimp only at hok ⊢
      split_ifs at hok ⊢ with hdone
      · have hidle : Fresh w := ⟨by rw [hdone.2]; rfl, cmdCheckIsEmpty_iff.mp hdone.1, hlist⟩
        exact (hidle.kept (hputc dummyPppPacket w)).kept ((EngineKept.refl _).setMain _)
      · cases hok
      · cases hok
      · exact absurd (hphase.symm.trans hok) nofun
  | ok => exact absurd hphase hdial
  | fail =>
      rw [hphase] at hok
      exact absurd (hphase.symm.trans hok) nofun

end EngineKept

/-! ## The invariant -/

/-- What the engine is at, by the phase of the main task. -/
structure DataInv (w : GsmWorld) : Prop where
  list_nil : w.cmdList = []
  dialling : w.app.main.taskPhase = .dialUp → w.app.main.dialupPhase ≠ .ok
  built : w.app.main.taskPhase = .waitGotoDataMode → Built w
  fresh : w.app.main.taskPhase = .datacall ∨ w.app.main.taskPhase = .gotoCmdMode → Fresh w

/-- The phases of which the invariant says nothing. -/
def MainPhase.isData : MainPhase → Bool
  | .dialUp => true
  | .waitGotoDataMode => true
  | .datacall => true
  | .gotoCmdMode => true
  | _ => false

section Invariant

variable {i : MainInput} {w w' : GsmWorld}

lemma DataInv.of_away (hlist : w.cmdList = []) (haway : w.app.main.taskPhase.isData = false) :
    DataInv w := by
  refine ⟨hlist, fun h => ?_, fun h => ?_, fun h => ?_⟩
  · rw [h] at haway
    cases haway
  · rw [h] at haway
    cases haway
  · rcases h with h | h <;> rw [h] at haway <;> cases haway

lemma DataInv.of_task {phase : MainPhase} (hlist : w.cmdList = [])
    (htask : w.app.main.taskPhase = phase) (haway : phase.isData = false) : DataInv w :=
  .of_away hlist (by rw [htask]; exact haway)

/-- In data mode and when it is left. -/
lemma DataInv.of_fresh (h : Fresh w)
    (htask : w.app.main.taskPhase = .datacall ∨ w.app.main.taskPhase = .gotoCmdMode) :
    DataInv w := by
  refine ⟨h.cmdList_eq, fun hdial => ?_, fun hwait => ?_, fun _ => h⟩
  · rcases htask with htask | htask <;> exact absurd (htask.symm.trans hdial) nofun
  · rcases htask with htask | htask <;> exact absurd (htask.symm.trans hwait) nofun

/-- The main task and the engine are where they were. -/
lemma DataInv.kept (h : DataInv w) (htask : w'.app.main.taskPhase = w.app.main.taskPhase)
    (hdialup : w'.app.main.dialupPhase = w.app.main.dialupPhase)
    (hcommon : w'.app.commonAppStruct = w.app.commonAppStruct) (hkept : EngineKept w w') :
    DataInv w' := by
  refine ⟨hkept.cmdList_eq.trans h.list_nil, fun hdial => ?_, fun hwait => ?_, fun hdata => ?_⟩
  · rw [hdialup]
    exact h.dialling (htask.symm.trans hdial)
  · refine (h.built (htask.symm.trans hwait)).moved ?_ hcommon hkept.cmdList_eq
    rw [hkept.cmdSend_eq]
  · rw [htask] at hdata
    exact (h.fresh hdata).kept hkept

lemma DataInv.aside (h : DataInv w) (haside : Aside w w') : DataInv w' :=
  h.kept haside.taskPhase_eq haside.dialupPhase_eq (congrArg Vitals.commonAppStruct haside.vitals)
    haside.engineKept

/-! ### The branches -/

lemma mainDatacall_inv (h : DataInv w) (htask : w.app.main.taskPhase = .datacall) :
    DataInv (mainDatacall i w) := by
  have hfresh := (h.fresh (Or.inl htask)).kept (mainDatacall_kept i w)
  have hinput : (datacallInput i (datacallFlags w)).app.main.taskPhase = .datacall ∨
      (datacallInput i (datacallFlags w)).app.main.taskPhase = .gotoCmdMode := by
    have hread := congrArg Session.task (datacallInput_session i (datacallFlags w))
    rcases datacallFlags_session w with hflags | hflags
    · exact Or.inl (hread.trans ((congrArg Session.task hflags).trans htask))
    · exact Or.inr (hread.trans (congrArg Session.task hflags))
  refine .of_fresh hfresh ?_
  unfold mainDatacall
  dsimp only
  split_ifs
  · exact Or.inr rfl
  · exact Or.inr rfl
  · rwa [(onRing_aside _ Ring.ringingEnable).taskPhase_eq]
  · exact hinput

lemma mainDialUp_inv (h : DataInv w) (htask : w.app.main.taskPhase = .dialUp) :
    DataInv (mainDialUp i w) := by
  have hlist : (mainDialUp i w).cmdList = [] :=
    (mainDialUp_serves i w).cmdList_eq.trans h.list_nil
  have hstays : (dialUp w).app.main.taskPhase = .dialUp :=
    (congrArg Session.task (dialUp_session w)).trans htask
  unfold mainDialUp at hlist ⊢
  dsimp only at hlist ⊢
  split_ifs at hlist ⊢ with hdone hok
  · have hfresh := dialUp_fresh (h.dialling htask) h.list_nil (of_decide_eq_true hok)
    exact .of_fresh (hfresh.kept (mainOpen_kept i _)) (Or.inl rfl)
  · exact .of_task hlist rfl rfl
  · refine ⟨hlist, fun _ hokay => hdone ?_, fun hwait => ?_, fun hdata => ?_⟩
    · rw [dialUpIsDone, hokay]
    · cases hstays.symm.trans hwait
    · rcases hdata with hdata | hdata <;> cases hstays.symm.trans hdata

lemma mainGotoData_inv (h : DataInv w) (htask : w.app.main.taskPhase = .gotoDataMode) :
    DataInv (mainGotoData w) := by
  have hlist : (mainGotoData w).cmdList = [] := (mainGotoData_serves w).cmdList_eq.trans h.list_nil
  unfold mainGotoData at hlist ⊢
  dsimp only at hlist ⊢
  split_ifs at hlist ⊢ with hok hsent
  · have hidle : cmdTaskIsIdle w.phase = true := by
      by_contra hbusy
      rw [issueText, cmdTaskSendCmd, if_neg hbusy] at hsent
      exact absurd hsent nofun
    have hbuilt : Built (setTask (issueText w atoArgs).2 .waitGotoDataMode) :=
      (built_issueText atoArgs h.list_nil hidle).moved rfl rfl rfl
    refine ⟨hlist, nofun, fun _ => hbuilt, fun hdata => ?_⟩
    rcases hdata with hdata | hdata <;> cases hdata
  · refine .of_task hlist ?_ (by rfl : MainPhase.gotoDataMode.isData = false)
    exact (congrArg Session.task (issueText_session w atoArgs)).trans htask
  · refine ⟨hlist, fun _ => nofun, nofun, fun hdata => ?_⟩
    rcases hdata with hdata | hdata <;> cases hdata

lemma mainWaitGotoCmd_away (htask : w.app.main.taskPhase.isData = false) :
    (mainWaitGotoCmd w).app.main.taskPhase.isData = false := by
  unfold mainWaitGotoCmd
  dsimp only
  split_ifs
  · rfl
  · rfl
  · rfl
  · exact htask

lemma mainGotoCmdCheck_away (htask : w.app.main.taskPhase.isData = false) :
    (mainGotoCmdCheck w).app.main.taskPhase.isData = false := by
  unfold mainGotoCmdCheck
  refine mainWaitGotoCmd_away ?_
  dsimp only
  split_ifs
  · rfl
  · rfl
  · rw [show (issueText w escapeArgs).2.app.main.taskPhase = w.app.main.taskPhase from
      congrArg Session.task (issueText_session w escapeArgs)]
    exact htask

lemma mainWaitGotoData_inv (h : DataInv w) (htask : w.app.main.taskPhase = .waitGotoDataMode) :
    DataInv (mainWaitGotoData w) := by
  have hbuilt := h.built htask
  unfold mainWaitGotoData
  split_ifs with hidle hok
  · exact .of_fresh ((hbuilt.fresh hidle).kept (((EngineKept.refl w).setMain _).setTask _))
      (Or.inl rfl)
  · exact .of_fresh ((hbuilt.fresh hidle).kept (mainHangUp_kept w)) (Or.inr rfl)
  · exact h

/-- A phase outside the session is one of which the invariant says nothing. -/
lemma isData_of_isSession {phase : MainPhase} (h : phase.isSession = false) :
    phase.isData = false := by
  cases phase <;> first | rfl | exact absurd h.symm Bool.false_ne_true

lemma PhaseStep.dataInv (h : PhaseStep i w w') (hw : DataInv w) : DataInv w' := by
  cases h with
  | init hphase =>
      obtain ⟨-, -, hlist, -, -, htask, -⟩ := mainInit_eq w
      exact .of_task hlist htask rfl
  | works hphase hinit h =>
      refine .of_away (h.serves.cmdList_eq.trans hw.list_nil) ?_
      rcases h.kept.task with htask | hout
      · rw [htask]
        exact isData_of_isSession hphase
      · exact isData_of_isSession hout
  | dialUp hphase => exact mainDialUp_inv hw hphase
  | datacall hphase => exact mainDatacall_inv hw hphase
  | gotoData hphase => exact mainGotoData_inv hw hphase
  | waitGotoData hphase => exact mainWaitGotoData_inv hw hphase
  | gotoCmd hphase =>
      exact .of_task ((mainGotoCmd_serves w).cmdList_eq.trans hw.list_nil) rfl rfl
  | gotoCmdCheck hphase =>
      refine .of_away ((mainGotoCmdCheck_serves w).cmdList_eq.trans hw.list_nil) ?_
      exact mainGotoCmdCheck_away (by rw [hphase]; rfl)
  | waitGotoCmd hphase =>
      refine .of_away ((mainWaitGotoCmd_serves w).cmdList_eq.trans hw.list_nil) ?_
      exact mainWaitGotoCmd_away (by rw [hphase]; rfl)

lemma DataInv.engine (h : DataInv w) : DataInv (mainEngine w) := by
  have hset : DataInv (w.setApp { w.app with atCommandParserEnable := true }) :=
    h.kept rfl rfl rfl ⟨rfl, rfl, rfl⟩
  unfold mainEngine
  split_ifs with hcall
  · replace hcall : (w.setApp { w.app with atCommandParserEnable := true }).app.main.taskPhase ≠
      .datacall := hcall
    generalize w.setApp { w.app with atCommandParserEnable := true } = w at hset hcall
    have hmoves := cmdTask_moves w
    have hlist : (mainCmdTask w).cmdList = [] := by
      have htask := hmoves.cmdList_nil hset.list_nil
      unfold mainCmdTask
      dsimp only
      split_ifs <;> exact htask
    have happ := mainCmdTask_app w
    cases hmoves.main.phases with
    | idle task dialup =>
        exact .of_task hlist ((congrArg (fun s => s.main.taskPhase) happ).trans task) rfl
    | stay task dialup =>
        refine ⟨hlist, fun hdial => ?_, fun hwait => ?_, fun hdata => ?_⟩
        · rw [happ, task] at hdial
          rw [happ, dialup]
          exact hset.dialling hdial
        · rw [happ, task] at hwait
          exact built_mainCmdTask (hset.built hwait)
        · rw [happ, task] at hdata
          have hfresh := hset.fresh hdata
          rw [mainCmdTask_of_fresh hfresh]
          exact hfresh
  · exact h

/-- **An iteration keeps the invariant.** -/
theorem dataInv_step (h : DataInv w) (i : MainInput) : DataInv (mainStep w i) := by
  have hout : DataInv (w.outside i.outside) := h.kept rfl rfl rfl ⟨rfl, rfl, rfl⟩
  unfold mainStep
  cases htask : mainTask i (w.outside i.outside) with
  | none => exact hout
  | some w' =>
      obtain ⟨w1, w2, -, hphase, haside, haside'⟩ := mainTask_step htask
      have hreset : DataInv (mainModemReset (w.outside i.outside)) := by
        unfold mainModemReset
        split_ifs
        · exact .of_task hout.list_nil rfl rfl
        · exact hout
      exact ((((mainPhase_step hphase).dataInv hreset).aside haside).engine).aside haside'

/-- **When the data mode is left the engine has nothing to do.** -/
theorem fresh_of_leaving (is : List MainInput)
    (htask : (run mainStep mainStart is).app.main.taskPhase = .gotoCmdMode) :
    Fresh (run mainStep mainStart is) := by
  have hstart : DataInv mainStart := .of_task rfl rfl rfl
  exact (run_invariant (I := DataInv) (fun _ i h => dataInv_step h i) is hstart).fresh
    (Or.inr htask)

end Invariant

end Ampm

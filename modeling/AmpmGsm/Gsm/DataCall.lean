import AmpmGsm.Gsm.Reinit
import AmpmGsm.Lib.Gates
import Mathlib.Logic.Relation

/-!
# The descriptor of the data call

`AMPM_GSM_MAIN_DATACALL_PHASE` reads from the descriptor `thisPPP`, which
`AMPM_GSM_MAIN_DIAL_UP_PHASE` opens and three branches close.  The result of `pppOverSerialOpen`
is not looked at.

* `linkGate`, `linkLaw` — a descriptor is read while it is the one opened last, and open.
* `Session`, `SessionStep` — the main task as far as the descriptor is concerned.
* `Session.Valid` — the invariant: a dial-up that counts as done has a descriptor.
* `mainStep_session` — an iteration is a sequence of such steps.
* **`inputsValid_of_opens`** — as long as no descriptor is refused, only valid ones are read.
-/

namespace Ampm

open Runs Gates

/-! ## The property -/

/-- Opened by `pppOverSerialOpen` with the result `pd` unless that is an error, shut by another
`pppOverSerialOpen` and by `pppClose(pd)`. -/
def linkGate (pd : ℤ) : Gate (CmdEvent gsmTypes) where
  opens
    | .app (.pppOpened r) => r = pd && 0 ≤ pd
    | _ => false
  shuts
    | .app (.pppOpened _) => true
    | .app (.pppClosed r) => r = pd
    | _ => false

/-- `pppInputThread(pd)` is behind the gate of `pd`. -/
def linkLaw : CmdEvent gsmTypes → Option (Gate (CmdEvent gsmTypes))
  | .app (.pppInput pd) => some (linkGate pd)
  | _ => none

/-- Whenever `pppInputThread` was called, its argument was the non-negative result of the most
recent `pppOverSerialOpen`, and `pppClose` had not been called on it since. -/
def InputsValid (w : GsmWorld) : Prop := obeys linkLaw w.hist = true

/-- The iteration calls `pppOverSerialOpen`. -/
def Opens (i : MainInput) (w : GsmWorld) : Prop :=
  (atSwitch i w).app.main.taskPhase = .dialUp ∧ dialUpIsOk (dialUp (atSwitch i w)).app = true

/-! ## The session -/

/-- What the descriptor depends on, and what was done to it. -/
structure Session where
  task : MainPhase
  dialup : DialupPhase
  ppp : ℤ
  log : List (CmdEvent gsmTypes)

/-- The phases that rely on a descriptor. -/
def MainPhase.reads : MainPhase → Bool
  | .datacall => true
  | .waitGotoDataMode => true
  | _ => false

/-- A step of the main task; `pppOverSerialOpen` returns what is `allowed`. -/
inductive SessionStep (allowed : ℤ → Prop) (v : Session) : Session → Prop
  | leave (task : MainPhase) (hreads : task.reads = false) (dialup : DialupPhase)
      (hdialup : dialup = v.dialup ∨ dialup ≠ .ok) :
      SessionStep allowed v { v with task := task, dialup := dialup }
  | hangUp (task : MainPhase) (hreads : task.reads = false) (ppp : ℤ) (closed : List ℤ) :
      SessionStep allowed v
        { task := task, dialup := .start, ppp := ppp
          log := closed.map (.app <| .pppClosed ·) ++ v.log }
  | opened (closed : List ℤ) (pd : ℤ) (hpd : allowed pd) :
      SessionStep allowed v
        { task := .datacall, dialup := .ok, ppp := pd
          log := .app (.pppOpened pd) :: (closed.map (.app <| .pppClosed ·) ++ v.log) }
  | resume (hdialup : v.dialup = .ok) :
      SessionStep allowed v { v with task := .waitGotoDataMode }
  | resumed (htask : v.task = .waitGotoDataMode) :
      SessionStep allowed v { v with task := .datacall }
  | input (htask : v.task = .datacall) :
      SessionStep allowed v { v with log := .app (.pppInput v.ppp) :: v.log }

/-- The phases that rely on a descriptor are entered after a dial-up, whose descriptor is open. -/
structure Session.Valid (v : Session) : Prop where
  dialled : v.task.reads = true → v.dialup = .ok
  live : v.dialup = .ok → (linkGate v.ppp).isOpen v.log = true
  obeyed : obeys linkLaw v.log = true

lemma obeys_closed (closed : List ℤ) (log : List (CmdEvent gsmTypes)) :
    obeys linkLaw (closed.map (.app <| .pppClosed ·) ++ log) = obeys linkLaw log := by
  refine obeys_append_of_none (fun e he => ?_) log
  obtain ⟨r, -, rfl⟩ := List.mem_map.mp he
  rfl

/-- **A step keeps the invariant as long as no descriptor is refused.** -/
theorem SessionStep.valid {v v' : Session} (h : SessionStep (0 ≤ ·) v v') (hv : v.Valid) :
    v'.Valid := by
  obtain ⟨hdialled, hlive, hobeyed⟩ := hv
  cases h with
  | leave task hreads dialup hdialup =>
      refine ⟨fun hread => absurd (hreads.symm.trans hread) Bool.false_ne_true, fun hok => ?_,
        hobeyed⟩
      rcases hdialup with rfl | hne
      · exact hlive hok
      · exact absurd hok hne
  | hangUp task hreads ppp closed =>
      exact ⟨fun hread => absurd (hreads.symm.trans hread) Bool.false_ne_true, nofun,
        (obeys_closed closed v.log).trans hobeyed⟩
  | opened closed pd hpd =>
      refine ⟨fun _ => rfl, fun _ => Gate.isOpen_cons_of_opens ?_ _, ?_⟩
      · simp [linkGate, hpd]
      · rw [obeys_cons_of_none rfl, obeys_closed, hobeyed]
  | resume hdialup => exact ⟨fun _ => hdialup, hlive, hobeyed⟩
  | resumed htask => exact ⟨fun _ => hdialled (by rw [htask]; rfl), hlive, hobeyed⟩
  | input htask =>
      have hopen := hlive (hdialled (by rw [htask]; rfl))
      refine ⟨hdialled, fun _ => ?_, ?_⟩
      · rw [Gate.isOpen_cons_of_ignores ⟨rfl, rfl⟩, hopen]
      · rw [obeys_cons_of_some (g := linkGate v.ppp) rfl, hopen, hobeyed]
        rfl

/-! ## The main task takes these steps -/

/-- The session of the main task. -/
def session (w : GsmWorld) : Session :=
  { task := w.app.main.taskPhase
    dialup := w.app.main.dialupPhase
    ppp := w.app.main.thisPpp
    log := linkEvents w.hist }

lemma session_setTask (w : GsmWorld) (phase : MainPhase) :
    session (setTask w phase) = { session w with task := phase } := rfl

/-- Flags and counters are no part of the session. -/
lemma session_setMain (w : GsmWorld) {main : MainVars}
    (hmain : main.taskPhase = w.app.main.taskPhase ∧ main.dialupPhase = w.app.main.dialupPhase ∧
      main.thisPpp = w.app.main.thisPpp) : session (w.setMain main) = session w := by
  rw [session, CmdWorld.setMain, CmdWorld.setApp_app, hmain.1, hmain.2.1, hmain.2.2]
  rfl

/-- From `w` to `w'` by steps of the session. -/
def Steps (allowed : ℤ → Prop) (w w' : GsmWorld) : Prop :=
  Relation.ReflTransGen (SessionStep allowed) (session w) (session w')

section Steps

variable {allowed : ℤ → Prop} {i : MainInput} {w w' w'' : GsmWorld}

lemma Steps.refl (w : GsmWorld) : Steps allowed w w := Relation.ReflTransGen.refl

lemma Steps.of_eq (h : session w' = session w) : Steps allowed w w' := by
  unfold Steps
  rw [h]

lemma Steps.trans (h : Steps allowed w w') (h' : Steps allowed w' w'') : Steps allowed w w'' :=
  Relation.ReflTransGen.trans h h'

lemma Steps.step (h : Steps allowed w w') (h' : SessionStep allowed (session w') (session w'')) :
    Steps allowed w w'' :=
  h.tail h'

lemma Aside.session_eq (h : Aside w w') : session w' = session w := by
  rw [session, h.taskPhase_eq, h.dialupPhase_eq, h.thisPpp_eq, h.linkEvents_eq]
  rfl

lemma Aside.steps (h : Aside w w') : Steps allowed w w' := .of_eq h.session_eq

/-- Work that has nothing to do with the descriptor. -/
lemma LinkKept.steps (h : LinkKept w w') (hreads : w.app.main.taskPhase.isSession = false) :
    Steps allowed w w' := by
  have hout : w'.app.main.taskPhase.reads = false := by
    have hphase (phase : MainPhase) (h : phase.isSession = false) : phase.reads = false := by
      cases phase <;> first | rfl | exact absurd h Bool.false_ne_true.symm
    rcases h.task with heq | hnot
    · rw [heq]
      exact hphase _ hreads
    · exact hphase _ hnot
  have hview : session w' = { session w with
      task := w'.app.main.taskPhase, dialup := w'.app.main.dialupPhase } := by
    rw [session, h.thisPpp_eq, h.events_eq]
    rfl
  refine (Steps.refl w).step ?_
  rw [hview]
  exact .leave _ hout _ (h.dialup.imp_right fun hstart => by rw [hstart]; nofun)

lemma linkEvents_of_isMain {es : List (CmdEvent gsmTypes)}
    (hes : ∀ e ∈ es, CmdEvent.isMain e = false) : linkEvents es = [] := by
  refine List.filter_eq_nil_iff.mpr fun e he hlink => ?_
  have hmain := hes e he
  cases e with
  | app e => cases e <;> first | exact absurd hlink Bool.false_ne_true | cases hmain
  | _ => exact absurd hlink Bool.false_ne_true

/-- The engine only ever sends the task to its idle phase. -/
lemma mainCmdTask_steps (w : GsmWorld) : Steps allowed w (mainCmdTask w) := by
  have hmoves := cmdTask_moves w
  obtain ⟨es, hes, hmain⟩ := hmoves.hist
  have hlog : linkEvents (mainCmdTask w).hist = linkEvents w.hist := by
    have htask : linkEvents (cmdTask mainCode w).hist = linkEvents w.hist := by
      rw [hes, linkEvents, List.filter_append, ← linkEvents, linkEvents_of_isMain hmain]
      rfl
    unfold mainCmdTask
    dsimp only
    split_ifs
    · exact htask
    · exact htask
  have hview (task : MainPhase) (dialup : DialupPhase)
      (htask : (cmdTask mainCode w).app.main.taskPhase = task)
      (hdialup : (cmdTask mainCode w).app.main.dialupPhase = dialup) :
      session (mainCmdTask w) = { session w with task := task, dialup := dialup } := by
    rw [session, hlog, mainCmdTask_app, htask, hdialup, hmoves.main.thisPpp_eq]
    rfl
  cases hmoves.main.phases with
  | stay task dialup => exact .of_eq (hview _ _ task dialup)
  | idle task dialup =>
      refine (Steps.refl w).step ?_
      rw [hview _ _ task rfl]
      refine .leave _ rfl _ (dialup.imp_right fun hstart => ?_)
      rw [hstart]
      decide

lemma mainEngine_steps (w : GsmWorld) : Steps allowed w (mainEngine w) := by
  unfold mainEngine
  split_ifs
  · refine Steps.trans (Steps.of_eq ?_) (mainCmdTask_steps _)
    rfl
  · exact .refl w

lemma mainModemReset_steps (w : GsmWorld) : Steps allowed w (mainModemReset w) := by
  unfold mainModemReset
  split_ifs
  · exact (Steps.refl w).step (.leave .init rfl _ (Or.inl rfl))
  · exact .refl w

/-! ### The branches -/

/-- A branch that goes to another phase. -/
lemma steps_setTask (w : GsmWorld) {phase : MainPhase} (hreads : phase.reads = false) :
    Steps allowed w (setTask w phase) :=
  (Steps.refl w).step (.leave phase hreads _ (Or.inl rfl))

lemma steps_setMain (w : GsmWorld) {main : MainVars}
    (hmain : main.taskPhase = w.app.main.taskPhase ∧ main.dialupPhase = w.app.main.dialupPhase ∧
      main.thisPpp = w.app.main.thisPpp) : Steps allowed w (w.setMain main) :=
  .of_eq (session_setMain w hmain)

/-- The descriptors that a branch closes. -/
def closedPpp (w : GsmWorld) : List ℤ := if w.app.main.thisPpp ≥ 0 then [w.app.main.thisPpp] else []

lemma closedLink_eq (w : GsmWorld) :
    closedLink w = (closedPpp w).map (.app <| .pppClosed ·) := by
  unfold closedLink closedPpp
  split_ifs <;> rfl

lemma linkEvents_closed (closed : List ℤ) :
    linkEvents (closed.map (.app <| .pppClosed ·)) = closed.map (.app <| .pppClosed ·) := by
  refine List.filter_eq_self.mpr fun e he => ?_
  obtain ⟨r, -, rfl⟩ := List.mem_map.mp he
  rfl

lemma mainInit_steps (w : GsmWorld) : Steps allowed w (mainInit w) := by
  obtain ⟨-, -, -, -, hhist, htask, -, hdialup, -⟩ := mainInit_eq w
  have hlog : linkEvents (mainInit w).hist =
      (closedPpp w).map (.app <| .pppClosed ·) ++ linkEvents w.hist := by
    rw [hhist, closedLink_eq]
    show linkEvents (_ ++ w.hist) = _
    rw [linkEvents, List.filter_append, ← linkEvents, linkEvents_closed]
    rfl
  have hview : session (mainInit w) =
      { task := .startup, dialup := .start, ppp := (mainInit w).app.main.thisPpp
        log := (closedPpp w).map (.app <| .pppClosed ·) ++ (session w).log } := by
    rw [session, htask, hdialup, hlog]
    rfl
  refine (Steps.refl w).step ?_
  rw [hview]
  exact .hangUp .startup rfl _ _

lemma mainHangUp_steps (w : GsmWorld) : Steps allowed w (mainHangUp w) :=
  (Steps.refl w).step (.hangUp .gotoCmdMode rfl _ [])

lemma datacallFlags_session (w : GsmWorld) :
    session (datacallFlags w) = session w ∨
      session (datacallFlags w) = { session w with task := .gotoCmdMode } := by
  have hflag : session (w.setMain { w.app.main with gotoDataModeFlag := false }) = session w :=
    session_setMain w (by exact ⟨rfl, rfl, rfl⟩)
  unfold datacallFlags
  dsimp only
  generalize w.setMain { w.app.main with gotoDataModeFlag := false } = w1 at hflag ⊢
  split_ifs
  · rw [session_setTask, session_setMain w1 (by exact ⟨rfl, rfl, rfl⟩), hflag]
    exact Or.inr rfl
  · exact Or.inl hflag

lemma datacallInput_session (i : MainInput) (w : GsmWorld) :
    session (datacallInput i w) =
      { session w with log := .app (.pppInput (session w).ppp) :: (session w).log } := by
  have hstatus :=
    (inputStatus_aside (w.log (.app (.pppInput w.app.main.thisPpp))) i.inputStatus).session_eq
  unfold datacallInput
  dsimp only
  generalize i.inputStatus.foldl statusCb _ = w1 at hstatus
  split_ifs <;> exact hstatus

/-- Up to the call of `pppInputThread`, and with it. -/
lemma datacallInput_steps (i : MainInput) (htask : w.app.main.taskPhase = .datacall) :
    Steps allowed w (datacallInput i (datacallFlags w)) := by
  have hread : SessionStep allowed (session w)
      { session w with log := .app (.pppInput (session w).ppp) :: (session w).log } := .input htask
  unfold Steps
  rw [datacallInput_session]
  rcases datacallFlags_session w with hview | hview <;> rw [hview]
  · exact .single hread
  · exact .tail (.single hread) (.leave .gotoCmdMode rfl _ (Or.inl rfl))

lemma datacallClose_steps (w : GsmWorld) : Steps allowed w (mainHangUp (datacallClose w)) := by
  unfold datacallClose
  split_ifs
  · exact (Steps.refl w).step (.hangUp .gotoCmdMode rfl _ [w.app.main.thisPpp])
  · exact mainHangUp_steps w

lemma mainDatacall_steps (i : MainInput) (htask : w.app.main.taskPhase = .datacall) :
    Steps allowed w (mainDatacall i w) := by
  have hinput : Steps allowed w (datacallInput i (datacallFlags w)) := datacallInput_steps i htask
  unfold mainDatacall
  dsimp only
  split_ifs
  · exact hinput.trans (mainHangUp_steps _)
  · exact (hinput.trans (onRing_aside _ _).steps).trans (datacallClose_steps _)
  · exact hinput.trans (onRing_aside _ _).steps
  · exact hinput

lemma commPutc_session (bytes : List UInt8) : session (bytes.foldl commPutc w) = session w := by
  induction bytes generalizing w with
  | nil => rfl
  | cons c rest ih => exact ih.trans rfl

lemma issue_session (w : GsmWorld) (cmd : GsmCmd) : session (issue w cmd).2 = session w := by
  rw [issue_eq]
  split_ifs <;> rfl

lemma issueText_session (w : GsmWorld) (args : SendCmdArgs) :
    session (issueText w args).2 = session w := by
  unfold issueText cmdTaskSendCmd
  split_ifs <;> rfl

/-- `Ampm_GSM_DialUp` leaves the descriptor alone. -/
lemma dialUp_session (w : GsmWorld) :
    session (dialUp w) = { session w with dialup := (dialUp w).app.main.dialupPhase } := by
  have hsame {w' : GsmWorld} (h : session w' = session w) :
      session w' = { session w with dialup := w'.app.main.dialupPhase } := by
    rw [← h]
    rfl
  have hset {w' : GsmWorld} (h : session w' = session w) {main : MainVars}
      (hmain : main.taskPhase = w'.app.main.taskPhase ∧ main.thisPpp = w'.app.main.thisPpp) :
      session (w'.setMain main) = { session w with dialup := main.dialupPhase } := by
    rw [← h, session, CmdWorld.setMain, CmdWorld.setApp_app, hmain.1, hmain.2]
    rfl
  have hlog (w : GsmWorld) : session (w.log (.app .dialStarted)) = session w := rfl
  unfold dialUp
  cases w.app.main.dialupPhase with
  | start =>
      dsimp only
      split_ifs
      · exact (hlog _).trans (hset (issue_session w _) (by exact ⟨rfl, rfl⟩))
      · exact hsame (issue_session w _)
  | runing =>
      dsimp only
      split_ifs
      · exact hset (commPutc_session _) ⟨rfl, rfl⟩
      · exact hset rfl ⟨rfl, rfl⟩
      · exact hset rfl ⟨rfl, rfl⟩
      · exact hsame rfl
  | ok => exact hsame rfl
  | fail => exact hsame rfl

/-- A descriptor is opened. -/
lemma mainOpen_session (i : MainInput) (w : GsmWorld) :
    session (mainOpen i w) =
      { task := .datacall, dialup := (session w).dialup, ppp := i.openResult
        log := .app (.pppOpened i.openResult) ::
          ((closedPpp w).map (.app <| .pppClosed ·) ++ (session w).log) } := by
  have hring (w : GsmWorld) : session (onRing Ring.ringingDisable w) = session w ∧
      closedPpp (onRing Ring.ringingDisable w) = closedPpp w := ⟨rfl, rfl⟩
  have hflag (w : GsmWorld) :
      session (w.setMain { w.app.main with gotoCmdModeFlag := false }) = session w ∧
        closedPpp (w.setMain { w.app.main with gotoCmdModeFlag := false }) = closedPpp w :=
    ⟨rfl, rfl⟩
  have hlast (w : GsmWorld) : session (closeLast w) = { session w with
      log := (closedPpp w).map (.app <| .pppClosed ·) ++ (session w).log } := by
    unfold closeLast closedPpp
    split_ifs <;> rfl
  have hopen (w : GsmWorld) : session (setTask ((w.setMain { w.app.main with
      thisPpp := i.openResult, pppStatus := .connecting }).log
        (.app (.pppOpened i.openResult))) .datacall) =
      { task := .datacall, dialup := (session w).dialup, ppp := i.openResult
        log := .app (.pppOpened i.openResult) :: (session w).log } := rfl
  unfold mainOpen
  dsimp only
  rw [hopen, hlast, (hflag _).1, (hflag _).2, (hring w).1, (hring w).2]

lemma mainDialUp_steps {i : MainInput}
    (hopen : dialUpIsOk (dialUp w).app = true → allowed i.openResult)
    (htask : w.app.main.taskPhase = .dialUp) : Steps allowed w (mainDialUp i w) := by
  have hview := dialUp_session w
  unfold mainDialUp
  dsimp only
  split_ifs with hdone hok
  · unfold Steps
    rw [mainOpen_session, hview, of_decide_eq_true hok]
    exact .single (.opened _ _ (hopen hok))
  · refine (Steps.refl w).step ?_
    rw [session_setTask, hview]
    exact .leave .idle rfl _ (Or.inr fun h => hok (decide_eq_true h))
  · refine (Steps.refl w).step ?_
    have hnot : (dialUp w).app.main.dialupPhase ≠ .ok := by
      intro h
      rw [dialUpIsDone, h] at hdone
      exact hdone rfl
    rw [hview]
    exact .leave (session w).task (by rw [session, htask]; rfl) _ (Or.inr hnot)

lemma mainGotoData_steps (w : GsmWorld) : Steps allowed w (mainGotoData w) := by
  unfold mainGotoData
  dsimp only
  split_ifs with hok hsent
  · have hresume : SessionStep allowed (session w) { session w with task := .waitGotoDataMode } :=
      .resume (of_decide_eq_true hok.1)
    refine (Steps.refl w).step ?_
    rw [session_setTask, issueText_session]
    exact hresume
  · exact .of_eq (issueText_session w _)
  · have hreset : Steps allowed w (setTask (dialUpReset w) .dialUp) :=
      (Steps.refl w).step (.hangUp .dialUp rfl _ [])
    exact hreset.trans (steps_setMain _ (by exact ⟨rfl, rfl, rfl⟩))

lemma mainWaitGotoData_steps (htask : w.app.main.taskPhase = .waitGotoDataMode) :
    Steps allowed w (mainWaitGotoData w) := by
  unfold mainWaitGotoData
  split_ifs
  · exact (Steps.refl w).step (.resumed htask)
  · exact mainHangUp_steps w
  · exact .refl w

lemma mainGotoCmd_steps (w : GsmWorld) : Steps allowed w (mainGotoCmd w) :=
  ((steps_setMain w (by exact ⟨rfl, rfl, rfl⟩)).trans (onRing_aside _ _).steps).trans
    (steps_setTask _ rfl)

lemma issueText_steps (w : GsmWorld) (args : SendCmdArgs) :
    Steps allowed w (issueText w args).2 :=
  .of_eq (issueText_session w args)

lemma mainWaitGotoCmd_steps (w : GsmWorld) : Steps allowed w (mainWaitGotoCmd w) := by
  unfold mainWaitGotoCmd
  dsimp only
  split_ifs
  · exact (steps_setMain w (by exact ⟨rfl, rfl, rfl⟩)).trans (steps_setTask _ rfl)
  · exact ((issueText_steps w _).trans (steps_setMain _ (by exact ⟨rfl, rfl, rfl⟩))).trans
      (steps_setTask _ rfl)
  · exact ((issueText_steps w _).trans (steps_setMain _ (by exact ⟨rfl, rfl, rfl⟩))).trans
      (steps_setTask _ rfl)
  · exact .refl w

lemma mainGotoCmdCheck_steps (w : GsmWorld) : Steps allowed w (mainGotoCmdCheck w) := by
  unfold mainGotoCmdCheck
  refine Steps.trans ?_ (mainWaitGotoCmd_steps _)
  dsimp only
  split_ifs
  · exact (steps_setMain w (by exact ⟨rfl, rfl, rfl⟩)).trans (steps_setTask _ rfl)
  · exact (issueText_steps w _).trans (steps_setTask _ rfl)
  · exact issueText_steps w _

/-- **Every branch takes steps of the session.** -/
theorem PhaseStep.steps {i : MainInput} (h : PhaseStep i w w')
    (hopen : w.app.main.taskPhase = .dialUp → dialUpIsOk (Ampm.dialUp w).app = true →
      allowed i.openResult) : Steps allowed w w' := by
  cases h with
  | init hphase => exact mainInit_steps w
  | works hphase hinit h => exact h.kept.steps hphase
  | dialUp hphase => exact mainDialUp_steps (hopen hphase) hphase
  | datacall hphase => exact mainDatacall_steps i hphase
  | gotoData hphase => exact mainGotoData_steps w
  | waitGotoData hphase => exact mainWaitGotoData_steps hphase
  | gotoCmd hphase => exact mainGotoCmd_steps w
  | gotoCmdCheck hphase => exact mainGotoCmdCheck_steps w
  | waitGotoCmd hphase => exact mainWaitGotoCmd_steps w

/-- **An iteration is a sequence of steps of the session.** -/
theorem mainStep_session {i : MainInput} (hopen : Opens i w → allowed i.openResult) :
    Steps allowed w (mainStep w i) := by
  have hout : Steps allowed w (w.outside i.outside) := .of_eq rfl
  unfold mainStep
  cases htask : mainTask i (w.outside i.outside) with
  | none => exact hout
  | some w' =>
      obtain ⟨w1, w2, -, hphase, haside, haside'⟩ := mainTask_step htask
      have hbranch := (mainPhase_step hphase).steps fun hdial hok => hopen ⟨hdial, hok⟩
      exact (((((hout.trans (mainModemReset_steps _)).trans hbranch).trans haside.steps).trans
        (mainEngine_steps _)).trans haside'.steps)

end Steps

/-! ## Over a run -/

/-- The invariant along a sequence of steps. -/
lemma Steps.valid {w w' : GsmWorld} (h : Steps (0 ≤ ·) w w') (hw : (session w).Valid) :
    (session w').Valid := by
  unfold Steps at h
  generalize session w' = v at h ⊢
  induction h with
  | refl => exact hw
  | tail _ hstep ih => exact hstep.valid ih

/-- What was done to the descriptors is all that matters. -/
lemma inputsValid_iff (w : GsmWorld) :
    InputsValid w ↔ obeys linkLaw (linkEvents w.hist) = true := by
  have hlink {e : CmdEvent gsmTypes} (he : e.isLink = false) :
      linkLaw e = none ∧ ∀ pd, (linkGate pd).ignores e := by
    cases e with
    | app e =>
        cases e <;> first
          | exact ⟨rfl, fun _ => ⟨rfl, rfl⟩⟩
          | exact absurd he.symm Bool.false_ne_true
    | _ => exact ⟨rfl, fun _ => ⟨rfl, rfl⟩⟩
  unfold InputsValid linkEvents
  rw [obeys_filter (fun e he => (hlink he).1)]
  intro e g hgate x hx
  cases e with
  | app e =>
      cases e with
      | pppInput pd =>
          obtain rfl := Option.some_inj.mp hgate
          exact (hlink hx).2 pd
      | _ => cases hgate
  | _ => cases hgate

/-- **As long as every descriptor is granted, only valid ones are read.** -/
theorem inputsValid_of_opens (is : List MainInput)
    (h : StepsMeet mainStep (fun w i => Opens i w → 0 ≤ i.openResult) mainStart is) :
    Throughout mainStep InputsValid mainStart is := by
  have hstart : (session mainStart).Valid := ⟨nofun, nofun, rfl⟩
  have hvalid := throughout_of_stepsMeet (I := fun w => (session w).Valid)
    (fun w i hw hopen => (mainStep_session hopen).valid hw) hstart h
  exact hvalid.mono fun w hw => (inputsValid_iff w).mpr hw.obeyed

/-- What the `k`-th iteration meets if the modem answers everything, `pppOverSerialOpen` returns
`pd`, and a data call is asked for. -/
def dials (pd : ℤ) (k : ℕ) : MainInput :=
  { answers k with
    outside :=
      { (answers k).outside with
        app := { gsmReset with
          rx := bytesOf "OK +CREG: 0,1 CONNECT"
          main := { gsmReset.main with mode := .gprsEnable } } }
    openResult := pd }

/-- A data call with the descriptor 0. -/
theorem inputsValid_granted :
    Throughout mainStep InputsValid mainStart ((List.range 130).map (dials 0)) :=
  inputsValid_of_opens _ (stepsMeet_of_mem fun i hi _ _ => by
    obtain ⟨k, -, rfl⟩ := List.mem_map.mp hi
    exact Int.le_refl 0)

instance decidableInputsValid : DecidablePred InputsValid :=
  fun _ => inferInstanceAs (Decidable (_ = true))

/-- A data call for which there is no descriptor. -/
theorem inputsValid_refused :
    ¬ Throughout mainStep InputsValid mainStart ((List.range 130).map (dials (-2))) :=
  fun h => absurd h.last (by decide +kernel)

end Ampm

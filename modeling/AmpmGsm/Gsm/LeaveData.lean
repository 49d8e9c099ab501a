import AmpmGsm.Gsm.DataMode

/-!
# Leaving the data mode

`AMPM_GSM_MAIN_GOTO_CMD_MODE_CHECK_PHASE` sends `+++`, `AMPM_GSM_MAIN_WAIT_GOTO_CMD_MODE_PHASE`
waits for its end and sends `AT` if it failed, which the former looks at before it sends `+++`
again.  Both look only at the phase of the engine.

* `escapes`, `answerGate`, `AnsweredOk` — what the log says of the two commands.
* `Asked` — one of them is in hand; `Asked.mainCmdTask` — the engine goes on with it.
* `Leaving` — the invariant of the phases, the number of tries and the engine.
* **`leaving_answered`** — command mode is only assumed after an `OK`, and after four `+++` at most.
-/

namespace Ampm

open Runs Gates

/-! ## The property -/

/-- The command `+++` was handed to the engine. -/
def CmdEvent.isEscape : CmdEvent gsmTypes → Bool
  | .app (.issuedText text) => text = bytesOf "+++"
  | _ => false

/-- The number of times. -/
def escapes (es : List (CmdEvent gsmTypes)) : ℕ := es.countP CmdEvent.isEscape

/-- Opened by `+++` and `AT`, shut by every other command. -/
def answerGate : Gate (CmdEvent gsmTypes) where
  opens
    | .app (.issuedText text) => text = bytesOf "+++" || text = bytesOf "AT\r"
    | _ => false
  shuts
    | .load _ => true
    | .app (.issuedText _) => true
    | _ => false

/-- A command `+++` or `AT` has ended in `AMPM_CMD_OK`. -/
def AnsweredOk (es : List (CmdEvent gsmTypes)) : Prop :=
  ∃ newer older, es = newer ++ .app (.ended none .ok) :: older ∧ answerGate.isOpen older = true

/-- The main task is neither asked for a reset of the modem, nor has it left these phases. -/
def StillLeaving (w : GsmWorld) (i : MainInput) : Prop :=
  i.outside.app.main.modemResetFlag = false ∧ w.app.main.taskPhase ≠ .idle ∧
    w.app.main.taskPhase ≠ .init

/-! ## The log -/

/-- No command is handed over or loaded. -/
def CmdEvent.isQuiet : CmdEvent gsmTypes → Bool
  | .load _ => false
  | .app (.issuedText _) => false
  | _ => true

section Log

variable {es es' : List (CmdEvent gsmTypes)}

lemma CmdEvent.isQuiet_only {e : CmdEvent gsmTypes} (h : e.isQuiet = true) :
    e.isEscape = false ∧ answerGate.ignores e := by
  cases e with
  | load => exact absurd h Bool.false_ne_true
  | app e => cases e <;> first | exact ⟨rfl, rfl, rfl⟩ | exact absurd h Bool.false_ne_true
  | _ => exact ⟨rfl, rfl, rfl⟩

lemma escapes_quiet (hquiet : ∀ e ∈ es', CmdEvent.isQuiet e = true) :
    escapes (es' ++ es) = escapes es := by
  have hnone : escapes es' = 0 := List.countP_eq_zero.mpr fun e he hescape =>
    Bool.false_ne_true ((CmdEvent.isQuiet_only (hquiet e he)).1.symm.trans hescape)
  rw [escapes, List.countP_append, ← escapes, ← escapes, hnone, Nat.zero_add]

lemma answerGate_quiet (hquiet : ∀ e ∈ es', CmdEvent.isQuiet e = true) :
    answerGate.isOpen (es' ++ es) = answerGate.isOpen es :=
  Gate.isOpen_append_of_ignores (fun e he => (CmdEvent.isQuiet_only (hquiet e he)).2) es

lemma AnsweredOk.append (h : AnsweredOk es) (es' : List (CmdEvent gsmTypes)) :
    AnsweredOk (es' ++ es) := by
  obtain ⟨newer, older, rfl, hopen⟩ := h
  exact ⟨es' ++ newer, older, (List.append_assoc ..).symm, hopen⟩

lemma isQuiet_of_isReport {e : CmdEvent gsmTypes} (h : e.isReport = true) : e.isQuiet = true := by
  cases e with
  | app e => cases e <;> first | rfl | exact absurd h Bool.false_ne_true
  | _ => exact absurd h Bool.false_ne_true

end Log

/-! ## The command in hand -/

/-- One of the two commands is in hand; if it has ended well, the log says so. -/
structure Asked (es : List (CmdEvent gsmTypes)) (w : GsmWorld) : Prop where
  plain : PlainCmd .common w
  next_eq : w.cmdSend.next = none
  cmdList_eq : w.cmdList = []
  loaded_eq : w.loaded = none
  open_eq : cmdTaskIsIdle w.phase = false → answerGate.isOpen es = true
  answered : w.phase = .ok → AnsweredOk es

section Asked

variable {es : List (CmdEvent gsmTypes)} {w w' : GsmWorld}

/-- What the engine logs on such a command. -/
lemma PlainStep.move {packet : GsmPacket} (h : PlainStep packet w w') :
    ∃ phase events, PlainMove w phase events w' ∧ ∀ e ∈ events, CmdEvent.isQuiet e = true := by
  cases h with
  | early hphase move => exact ⟨_, _, move, List.forall_mem_nil _⟩
  | sent hphase bytes hcmd move => exact ⟨_, _, move, by simp [CmdEvent.isQuiet]⟩
  | retry hphase move => exact ⟨_, _, move, List.forall_mem_nil _⟩
  | giveUp hphase move => exact ⟨_, _, move, List.forall_mem_nil _⟩
  | failed hphase move => exact ⟨_, _, move, List.forall_mem_nil _⟩
  | lapsed hphase move => exact ⟨_, _, move, by simp [CmdEvent.isQuiet]⟩
  | matched hphase res move => exact ⟨_, _, move, by simp [CmdEvent.isQuiet]⟩
  | refused hphase res move => exact ⟨_, _, move, by simp [CmdEvent.isQuiet]⟩
  | waits hphase res hcmd move => exact ⟨_, _, move, by simp [CmdEvent.isQuiet]⟩
  | succeeded hphase move => exact ⟨_, _, move, List.forall_mem_nil _⟩

/-- **The engine goes on with the command.** -/
theorem Asked.mainCmdTask (h : Asked es w) (hbusy : cmdTaskIsIdle w.phase = false) :
    ∃ events, (mainCmdTask w).hist = events ++ w.hist ∧
      (∀ e ∈ events, CmdEvent.isQuiet e = true) ∧ Asked (events ++ es) (Ampm.mainCmdTask w) ∧
      (Ampm.mainCmdTask w).app.main = w.app.main := by
  have hstep := plainTask_step h.plain hbusy
  have hkeeps := hstep.keeps h.plain
  obtain ⟨phase, events, hmove, hquiet⟩ := hstep.move
  have hopen := h.open_eq hbusy
  have htask := mainCmdTask_move hbusy hmove
  have hplain : PlainCmd .common (Ampm.mainCmdTask w) := by
    unfold Ampm.mainCmdTask
    dsimp only
    split_ifs
    · exact ⟨hkeeps.1, hkeeps.2, hkeeps.3, hkeeps.4, hkeeps.5, hkeeps.6, hkeeps.7⟩
    · exact hkeeps
  have hquiet' : ∀ e ∈ (if cmdTaskIsIdle phase then .app (.ended w.loaded phase) :: events
      else events), CmdEvent.isQuiet e = true := by
    split_ifs
    · exact List.forall_mem_cons.mpr ⟨rfl, hquiet⟩
    · exact hquiet
  refine ⟨_, htask.hist_eq, hquiet', ⟨hplain, ?_, ?_, ?_, fun _ => ?_, fun hok => ?_⟩,
    htask.frame.main_eq⟩
  · rw [htask.cmdSend_eq]
    exact h.next_eq
  · exact htask.cmdList_eq.trans h.cmdList_eq
  · exact htask.loaded_eq.trans h.loaded_eq
  · rw [answerGate_quiet hquiet', hopen]
  · obtain rfl : phase = .ok := htask.phase_eq.symm.trans hok
    refine ⟨[], events ++ es, ?_, by rw [answerGate_quiet hquiet, hopen]⟩
    rw [h.loaded_eq]
    rfl

/-- Beside the command nothing matters. -/
lemma Asked.kept (h : Asked es w) (hvitals : w'.app.vitals = w.app.vitals)
    (hkept : EngineKept w w') (hloaded : w'.loaded = w.loaded)
    {es' : List (CmdEvent gsmTypes)} (hquiet : ∀ e ∈ es', CmdEvent.isQuiet e = true) :
    Asked (es' ++ es) w' := by
  have hcommon : w'.app.commonAppStruct = w.app.commonAppStruct :=
    congrArg Vitals.commonAppStruct hvitals
  have hpacket : (gsmPacket w'.app .common).callback = (gsmPacket w.app .common).callback ∧
      (gsmPacket w'.app .common).sprintf = (gsmPacket w.app .common).sprintf := by
    rw [gsmPacket, gsmPacket, hcommon]
    exact ⟨rfl, rfl⟩
  have hplain : PlainCmd .common w' := by
    refine ⟨?_, ?_, ?_, ?_, ?_, ?_, fun hwait => ?_⟩
    · rw [hkept.cmdSend_eq]
      exact h.plain.send_eq
    · rw [hkept.cmdSend_eq]
      exact h.plain.recv_eq
    · rw [hkept.cmdSend_eq]
      exact h.plain.end_eq
    · rw [hkept.cmdSend_eq]
      exact h.plain.app_eq
    · exact hpacket.1.trans h.plain.callback_eq
    · rw [hpacket.2]
      exact h.plain.sprintf_or
    · rw [show w'.app.atCmd = w.app.atCmd from congrArg Vitals.atCmd hvitals]
      exact h.plain.atCmd_eq (hkept.phase_eq.symm.trans hwait)
  refine ⟨hplain, ?_, hkept.cmdList_eq.trans h.cmdList_eq, hloaded.trans h.loaded_eq,
    fun hbusy => ?_, fun hok => (h.answered (hkept.phase_eq.symm.trans hok)).append es'⟩
  · rw [hkept.cmdSend_eq]
    exact h.next_eq
  · rw [answerGate_quiet hquiet]
    exact h.open_eq (by rw [← hkept.phase_eq]; exact hbusy)

/-- One of the two commands is handed over. -/
lemma asked_issueText (es : List (CmdEvent gsmTypes)) (args : SendCmdArgs) {text : List UInt8}
    (hidle : cmdTaskIsIdle w.phase = true)
    (hlist : w.cmdList = []) (hcallback : args.callback = none) (htext : args.text = some text)
    (hopens : answerGate.opens (.app (.issuedText text)) = true) :
    (issueText w args).1 = 0 ∧
      (issueText w args).2.hist = .app (.issuedText text) :: .load none :: w.hist ∧
      (issueText w args).2.phase = .send ∧
      (issueText w args).2.app.main = w.app.main ∧
      Asked (.app (.issuedText text) :: .load none :: es) (issueText w args).2 := by
  have hgate : answerGate.isOpen (.app (.issuedText text) :: .load none :: es) = true :=
    Gate.isOpen_cons_of_opens hopens _
  unfold issueText cmdTaskSendCmd
  rw [if_pos hidle]
  refine ⟨rfl, by rw [htext]; rfl, rfl, rfl, ?_⟩
  exact ⟨⟨rfl, rfl, rfl, rfl, hcallback, Or.inl rfl, nofun⟩, rfl, hlist, rfl, fun _ => hgate, nofun⟩

/-- The commands do not look at the variables of the main task. -/
lemma Asked.setMain (h : Asked es w) (main : MainVars) : Asked es (w.setMain main) :=
  ⟨⟨h.plain.1, h.plain.2, h.plain.3, h.plain.4, h.plain.5, h.plain.6, h.plain.7⟩, h.2, h.3, h.4,
    h.5, h.6⟩

/-- When it has ended the engine has nothing to do. -/
lemma Asked.fresh (h : Asked es w) (hidle : cmdTaskIsIdle w.phase = true) : Fresh w :=
  ⟨hidle, h.next_eq, h.cmdList_eq⟩

end Asked

/-! ## The invariant -/

/-- Where the main task is, with `es` logged since it began to leave the data mode. -/
inductive Stage (es : List (CmdEvent gsmTypes)) (w : GsmWorld) : Prop
  | ready (task : w.app.main.taskPhase = .gotoCmdMode ∨
        w.app.main.taskPhase = .gotoCmdModeCheck ∧ w.app.main.mainTaskTryCnt = 0)
      (fresh : Fresh w) (count : escapes es = 0)
  | check (task : w.app.main.taskPhase = .gotoCmdModeCheck) (asked : Asked es w)
      (count : escapes es = w.app.main.mainTaskTryCnt.toNat)
      (tries : 1 ≤ escapes es ∧ escapes es ≤ 3)
  | wait (task : w.app.main.taskPhase = .waitGotoCmdMode) (asked : Asked es w)
      (count : escapes es = w.app.main.mainTaskTryCnt.toNat + 1) (tries : escapes es ≤ 4)
  | gaveUp (task : w.app.main.taskPhase = .init) (asked : Asked es w) (tries : escapes es ≤ 4)
  | left (task : w.app.main.taskPhase = .idle) (fresh : Fresh w) (answered : AnsweredOk es)
      (tries : escapes es ≤ 4)

/-- Since the log was `base`. -/
def Leaving (base : List (CmdEvent gsmTypes)) (w : GsmWorld) : Prop :=
  ∃ es, w.hist = es ++ base ∧ Stage es w

section Leaving

variable {es : List (CmdEvent gsmTypes)} {base : List (CmdEvent gsmTypes)} {w w' : GsmWorld}

lemma Stage.kept (h : Stage es w) (hvitals : w'.app.vitals = w.app.vitals)
    (hkept : EngineKept w w') (hloaded : w'.loaded = w.loaded)
    {es' : List (CmdEvent gsmTypes)} (hquiet : ∀ e ∈ es', CmdEvent.isQuiet e = true) :
    Stage (es' ++ es) w' := by
  have htask : w'.app.main.taskPhase = w.app.main.taskPhase := congrArg Vitals.taskPhase hvitals
  have htry : w'.app.main.mainTaskTryCnt = w.app.main.mainTaskTryCnt :=
    congrArg Vitals.mainTaskTryCnt hvitals
  have hcount : escapes (es' ++ es) = escapes es := escapes_quiet hquiet
  cases h with
  | ready task fresh count =>
      exact .ready (by rw [htask, htry]; exact task) (fresh.kept hkept) (hcount.trans count)
  | check task asked count tries =>
      exact .check (htask.trans task) (asked.kept hvitals hkept hloaded hquiet)
        (by rw [hcount, htry]; exact count) (by rw [hcount]; exact tries)
  | wait task asked count tries =>
      exact .wait (htask.trans task) (asked.kept hvitals hkept hloaded hquiet)
        (by rw [hcount, htry]; exact count) (by rw [hcount]; exact tries)
  | gaveUp task asked tries =>
      exact .gaveUp (htask.trans task) (asked.kept hvitals hkept hloaded hquiet)
        (by rw [hcount]; exact tries)
  | left task fresh answered tries =>
      exact .left (htask.trans task) (fresh.kept hkept) (answered.append es')
        (by rw [hcount]; exact tries)

lemma Leaving.aside (h : Leaving base w) (haside : Aside w w') : Leaving base w' := by
  obtain ⟨es, hes, hstage⟩ := h
  obtain ⟨es', hes', hreport⟩ := haside.hist
  exact ⟨es' ++ es, by rw [hes', hes, List.append_assoc],
    hstage.kept haside.vitals haside.engineKept haside.engine.2.2.1
      fun e he => isQuiet_of_isReport (hreport e he)⟩

lemma Leaving.outside (h : Leaving base w) (o : Outside) : Leaving base (w.outside o) := by
  obtain ⟨es, hes, hstage⟩ := h
  have hkept : EngineKept w (w.outside o) := ⟨rfl, rfl, rfl⟩
  exact ⟨es, hes, hstage.kept (by exact rfl) hkept (by exact rfl) (List.forall_mem_nil _)⟩

/-- What the engine does next. -/
lemma Stage.mainCmdTask (h : Stage es w) :
    ∃ events, (mainCmdTask w).hist = events ++ w.hist ∧
      Stage (events ++ es) (Ampm.mainCmdTask w) := by
  have hidle (hfresh : Fresh w) : ∃ events, (Ampm.mainCmdTask w).hist = events ++ w.hist ∧
      Stage (events ++ es) (Ampm.mainCmdTask w) := by
    rw [mainCmdTask_of_fresh hfresh]
    exact ⟨[], rfl, h⟩
  have hasked (asked : Asked es w) (hstage : ∀ {events}, Asked (events ++ es) (Ampm.mainCmdTask w) →
      escapes (events ++ es) = escapes es → (Ampm.mainCmdTask w).app.main = w.app.main →
      Stage (events ++ es) (Ampm.mainCmdTask w)) :
      ∃ events, (Ampm.mainCmdTask w).hist = events ++ w.hist ∧
        Stage (events ++ es) (Ampm.mainCmdTask w) := by
    cases hphase : cmdTaskIsIdle w.phase with
    | true => exact hidle (asked.fresh hphase)
    | false =>
        obtain ⟨events, hevents, hquiet, hasked, hmain⟩ := asked.mainCmdTask hphase
        exact ⟨events, hevents, hstage hasked (escapes_quiet hquiet) hmain⟩
  cases h with
  | ready task fresh count => exact hidle fresh
  | check task asked count tries =>
      exact hasked asked fun hasked hcount hmain => .check (by rw [hmain]; exact task) hasked
        (by rw [hcount, hmain]; exact count) (by rw [hcount]; exact tries)
  | wait task asked count tries =>
      exact hasked asked fun hasked hcount hmain => .wait (by rw [hmain]; exact task) hasked
        (by rw [hcount, hmain]; exact count) (by rw [hcount]; exact tries)
  | gaveUp task asked tries =>
      exact hasked asked fun hasked hcount hmain => .gaveUp (by rw [hmain]; exact task) hasked
        (by rw [hcount]; exact tries)
  | left task fresh answered tries => exact hidle fresh

lemma Leaving.engine (h : Leaving base w) : Leaving base (mainEngine w) := by
  obtain ⟨es, hes, hstage⟩ := h
  have hkept : EngineKept w (w.setApp { w.app with atCommandParserEnable := true }) :=
    ⟨rfl, rfl, rfl⟩
  have hset := hstage.kept (by exact rfl) hkept (by exact rfl) (List.forall_mem_nil _)
  obtain ⟨events, hevents, hstage'⟩ := hset.mainCmdTask
  unfold mainEngine
  split_ifs
  · refine ⟨events ++ es, ?_, hstage'⟩
    rw [hevents, CmdWorld.setApp_hist, hes, List.append_assoc]
  · exact ⟨es, hes, hstage⟩

/-! ### The branches -/

lemma Leaving.mk' (hes : w.hist = es ++ base) (es' : List (CmdEvent gsmTypes))
    (hhist : w'.hist = es' ++ w.hist) (hstage : Stage (es' ++ es) w') : Leaving base w' :=
  ⟨es' ++ es, by rw [hhist, hes, List.append_assoc], hstage⟩

/-- While a command runs no other is accepted. -/
lemma issueText_busy (hbusy : cmdTaskIsIdle w.phase = false) (args : SendCmdArgs) :
    issueText w args = (1, w) := by
  simp only [issueText, cmdTaskSendCmd, hbusy, Bool.false_eq_true, if_false]
  rfl

/-- While the command runs nothing is done. -/
lemma mainWaitGotoCmd_busy (hbusy : cmdTaskIsIdle w.phase = false) : mainWaitGotoCmd w = w := by
  unfold mainWaitGotoCmd
  rw [hbusy]
  rfl

/-- After the answer the main task is idle. -/
lemma mainWaitGotoCmd_ok (hphase : w.phase = .ok) :
    mainWaitGotoCmd w = setTask (w.setMain { w.app.main with gotoCmdModeFlag := false }) .idle := by
  unfold mainWaitGotoCmd
  rw [hphase]
  rfl

lemma mainWaitGotoCmd_left (hphase : w.phase = .ok) :
    EngineKept w (mainWaitGotoCmd w) ∧ (mainWaitGotoCmd w).app.main.taskPhase = .idle ∧
      (mainWaitGotoCmd w).hist = w.hist := by
  rw [mainWaitGotoCmd_ok hphase]
  exact ⟨((EngineKept.refl w).setMain _).setTask _, rfl, rfl⟩

/-- The answer to `AT` has come. -/
lemma mainGotoCmdCheck_ok (htry : w.app.main.mainTaskTryCnt ≠ 0) (hphase : w.phase = .ok) :
    EngineKept w (mainGotoCmdCheck w) ∧ (mainGotoCmdCheck w).app.main.taskPhase = .idle ∧
      (mainGotoCmdCheck w).hist = w.hist := by
  have hkept := ((EngineKept.refl w).setMain
    { w.app.main with mainTaskTryCnt := 0, gotoCmdModeFlag := false }).setTask .idle
  have hhist : (setTask (w.setMain
      { w.app.main with mainTaskTryCnt := 0, gotoCmdModeFlag := false }) .idle).hist = w.hist := rfl
  unfold mainGotoCmdCheck
  dsimp only
  rw [if_pos ⟨htry, hphase⟩]
  generalize setTask _ _ = w1 at hkept hhist
  obtain ⟨hkept', htask', hhist'⟩ := mainWaitGotoCmd_left (hkept.phase_eq.trans hphase)
  exact ⟨hkept.trans hkept', htask', hhist'.trans hhist⟩

/-- `+++` is sent. -/
lemma mainGotoCmdCheck_sends (es : List (CmdEvent gsmTypes))
    (hidle : cmdTaskIsIdle w.phase = true) (hlist : w.cmdList = [])
    (hnot : ¬ (w.app.main.mainTaskTryCnt ≠ 0 ∧ w.phase = .ok)) :
    (mainGotoCmdCheck w).hist = .app (.issuedText (bytesOf "+++")) :: .load none :: w.hist ∧
      (mainGotoCmdCheck w).app.main.taskPhase = .waitGotoCmdMode ∧
      (mainGotoCmdCheck w).app.main.mainTaskTryCnt = w.app.main.mainTaskTryCnt ∧
      Asked (.app (.issuedText (bytesOf "+++")) :: .load none :: es) (mainGotoCmdCheck w) := by
  obtain ⟨hres, hhist, hsend, hmain, hasked⟩ := asked_issueText es escapeArgs
    hidle hlist rfl rfl rfl
  have htry : (issueText w escapeArgs).2.app.main.mainTaskTryCnt = w.app.main.mainTaskTryCnt :=
    congrArg MainVars.mainTaskTryCnt hmain
  have hwait : mainWaitGotoCmd (setTask (issueText w escapeArgs).2 .waitGotoCmdMode) =
      setTask (issueText w escapeArgs).2 .waitGotoCmdMode :=
    mainWaitGotoCmd_busy (by
      rw [show (setTask (issueText w escapeArgs).2 .waitGotoCmdMode).phase = .send from hsend]
      rfl)
  unfold mainGotoCmdCheck
  dsimp only
  rw [if_neg hnot, if_pos hres, hwait]
  exact ⟨hhist, rfl, htry, hasked.setMain _⟩

/-- `AT` is sent. -/
lemma mainWaitGotoCmd_sends (es : List (CmdEvent gsmTypes))
    (herror : w.phase = .error) (hlist : w.cmdList = []) :
    (mainWaitGotoCmd w).hist = .app (.issuedText (bytesOf "AT\r")) :: .load none :: w.hist ∧
      (mainWaitGotoCmd w).app.main.taskPhase =
        (if w.app.main.mainTaskTryCnt < 3 then .gotoCmdModeCheck else .init) ∧
      (mainWaitGotoCmd w).app.main.mainTaskTryCnt = w.app.main.mainTaskTryCnt + 1 ∧
      Asked (.app (.issuedText (bytesOf "AT\r")) :: .load none :: es) (mainWaitGotoCmd w) := by
  have hidle : cmdTaskIsIdle w.phase = true := by rw [herror]; rfl
  obtain ⟨-, hhist, -, hmain, hasked⟩ := asked_issueText es atArgs
    hidle hlist rfl rfl rfl
  have htry : (issueText w atArgs).2.app.main.mainTaskTryCnt = w.app.main.mainTaskTryCnt :=
    congrArg MainVars.mainTaskTryCnt hmain
  unfold mainWaitGotoCmd
  dsimp only
  rw [if_pos hidle, if_neg (by rw [herror]; exact nofun), htry]
  generalize (issueText w atArgs).2 = w1 at hhist hasked
  have hset : Asked _ (w1.setMain
    { w1.app.main with mainTaskTryCnt := w.app.main.mainTaskTryCnt + 1 }) := hasked.setMain _
  exact ⟨hhist, rfl, rfl, hset.setMain _⟩

lemma escapes_escape (es : List (CmdEvent gsmTypes)) :
    escapes ([.app (.issuedText (bytesOf "+++")), .load none] ++ es) = escapes es + 1 := by
  simp [escapes, CmdEvent.isEscape]

lemma escapes_at (es : List (CmdEvent gsmTypes)) :
    escapes ([.app (.issuedText (bytesOf "AT\r")), .load none] ++ es) = escapes es := by
  have hother : bytesOf "AT\r" ≠ bytesOf "+++" := by decide
  simp [escapes, CmdEvent.isEscape, hother]

/-- The first branch. -/
lemma mainGotoCmd_stage (hfresh : Fresh w) (hcount : escapes es = 0) :
    (mainGotoCmd w).hist = w.hist ∧ Stage es (mainGotoCmd w) := by
  have hset := (EngineKept.refl w).setMain { w.app.main with mainTaskTryCnt := 0 }
  have hhist : (w.setMain { w.app.main with mainTaskTryCnt := 0 }).hist = w.hist := rfl
  have htry : (w.setMain { w.app.main with mainTaskTryCnt := 0 }).app.main.mainTaskTryCnt = 0 := rfl
  unfold mainGotoCmd
  dsimp only
  generalize w.setMain { w.app.main with mainTaskTryCnt := 0 } = w1 at hset hhist htry
  have hring := onRing_aside w1 Ring.ringingEnable
  have hhist' : (onRing Ring.ringingEnable w1).hist = w1.hist := rfl
  have htry' := (congrArg Vitals.mainTaskTryCnt hring.vitals).trans htry
  generalize onRing Ring.ringingEnable w1 = w2 at hring hhist' htry'
  have hkept := (hset.trans hring.engineKept).setTask .gotoCmdModeCheck
  exact ⟨hhist'.trans hhist, .ready (Or.inr ⟨rfl, htry'⟩) (hfresh.kept hkept) hcount⟩

/-- The phase that sends `+++`. -/
lemma mainGotoCmdCheck_leaving (hes : w.hist = es ++ base) (hstage : Stage es w)
    (htask : w.app.main.taskPhase = .gotoCmdModeCheck) : Leaving base (mainGotoCmdCheck w) := by
  have hsends (hidle : cmdTaskIsIdle w.phase = true) (hlist : w.cmdList = [])
      (hnot : ¬ (w.app.main.mainTaskTryCnt ≠ 0 ∧ w.phase = .ok))
      (hcount : escapes es = w.app.main.mainTaskTryCnt.toNat) (htries : escapes es ≤ 3) :
      Leaving base (mainGotoCmdCheck w) := by
    obtain ⟨hhist, hwait, htry, hasked⟩ := mainGotoCmdCheck_sends es hidle hlist hnot
    refine .mk' hes [_, _] hhist (.wait hwait hasked ?_ ?_)
    · rw [htry, escapes_escape, hcount]
    · rw [escapes_escape]
      omega
  cases hstage with
  | ready task fresh count =>
      obtain ⟨-, hzero⟩ := task.resolve_left (by rw [htask]; exact nofun)
      exact hsends fresh.idle fresh.cmdList_eq (fun h => h.1 hzero) (by rw [count, hzero]; rfl)
        (by omega)
  | check task asked count tries =>
      have htry : w.app.main.mainTaskTryCnt ≠ 0 := by
        intro hzero
        rw [hzero] at count
        exact absurd tries.1 (by rw [count]; decide)
      by_cases hok : w.phase = .ok
      · obtain ⟨hkept, htask', hhist⟩ := mainGotoCmdCheck_ok htry hok
        exact .mk' hes [] hhist (.left htask' ((asked.fresh (by rw [hok]; rfl)).kept hkept)
          (asked.answered hok) (Nat.le_succ_of_le tries.2))
      · cases hbusy : cmdTaskIsIdle w.phase with
        | true => exact hsends hbusy asked.cmdList_eq (fun h => hok h.2) count tries.2
        | false =>
            have hsame : mainGotoCmdCheck w = w := by
              unfold mainGotoCmdCheck
              dsimp only
              rw [if_neg (fun h => hok h.2), issueText_busy hbusy]
              exact mainWaitGotoCmd_busy hbusy
            rw [hsame]
            exact ⟨es, hes, .check task asked count tries⟩
  | wait task => exact absurd (htask.symm.trans task) nofun
  | gaveUp task => exact absurd (htask.symm.trans task) nofun
  | left task => exact absurd (htask.symm.trans task) nofun

/-- The phase that waits for the answer. -/
lemma mainWaitGotoCmd_leaving (hes : w.hist = es ++ base) (hstage : Stage es w)
    (htask : w.app.main.taskPhase = .waitGotoCmdMode) : Leaving base (mainWaitGotoCmd w) := by
  cases hstage with
  | wait task asked count tries =>
      cases hidle : cmdTaskIsIdle w.phase with
      | false =>
          rw [mainWaitGotoCmd_busy hidle]
          exact ⟨es, hes, .wait task asked count tries⟩
      | true =>
          by_cases hok : w.phase = .ok
          · rw [mainWaitGotoCmd_ok hok]
            refine .mk' hes [] rfl (.left rfl ?_ (asked.answered hok) tries)
            exact (asked.fresh hidle).kept (((EngineKept.refl w).setMain _).setTask _)
          · have herror : w.phase = .error := by
              cases hphase : w.phase <;> rw [hphase] at hidle hok <;>
                first | rfl | exact absurd rfl hok | exact absurd hidle Bool.false_ne_true
            obtain ⟨hhist, hnext, htry, hasked⟩ :=
              mainWaitGotoCmd_sends es herror asked.cmdList_eq
            refine .mk' hes [_, _] hhist ?_
            split_ifs at hnext with hmore
            · have hthree : w.app.main.mainTaskTryCnt.toNat < 3 := hmore
              refine .check hnext hasked ?_ ?_
              · rw [escapes_at, count, htry, UInt8.toNat_add]
                simp only [UInt8.reduceToNat]
                omega
              · rw [escapes_at]
                omega
            · exact .gaveUp hnext hasked (by rw [escapes_at]; exact tries)
  | ready task =>
      rcases task with task | ⟨task, -⟩ <;> exact absurd (htask.symm.trans task) nofun
  | check task => exact absurd (htask.symm.trans task) nofun
  | gaveUp task => exact absurd (htask.symm.trans task) nofun
  | left task => exact absurd (htask.symm.trans task) nofun

/-- **A branch keeps the invariant until the main task is idle or starts anew.** -/
theorem Leaving.phase {i : MainInput} (h : Leaving base w) (hidle : w.app.main.taskPhase ≠ .idle)
    (hinit : w.app.main.taskPhase ≠ .init) (hphase : mainPhase i w = some w') :
    Leaving base w' := by
  obtain ⟨es, hes, hstage⟩ := h
  unfold mainPhase at hphase
  have hcheck (task : w.app.main.taskPhase = .gotoCmdModeCheck) : Leaving base w' := by
    rw [task] at hphase
    obtain rfl := Option.some_inj.mp hphase
    exact mainGotoCmdCheck_leaving hes hstage task
  cases hstage' : hstage with
  | ready task fresh count =>
      rcases task with task | ⟨task, -⟩
      · rw [task] at hphase
        obtain rfl := Option.some_inj.mp hphase
        obtain ⟨hhist, hready⟩ := mainGotoCmd_stage fresh count
        exact .mk' hes [] hhist hready
      · exact hcheck task
  | check task => exact hcheck task
  | wait task =>
      rw [task] at hphase
      obtain rfl := Option.some_inj.mp hphase
      exact mainWaitGotoCmd_leaving hes hstage task
  | gaveUp task => exact absurd task hinit
  | left task => exact absurd task hidle

/-- **An iteration keeps the invariant.** -/
theorem Leaving.step {i : MainInput} (h : Leaving base w) (hstill : StillLeaving w i) :
    Leaving base (mainStep w i) := by
  obtain ⟨hreset, hidle, hinit⟩ := hstill
  have hout := h.outside i.outside
  unfold mainStep
  cases htask : mainTask i (w.outside i.outside) with
  | none => exact hout
  | some w' =>
      obtain ⟨w1, w2, -, hphase, haside, haside'⟩ := mainTask_step htask
      have hsame : mainModemReset (w.outside i.outside) = w.outside i.outside :=
        if_neg (by
          rw [show (w.outside i.outside).app.main.modemResetFlag = false from hreset]
          exact Bool.false_ne_true)
      rw [hsame] at hphase
      have hphase' := hout.phase (by exact hidle) (by exact hinit) hphase
      exact (hphase'.aside haside).engine.aside haside'

end Leaving

/-- **Command mode is only assumed after an answer to a command sent since the main task began to
leave the data mode, and `+++` is sent four times at most.** -/
theorem leaving_answered (is js : List MainInput)
    (hentry : (run mainStep mainStart is).app.main.taskPhase = .gotoCmdMode)
    (hstill : StepsMeet mainStep StillLeaving (run mainStep mainStart is) js) :
    ∃ es, (run mainStep mainStart (is ++ js)).hist = es ++ (run mainStep mainStart is).hist ∧
      escapes es ≤ 4 ∧
      ((run mainStep mainStart (is ++ js)).app.main.taskPhase = .idle → AnsweredOk es) := by
  have hstart : Leaving (run mainStep mainStart is).hist (run mainStep mainStart is) :=
    ⟨[], rfl, .ready (Or.inl hentry) (fresh_of_leaving is hentry) rfl⟩
  obtain ⟨es, hes, hstage⟩ :=
    (throughout_of_stepsMeet (I := Leaving _) (fun _ _ h hs => h.step hs) hstart hstill).last
  rw [run_append]
  refine ⟨es, hes, ?_, fun hidle => ?_⟩
  · cases hstage <;> omega
  · cases hstage with
    | ready task =>
        rcases task with task | ⟨task, -⟩ <;> exact absurd (hidle.symm.trans task) nofun
    | check task => exact absurd (hidle.symm.trans task) nofun
    | wait task => exact absurd (hidle.symm.trans task) nofun
    | gaveUp task => exact absurd (hidle.symm.trans task) nofun
    | left task fresh answered => exact answered

/-- What the `k`-th iteration meets if the modem answers everything, a data call is asked for, and
the link is lost at once. -/
def hangsUp (k : ℕ) : MainInput := { dials 0 k with inputResult := -1 }

instance decidableStillLeaving (w : GsmWorld) (i : MainInput) : Decidable (StillLeaving w i) :=
  inferInstanceAs (Decidable (_ ∧ _ ∧ _))

/-- The first `+++` is answered. -/
theorem leaving_hangsUp :
    ∃ es, (run mainStep mainStart
          ((List.range 130).map hangsUp ++ (List.range' 130 6).map hangsUp)).hist =
        es ++ (run mainStep mainStart ((List.range 130).map hangsUp)).hist ∧
      escapes es ≤ 4 ∧
      ((run mainStep mainStart
          ((List.range 130).map hangsUp ++ (List.range' 130 6).map hangsUp)).app.main.taskPhase =
        .idle → AnsweredOk es) :=
  leaving_answered _ _ (by decide +kernel) (by decide +kernel)

end Ampm

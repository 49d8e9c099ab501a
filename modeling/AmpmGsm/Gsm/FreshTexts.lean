import AmpmGsm.Gsm.Delivery

/-!
# Texts that are fresh

Runs of the receive chain, with any bytes from the modem, any clock and anything that the other tasks
do in between.

* `MayRead` — what a byte from the modem may do to the chain.
* `FreshInv` — the invariant: a text that waits is the one that was completed last, since `AT+CMGR`
  was sent.
* `recvStep_fresh` — a step under the condition.
* **`smsRecv_fresh`** — the runs in which every text handed over is fresh.
* `smsRecv_stale` — a message that cannot be read, and the text of the one before it.
-/

namespace Ampm

open Gates Runs

/-! ## A byte from the modem -/

/-- From `w` to `w'` without the engine, the log and the variables of the index and of the text. -/
def BesideText (w w' : GsmWorld) : Prop :=
  ∃ app clock, w' = w.own app clock [] ∧ IndexTextKept w.app app

/-- From `w` to `w'` without the engine: a text may be completed, or stored in part if `storing`
holds. -/
def MayRead (storing : Prop) (w w' : GsmWorld) : Prop :=
  ∃ app clock events, w' = w.own app clock events ∧ app.smsIndex = w.app.smsIndex ∧
    ((events = [] ∧ app.flagSmsReadFinish = w.app.flagSmsReadFinish ∧
        (app.smsDataBuf = w.app.smsDataBuf ∨ storing)) ∨
      (events = [.bodyRead app.smsBody] ∧ app.flagSmsReadFinish = true))

section Byte

variable {w w' w'' : GsmWorld} {storing : Prop}

lemma BesideText.setApp {app : GsmState} (h : IndexTextKept w.app app) : BesideText w (w.setApp app) :=
  ⟨app, w.clock, rfl, h⟩

lemma BesideText.hears (h : BesideText w w') : MayRead storing w w' := by
  obtain ⟨app, clock, rfl, hkept⟩ := h
  exact ⟨app, clock, [], rfl, hkept.index, Or.inl ⟨rfl, hkept.flag, Or.inl hkept.buf⟩⟩

namespace MayRead

lemma setApp {app : GsmState} (h : IndexTextKept w.app app) : MayRead storing w (w.setApp app) :=
  (BesideText.setApp h).hears

lemma after (h : MayRead storing w' w'') (hbefore : BesideText w w') : MayRead storing w w'' := by
  obtain ⟨app, clock, rfl, hkept⟩ := hbefore
  obtain ⟨app', clock', events, rfl, hindex, hcases⟩ := h
  refine ⟨app', clock', events, by rw [CmdWorld.own_own, List.append_nil],
    hindex.trans hkept.index, ?_⟩
  rcases hcases with ⟨hnone, hflag, hbuf⟩ | hread
  · exact Or.inl ⟨hnone, hflag.trans hkept.flag, hbuf.imp_left fun hsame => hsame.trans hkept.buf⟩
  · exact Or.inr hread

lemma andThen (h : MayRead storing w w') (hbehind : BesideText w' w'') : MayRead storing w w'' := by
  obtain ⟨app, clock, events, rfl, hindex, hcases⟩ := h
  obtain ⟨app', clock', rfl, hkept⟩ := hbehind
  refine ⟨app', clock', events, CmdWorld.own_own .., hkept.index.trans hindex, ?_⟩
  rcases hcases with ⟨hnone, hflag, hbuf⟩ | ⟨hread, hset⟩
  · exact Or.inl ⟨hnone, hkept.flag.trans hflag, hbuf.imp_left fun hsame => hkept.buf.trans hsame⟩
  · refine Or.inr ⟨?_, hkept.flag.trans hset⟩
    rw [hread, GsmState.smsBody, GsmState.smsBody, hkept.buf]
    rfl

lemma mono {storing' : Prop} (h : MayRead storing w w') (himp : storing → storing') :
    MayRead storing' w w' := by
  obtain ⟨app, clock, events, heq, hindex, hcases⟩ := h
  exact ⟨app, clock, events, heq, hindex, hcases.imp_left fun hnone =>
    ⟨hnone.1, hnone.2.1, hnone.2.2.imp_right himp⟩⟩

end MayRead

lemma readMsgLine_kept (s : GsmState) (c : UInt8) : IndexTextKept s (readMsgLine s c) := by
  unfold readMsgLine
  split_ifs <;> exact ⟨rfl, rfl, rfl⟩

/-- `Ampm_SMS_ReadMsg` stores behind the header line only. -/
lemma smsReadMsg_hears (cnt : UInt16) (c : UInt8) (w : GsmWorld) :
    MayRead (w.app.readMsg.getSmsDataFlag = true) w (smsReadMsg cnt c w).2 := by
  by_cases hcnt : cnt = 0
  · rw [hcnt, smsReadMsg_zero]
    exact .setApp ⟨rfl, rfl, rfl⟩
  · cases hdata : w.app.readMsg.getSmsDataFlag with
    | false =>
        rcases smsReadMsg_header_cases (c := c) hcnt hdata with
          ⟨-, -, heq⟩ | ⟨-, -, heq⟩ | ⟨-, -, heq⟩
        · rw [heq]
          exact .setApp ⟨rfl, rfl, rfl⟩
        · have hline := readMsgLine_kept (pushSender w.app c) c
          rw [heq]
          exact .setApp ⟨hline.index, hline.buf, hline.flag⟩
        · have hline := readMsgLine_kept { w.app with readMsg := countComma w.app.readMsg c } c
          rw [heq]
          exact .setApp ⟨hline.index, hline.buf, hline.flag⟩
    | true =>
        rw [smsReadMsg_text hcnt hdata]
        dsimp only
        split_ifs
        · exact ⟨_, w.clock, [.bodyRead _], rfl, rfl, Or.inr ⟨rfl, rfl⟩⟩
        · refine ⟨_, w.clock, [], rfl, ?_, Or.inl ⟨rfl, ?_, Or.inr rfl⟩⟩
          · exact (readMsgLine_kept _ c).index
          · exact (readMsgLine_kept _ c).flag

/-- The callbacks of the URC parser. -/
lemma atProcessCallback_hears (i : ℕ) (cnt : UInt16) (c : UInt8) (w : GsmWorld) :
    MayRead (i = 3 ∧ w.app.readMsg.getSmsDataFlag = true) w (atProcessCallback i cnt c w).2 := by
  match i with
  | 0 =>
      refine .setApp ?_
      unfold urcClipProcess
      split_ifs <;> exact ⟨rfl, rfl, rfl⟩
  | 1 => exact .setApp ⟨rfl, rfl, rfl⟩
  | 2 => exact .setApp ⟨rfl, rfl, rfl⟩
  | 3 => exact (smsReadMsg_hears cnt c w).mono fun hdata => ⟨rfl, hdata⟩
  | 4 | 5 | 6 =>
      have hcmti : IndexTextKept w.app (if cnt = 0 then setAtCmti w.app else w.app) := by
        split_ifs <;> exact ⟨rfl, rfl, rfl⟩
      exact .setApp ⟨hcmti.index, hcmti.buf, hcmti.flag⟩
  | n + 7 => exact .setApp ⟨rfl, rfl, rfl⟩

lemma urcReady_besideText (w : GsmWorld) : BesideText w (urcReady w) := by
  unfold urcReady
  split_ifs
  · exact ⟨w.app, w.clock, rfl, .refl _⟩
  · exact BesideText.setApp ⟨rfl, rfl, rfl⟩

lemma atComnandParser_hears (w : GsmWorld) (c : UInt8) :
    MayRead (TextUnderWay w) w (atComnandParser w c) := by
  have hready := urcReady_besideText w
  rw [atComnandParser_eq]
  by_cases henable : w.app.atCommandParserEnable = true
  · rw [if_pos henable]
    have hticked : BesideText w (urcReady w).ticked := by
      obtain ⟨app, clock, heq, hkept⟩ := hready
      rw [heq]
      exact ⟨app, fun k => clock (k + 1), rfl, hkept⟩
    have hmsg : (urcReady w).ticked.app.readMsg = w.app.readMsg := (urcReady_eq w).2.2.1
    have hhandled := strComnandParser_dispatch (w.clock 0) atProcessCommands atProcessCallback
      (urcParser w.app) w.app.lastChar c (urcReady w).ticked
    rw [← urcParse] at hhandled
    have hparsed : MayRead (TextUnderWay w) w (urcParse w c).2.2 := by
      rw [hhandled]
      cases hto : strDispatch (w.clock 0) (urcParser w.app) with
      | none => exact hticked.hears
      | some d =>
          refine ((atProcessCallback_hears d.1 d.2 c _).mono fun hstores => ?_).after hticked
          rw [hmsg] at hstores
          refine ⟨?_, hstores.2⟩
          rw [urcDispatch, if_pos henable, hto, Option.map_some, hstores.1]
    exact hparsed.andThen (BesideText.setApp ⟨rfl, rfl, rfl⟩)
  · rw [if_neg henable]
    exact hready.hears

/-- **A byte from the modem** may complete a text. -/
lemma gsmPortRxIrq_hears (w : GsmWorld) (c : UInt8) :
    MayRead (TextUnderWay w) w (gsmPortRxIrq w c) := by
  have hparser := atComnandParser_hears w c
  unfold gsmPortRxIrq
  dsimp only
  split_ifs
  · exact hparser.andThen (BesideText.setApp ⟨rfl, rfl, rfl⟩)
  · exact hparser

end Byte

/-! ## The invariant -/

/-- A text that waits to be handed over is the one that was completed last, since `AT+CMGR` was
sent and since the last hand-over. -/
structure FreshInv (w : GsmWorld) : Prop where
  chain : RecvInv w
  fresh : FreshTexts w
  waits : Awaits w → w.app.flagSmsReadFinish = true → lastRead w.hist = some w.app.smsBody

section Step

variable {other : GsmEndCb → CmdPhase → GsmWorld → UInt8 × GsmWorld} {w w' : GsmWorld}

lemma RecvStart.inv (h : RecvStart w) : FreshInv w where
  chain := ⟨h.cmdList_eq, _, by decide, ⟨h.loaded_eq, by rw [h.cmdSend_eq]⟩, fun hne => nomatch hne⟩
  fresh := by
    rw [FreshTexts, h.hist_eq]
    exact ⟨rfl, rfl⟩
  waits hawaits := absurd h.phase_eq hawaits.2

/-- A byte from the modem, if no other text comes in while one waits. -/
lemma FreshInv.hears {storing : Prop} (h : FreshInv w) (hears : MayRead storing w w')
    (hkeeps : Awaits w ∧ w.app.flagSmsReadFinish = true → ¬ storing) : FreshInv w' := by
  obtain ⟨app, clock, events, rfl, hindex, hcases⟩ := hears
  have hevents : ∀ x ∈ events, ∃ body, x = GsmEvent.bodyRead body := by
    rcases hcases with ⟨rfl, -⟩ | ⟨rfl, -⟩
    · exact List.forall_mem_nil _
    · exact List.forall_mem_singleton.mpr ⟨_, rfl⟩
  have hread : ∀ e ∈ events.map CmdEvent.app, ∃ body, e = .app (GsmEvent.bodyRead body) := by
    intro e he
    obtain ⟨x, hx, rfl⟩ := List.mem_map.mp he
    obtain ⟨body, rfl⟩ := hevents x hx
    exact ⟨body, rfl⟩
  refine ⟨?_, ?_, fun hawaits hset => ?_⟩
  · refine h.chain.engine h.chain.cmdList_eq (fun m hm => ⟨hm.loaded_eq, hm.cmdSend_eq⟩) id hindex
      (events.map .app) (fun e he k => ?_) rfl
    obtain ⟨body, rfl⟩ := hread e he
    exact ⟨rfl, rfl⟩
  · refine NoHandOver.fresh ⟨events.map .app, rfl, fun e he => ?_⟩ h.fresh
    obtain ⟨body, rfl⟩ := hread e he
    exact ⟨rfl, rfl⟩
  · rcases hcases with ⟨rfl, hflag, hbuf⟩ | ⟨rfl, -⟩
    · have hwaits : Awaits w ∧ w.app.flagSmsReadFinish = true := ⟨hawaits, hflag.symm.trans hset⟩
      have hsame : app.smsDataBuf = w.app.smsDataBuf := hbuf.resolve_right (hkeeps hwaits)
      show lastRead w.hist = some app.smsBody
      rw [h.waits hwaits.1 hwaits.2, GsmState.smsBody, GsmState.smsBody, hsame]
    · rfl

/-- What the other tasks do keeps the invariant. -/
lemma FreshInv.own (h : FreshInv w) {app : GsmState} (happ : IndexTextKept w.app app)
    (clock : ℕ → UInt32) : FreshInv (w.own app clock []) := by
  have hears : MayRead False w (w.own app clock []) := BesideText.hears ⟨app, clock, rfl, happ⟩
  exact h.hears hears fun _ => id

/-- A text is handed over. -/
lemma FreshInv.handsOver (h : FreshInv w) (hands : HandsOver w) :
    FreshInv (cmdTask (gsmCode other) w) := by
  obtain ⟨hinv, hsend, hindex, res, hhist⟩ := cmdTask_handsOver other h.chain hands
  have hawaits : Awaits w := by
    refine ⟨hands.1.1, ?_⟩
    rcases hands.1.2 with hphase | ⟨hphase, -⟩
    · rw [hphase]
      exact nofun
    · rw [hphase]
      exact nofun
  have htext := isOpen_of_lastRead (h.waits hawaits hands.2)
  refine ⟨hinv, ⟨?_, ?_⟩, fun hwaits => absurd hsend hwaits.2⟩
  · rw [hhist, obeys_cons_of_none rfl, obeys_cons_of_some (g := textGate w.app.smsBody) rfl,
      obeys_cons_of_none rfl, Gate.isOpen_cons_of_ignores ⟨rfl, rfl⟩, htext, h.fresh.1]
    rfl
  · rw [hhist, obeys_cons_of_none rfl, obeys_cons_of_some (g := indexGate w.app.smsIndex) rfl,
      obeys_cons_of_none rfl, Gate.isOpen_cons_of_ignores ⟨rfl, rfl⟩, hindex, h.fresh.2]
    rfl

variable (other w) in
/-- The chain is started again when the engine is idle. -/
lemma recvStep_start (app : GsmState) (clock : ℕ → UInt32) :
    recvStep other w (.start app clock) = w ∨
      recvStep other w (.start app clock) =
        sendAtCmdNow (w.own (keepChain w.app app) clock []) .smsRecvCmdProcess0 := by
  unfold recvStep
  dsimp only
  by_cases hidle : cmdTaskIsIdle w.phase = true
  · rw [if_pos hidle]
    exact Or.inr (congrArg Prod.snd (if_pos hidle))
  · rw [if_neg hidle]
    exact Or.inl rfl

/-- **A step under the condition** keeps the invariant. -/
theorem recvStep_fresh (h : FreshInv w) {i : RecvInput} (hasks : AsksAnew w i)
    (hkeeps : KeepsText w i) : FreshInv (recvStep other w i) := by
  cases i with
  | byte c clock =>
      exact (h.own (.refl _) clock).hears (gsmPortRxIrq_hears (w.own w.app clock []) c) hkeeps
  | task app clock =>
      have hkept : IndexTextKept w.app (keepRecv w.app app) := ⟨rfl, rfl, rfl⟩
      have hmeanwhile : FreshInv (meanwhile w app clock) := h.own hkept clock
      by_cases hands : HandsOver (meanwhile w app clock)
      · exact hmeanwhile.handsOver hands
      · obtain ⟨hinv, hlog, htext⟩ := cmdTask_recvTask other hmeanwhile.chain hands hasks
        refine ⟨hinv, hlog.fresh hmeanwhile.fresh, fun hawaits hset => ?_⟩
        obtain ⟨⟨hwaits, hset'⟩, hbody, hread⟩ := htext hawaits hset
        exact (hread.trans (hmeanwhile.waits hwaits hset')).trans (congrArg some hbody.symm)
  | start app clock =>
      rcases recvStep_start other w app clock with heq | heq
      · rw [heq]
        exact h
      · rw [heq]
        exact ⟨recvInv_load (by decide) h.chain.cmdList_eq, (NoHandOver.one rfl rfl rfl).fresh h.fresh,
          fun hawaits => absurd rfl hawaits.2⟩

end Step

/-! ## A modem that is silent -/

/-- A call of `Ampm_Cmd_Task`. -/
def RecvInput.IsTask : RecvInput → Prop
  | .task _ _ => True
  | _ => False

/-- `AT+CMGR` was sent while the flag was set, and nothing has been read since. -/
structure Stale (w : GsmWorld) : Prop where
  cmdList_eq : w.cmdList = []
  holds : Holds .smsRecvCmdProcess4 w
  flag : w.app.flagSmsReadFinish = true
  unread : lastRead w.hist = none

section Silence

variable (other : GsmEndCb → CmdPhase → GsmWorld → UInt8 × GsmWorld) {w : GsmWorld}

/-- `AT+CMGR` is sent. -/
lemma Stale.sent (hlist : w.cmdList = []) (hholds : Holds .smsRecvCmdProcess4 w)
    (hflag : w.app.flagSmsReadFinish = true) (hphase : w.phase = .send)
    (hexp : w.taskExpired = true) :
    let w' := cmdTask (gsmCode other) w
    Stale w' ∧ w'.phase = .wait ∧ w'.cmdSend.retryNum = w.cmdSend.retryNum ∧
      ∃ t ms, w'.taskTimeout = initTimeout t (UInt16.toUInt32 ms) := by
  have hcb : w.cmdSend.sendDataCallback = some .gsmSendCallback := by
    rw [hholds.cmdSend_eq]
    exact (gsmProcess_callbacks _).1
  have hstruct : (w.checkTask.log (.send w.loaded)).cmdSend.appStruct =
      some .smsRecvCmdAtCmgr := by
    show w.cmdSend.appStruct = _
    rw [hholds.cmdSend_eq]
    rfl
  obtain ⟨app, clock, bytes, heq, hframe, -⟩ :=
    gsmSendCallback_own (w := w.checkTask.log (.send w.loaded)) hstruct nofun nofun
  have htask : cmdTask (gsmCode other) w =
      afterSend (gsmSendCallback (w.checkTask.log (.send w.loaded))) :=
    cmdTask_of_send (gsmCode other) hphase hexp hcb
  rw [htask, heq]
  refine ⟨⟨hlist, ⟨hholds.loaded_eq, hholds.cmdSend_eq⟩, ?_, rfl⟩, rfl, rfl, _, _, rfl⟩
  show app.flagSmsReadFinish = true
  rw [hframe]
  exact hflag

/-- What the other tasks do. -/
lemma Stale.meanwhile (h : Stale w) (app : GsmState) (clock : ℕ → UInt32) :
    Stale (meanwhile w app clock) :=
  ⟨h.cmdList_eq, ⟨h.holds.loaded_eq, h.holds.cmdSend_eq⟩, h.flag, h.unread⟩

/-- The timeout of the engine has passed at some tick. -/
lemma exists_expired (app : GsmState)
    (htimer : ∃ t ms, w.taskTimeout = initTimeout t (UInt16.toUInt32 ms)) :
    ∃ clock, (Ampm.meanwhile w app clock).taskExpired = true := by
  obtain ⟨t, ms, htimer⟩ := htimer
  have hshort : ms.toUInt32 ≤ 0xFFFFFFFE := by
    rw [UInt32.le_iff_toNat_le, UInt16.toNat_toUInt32]
    exact Nat.le_trans (Nat.le_of_lt ms.toNat_lt) (by decide)
  refine ⟨fun _ => t - 1, decide_eq_true ?_⟩
  show (checkTimeout w.taskTimeout (t - 1)).1 = 0
  rw [htimer]
  exact checkTimeout_before t ms.toUInt32 hshort

/-- No answer comes in time. -/
lemma Stale.lapsed (h : Stale w) (hphase : w.phase = .wait)
    (htimer : ∃ t ms, w.taskTimeout = initTimeout t (UInt16.toUInt32 ms)) :
    ∃ i : RecvInput, i.IsTask ∧ Stale (recvStep other w i) ∧ (recvStep other w i).phase = .resend ∧
      (recvStep other w i).cmdSend.retryNum = w.cmdSend.retryNum := by
  obtain ⟨clock, hexp⟩ := exists_expired w.app htimer
  have hcb : w.cmdSend.recvDataCallback = some .gsmRecvCallback := by
    rw [h.holds.cmdSend_eq]
    exact (gsmProcess_callbacks _).2
  have htask : recvStep other w (.task w.app clock) =
      ((Ampm.meanwhile w w.app clock).checkTask.log (.timeout w.loaded)).setPhase .resend := by
    show cmdTask (gsmCode other) (Ampm.meanwhile w w.app clock) = _
    unfold cmdTask cmdTaskWait
    rw [show (Ampm.meanwhile w w.app clock).phase = .wait from hphase]
    dsimp only
    rw [show (Ampm.meanwhile w w.app clock).cmdSend.recvDataCallback = _ from hcb]
    exact if_pos hexp
  refine ⟨.task w.app clock, trivial, ?_⟩
  rw [htask]
  exact ⟨⟨h.cmdList_eq, ⟨h.holds.loaded_eq, h.holds.cmdSend_eq⟩, h.flag, h.unread⟩, rfl, rfl⟩

/-- There is another try. -/
lemma Stale.again (h : Stale w) (hphase : w.phase = .resend) (hnum : w.cmdSend.retryNum ≠ 0) :
    ∃ i : RecvInput, i.IsTask ∧ Stale (recvStep other w i) ∧ (recvStep other w i).phase = .send ∧
      (recvStep other w i).cmdSend.retryNum = w.cmdSend.retryNum - 1 ∧
      ∃ t ms, (recvStep other w i).taskTimeout = initTimeout t (UInt16.toUInt32 ms) := by
  have htask : recvStep other w (.task w.app w.clock) =
      ((({ Ampm.meanwhile w w.app w.clock with
        cmdSend := { w.cmdSend with retryNum := w.cmdSend.retryNum - 1 } } :
          GsmWorld).initTask w.cmdSend.delay).setPhase .send) := by
    show cmdTask (gsmCode other) (Ampm.meanwhile w w.app w.clock) = _
    unfold cmdTask
    rw [show (Ampm.meanwhile w w.app w.clock).phase = .resend from hphase]
    exact if_pos hnum
  refine ⟨.task w.app w.clock, trivial, ?_⟩
  rw [htask]
  refine ⟨⟨h.cmdList_eq, ⟨h.holds.loaded_eq, ?_⟩, h.flag, h.unread⟩, rfl, rfl, _, _, rfl⟩
  show ({ w.cmdSend with retryNum := _ } : CmdProcess gsmTypes) = _
  rw [h.holds.cmdSend_eq]
  rfl

/-- There is none, and the text of an earlier reply is handed over. -/
lemma Stale.gaveUp (h : Stale w) (hphase : w.phase = .resend) (hnum : w.cmdSend.retryNum = 0) :
    ∃ i j : RecvInput, i.IsTask ∧ j.IsTask ∧
      ¬ FreshTexts (recvStep other (recvStep other w i) j) := by
  have htask : recvStep other w (.task w.app w.clock) =
      (Ampm.meanwhile w w.app w.clock).setPhase .gotoError := by
    show cmdTask (gsmCode other) (Ampm.meanwhile w w.app w.clock) = _
    unfold cmdTask
    rw [show (Ampm.meanwhile w w.app w.clock).phase = .resend from hphase]
    exact if_neg (not_not_intro hnum)
  obtain ⟨v, hv⟩ : ∃ v, v = Ampm.meanwhile ((Ampm.meanwhile w w.app w.clock).setPhase .gotoError)
      w.app w.clock := ⟨_, rfl⟩
  have hstale : Stale v := by
    rw [hv]
    exact ⟨h.cmdList_eq, ⟨h.holds.loaded_eq, h.holds.cmdSend_eq⟩, h.flag, h.unread⟩
  have hend : recvStep other ((Ampm.meanwhile w w.app w.clock).setPhase .gotoError)
      (.task w.app w.clock) = cmdTaskEnd (gsmCode other) v .gotoError .error := by
    rw [hv]
    rfl
  obtain ⟨-, -, hhist⟩ := recvEnd_handsOver other .error hstale.cmdList_eq hstale.holds
    (show CmdPhase.send ≠ .gotoError by decide) hstale.flag
  refine ⟨.task w.app w.clock, .task w.app w.clock, trivial, trivial, fun hfresh => ?_⟩
  have htext := hfresh.1
  rw [htask, hend, hhist, obeys_cons_of_none rfl,
    obeys_cons_of_some (g := textGate v.app.smsBody) rfl,
    Gate.isOpen_cons_of_ignores ⟨rfl, rfl⟩, Bool.and_eq_true] at htext
  exact lastRead_of_isOpen htext.1 hstale.unread

/-- **A modem that is silent** lets the tries run out, and the text of an earlier reply is handed
over. -/
lemma Stale.runsOut (n : ℕ) : ∀ {w : GsmWorld}, Stale w → w.phase = .resend →
    w.cmdSend.retryNum.toNat = n →
    ∃ is : List RecvInput, (∀ i ∈ is, i.IsTask) ∧ ¬ FreshTexts (run (recvStep other) w is) := by
  induction n with
  | zero =>
      intro w h hphase hnum
      obtain ⟨i, j, hi, hj, hbroken⟩ :=
        h.gaveUp other hphase (UInt8.toNat_inj.mp hnum)
      exact ⟨[i, j], by simp [hi, hj], hbroken⟩
  | succ n ih =>
      intro w h hphase hnum
      have hne : w.cmdSend.retryNum ≠ 0 := by
        intro hzero
        rw [hzero] at hnum
        exact absurd hnum (Nat.succ_ne_zero n).symm
      have hone : (w.cmdSend.retryNum - 1).toNat = n := by
        rw [UInt8.toNat_sub_of_le _ _ (UInt8.le_iff_toNat_le.mpr (by rw [hnum]; exact Nat.succ_pos n)),
          hnum]
        rfl
      obtain ⟨i, hi, hagain, hsend, hless, htimer⟩ := h.again other hphase hne
      generalize hv : recvStep other w i = v at hagain hsend hless htimer
      -- it is sent, and not answered
      obtain ⟨clock, hexp⟩ := exists_expired v.app htimer
      have hmeanwhile := hagain.meanwhile v.app clock
      obtain ⟨hsent, hwait, hsame, hrunning⟩ := Stale.sent other hmeanwhile.cmdList_eq
        hmeanwhile.holds hmeanwhile.flag hsend hexp
      obtain ⟨j, hj, hlapsed, hresend, hkept⟩ := hsent.lapsed other hwait hrunning
      have hnum' : v.cmdSend.retryNum.toNat = n := by rw [hless, hone]
      obtain ⟨is, his, hbroken⟩ :=
        ih hlapsed hresend ((congrArg UInt8.toNat (hkept.trans hsame)).trans hnum')
      refine ⟨i :: .task v.app clock :: j :: is, ?_, ?_⟩
      · exact List.forall_mem_cons.mpr ⟨hi, List.forall_mem_cons.mpr ⟨trivial,
          List.forall_mem_cons.mpr ⟨hj, his⟩⟩⟩
      · rw [run_cons, run_cons, run_cons, hv]
        exact hbroken

end Silence

/-! ## The main result -/

section Claim

variable (other : GsmEndCb → CmdPhase → GsmWorld → UInt8 × GsmWorld)

/-- **The texts handed over are fresh.**  For any bytes from the modem, any clock and anything the
other tasks do in between: in a run of the receive chain in which `flagSmsReadFinish` is clear
whenever `AT+CMGR` is sent, and no byte of another text comes in while one waits, every text handed
over was completed since that command was sent, which asked for the same index, and is handed over
once.  Where the command is sent while the flag is set, the modem need only be silent, and a text
is handed over that was not completed since. -/
theorem smsRecv_fresh (w₀ : GsmWorld) (hw₀ : RecvStart w₀) (is : List RecvInput)
    (his : StepsMeet (recvStep other) (fun w i => AsksAnew w i ∧ KeepsText w i) w₀ is) :
    Throughout (recvStep other) FreshTexts w₀ is ∧
      ∀ app clock, ¬ AsksAnew (run (recvStep other) w₀ is) (.task app clock) →
        ∃ js : List RecvInput, (∀ j ∈ js, j.IsTask) ∧
          ¬ FreshTexts (run (recvStep other) w₀ (is ++ .task app clock :: js)) := by
  have hinv : Throughout (recvStep other) FreshInv w₀ is :=
    throughout_of_stepsMeet (fun _ _ h hC => recvStep_fresh h hC.1 hC.2) hw₀.inv his
  refine ⟨hinv.mono fun _ h => h.fresh, fun app clock hset => ?_⟩
  have hlast := hinv.last
  generalize hw : run (recvStep other) w₀ is = w at hlast hset
  obtain ⟨⟨hloaded, hphase, hexp⟩, hflag⟩ := Classical.not_imp.mp hset
  obtain ⟨n, -, hholds, -⟩ := hlast.chain.chain
  obtain rfl : n = .smsRecvCmdProcess4 := Option.some.inj (hholds.loaded_eq.symm.trans hloaded)
  obtain ⟨hsent, hwait, -, htimer⟩ := Stale.sent other (w := meanwhile w app clock)
    hlast.chain.cmdList_eq ⟨hholds.loaded_eq, hholds.cmdSend_eq⟩ (Bool.of_not_eq_false hflag) hphase
    hexp
  obtain ⟨j, hj, hlapsed, hresend, -⟩ := hsent.lapsed other hwait htimer
  obtain ⟨js, hjs, hbroken⟩ := hlapsed.runsOut other _ hresend rfl
  refine ⟨j :: js, List.forall_mem_cons.mpr ⟨hj, hjs⟩, ?_⟩
  rw [run_append, hw]
  exact hbroken

end Claim

/-! ### A message that cannot be read -/

/-- The messages 1 and 2 are notified. -/
def twoNotified : GsmState :=
  { gsmReset with
    smsUnreadRingBuff := putSmsIndex (putSmsIndex gsmReset.smsUnreadRingBuff 1) 2 }

/-- `Ampm_StartRecvSms` has been called. -/
def recvStarted : GsmWorld := engineAt .smsRecvCmdProcess0 .send twoNotified

/-- A call of `Ampm_Cmd_Task` at a tick. -/
def taskAt (tick : UInt32) : RecvInput := .task twoNotified fun _ => tick

/-- The modem answers. -/
def hears (tick : UInt32) (text : String) : List RecvInput :=
  (bytesOf text).map fun c => .byte c fun _ => tick

/-- A command is sent and answered; it ends after its delay. -/
def exchange (tick : UInt32) (answer : String) : List RecvInput :=
  taskAt tick :: hears tick answer ++ [taskAt tick, taskAt (tick + 500)]

/-- The commands up to `AT+CMGR=1`, whose reply is a text, and `AT+CMGD=1`. -/
def firstRead : List RecvInput :=
  exchange 1000 "OK" ++ [taskAt 1500] ++ exchange 2000 "OK" ++ [taskAt 2500] ++
    exchange 3000 "OK" ++ exchange 4000 "+CMGR: 1\nHi\r\n\r\nOK\r\n" ++ exchange 5000 "OK"

/-- The first message is handed over as it was read.  The next call sends `AT+CMGR=2`, and if the
modem is silent the text is handed over again. -/
theorem smsRecv_fresh_first :
    Throughout (recvStep idleOther) FreshTexts recvStarted firstRead ∧
      ∃ js : List RecvInput, (∀ j ∈ js, j.IsTask) ∧
        ¬ FreshTexts (run (recvStep idleOther) recvStarted (firstRead ++ taskAt 6000 :: js)) := by
  have hmeets : StepsMeet (recvStep idleOther) (fun w i => AsksAnew w i ∧ KeepsText w i)
      recvStarted firstRead := by decide +kernel
  have hset : ¬ AsksAnew (run (recvStep idleOther) recvStarted firstRead) (taskAt 6000) := by
    decide +kernel
  obtain ⟨hfresh, hstale⟩ := smsRecv_fresh idleOther recvStarted ⟨rfl, rfl, rfl, rfl, rfl⟩ firstRead
    hmeets
  exact ⟨hfresh, hstale _ _ hset⟩

/-- `AT+CMGR=2` is sent twice, and the modem refuses it. -/
def secondRefused : List RecvInput :=
  firstRead ++ exchange 6000 "ERROR" ++ exchange 7000 "ERROR" ++ [taskAt 7600]

instance (w : GsmWorld) : Decidable (FreshTexts w) := inferInstanceAs (Decidable (_ ∧ _))

/-- The text of the first message is handed over for the second one, which is then deleted. -/
theorem smsRecv_stale :
    ¬ ∀ (other : GsmEndCb → CmdPhase → GsmWorld → UInt8 × GsmWorld) (w₀ : GsmWorld),
      RecvStart w₀ → ∀ is : List RecvInput, Throughout (recvStep other) FreshTexts w₀ is := by
  intro h
  have hrun := h idleOther recvStarted ⟨rfl, rfl, rfl, rfl, rfl⟩ secondRefused
  exact absurd hrun.last (by decide +kernel)

end Ampm

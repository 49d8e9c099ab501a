import AmpmGsm.Gsm.Callbacks
import AmpmGsm.Lib.Gates

/-!
# The SMS send chain and the modem's answers

`smsSendCmdProcess_0` to `smsSendCmdProcess_5`, driven by `Ampm_Cmd_Task`: the body of a message
goes out only after the prompt for it, and a message is marked as sent only after the answer to its
body, unless `smsSendCmdProcess_4` fails: it has no end callback, and `AMPM_CMD_ERROR` follows
`next` as `AMPM_CMD_OK` does.

* `cmgsGate`, `bodyGate`, `smsLaw`, `Gated` — the law.
* `ChainInv` — what carries it: the state of the log for each step of the chain and each phase.
* `smsChain_gated_iff` — the law holds as long as the chain is not continued from a failed
  `smsSendCmdProcess_4`, and no longer.
-/

namespace Ampm

open Gates

/-! ## The law -/

/-- The prompt: opened by a match of the response to `AT+CMGS`, shut by sending it again. -/
def cmgsGate : Gate (CmdEvent gsmTypes) where
  opens
    | .app (.okFound .smsSendCmdAtCmgs) => true
    | _ => false
  shuts
    | .send (some .smsSendCmdProcess4) => true
    | _ => false

/-- The answer to a body: opened by a match of `OK`, shut by writing a body. -/
def bodyGate : Gate (CmdEvent gsmTypes) where
  opens
    | .app (.okFound .smsSendMessage) => true
    | _ => false
  shuts
    | .app (.bodyWritten _) => true
    | _ => false

/-- A body is written after the prompt, a message is marked as sent after the answer. -/
def smsLaw : CmdEvent gsmTypes → Option (Gate (CmdEvent gsmTypes))
  | .app (.bodyWritten _) => some cmgsGate
  | .app (.flagSent _) => some bodyGate
  | _ => none

/-- The log so far obeys the law. -/
def Gated (w : GsmWorld) : Prop := obeys smsLaw w.hist = true

/-! ## Runs of the chain -/

/-- Between two calls of `Ampm_Cmd_Task` bytes arrive, the other tasks run and time passes: any
variable may change but for the packet in hand and the matchers of its answer. -/
def keepMatchers (s new : GsmState) : GsmState :=
  { new with atCmd := s.atCmd, cmdOk := s.cmdOk, cmdFails := s.cmdFails }

/-- A call of `Ampm_Cmd_Task`, or the start of another attempt. -/
inductive ChainInput
  | task (app : GsmState) (clock : ℕ → UInt32)
  | start (app : GsmState) (clock : ℕ → UInt32)

def chainStep (other : GsmEndCb → CmdPhase → GsmWorld → UInt8 × GsmWorld) (w : GsmWorld) :
    ChainInput → GsmWorld
  | .task app clock => cmdTask (gsmCode other) (w.own (keepMatchers w.app app) clock [])
  | .start app clock => sendAtCmdNow (w.own (keepMatchers w.app app) clock []) .smsSendCmdProcess0

/-- An attempt was just started. -/
structure ChainStart (w : GsmWorld) : Prop where
  phase_eq : w.phase = .send
  loaded_eq : w.loaded = some .smsSendCmdProcess0
  cmdSend_eq : w.cmdSend = gsmProcess .smsSendCmdProcess0
  cmdList_eq : w.cmdList = []
  hist_eq : w.hist = []

/-- `Ampm_Cmd_Task` does not go on from a failed `smsSendCmdProcess_4`. -/
def PromptChecked (w : GsmWorld) : ChainInput → Prop
  | .task _ _ => ¬ (w.phase = .error ∧ w.loaded = some .smsSendCmdProcess4)
  | .start _ _ => True

/-! ## The invariant -/

/-- What the log says while a descriptor is in `cmdSend`: which packet is in hand, whether the
prompt and the answer came. -/
def ChainState (packet : GsmPacket) (prompt answer : Bool) (phase : CmdPhase) : GsmCmd → Prop
  | .smsSendCmdProcess4 =>
      match phase with
      | .send => True
      | .wait => packet = .smsSendCmdAtCmgs ∧ prompt = false
      | .delay => prompt = true
      | .ok => prompt = true
      | _ => prompt = false
  | .smsSendCmdProcess5 =>
      prompt = true ∧ (phase = .wait → packet = .smsSendMessage) ∧ (phase = .delay → answer = true)
  | _ => True

/-- The state of the log in `w` fits the descriptor `n`. -/
def ChainState.At (n : GsmCmd) (w : GsmWorld) : Prop :=
  ChainState w.app.atCmd (cmgsGate.isOpen w.hist) (bodyGate.isOpen w.hist) w.phase n

structure ChainInv (w : GsmWorld) : Prop where
  cmdList_eq : w.cmdList = []
  gated : Gated w
  chain : ∃ n ∈ sendChain, Holds n w ∧ ChainState.At n w

lemma ChainState.of_ne {n : GsmCmd} (h4 : n ≠ .smsSendCmdProcess4) (h5 : n ≠ .smsSendCmdProcess5)
    (packet : GsmPacket) (prompt answer : Bool) (phase : CmdPhase) :
    ChainState packet prompt answer phase n := by
  cases n <;> first | exact absurd rfl h4 | exact absurd rfl h5 | exact trivial

/-- Events that the law and its gates take no notice of. -/
def CmdEvent.neutral (e : CmdEvent gsmTypes) : Prop :=
  smsLaw e = none ∧ cmgsGate.ignores e ∧ bodyGate.ignores e

lemma neutral_tx {events : List GsmEvent} (htx : ∀ e ∈ events, e.isTx = true) :
    ∀ e ∈ events.map (CmdEvent.app (S := gsmTypes)), e.neutral := by
  intro e he
  obtain ⟨x, hx, rfl⟩ := List.mem_map.mp he
  cases x with
  | tx bytes => exact ⟨rfl, ⟨rfl, rfl⟩, ⟨rfl, rfl⟩⟩
  | _ => exact absurd (htx _ hx) Bool.false_ne_true

/-- The log grew by neutral events. -/
structure NeutralStep (w w' : GsmWorld) : Prop where
  hist_eq : ∃ es, w'.hist = es ++ w.hist ∧ ∀ e ∈ es, e.neutral

lemma NeutralStep.of_events {w w' : GsmWorld} (es : List (CmdEvent gsmTypes))
    (hes : ∀ e ∈ es, e.neutral) (hhist : w'.hist = es ++ w.hist) : NeutralStep w w' :=
  ⟨es, hhist, hes⟩

lemma NeutralStep.gated {w w' : GsmWorld} (h : NeutralStep w w') (hw : Gated w) : Gated w' := by
  obtain ⟨es, hhist, hes⟩ := h
  rw [Gated, hhist, obeys_append_of_none fun e he => (hes e he).1]
  exact hw

lemma NeutralStep.prompt {w w' : GsmWorld} (h : NeutralStep w w') :
    cmgsGate.isOpen w'.hist = cmgsGate.isOpen w.hist := by
  obtain ⟨es, hhist, hes⟩ := h
  rw [hhist, Gate.isOpen_append_of_ignores fun e he => (hes e he).2.1]

lemma NeutralStep.answer {w w' : GsmWorld} (h : NeutralStep w w') :
    bodyGate.isOpen w'.hist = bodyGate.isOpen w.hist := by
  obtain ⟨es, hhist, hes⟩ := h
  rw [hhist, Gate.isOpen_append_of_ignores fun e he => (hes e he).2.2]

/-! ### Away from the prompt and the body -/

/-- A step of the chain other than `smsSendCmdProcess_4` and `smsSendCmdProcess_5` is in
`cmdSend`, in any phase. -/
structure Elsewhere (w : GsmWorld) : Prop where
  cmdList_eq : w.cmdList = []
  gated : Gated w
  chain : ∃ n ∈ sendChain, Holds n w ∧ n ≠ .smsSendCmdProcess4 ∧ n ≠ .smsSendCmdProcess5

namespace Elsewhere

variable {w w' : GsmWorld}

lemma chainInv (h : Elsewhere w) : ChainInv w := by
  obtain ⟨n, hn, hholds, h4, h5⟩ := h.chain
  exact ⟨h.cmdList_eq, h.gated, n, hn, hholds, ChainState.of_ne h4 h5 ..⟩

lemma setPhase (h : Elsewhere w) (phase : CmdPhase) : Elsewhere (w.setPhase phase) := by
  obtain ⟨n, hn, ⟨hloaded, hcmd⟩, hne⟩ := h.chain
  exact ⟨h.cmdList_eq, h.gated, n, hn, ⟨hloaded, hcmd⟩, hne⟩

/-- After a load from a callback. -/
lemma of_load {n : GsmCmd} (hn : n ∈ sendChain) (h4 : n ≠ .smsSendCmdProcess4)
    (h5 : n ≠ .smsSendCmdProcess5) (hlist : w'.cmdList = []) (hgated : Gated w')
    (hloaded : w'.loaded = some n) (hcmd : w'.cmdSend = gsmProcess n) : Elsewhere w' :=
  ⟨hlist, hgated, n, hn, ⟨hloaded, by rw [hcmd]⟩, h4, h5⟩

/-- An end callback that stays away, or gets away, whatever the engine makes of its result. -/
lemma atEnd {code : CmdCode gsmTypes} {here res : CmdPhase} {callback : GsmEndCb}
    (hcb : w.cmdSend.endDataCallback = some callback)
    (h : Elsewhere (code.endCb callback res (w.log (.endCall w.loaded res))).2) :
    Elsewhere (cmdTaskEnd code w here res) := by
  unfold cmdTaskEnd
  rw [hcb]
  simp only
  split_ifs
  · exact h.setPhase res
  · exact h
  · exact h

end Elsewhere

section Ends

variable {w : GsmWorld}

lemma neutralStep_load (w : GsmWorld) (n : GsmCmd) : NeutralStep w (sendAtCmdNow w n) :=
  .of_events [_] (List.forall_mem_singleton.mpr ⟨rfl, ⟨rfl, rfl⟩, ⟨rfl, rfl⟩⟩) rfl

lemma gsmSmsSendCallbackCmgf_elsewhere (hlist : w.cmdList = []) (hgated : Gated w) :
    Elsewhere (gsmSmsSendCallbackCmgf w).2 := by
  unfold gsmSmsSendCallbackCmgf
  split_ifs
  · exact .of_load (n := .smsSendCmdProcess1) (by decide) nofun nofun hlist
      ((neutralStep_load w _).gated hgated) rfl rfl
  · exact .of_load (n := .smsSendCmdProcess2) (by decide) nofun nofun hlist
      ((neutralStep_load w _).gated hgated) rfl rfl

lemma gsmSmsSendCallbackCsca_elsewhere (h : Elsewhere w) :
    Elsewhere (gsmSmsSendCallbackCsca w).2 := by
  unfold gsmSmsSendCallbackCsca
  dsimp only
  split_ifs
  · exact .of_load (n := .smsSendCmdProcess3) (by decide) nofun nofun h.cmdList_eq
      ((neutralStep_load (w.setApp _) _).gated h.gated) rfl rfl
  · exact h
  · exact .of_load (n := .smsSendCmdProcessEnd) (by decide) nofun nofun h.cmdList_eq
      ((neutralStep_load w _).gated h.gated) rfl rfl

/-- A message is marked as sent after the answer to its body. -/
lemma gsmSmsSent_elsewhere (hlist : w.cmdList = []) (hgated : Gated w) {phase : CmdPhase}
    (hanswer : phase = .ok → bodyGate.isOpen w.hist = true) :
    Elsewhere (gsmSmsSent phase w).2 := by
  unfold gsmSmsSent
  dsimp only
  split_ifs with hok
  · refine .of_load (n := .smsSendCmdProcessEnd) (by decide) nofun nofun hlist ?_ rfl rfl
    have hflag : Gated ((finishSms w smsMsgSent).log (.app (.flagSent w.app.smsMsg))) := by
      show obeys smsLaw (_ :: w.hist) = true
      rw [obeys_cons_of_some (g := bodyGate) rfl, hanswer hok, Bool.true_and]
      exact hgated
    exact (neutralStep_load _ _).gated hflag
  · refine .of_load (n := .smsSendCmdProcess6) (by decide) nofun nofun hlist ?_ rfl rfl
    have htx : NeutralStep w (countFailure (commPutc w 0x1B)) :=
      .of_events [_] (List.forall_mem_singleton.mpr ⟨rfl, ⟨rfl, rfl⟩, ⟨rfl, rfl⟩⟩) rfl
    exact (neutralStep_load _ _).gated (htx.gated hgated)

lemma gsmCreg_elsewhere (h : Elsewhere w) (phase : CmdPhase) : Elsewhere (gsmCreg phase w).2 := by
  obtain ⟨n, hn, ⟨hloaded, hcmd⟩, hne⟩ := h.chain
  unfold gsmCreg
  split_ifs
  · exact ⟨h.cmdList_eq, h.gated, n, hn, ⟨hloaded, hcmd⟩, hne⟩
  · exact h

/-- A descriptor of the chain ends with `res`. -/
theorem chainEnd {other : GsmEndCb → CmdPhase → GsmWorld → UInt8 × GsmWorld} {n : GsmCmd}
    {here res : CmdPhase} (hlist : w.cmdList = []) (hgated : Gated w) (hn : n ∈ sendChain)
    (hholds : Holds n w) (h4 : n = .smsSendCmdProcess4 → ChainState.At n (w.setPhase res))
    (h5 : n = .smsSendCmdProcess5 → res = .ok → bodyGate.isOpen w.hist = true) :
    ChainInv (cmdTaskEnd (gsmCode other) w here res) := by
  have hcb : w.cmdSend.endDataCallback = (gsmProcess n).endDataCallback := by
    rw [hholds.cmdSend_eq]
  have hlog : NeutralStep w (w.log (.endCall w.loaded res)) :=
    .of_events [_] (List.forall_mem_singleton.mpr ⟨rfl, ⟨rfl, rfl⟩, ⟨rfl, rfl⟩⟩) rfl
  have hstay : n ≠ .smsSendCmdProcess4 → n ≠ .smsSendCmdProcess5 → Elsewhere w :=
    fun h4 h5 => ⟨hlist, hgated, n, hn, hholds, h4, h5⟩
  have hlogged : n ≠ .smsSendCmdProcess4 → n ≠ .smsSendCmdProcess5 →
      Elsewhere (w.log (.endCall w.loaded res)) :=
    fun h4 h5 => ⟨hlist, hlog.gated hgated, n, hn, ⟨hholds.loaded_eq, hholds.cmdSend_eq⟩, h4, h5⟩
  have hnone : (gsmProcess n).endDataCallback = none →
      cmdTaskEnd (gsmCode other) w here res = w.setPhase res := by
    intro h
    exact cmdTaskEnd_of_none (hcb.trans h)
  simp only [sendChain, List.mem_cons, List.not_mem_nil, or_false] at hn
  rcases hn with rfl | rfl | rfl | rfl | rfl | rfl | rfl | rfl
  · exact (Elsewhere.atEnd hcb
      (gsmSmsSendCallbackCmgf_elsewhere (w := w.log _) hlist (hlog.gated hgated))).chainInv
  · exact (Elsewhere.atEnd hcb
      (gsmSmsSendCallbackCsca_elsewhere (hlogged (by decide) (by decide)))).chainInv
  · exact (Elsewhere.atEnd hcb
      (gsmSmsSendCallbackCsca_elsewhere (hlogged (by decide) (by decide)))).chainInv
  · rw [hnone rfl]
    exact ((hstay (by decide) (by decide)).setPhase res).chainInv
  · rw [hnone rfl]
    exact ⟨hlist, hgated, _, by decide, ⟨hholds.loaded_eq, hholds.cmdSend_eq⟩, h4 rfl⟩
  · refine (Elsewhere.atEnd hcb ?_).chainInv
    exact gsmSmsSent_elsewhere (w := w.log _) hlist (hlog.gated hgated)
      fun hok => hlog.answer.trans (h5 rfl hok)
  · exact (Elsewhere.atEnd hcb (gsmCreg_elsewhere (hlogged (by decide) (by decide)) res)).chainInv
  · rw [hnone rfl]
    exact ((hstay (by decide) (by decide)).setPhase res).chainInv

end Ends

/-! ### Sending and receiving -/

section Engine

variable {w : GsmWorld} {n : GsmCmd}

/-- `AT+CMGS` is sent: the prompt has to come again. -/
lemma chainInv_sent_cmgs (hlist : w.cmdList = []) (hgated : Gated w)
    (hholds : Holds .smsSendCmdProcess4 w) :
    ChainInv (afterSend (gsmSendCallback (w.log (.send w.loaded)))) := by
  have hpacket : w.cmdSend.appStruct = some .smsSendCmdAtCmgs := by
    rw [hholds.cmdSend_eq]
    rfl
  have hlog : Gated (w.log (.send w.loaded)) := (obeys_cons_of_none rfl w.hist).trans hgated
  have hshut : cmgsGate.isOpen (w.log (.send w.loaded)).hist = false := by
    rw [hholds.loaded_eq]
    rfl
  obtain ⟨hsent, hcmd⟩ := gsmSendCallback_cmgs (w := w.log (.send w.loaded)) hpacket
  generalize gsmSendCallback (w.log (.send w.loaded)) = w' at hsent hcmd ⊢
  cases hsent with
  | formatted app events hframe htx =>
      have hstep : NeutralStep (w.log (.send w.loaded))
          (afterSend ((w.log (.send w.loaded)).own app w.clock events)) :=
        .of_events _ (neutral_tx htx) rfl
      refine ⟨hlist, hstep.gated hlog, .smsSendCmdProcess4, by decide,
        ⟨hholds.loaded_eq, hholds.cmdSend_eq⟩, ?_⟩
      exact ⟨hcmd, hstep.prompt.trans hshut⟩
  | restarted app events hframe htx =>
      refine Elsewhere.chainInv
        (.of_load (n := .smsSendCmdProcess0) (by decide) nofun nofun hlist ?_ rfl rfl)
      have hload := (neutralStep_load (w.log (.send w.loaded)) .smsSendCmdProcess0).gated hlog
      exact NeutralStep.gated (.of_events _ (neutral_tx htx) rfl) hload
  | givenUp app events hframe htx =>
      refine Elsewhere.chainInv
        (.of_load (n := .smsSendCmdProcessEnd) (by decide) nofun nofun hlist ?_ rfl rfl)
      have hload := (neutralStep_load (w.log (.send w.loaded)) .smsSendCmdProcessEnd).gated hlog
      exact NeutralStep.gated (.of_events _ (neutral_tx htx) rfl) hload

/-- A body is sent: the prompt came before it. -/
lemma chainInv_sent_body (hlist : w.cmdList = []) (hgated : Gated w)
    (hholds : Holds .smsSendCmdProcess5 w) (hprompt : cmgsGate.isOpen w.hist = true) :
    ChainInv (afterSend (gsmSendCallback (w.log (.send w.loaded)))) := by
  have hpacket : w.cmdSend.appStruct = some .smsSendMessage := by
    rw [hholds.cmdSend_eq]
    rfl
  obtain ⟨app, clock, bytes, heq, -, hcmd⟩ := gsmSendCallback_own (w := w.log (.send w.loaded))
    hpacket nofun nofun
  have hsend : NeutralStep w (w.log (.send w.loaded)) := by
    refine .of_events [_] (List.forall_mem_singleton.mpr ?_) rfl
    rw [hholds.loaded_eq]
    exact ⟨rfl, ⟨rfl, rfl⟩, ⟨rfl, rfl⟩⟩
  have hopen : cmgsGate.isOpen (w.log (.send w.loaded)).hist = true := hsend.prompt.trans hprompt
  have hwritten : Gated ((w.log (.send w.loaded)).log (.app (.bodyWritten w.app.smsMsg))) := by
    rw [Gated, CmdWorld.log_hist, obeys_cons_of_some (g := cmgsGate) rfl, hopen, Bool.true_and]
    exact hsend.gated hgated
  have htx : NeutralStep ((w.log (.send w.loaded)).log (.app (.bodyWritten w.app.smsMsg)))
      (afterSend (gsmSendCallback (w.log (.send w.loaded)))) := by
    refine .of_events [.app (.tx bytes)]
      (List.forall_mem_singleton.mpr ⟨rfl, ⟨rfl, rfl⟩, ⟨rfl, rfl⟩⟩) ?_
    rw [heq]
    rfl
  refine ⟨?_, htx.gated hwritten, .smsSendCmdProcess5, by decide, ?_, ?_⟩
  · rw [heq]
    exact hlist
  · rw [heq]
    exact ⟨hholds.loaded_eq, hholds.cmdSend_eq⟩
  · refine ⟨htx.prompt.trans hopen, fun _ => ?_, nofun⟩
    rw [heq]
    exact hcmd

/-- Any other descriptor of the chain is sent. -/
lemma chainInv_sent_other (hlist : w.cmdList = []) (hgated : Gated w) (hn : n ∈ sendChain)
    (hholds : Holds n w) (h4 : n ≠ .smsSendCmdProcess4) (h5 : n ≠ .smsSendCmdProcess5) :
    ChainInv (afterSend (gsmSendCallback (w.log (.send w.loaded)))) := by
  obtain ⟨packet, hpacket, hcmgs, hchld, hevents, -⟩ :=
    sendChain_packet hn h4 (w.log (.send w.loaded)).app
  have hstruct : (w.log (.send w.loaded)).cmdSend.appStruct = some packet := by
    rw [CmdWorld.log_cmdSend, hholds.cmdSend_eq]
    exact hpacket
  obtain ⟨app, clock, bytes, heq, -, -⟩ := gsmSendCallback_own hstruct hcmgs hchld
  have hsend : Gated (w.log (.send w.loaded)) := (obeys_cons_of_none rfl w.hist).trans hgated
  rw [heq]
  refine Elsewhere.chainInv ⟨hlist, ?_, n, hn, ⟨hholds.loaded_eq, hholds.cmdSend_eq⟩, h4, h5⟩
  refine NeutralStep.gated (.of_events [.app (.tx bytes)]
    (List.forall_mem_singleton.mpr ⟨rfl, ⟨rfl, rfl⟩, ⟨rfl, rfl⟩⟩) ?_) hsend
  rw [hevents h5]
  rfl

/-- The answer to `AT+CMGS` is the prompt, the answer to a body is its `OK`. -/
lemma chainInv_asked (hlist : w.cmdList = []) (hgated : Gated w) (hn : n ∈ sendChain)
    (hholds : Holds n w) (hstate : ChainState.At n w) (hphase : w.phase = .wait) :
    ChainInv (afterRecv (gsmRecvCallback w)) := by
  obtain ⟨app, clock, res, hframe, hcmd, hcases⟩ := afterRecv_cases w
  rw [ChainState.At, hphase] at hstate
  rcases hcases with heq | heq | heq
  · rw [heq]
    refine ⟨hlist, ?_, n, hn, ⟨hholds.loaded_eq, hholds.cmdSend_eq⟩, ?_⟩
    · show obeys smsLaw (_ :: _ :: w.hist) = true
      rw [obeys_cons_of_none rfl, obeys_cons_of_none rfl]
      exact hgated
    · by_cases h4 : n = .smsSendCmdProcess4
      · subst h4
        show cmgsGate.isOpen (_ :: .app (.okFound w.app.atCmd) :: w.hist) = true
        rw [hstate.1]
        rfl
      · by_cases h5 : n = .smsSendCmdProcess5
        · subst h5
          obtain ⟨hprompt, hpacket, -⟩ := hstate
          have hopen : cmgsGate.isOpen
              (.recv w.loaded res :: .app (.okFound w.app.atCmd) :: w.hist) = true := by
            rw [hpacket rfl]
            exact hprompt
          have hanswer : bodyGate.isOpen
              (.recv w.loaded res :: .app (.okFound w.app.atCmd) :: w.hist) = true := by
            rw [hpacket rfl]
            rfl
          exact ⟨hopen, nofun, fun _ => hanswer⟩
        · exact ChainState.of_ne h4 h5 ..
  · have hstep : NeutralStep w (afterRecv (gsmRecvCallback w)) := by
      rw [heq]
      exact .of_events [_] (List.forall_mem_singleton.mpr ⟨rfl, ⟨rfl, rfl⟩, ⟨rfl, rfl⟩⟩) rfl
    have hprompt := hstep.prompt
    have hgated' := hstep.gated hgated
    rw [heq] at hprompt hgated' ⊢
    refine ⟨hlist, hgated', n, hn, ⟨hholds.loaded_eq, hholds.cmdSend_eq⟩, ?_⟩
    by_cases h4 : n = .smsSendCmdProcess4
    · subst h4
      exact hprompt.trans hstate.2
    · by_cases h5 : n = .smsSendCmdProcess5
      · subst h5
        exact ⟨hprompt.trans hstate.1, nofun, nofun⟩
      · exact ChainState.of_ne h4 h5 ..
  · have hstep : NeutralStep w (afterRecv (gsmRecvCallback w)) := by
      rw [heq]
      exact .of_events [_] (List.forall_mem_singleton.mpr ⟨rfl, ⟨rfl, rfl⟩, ⟨rfl, rfl⟩⟩) rfl
    have hprompt := hstep.prompt
    have hanswer := hstep.answer
    have hgated' := hstep.gated hgated
    rw [heq] at hprompt hanswer hgated' ⊢
    refine ⟨hlist, hgated', n, hn, ⟨hholds.loaded_eq, hholds.cmdSend_eq⟩, ?_⟩
    show ChainState app.atCmd _ _ w.phase n
    rw [hprompt, hanswer, hphase, hcmd]
    exact hstate

/-- The next descriptor of the chain; from `smsSendCmdProcess_4` only after a success. -/
lemma chainInv_next {m : GsmCmd} (hlist : w.cmdList = []) (hgated : Gated w) (hn : n ∈ sendChain)
    (hstate : ChainState.At n w) (hphase : cmdTaskIsIdle w.phase = true)
    (hchecked : n = .smsSendCmdProcess4 → w.phase ≠ .error)
    (hnext : (gsmProcess n).next = some m) : ChainInv (sendAtCmdNow w m) := by
  have hload := neutralStep_load w m
  have hgated' := hload.gated hgated
  have helse : m ∈ sendChain → m ≠ .smsSendCmdProcess4 → m ≠ .smsSendCmdProcess5 →
      ChainInv (sendAtCmdNow w m) :=
    fun hm h4 h5 => Elsewhere.chainInv (.of_load hm h4 h5 hlist hgated' rfl rfl)
  have hcmgs : m = .smsSendCmdProcess4 → ChainInv (sendAtCmdNow w m) := by
    rintro rfl
    exact ⟨hlist, hgated', _, by decide, ⟨rfl, rfl⟩, trivial⟩
  simp only [sendChain, List.mem_cons, List.not_mem_nil, or_false] at hn
  rcases hn with rfl | rfl | rfl | rfl | rfl | rfl | rfl | rfl
  · obtain rfl : _ = m := Option.some.inj hnext
    exact helse (by decide) (by decide) (by decide)
  · exact hcmgs (Option.some.inj hnext).symm
  · obtain rfl : _ = m := Option.some.inj hnext
    exact helse (by decide) (by decide) (by decide)
  · exact hcmgs (Option.some.inj hnext).symm
  · obtain rfl : _ = m := Option.some.inj hnext
    have hok : w.phase = .ok := by
      have hne := hchecked rfl
      revert hphase hne
      cases w.phase <;> simp [cmdTaskIsIdle]
    rw [ChainState.At, hok] at hstate
    exact ⟨hlist, hgated', .smsSendCmdProcess5, by decide, ⟨rfl, rfl⟩,
      hload.prompt.trans hstate, fun h => absurd h (show CmdPhase.send ≠ .wait by decide),
      fun h => absurd h (show CmdPhase.send ≠ .delay by decide)⟩
  · obtain rfl : _ = m := Option.some.inj hnext
    exact helse (by decide) (by decide) (by decide)
  · exact absurd hnext.symm (Option.some_ne_none m)
  · exact absurd hnext.symm (Option.some_ne_none m)

/-- A try fails, or another one begins. -/
lemma chainInv_retried {w' : GsmWorld} (hgated : Gated w) (hn : n ∈ sendChain)
    (hstate : ChainState.At n w) (hlist' : w'.cmdList = []) (hholds' : Holds n w')
    (hstep : NeutralStep w w') (hwait : w'.phase ≠ .wait) (hdelay : w'.phase ≠ .delay)
    (h4 : n = .smsSendCmdProcess4 → w'.phase = .send ∨
      w'.phase ≠ .ok ∧ cmgsGate.isOpen w.hist = false) : ChainInv w' := by
  refine ⟨hlist', hstep.gated hgated, n, hn, hholds', ?_⟩
  by_cases hn4 : n = .smsSendCmdProcess4
  · subst hn4
    rw [ChainState.At, hstep.prompt]
    rcases h4 rfl with hsend | ⟨hok, hshut⟩
    · rw [hsend]
      exact trivial
    · rw [hshut]
      revert hwait hdelay hok
      cases w'.phase <;> simp [ChainState]
  · by_cases hn5 : n = .smsSendCmdProcess5
    · subst hn5
      exact ⟨hstep.prompt.trans hstate.1, fun h => absurd h hwait, fun h => absurd h hdelay⟩
    · exact ChainState.of_ne hn4 hn5 ..

/-- **One call of `Ampm_Cmd_Task` in the chain**, not from a failed `smsSendCmdProcess_4`. -/
theorem cmdTask_chainInv {other : GsmEndCb → CmdPhase → GsmWorld → UInt8 × GsmWorld}
    (h : ChainInv w) (hchecked : ¬ (w.phase = .error ∧ w.loaded = some .smsSendCmdProcess4)) :
    ChainInv (cmdTask (gsmCode other) w) := by
  obtain ⟨hlist, hgated, n, hn, hholds, hstate⟩ := h
  have hstep : GsmTaskStep other n w (cmdTask (gsmCode other) w) := gsmTask_step hlist hholds
  generalize cmdTask (gsmCode other) w = w' at hstep
  cases hstep with
  | tooEarly hphase => exact ⟨hlist, hgated, n, hn, ⟨hholds.loaded_eq, hholds.cmdSend_eq⟩, hstate⟩
  | sent hphase hexp =>
      rw [← hholds.loaded_eq]
      have hholds' : Holds n w.checkTask := ⟨hholds.loaded_eq, hholds.cmdSend_eq⟩
      by_cases h4 : n = .smsSendCmdProcess4
      · subst h4
        exact chainInv_sent_cmgs (w := w.checkTask) hlist hgated hholds'
      · by_cases h5 : n = .smsSendCmdProcess5
        · subst h5
          exact chainInv_sent_body (w := w.checkTask) hlist hgated hholds' hstate.1
        · exact chainInv_sent_other (w := w.checkTask) hlist hgated hn hholds' h4 h5
  | retry hphase =>
      refine chainInv_retried hgated hn hstate hlist ⟨hholds.loaded_eq, ?_⟩
        (.of_events [] (List.forall_mem_nil _) rfl) nofun nofun fun _ => Or.inl rfl
      show ({ w.cmdSend with retryNum := _ } : CmdProcess gsmTypes) = _
      rw [hholds.cmdSend_eq]
      rfl
  | giveUp hphase =>
      refine chainInv_retried hgated hn hstate hlist ⟨hholds.loaded_eq, hholds.cmdSend_eq⟩
        (.of_events [] (List.forall_mem_nil _) rfl) nofun nofun ?_
      rintro rfl
      rw [ChainState.At, hphase] at hstate
      exact Or.inr ⟨nofun, hstate⟩
  | failed hphase =>
      refine chainEnd hlist hgated hn hholds ?_ nofun
      rintro rfl
      rw [ChainState.At, hphase] at hstate
      exact hstate
  | lapsed hphase =>
      refine chainInv_retried hgated hn hstate hlist ⟨hholds.loaded_eq, hholds.cmdSend_eq⟩
        (.of_events [_] (List.forall_mem_singleton.mpr ⟨rfl, ⟨rfl, rfl⟩, ⟨rfl, rfl⟩⟩) rfl)
        nofun nofun ?_
      rintro rfl
      rw [ChainState.At, hphase] at hstate
      exact Or.inr ⟨nofun, hstate.2⟩
  | asked hphase =>
      exact chainInv_asked (w := w.checkTask) hlist hgated hn
        ⟨hholds.loaded_eq, hholds.cmdSend_eq⟩ hstate hphase
  | succeeded hphase =>
      rw [ChainState.At, hphase] at hstate
      refine chainEnd (w := w.checkTask) hlist hgated hn ⟨hholds.loaded_eq, hholds.cmdSend_eq⟩ ?_ ?_
      · rintro rfl
        exact hstate
      · rintro rfl -
        exact hstate.2.2 rfl
  | next m hphase hnext =>
      exact chainInv_next hlist hgated hn hstate hphase
        (fun h4 herr => hchecked ⟨herr, h4 ▸ hholds.loaded_eq⟩) hnext
  | idle hphase hnext => exact ⟨hlist, hgated, n, hn, hholds, hstate⟩

end Engine

/-! ## Runs -/

section Runs

variable {other : GsmEndCb → CmdPhase → GsmWorld → UInt8 × GsmWorld} {w : GsmWorld}

/-- What happens between two calls keeps the invariant. -/
lemma ChainInv.between (h : ChainInv w) (app : GsmState) (clock : ℕ → UInt32) :
    ChainInv (w.own (keepMatchers w.app app) clock []) := by
  obtain ⟨hlist, hgated, n, hn, ⟨hloaded, hcmd⟩, hstate⟩ := h
  exact ⟨hlist, hgated, n, hn, ⟨hloaded, hcmd⟩, hstate⟩

lemma ChainStart.chainInv (h : ChainStart w) : ChainInv w := by
  refine Elsewhere.chainInv (.of_load (n := .smsSendCmdProcess0) (by decide) nofun nofun
    h.cmdList_eq ?_ h.loaded_eq h.cmdSend_eq)
  rw [Gated, h.hist_eq]
  rfl

theorem chainStep_chainInv (h : ChainInv w) (i : ChainInput) (hi : PromptChecked w i) :
    ChainInv (chainStep other w i) := by
  cases i with
  | task app clock => exact cmdTask_chainInv (h.between app clock) hi
  | start app clock =>
      have hbetween := h.between app clock
      exact Elsewhere.chainInv (.of_load (n := .smsSendCmdProcess0) (by decide) nofun nofun
        hbetween.cmdList_eq ((neutralStep_load _ _).gated hbetween.gated) rfl rfl)

/-- A body that is sent although the gate is shut. -/
lemma cmdTask_unprompted (hholds : Holds .smsSendCmdProcess5 w) (hphase : w.phase = .send)
    (hexp : w.taskExpired = true) (hshut : cmgsGate.isOpen w.hist = false) :
    ¬ Gated (cmdTask (gsmCode other) w) := by
  have hsend : w.cmdSend.sendDataCallback = some .gsmSendCallback := by
    rw [hholds.cmdSend_eq]
    rfl
  have hpacket : w.cmdSend.appStruct = some .smsSendMessage := by
    rw [hholds.cmdSend_eq]
    rfl
  obtain ⟨app, clock, bytes, heq, -, -⟩ := gsmSendCallback_own
    (w := w.checkTask.log (.send w.loaded)) hpacket nofun nofun
  rw [cmdTask_of_send (gsmCode other) hphase hexp hsend, Gated]
  show ¬ obeys smsLaw (gsmSendCallback (w.checkTask.log (.send w.loaded))).hist = true
  rw [heq, hholds.loaded_eq]
  show ¬ obeys smsLaw (.app (.tx bytes) :: .app (.bodyWritten _) :: .send _ :: w.hist) = true
  rw [obeys_cons_of_none rfl, obeys_cons_of_some (g := cmgsGate) rfl,
    Gate.isOpen_cons_of_ignores ⟨rfl, rfl⟩, hshut, Bool.false_and]
  exact Bool.false_ne_true

/-- A chain that goes on from a failed `smsSendCmdProcess_4` comes to transmit the body. -/
theorem chainStep_unchecked (h : ChainInv w) (i : ChainInput) (hi : ¬ PromptChecked w i) :
    ∃ j, ¬ Gated (chainStep other (chainStep other w i) j) := by
  obtain ⟨hlist, hgated, n, hn, hholds, hstate⟩ := h
  cases i with
  | start app clock => exact absurd trivial hi
  | task app clock =>
      obtain ⟨herr, hloaded⟩ := not_not.mp hi
      obtain rfl : n = .smsSendCmdProcess4 := Option.some.inj (hholds.loaded_eq.symm.trans hloaded)
      rw [ChainState.At, herr] at hstate
      have hnext : w.cmdSend.next = some .smsSendCmdProcess5 := by
        rw [hholds.cmdSend_eq]
        rfl
      have hloads : chainStep other w (.task app clock) =
          sendAtCmdNow (w.own (keepMatchers w.app app) clock []) .smsSendCmdProcess5 :=
        cmdTask_of_next (w := w.own (keepMatchers w.app app) clock []) (gsmCode other)
          (congrArg cmdTaskIsIdle herr) hnext
      rw [hloads]
      refine ⟨.task w.app fun _ => clock 0 - 1, ?_⟩
      refine cmdTask_unprompted ⟨rfl, rfl⟩ rfl
        (decide_eq_true (checkTimeout_before (clock 0) 100 (by decide))) ?_
      exact (neutralStep_load (w.own (keepMatchers w.app app) clock []) _).prompt.trans hstate

/-- The log obeys the law, and will after whatever comes next. -/
def NextGated (other : GsmEndCb → CmdPhase → GsmWorld → UInt8 × GsmWorld) (w : GsmWorld) : Prop :=
  Gated w ∧ ∀ j, Gated (chainStep other w j)

lemma ChainInv.nextGated (h : ChainInv w) : NextGated other w := by
  refine ⟨h.gated, fun j => ?_⟩
  by_cases hj : PromptChecked w j
  · exact (chainStep_chainInv h j hj).gated
  · cases j with
    | start app clock => exact absurd trivial hj
    | task app clock =>
        obtain ⟨herr, -⟩ := not_not.mp hj
        obtain ⟨hlist, hgated, n, hn, hholds, -⟩ := h.between app clock
        have hstep : GsmTaskStep other n _ (cmdTask (gsmCode other) _) :=
          gsmTask_step hlist hholds
        have hphase : (w.own (keepMatchers w.app app) clock []).phase = .error := herr
        show Gated (cmdTask (gsmCode other) _)
        generalize cmdTask (gsmCode other) (w.own (keepMatchers w.app app) clock []) = w' at hstep
        cases hstep with
        | next m hidle hnext => exact (neutralStep_load _ m).gated hgated
        | idle hidle hnext => exact hgated
        | tooEarly hp => exact hgated
        | sent hp => exact absurd (hphase.symm.trans hp) nofun
        | retry hp => exact hgated
        | giveUp hp => exact hgated
        | failed hp => exact absurd (hphase.symm.trans hp) nofun
        | lapsed hp => exact absurd (hphase.symm.trans hp) nofun
        | asked hp => exact absurd (hphase.symm.trans hp) nofun
        | succeeded hp => exact absurd (hphase.symm.trans hp) nofun

/-- **The chain and the modem's answers.**  For any bytes from the modem, any clock and anything
the other tasks do in between, in a run of the send chain that never goes on from a failed
`smsSendCmdProcess_4` every body is transmitted after the prompt of the `AT+CMGS` before it, and
every message is marked as sent after an `OK` for its body.  The condition is exact: it is met by
just the runs in which no body without a prompt is ever transmitted or one call away from being
so. -/
theorem smsChain_gated_iff (other : GsmEndCb → CmdPhase → GsmWorld → UInt8 × GsmWorld)
    (w₀ : GsmWorld) (hw₀ : ChainStart w₀) (is : List ChainInput) :
    (Runs.StepsMeet (chainStep other) PromptChecked w₀ is →
      Runs.Throughout (chainStep other) Gated w₀ is) ∧
    (Runs.Throughout (chainStep other) (NextGated other) w₀ is ↔
      Runs.StepsMeet (chainStep other) PromptChecked w₀ is) := by
  have hiff : Runs.Throughout (chainStep other) (NextGated other) w₀ is ↔
      Runs.StepsMeet (chainStep other) PromptChecked w₀ is := by
    refine Runs.throughout_iff_stepsMeet (I := ChainInv) (fun _ h => h.nextGated)
      (fun _ i h hi => chainStep_chainInv h i hi) (fun w i h hi hnext => ?_) hw₀.chainInv
    obtain ⟨j, hj⟩ : ∃ j, ¬ Gated (chainStep other (chainStep other w i) j) :=
      chainStep_unchecked h i hi
    exact hj (hnext.2 j)
  exact ⟨fun h => (hiff.mpr h).mono fun _ hw => hw.1, hiff⟩

end Runs

/-! ### A modem that does not answer -/

/-- A text message is to be sent. -/
def textState : GsmState :=
  { gsmReset with
    smsHeap := fun _ =>
      { zeroMsg with
        phone := some [48, 57, 55], msg := some [65, 84, 72], len := 3, timeout := 60
        timeoutReload := 60, tryNum := 2, flag := smsNewMsg, mode := .text }
    smsNext := 2
    smsList := [1]
    smsMsg := 1 }

/-- `Ampm_SmsTask` has just started an attempt. -/
def textStart : GsmWorld := engineAt .smsSendCmdProcess0 .send textState

/-- Calls of `Ampm_Cmd_Task` every six seconds, with no byte from the modem. -/
def silence (n : ℕ) : List ChainInput :=
  (List.range n).map fun k => .task textState fun _ => (6000 * (k + 1)).toUInt32

instance (w : GsmWorld) : Decidable (Gated w) := inferInstanceAs (Decidable (_ = _))

/-- Calls of `Ampm_Cmd_Task` with a modem that answers each command. -/
def answeredCalls (n : ℕ) : List ChainInput :=
  (List.range n).map fun k =>
    .task { textState with rx := bytesOf "\r\r\n>OK" } fun _ => (600 * (k + 1)).toUInt32

instance (w : GsmWorld) : ∀ i, Decidable (PromptChecked w i)
  | .task _ _ => inferInstanceAs (Decidable (¬ _))
  | .start _ _ => inferInstanceAs (Decidable True)

/-- The modem answers every command, and the message is marked as sent. -/
theorem smsChain_gated_iff_answered :
    Runs.Throughout (chainStep idleOther) Gated textStart (answeredCalls 14) ∧
      ((Runs.run (chainStep idleOther) textStart (answeredCalls 14)).app.smsHeap 1).flag =
        smsMsgSent :=
  ⟨(smsChain_gated_iff idleOther textStart ⟨rfl, rfl, rfl, rfl, rfl⟩ (answeredCalls 14)).1
    (by decide +kernel), by decide +kernel⟩

/-- A modem that never answers is sent the body of the message nevertheless. -/
theorem smsChain_body_unprompted :
    ¬ ∀ (other : GsmEndCb → CmdPhase → GsmWorld → UInt8 × GsmWorld) (w₀ : GsmWorld),
      ChainStart w₀ → ∀ is : List ChainInput, Runs.Throughout (chainStep other) Gated w₀ is := by
  intro h
  have hrun := h idleOther textStart ⟨rfl, rfl, rfl, rfl, rfl⟩ (silence 24)
  exact absurd hrun.last (by decide)

end Ampm

import AmpmGsm.Gsm.Callbacks
import AmpmGsm.Gsm.UrcStores
import AmpmGsm.Lib.Gates

/-!
# The texts that are handed over

`ampm_gsm_sms.c`: `Ampm_SMS_ReadMsg` sets `flagSmsReadFinish` at the end of the reply to `AT+CMGR`,
and `Ampm_GsmSmsRecv2` hands `smsDataBuf` over when it finds the flag set.  Nobody clears the flag:
from the second message on it is set before the command is sent.

* `textGate`, `indexGate`, `FreshTexts` — what is asked of every text handed over.
* `RecvInput`, `recvStep` — the receive chain, with any bytes from the modem in between.
* `AsksAnew`, `KeepsText` — the condition: the flag is clear when `AT+CMGR` is sent, and no further
  text comes in while one waits.
* `RecvInv` — the invariant: which descriptor is in hand, and for which index.
* `TextKept` — what a call of `Ampm_Cmd_Task` leaves of a text that waits.
* `cmdTask_handsOver`, `cmdTask_recvTask` — a call that hands a text over, and any other.
-/

namespace Ampm

open Gates Runs

/-! ## The law -/

/-- The text `body`: opened by its completion, shut by another `AT+CMGR` and by a hand-over. -/
def textGate (body : List UInt8) : Gate (CmdEvent gsmTypes) where
  opens
    | .app (.bodyRead b) => b = body
    | _ => false
  shuts
    | .app (.cmgr _) => true
    | .app (.smsReceived _ _) => true
    | _ => false

/-- The index `k`: opened by `AT+CMGR=k`, shut by the same for another index, by taking an index
out of the ring and by a hand-over. -/
def indexGate (k : UInt16) : Gate (CmdEvent gsmTypes) where
  opens
    | .app (.cmgr j) => j = k
    | _ => false
  shuts
    | .app (.cmgr _) => true
    | .app (.indexTaken _) => true
    | .app (.smsReceived _ _) => true
    | _ => false

/-- A text is handed over only while it is completed. -/
def textLaw : CmdEvent gsmTypes → Option (Gate (CmdEvent gsmTypes))
  | .app (.smsReceived _ body) => some (textGate body)
  | _ => none

/-- And only for the index that was asked for. -/
def indexLaw : CmdEvent gsmTypes → Option (Gate (CmdEvent gsmTypes))
  | .app (.smsReceived k _) => some (indexGate k)
  | _ => none

/-- Every text handed over for an index was completed since `AT+CMGR` was sent last, for that
index, and had not been handed over. -/
def FreshTexts (w : GsmWorld) : Prop :=
  obeys textLaw w.hist = true ∧ obeys indexLaw w.hist = true

/-! ## Runs of the chain -/

/-- What the other tasks do meanwhile: any variable may change but for those of the command layer,
of the receive chain and of the URC parser. -/
def keepRecv (s new : GsmState) : GsmState :=
  { new with
    rx := s.rx
    atCmd := s.atCmd
    atCmdBuf := s.atCmdBuf
    cmdOk := s.cmdOk
    cmdFails := s.cmdFails
    callBackParser := s.callBackParser
    atProcessCmd := s.atProcessCmd
    smsUnreadRingBuff := s.smsUnreadRingBuff
    smsIndex := s.smsIndex
    readTryCnt := s.readTryCnt
    tSmsTaskTimeOut := s.tSmsTaskTimeOut
    smsSender := s.smsSender
    smsDataBuf := s.smsDataBuf
    flagSmsReadFinish := s.flagSmsReadFinish
    readMsg := s.readMsg
    atCommandParserEnable := s.atCommandParserEnable
    atCommandParserStarted := s.atCommandParserStarted
    atCmdParser := s.atCmdParser
    lastChar := s.lastChar }

/-- The variables when the chain is started again: the send chain formats `AT+CMGS` in
`smsDataBuf`. -/
def keepChain (s new : GsmState) : GsmState :=
  { keepRecv s new with smsDataBuf := new.smsDataBuf }

/-- A byte from the modem, a call of `Ampm_Cmd_Task` or one of `Ampm_StartRecvSms`. -/
inductive RecvInput
  | byte (c : UInt8) (clock : ℕ → UInt32)
  | task (app : GsmState) (clock : ℕ → UInt32)
  | start (app : GsmState) (clock : ℕ → UInt32)

/-- The engine as the call finds it. -/
def meanwhile (w : GsmWorld) (app : GsmState) (clock : ℕ → UInt32) : GsmWorld :=
  w.own (keepRecv w.app app) clock []

def recvStep (other : GsmEndCb → CmdPhase → GsmWorld → UInt8 × GsmWorld) (w : GsmWorld) :
    RecvInput → GsmWorld
  | .byte c clock => gsmPortRxIrq (w.own w.app clock []) c
  | .task app clock => cmdTask (gsmCode other) (meanwhile w app clock)
  | .start app clock =>
      if cmdTaskIsIdle w.phase then
        (sendAtCmd (w.own (keepChain w.app app) clock []) .smsRecvCmdProcess0).2
      else w

/-- The chain was just started. -/
structure RecvStart (w : GsmWorld) : Prop where
  phase_eq : w.phase = .send
  loaded_eq : w.loaded = some .smsRecvCmdProcess0
  cmdSend_eq : w.cmdSend = gsmProcess .smsRecvCmdProcess0
  cmdList_eq : w.cmdList = []
  hist_eq : w.hist = []

/-! ## The condition -/

/-- `AT+CMGR` has been sent, and its descriptor is still in hand. -/
def Awaits (w : GsmWorld) : Prop := w.loaded = some .smsRecvCmdProcess4 ∧ w.phase ≠ .send

/-- `Ampm_Cmd_Task` sends `AT+CMGR`. -/
def Asks (w : GsmWorld) : Prop :=
  w.loaded = some .smsRecvCmdProcess4 ∧ w.phase = .send ∧ w.taskExpired = true

/-- `Ampm_Cmd_Task` calls `Ampm_GsmSmsRecv2`, and that finds the flag set. -/
def HandsOver (w : GsmWorld) : Prop :=
  (w.loaded = some .smsRecvCmdProcess4 ∧
    (w.phase = .gotoError ∨ w.phase = .delay ∧ w.taskExpired = true)) ∧
  w.app.flagSmsReadFinish = true

/-- The URC parser has the text of a reply to `AT+CMGR` in hand: `Ampm_SMS_ReadMsg` gets the next
byte, and is behind the header line. -/
def TextUnderWay (w : GsmWorld) : Prop :=
  (urcDispatch w).map Prod.fst = some 3 ∧ w.app.readMsg.getSmsDataFlag = true

/-- `flagSmsReadFinish` is clear when `AT+CMGR` is sent. -/
def AsksAnew (w : GsmWorld) : RecvInput → Prop
  | .task app clock => Asks (meanwhile w app clock) → w.app.flagSmsReadFinish = false
  | _ => True

/-- Once it is set for the command that was sent, no byte of another text comes in. -/
def KeepsText (w : GsmWorld) : RecvInput → Prop
  | .byte _ clock =>
      Awaits w ∧ w.app.flagSmsReadFinish = true → ¬ TextUnderWay (w.own w.app clock [])
  | _ => True

instance (w : GsmWorld) : Decidable (Awaits w) := inferInstanceAs (Decidable (_ ∧ _))

instance (w : GsmWorld) : Decidable (Asks w) := inferInstanceAs (Decidable (_ ∧ _))

instance (w : GsmWorld) : Decidable (TextUnderWay w) := inferInstanceAs (Decidable (_ ∧ _))

instance decidableAsksAnew (w : GsmWorld) : ∀ i, Decidable (AsksAnew w i)
  | .byte _ _ => inferInstanceAs (Decidable True)
  | .task app clock => inferInstanceAs (Decidable (Asks (meanwhile w app clock) → _))
  | .start _ _ => inferInstanceAs (Decidable True)

instance decidableKeepsText (w : GsmWorld) : ∀ i, Decidable (KeepsText w i)
  | .byte _ clock => inferInstanceAs (Decidable (_ → ¬ TextUnderWay (w.own w.app clock [])))
  | .task _ _ => inferInstanceAs (Decidable True)
  | .start _ _ => inferInstanceAs (Decidable True)

/-! ## The log -/

/-- The text completed last, since `AT+CMGR` was sent and since the last hand-over. -/
def lastRead : List (CmdEvent gsmTypes) → Option (List UInt8)
  | [] => none
  | .app (.bodyRead body) :: _ => some body
  | .app (.cmgr _) :: _ => none
  | .app (.smsReceived _ _) :: _ => none
  | _ :: log => lastRead log

/-- An event that says nothing of an index or of a text. -/
def bystander : CmdEvent gsmTypes → Bool
  | .app (.bodyRead _) => false
  | .app (.cmgr _) => false
  | .app (.smsReceived _ _) => false
  | .app (.indexTaken _) => false
  | _ => true

/-- The laws take no notice of it. -/
lemma bystander_eq {e : CmdEvent gsmTypes} (h : bystander e = true) :
    (∀ k, (indexGate k).ignores e) ∧ (∀ body, (textGate body).ignores e) ∧
      (textLaw e = none ∧ indexLaw e = none) ∧ ∀ log, lastRead (e :: log) = lastRead log := by
  cases e with
  | app x =>
      cases x with
      | bodyRead body => exact absurd h Bool.false_ne_true
      | cmgr k => exact absurd h Bool.false_ne_true
      | smsReceived k body => exact absurd h Bool.false_ne_true
      | indexTaken k => exact absurd h Bool.false_ne_true
      | _ => exact ⟨fun _ => ⟨rfl, rfl⟩, fun _ => ⟨rfl, rfl⟩, ⟨rfl, rfl⟩, fun _ => rfl⟩
  | _ => exact ⟨fun _ => ⟨rfl, rfl⟩, fun _ => ⟨rfl, rfl⟩, ⟨rfl, rfl⟩, fun _ => rfl⟩

lemma lastRead_append {es : List (CmdEvent gsmTypes)} (hes : ∀ e ∈ es, bystander e = true)
    (log : List (CmdEvent gsmTypes)) : lastRead (es ++ log) = lastRead log := by
  induction es with
  | nil => rfl
  | cons e es ih =>
      rw [List.cons_append, (bystander_eq (hes e List.mem_cons_self)).2.2.2]
      exact ih fun x hx => hes x (List.mem_cons_of_mem e hx)

/-- The log grew by events that hand nothing over. -/
def NoHandOver (w w' : GsmWorld) : Prop :=
  ∃ es, w'.hist = es ++ w.hist ∧ ∀ e ∈ es, textLaw e = none ∧ indexLaw e = none

namespace NoHandOver

variable {w w' w'' : GsmWorld}

lemma of_eq (h : w'.hist = w.hist) : NoHandOver w w' := ⟨[], h, List.forall_mem_nil _⟩

lemma one {e : CmdEvent gsmTypes} (h : w'.hist = e :: w.hist) (htext : textLaw e = none)
    (hindex : indexLaw e = none) : NoHandOver w w' :=
  ⟨[e], h, List.forall_mem_singleton.mpr ⟨htext, hindex⟩⟩

lemma of_bystanders (es : List (CmdEvent gsmTypes)) (hes : ∀ e ∈ es, bystander e = true)
    (h : w'.hist = es ++ w.hist) : NoHandOver w w' :=
  ⟨es, h, fun e he => (bystander_eq (hes e he)).2.2.1⟩

lemma trans (h : NoHandOver w w') (h' : NoHandOver w' w'') : NoHandOver w w'' := by
  obtain ⟨es, heq, hes⟩ := h
  obtain ⟨es', heq', hes'⟩ := h'
  refine ⟨es' ++ es, by rw [heq', heq, List.append_assoc], fun e he => ?_⟩
  exact (List.mem_append.mp he).elim (hes' e) (hes e)

lemma fresh (h : NoHandOver w w') (hw : FreshTexts w) : FreshTexts w' := by
  obtain ⟨es, heq, hes⟩ := h
  rw [FreshTexts, heq, obeys_append_of_none fun e he => (hes e he).1,
    obeys_append_of_none fun e he => (hes e he).2]
  exact hw

end NoHandOver

/-- The gate of a text is open only behind the completion of some text. -/
lemma lastRead_of_isOpen {body : List UInt8} {log : List (CmdEvent gsmTypes)}
    (h : (textGate body).isOpen log = true) : lastRead log ≠ none := by
  induction log with
  | nil => exact absurd h Bool.false_ne_true
  | cons e log ih =>
      cases e with
      | app x =>
          cases x with
          | bodyRead b => exact Option.some_ne_none b
          | cmgr k => exact absurd h Bool.false_ne_true
          | smsReceived k b => exact absurd h Bool.false_ne_true
          | _ => exact ih h
      | _ => exact ih h

/-- The gate of the text that was completed last is open. -/
lemma isOpen_of_lastRead {body : List UInt8} {log : List (CmdEvent gsmTypes)}
    (h : lastRead log = some body) : (textGate body).isOpen log = true := by
  induction log with
  | nil => exact absurd h.symm (Option.some_ne_none body)
  | cons e log ih =>
      cases e with
      | app x =>
          cases x with
          | bodyRead b =>
              obtain rfl := Option.some.inj h
              exact Gate.isOpen_cons_of_opens (decide_eq_true rfl) log
          | cmgr k => exact absurd h.symm (Option.some_ne_none body)
          | smsReceived k b => exact absurd h.symm (Option.some_ne_none body)
          | _ => exact ih h
      | _ => exact ih h

/-! ## The invariant -/

/-- The descriptors of the receive chain. -/
def recvChain : List GsmCmd :=
  [.smsRecvCmdProcess0, .smsRecvCmdProcess1, .smsRecvCmdProcess2, .smsRecvCmdProcess3,
    .smsRecvCmdProcess4, .smsRecvCmdProcess5, .smsRecvCmdProcessEnd]

/-- A descriptor of the chain is in `cmdSend`; once `smsRecvCmdProcess_4` is sent, `smsIndex` is
what `AT+CMGR` asks for. -/
structure RecvInv (w : GsmWorld) : Prop where
  cmdList_eq : w.cmdList = []
  chain : ∃ n ∈ recvChain, Holds n w ∧ (n = .smsRecvCmdProcess4 → w.phase ≠ .send →
    (indexGate w.app.smsIndex).isOpen w.hist = true)

/-- The packets of the chain load nothing, and only that of `smsRecvCmdProcess_4` logs an event of
its own. -/
lemma recvChain_packet {n : GsmCmd} (hn : n ∈ recvChain) (s : GsmState) :
    ∃ packet, (gsmProcess n).appStruct = some packet ∧
      (gsmPacket s packet).sprintf ≠ some .gsmSmsSendCallbackCmgs ∧
      (gsmPacket s packet).sprintf ≠ some .gsmChld1XCallback ∧
      formatEvents s (gsmPacket s packet).sprintf =
        if n = .smsRecvCmdProcess4 then [.cmgr s.smsIndex] else [] := by
  simp only [recvChain, List.mem_cons, List.not_mem_nil, or_false] at hn
  rcases hn with rfl | rfl | rfl | rfl | rfl | rfl | rfl <;>
    exact ⟨_, rfl, by rintro ⟨⟩, by rintro ⟨⟩, rfl⟩

section Task

variable {other : GsmEndCb → CmdPhase → GsmWorld → UInt8 × GsmWorld} {w w' : GsmWorld} {n : GsmCmd}

/-- A descriptor of the chain was just loaded. -/
lemma recvInv_load (hn : n ∈ recvChain) (hlist : w.cmdList = []) :
    RecvInv (sendAtCmdNow w n) :=
  ⟨hlist, n, hn, ⟨rfl, rfl⟩, fun _ hphase => absurd rfl hphase⟩

/-- Another descriptor than `smsRecvCmdProcess_4`, in any phase. -/
lemma recvInv_of_ne (hn : n ∈ recvChain) (hlist : w.cmdList = []) (hholds : Holds n w)
    (hne : n ≠ .smsRecvCmdProcess4) : RecvInv w :=
  ⟨hlist, n, hn, hholds, fun h => absurd h hne⟩

/-- A text that waits behind a call has waited in front of it. -/
def TextKept (w w' : GsmWorld) : Prop :=
  Awaits w' → w'.app.flagSmsReadFinish = true →
    (Awaits w ∧ w.app.flagSmsReadFinish = true) ∧
      w'.app.smsBody = w.app.smsBody ∧ lastRead w'.hist = lastRead w.hist

/-- What a call comes to: the invariant is kept, nothing is handed over, and no text begins to
wait. -/
structure RecvTask (w w' : GsmWorld) : Prop where
  inv : RecvInv w'
  log : NoHandOver w w'
  text : TextKept w w'

namespace RecvTask

lemma trans {w'' : GsmWorld} (h : RecvTask w w') (h' : RecvTask w' w'') : RecvTask w w'' := by
  refine ⟨h'.inv, h.log.trans h'.log, fun hawaits hset => ?_⟩
  obtain ⟨⟨hawaits', hset'⟩, hbody', hread'⟩ := h'.text hawaits hset
  obtain ⟨hwaits, hbody, hread⟩ := h.text hawaits' hset'
  exact ⟨hwaits, hbody'.trans hbody, hread'.trans hread⟩

/-- A descriptor of the chain was loaded. -/
lemma load {v : GsmWorld} (hn : n ∈ recvChain) (hlist : v.cmdList = []) (hlog : NoHandOver w v) :
    RecvTask w (sendAtCmdNow v n) :=
  ⟨recvInv_load hn hlist, hlog.trans (.one rfl rfl rfl), fun h => absurd rfl h.2⟩

/-- Another descriptor than `smsRecvCmdProcess_4` is in hand. -/
lemma of_ne (hn : n ∈ recvChain) (hlist : w'.cmdList = []) (hholds : Holds n w')
    (hne : n ≠ .smsRecvCmdProcess4) (hlog : NoHandOver w w') : RecvTask w w' :=
  ⟨recvInv_of_ne hn hlist hholds hne, hlog,
    fun h => absurd (Option.some.inj (hholds.loaded_eq.symm.trans h.1)) hne⟩

end RecvTask

/-- An index is taken out, or none is there. -/
lemma gsmSmsRecvNext_task {whenEmpty : GsmCmd} (hempty : whenEmpty ∈ recvChain)
    (hlist : w.cmdList = []) : RecvTask w (gsmSmsRecvNext whenEmpty w).2 ∧
      (gsmSmsRecvNext whenEmpty w).2.phase = .send := by
  unfold gsmSmsRecvNext
  dsimp only
  split_ifs
  · exact ⟨.load (by decide) hlist (.one (e := .app (.indexTaken _)) rfl rfl rfl), rfl⟩
  · exact ⟨.load (by decide) hlist (.one (e := .app (.indexTaken _)) rfl rfl rfl), rfl⟩
  · exact ⟨.load hempty hlist (.of_eq rfl), rfl⟩

/-- `Ampm_GsmSmsRecv2` without the flag: it asks again or gives up, or it waits. -/
lemma gsmSmsRecv2_unread (hflag : w.app.flagSmsReadFinish = false) :
    (∃ m v, gsmSmsRecv2 w = (1, sendAtCmdNow v m) ∧ m ∈ recvChain ∧ v.cmdList = w.cmdList ∧
      NoHandOver w v) ∨
    ∃ app clock, gsmSmsRecv2 w = (0, w.own app clock []) ∧ app.smsIndex = w.app.smsIndex ∧
      app.flagSmsReadFinish = w.app.flagSmsReadFinish := by
  unfold gsmSmsRecv2
  rw [if_neg (Bool.eq_false_iff.mp hflag)]
  dsimp only
  split_ifs
  · exact Or.inl ⟨_, _, rfl, by decide, rfl, .one rfl rfl rfl⟩
  · exact Or.inl ⟨_, _, rfl, by decide, rfl, .of_eq rfl⟩
  · exact Or.inr ⟨_, fun k => w.clock (k + 1), rfl, rfl, rfl⟩

/-- `smsRecvCmdProcess_4` ends without the flag. -/
lemma recvEnd_unread {here res : CmdPhase} (hlist : w.cmdList = [])
    (hholds : Holds .smsRecvCmdProcess4 w)
    (hopen : (indexGate w.app.smsIndex).isOpen w.hist = true) (hhere : here ≠ .send)
    (hflag : w.app.flagSmsReadFinish = false) :
    RecvTask w (cmdTaskEnd (gsmCode other) w here res) := by
  have hcb : w.cmdSend.endDataCallback = some .gsmSmsRecv2 := by
    rw [hholds.cmdSend_eq]
    rfl
  have hcall : (gsmCode other).endCb .gsmSmsRecv2 res (w.log (.endCall w.loaded res)) =
      gsmSmsRecv2 (w.log (.endCall w.loaded res)) := rfl
  have hlog : NoHandOver w (w.log (.endCall w.loaded res)) := .one rfl rfl rfl
  rcases gsmSmsRecv2_unread (w := w.log (.endCall w.loaded res)) hflag with
    ⟨m, v, heq, hm, hlist', hv⟩ | ⟨app, clock, heq, hindex, hclear⟩
  · rw [heq] at hcall
    rw [cmdTaskEnd_of_left hcb (by rw [hcall]; exact hhere.symm), hcall]
    exact .load hm (hlist'.trans hlist) (hlog.trans hv)
  · rw [heq] at hcall
    unfold cmdTaskEnd
    rw [hcb]
    dsimp only
    rw [hcall]
    refine ⟨⟨hlist, _, by decide, ⟨hholds.loaded_eq, hholds.cmdSend_eq⟩, fun _ _ => ?_⟩,
      hlog.trans (.of_eq rfl), fun _ hset => ?_⟩
    · show (indexGate app.smsIndex).isOpen (.endCall w.loaded res :: w.hist) = true
      rw [hindex]
      exact hopen
    · exact absurd ((hclear.trans hflag).symm.trans hset) Bool.false_ne_true

/-- A descriptor of the chain ends, and nothing is handed over. -/
lemma recvEnd_task {here res : CmdPhase} (hlist : w.cmdList = []) (hn : n ∈ recvChain)
    (hholds : Holds n w) (hopen : n = .smsRecvCmdProcess4 →
      (indexGate w.app.smsIndex).isOpen w.hist = true) (hhere : here ≠ .send)
    (hflag : n = .smsRecvCmdProcess4 → w.app.flagSmsReadFinish = false) :
    RecvTask w (cmdTaskEnd (gsmCode other) w here res) := by
  have hcb : w.cmdSend.endDataCallback = (gsmProcess n).endDataCallback := by
    rw [hholds.cmdSend_eq]
  have hlog : NoHandOver w (w.log (.endCall w.loaded res)) := .one rfl rfl rfl
  have hnone : n ≠ .smsRecvCmdProcess4 → (gsmProcess n).endDataCallback = none →
      RecvTask w (cmdTaskEnd (gsmCode other) w here res) := by
    intro hne hnone
    rw [cmdTaskEnd_of_none (hcb.trans hnone)]
    exact .of_ne hn hlist ⟨hholds.loaded_eq, hholds.cmdSend_eq⟩ hne (.of_eq rfl)
  have hnext : ∀ callback whenEmpty, whenEmpty ∈ recvChain →
      (gsmProcess n).endDataCallback = some callback →
      (gsmCode other).endCb callback res (w.log (.endCall w.loaded res)) =
        gsmSmsRecvNext whenEmpty (w.log (.endCall w.loaded res)) →
      RecvTask w (cmdTaskEnd (gsmCode other) w here res) := by
    intro callback whenEmpty hempty hsome hcall
    obtain ⟨htask, hsend⟩ :=
      gsmSmsRecvNext_task (w := w.log (.endCall w.loaded res)) hempty hlist
    rw [← hcall] at htask hsend
    rw [cmdTaskEnd_of_left (hcb.trans hsome) (hsend.trans_ne hhere.symm)]
    exact ⟨htask.inv, hlog.trans htask.log, fun h => absurd hsend h.2⟩
  simp only [recvChain, List.mem_cons, List.not_mem_nil, or_false] at hn
  rcases hn with rfl | rfl | rfl | rfl | rfl | rfl | rfl
  · exact hnone nofun rfl
  · exact hnone nofun rfl
  · exact hnext .gsmSmsRecv0 .smsRecvCmdProcess3 (by decide) rfl rfl
  · exact hnext .gsmSmsRecv1 .smsRecvCmdProcessEnd (by decide) rfl rfl
  · exact recvEnd_unread hlist hholds (hopen rfl) hhere (hflag rfl)
  · exact hnext .gsmSmsRecv1 .smsRecvCmdProcessEnd (by decide) rfl rfl
  · exact hnone nofun rfl

/-- A descriptor of the chain is sent. -/
lemma recvSent_task (hlist : w.cmdList = []) (hn : n ∈ recvChain) (hholds : Holds n w)
    (hclear : n = .smsRecvCmdProcess4 → w.app.flagSmsReadFinish = false) :
    RecvTask w (afterSend (gsmSendCallback (w.log (.send w.loaded)))) := by
  obtain ⟨packet, hpacket, hcmgs, hchld, hevents⟩ :=
    recvChain_packet hn (w.log (.send w.loaded)).app
  have hstruct : (w.log (.send w.loaded)).cmdSend.appStruct = some packet := by
    rw [CmdWorld.log_cmdSend, hholds.cmdSend_eq]
    exact hpacket
  obtain ⟨app, clock, bytes, heq, hframe, -⟩ := gsmSendCallback_own hstruct hcmgs hchld
  have hindex : app.smsIndex = w.app.smsIndex := by rw [hframe]; rfl
  have hflag : app.flagSmsReadFinish = w.app.flagSmsReadFinish := by rw [hframe]; rfl
  rw [heq, hevents]
  by_cases h4 : n = .smsRecvCmdProcess4
  · rw [if_pos h4]
    refine ⟨⟨hlist, n, hn, ⟨hholds.loaded_eq, hholds.cmdSend_eq⟩, fun _ _ => ?_⟩,
      ⟨[.app (.tx bytes), .app (.cmgr w.app.smsIndex), .send w.loaded], rfl, ?_⟩, fun _ hset => ?_⟩
    · show (indexGate app.smsIndex).isOpen
        (.app (.tx bytes) :: .app (.cmgr w.app.smsIndex) :: .send w.loaded :: w.hist) = true
      rw [Gate.isOpen_cons_of_ignores ⟨rfl, rfl⟩, hindex]
      exact Gate.isOpen_cons_of_opens (decide_eq_true rfl) _
    · simp [textLaw, indexLaw]
    · exact absurd ((hflag.trans (hclear h4)).symm.trans hset) Bool.false_ne_true
  · rw [if_neg h4]
    exact .of_ne hn hlist ⟨hholds.loaded_eq, hholds.cmdSend_eq⟩ h4
      (.of_bystanders [.app (.tx bytes), .send w.loaded] (by simp [bystander]) rfl)

/-- The invariant goes on when the log grows by events that are none of `AT+CMGR`, out of the phase
in which a descriptor is to be sent. -/
lemma RecvInv.engine (h : RecvInv w) (hlist : w'.cmdList = [])
    (hholds : ∀ m, Holds m w → Holds m w') (hphase : w'.phase ≠ .send → w.phase ≠ .send)
    (hindex : w'.app.smsIndex = w.app.smsIndex) (es : List (CmdEvent gsmTypes))
    (hes : ∀ e ∈ es, ∀ k, (indexGate k).ignores e) (hhist : w'.hist = es ++ w.hist) :
    RecvInv w' := by
  obtain ⟨-, n, hn, hw, hopen⟩ := h
  refine ⟨hlist, n, hn, hholds n hw, fun h4 hsend => ?_⟩
  rw [hindex, hhist, Gate.isOpen_append_of_ignores fun e he => hes e he _]
  exact hopen h4 (hphase hsend)

/-- The variables of the index and of the text are the same. -/
structure IndexTextKept (s s' : GsmState) : Prop where
  index : s'.smsIndex = s.smsIndex
  buf : s'.smsDataBuf = s.smsDataBuf
  flag : s'.flagSmsReadFinish = s.flagSmsReadFinish

lemma IndexTextKept.refl (s : GsmState) : IndexTextKept s s := ⟨rfl, rfl, rfl⟩

lemma IoFrame.indexTextKept {s s' : GsmState} (h : IoFrame s s') : IndexTextKept s s' := by
  rw [h]
  exact ⟨rfl, rfl, rfl⟩

/-- A call that works for the engine alone. -/
lemma RecvTask.engine (es : List (CmdEvent gsmTypes)) (h : RecvInv w) (hlist : w'.cmdList = [])
    (hloaded : w'.loaded = w.loaded) (hholds : ∀ m, Holds m w → Holds m w')
    (hphase : w'.phase ≠ .send → w.phase ≠ .send) (happ : IndexTextKept w.app w'.app)
    (hes : ∀ e ∈ es, bystander e = true) (hhist : w'.hist = es ++ w.hist) : RecvTask w w' := by
  have hquiet : ∀ e ∈ es, ∀ k, (indexGate k).ignores e := fun e he => (bystander_eq (hes e he)).1
  refine ⟨h.engine hlist hholds hphase happ.index es hquiet hhist,
    .of_bystanders es hes hhist, fun hawaits hset => ⟨⟨⟨?_, hphase hawaits.2⟩, ?_⟩, ?_, ?_⟩⟩
  · exact hloaded.symm.trans hawaits.1
  · exact happ.flag.symm.trans hset
  · rw [GsmState.smsBody, GsmState.smsBody, happ.buf]
  · rw [hhist, lastRead_append hes]

/-- The answer is looked at. -/
lemma recvAsked_task (h : RecvInv w) (hphase : w.phase = .wait) :
    RecvTask w (afterRecv (gsmRecvCallback w)) := by
  obtain ⟨app, clock, res, hframe, -, hcases⟩ := afterRecv_cases w
  have hlist := h.cmdList_eq
  have hsend : w.phase ≠ .send := by
    rw [hphase]
    exact nofun
  rcases hcases with heq | heq | heq
  · rw [heq]
    exact .engine [.recv w.loaded res, .app (.okFound w.app.atCmd)] h hlist rfl
      (fun m hm => ⟨hm.loaded_eq, hm.cmdSend_eq⟩) (fun _ => hsend) hframe.indexTextKept
      (by simp [bystander]) rfl
  · rw [heq]
    exact .engine [.recv w.loaded res] h hlist rfl
      (fun m hm => ⟨hm.loaded_eq, hm.cmdSend_eq⟩) (fun _ => hsend) hframe.indexTextKept
      (by simp [bystander]) rfl
  · rw [heq]
    exact .engine [.recv w.loaded res] h hlist rfl
      (fun m hm => ⟨hm.loaded_eq, hm.cmdSend_eq⟩) (fun _ => hsend) hframe.indexTextKept
      (by simp [bystander]) rfl

/-- The event of a hand-over. -/
def handOver (w : GsmWorld) : CmdEvent gsmTypes := .app (.smsReceived w.app.smsIndex w.app.smsBody)

variable (other) in
/-- A call of `Ampm_GsmSmsRecv2` that finds the flag set. -/
lemma recvEnd_handsOver {here : CmdPhase} (res : CmdPhase) (hlist : w.cmdList = [])
    (hholds : Holds .smsRecvCmdProcess4 w) (hhere : .send ≠ here)
    (hflag : w.app.flagSmsReadFinish = true) :
    RecvInv (cmdTaskEnd (gsmCode other) w here res) ∧
      (cmdTaskEnd (gsmCode other) w here res).phase = .send ∧
      (cmdTaskEnd (gsmCode other) w here res).hist =
        .load (some .smsRecvCmdProcess5) :: handOver w :: .endCall w.loaded res :: w.hist := by
  have hcb : w.cmdSend.endDataCallback = some .gsmSmsRecv2 := by
    rw [hholds.cmdSend_eq]
    rfl
  have hcall : (gsmCode other).endCb .gsmSmsRecv2 res (w.log (.endCall w.loaded res)) =
      (1, sendAtCmdNow (smsRecvCallback (w.log (.endCall w.loaded res))) .smsRecvCmdProcess5) :=
    if_pos hflag
  rw [cmdTaskEnd_of_left hcb (by rw [hcall]; exact hhere), hcall]
  exact ⟨recvInv_load (by decide) hlist, rfl, rfl⟩

variable (other) in
/-- **A call of `Ampm_Cmd_Task` that hands a text over.** -/
theorem cmdTask_handsOver (h : RecvInv w) (hands : HandsOver w) :
    RecvInv (cmdTask (gsmCode other) w) ∧ (cmdTask (gsmCode other) w).phase = .send ∧
      (indexGate w.app.smsIndex).isOpen w.hist = true ∧
      ∃ res, (cmdTask (gsmCode other) w).hist =
        .load (some .smsRecvCmdProcess5) :: handOver w :: .endCall w.loaded res :: w.hist := by
  obtain ⟨hlist, n, hn, hholds, hopen⟩ := h
  obtain ⟨⟨hloaded, hphase⟩, hflag⟩ := hands
  obtain rfl : n = .smsRecvCmdProcess4 := Option.some.inj (hholds.loaded_eq.symm.trans hloaded)
  rcases hphase with hphase | ⟨hphase, hexp⟩
  · have htask : cmdTask (gsmCode other) w = cmdTaskEnd (gsmCode other) w .gotoError .error := by
      unfold cmdTask
      rw [hphase]
    rw [htask]
    obtain ⟨hinv, hsend, hhist⟩ := recvEnd_handsOver other .error hlist hholds
      (show CmdPhase.send ≠ .gotoError by decide) hflag
    exact ⟨hinv, hsend, hopen rfl (by rw [hphase]; exact nofun), _, hhist⟩
  · have htask : cmdTask (gsmCode other) w =
        cmdTaskEnd (gsmCode other) w.checkTask .delay .ok := by
      unfold cmdTask
      rw [hphase]
      exact if_pos hexp
    rw [htask]
    obtain ⟨hinv, hsend, hhist⟩ := recvEnd_handsOver (w := w.checkTask) other .ok hlist
      ⟨hholds.loaded_eq, hholds.cmdSend_eq⟩ (show CmdPhase.send ≠ .delay by decide) hflag
    exact ⟨hinv, hsend, hopen rfl (by rw [hphase]; exact nofun), _, hhist⟩

variable (other) in
/-- **Any other call**, if it does not send `AT+CMGR` while the flag is set. -/
theorem cmdTask_recvTask (h : RecvInv w) (hands : ¬ HandsOver w)
    (hclear : Asks w → w.app.flagSmsReadFinish = false) :
    RecvTask w (cmdTask (gsmCode other) w) := by
  obtain ⟨hlist, n, hn, hholds, hopen⟩ := id h
  have hkept : RecvTask w w.checkTask :=
    .engine [] h hlist rfl (fun m hm => ⟨hm.loaded_eq, hm.cmdSend_eq⟩) id (.refl _)
      (List.forall_mem_nil _) rfl
  have hflag (hphase : w.phase = .gotoError ∨ w.phase = .delay ∧ w.taskExpired = true) :
      n = .smsRecvCmdProcess4 → w.app.flagSmsReadFinish = false := by
    rintro rfl
    exact Bool.eq_false_iff.mpr fun hset => hands ⟨⟨hholds.loaded_eq, hphase⟩, hset⟩
  have hstep : GsmTaskStep other n w (cmdTask (gsmCode other) w) := gsmTask_step hlist hholds
  by_cases hearly : w.phase = .delay ∧ w.taskExpired = false
  · have htask : cmdTask (gsmCode other) w = w.checkTask := by
      unfold cmdTask
      rw [hearly.1]
      exact if_neg (Bool.eq_false_iff.mp hearly.2)
    rw [htask]
    exact hkept
  generalize cmdTask (gsmCode other) w = w' at hstep
  cases hstep with
  | tooEarly hphase => exact hkept
  | sent hphase hexp =>
      rw [← hholds.loaded_eq]
      refine hkept.trans (recvSent_task (w := w.checkTask) hlist hn
        ⟨hholds.loaded_eq, hholds.cmdSend_eq⟩ ?_)
      rintro rfl
      exact hclear ⟨hholds.loaded_eq, hphase, hexp⟩
  | retry hphase =>
      refine .engine [] h hlist rfl (fun m hm => ⟨hm.loaded_eq, ?_⟩)
        (fun hne => absurd rfl hne) (.refl _) (List.forall_mem_nil _) rfl
      show ({ w.cmdSend with retryNum := _ } : CmdProcess gsmTypes) = _
      rw [hm.cmdSend_eq]
      rfl
  | giveUp hphase =>
      exact .engine [] h hlist rfl (fun m hm => ⟨hm.loaded_eq, hm.cmdSend_eq⟩)
        (fun _ => by rw [hphase]; exact nofun) (.refl _) (List.forall_mem_nil _) rfl
  | failed hphase =>
      exact recvEnd_task hlist hn hholds (fun h4 => hopen h4 (by rw [hphase]; exact nofun)) nofun
        (hflag (Or.inl hphase))
  | lapsed hphase =>
      exact .engine [.timeout (some n)] h hlist rfl
        (fun m hm => ⟨hm.loaded_eq, hm.cmdSend_eq⟩) (fun _ => by rw [hphase]; exact nofun) (.refl _)
        (by simp [bystander]) rfl
  | asked hphase => exact hkept.trans (recvAsked_task hkept.inv hphase)
  | succeeded hphase =>
      have hexp : w.taskExpired = true :=
        Bool.of_not_eq_false fun hexp => hearly ⟨hphase, hexp⟩
      exact hkept.trans (recvEnd_task hlist hn ⟨hholds.loaded_eq, hholds.cmdSend_eq⟩
        (fun h4 => hopen h4 (by rw [hphase]; exact nofun)) nofun (hflag (Or.inr ⟨hphase, hexp⟩)))
  | next m hphase hnext =>
      have hm : m ∈ recvChain := by
        simp only [recvChain, List.mem_cons, List.not_mem_nil, or_false] at hn
        rcases hn with rfl | rfl | rfl | rfl | rfl | rfl | rfl <;>
          first
          | exact absurd hnext.symm (Option.some_ne_none m)
          | (obtain rfl : _ = m := Option.some.inj hnext; decide)
      exact .load hm hlist (.of_eq rfl)
  | idle hphase hnext =>
      exact .engine [] h hlist rfl (fun m hm => ⟨hm.loaded_eq, hm.cmdSend_eq⟩) id (.refl _)
        (List.forall_mem_nil _) rfl

end Task

end Ampm

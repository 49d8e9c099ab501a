import AmpmGsm.Gsm.PlainCmd

/-!
# The dial-up

`ampm_gsm_dial_up.c`: five commands, each linked to the next, that end with the modem in data mode.
`Ampm_GSM_DialUp` starts the first and from then on looks only at the phase of the engine and at
the link of the command in hand.

* `dialUpReset`, `dialUp` — the functions.
* `dialUpStep` — an iteration of the main task in its dial-up phase.
* `ChainDone`, `Connected` — what the log says of a chain of commands that all succeeded.
* `Dialling` — the invariant while the chain runs.
* **`dialUp_connected`** — the dial-up is only reported done after the whole chain.
-/

namespace Ampm

open Runs

/-! ## The code -/

/-- `Ampm_GSM_DialUp_Reset`. -/
def dialUpReset (w : GsmWorld) : GsmWorld :=
  w.setMain { w.app.main with dialupPhase := .start }

/-- `Ampm_GSM_DialUp_IsOk`. -/
def dialUpIsOk (s : GsmState) : Bool := s.main.dialupPhase = .ok

/-- `Ampm_GSM_DialUp_IsDone`. -/
def dialUpIsDone (s : GsmState) : Bool :=
  match s.main.dialupPhase with
  | .fail => true
  | .ok => true
  | _ => false

/-- The dummy PPP packet. -/
def dummyPppPacket : List UInt8 := [0x7E, 0xFF, 0x7D, 0x23, 0xC0, 0x21, 0x7E]

/-- `Ampm_GSM_DialUp`. -/
def dialUp (w : GsmWorld) : GsmWorld :=
  match w.app.main.dialupPhase with
  | .start =>
      let r := issue w .dialupCmdProcess0
      if r.1 ≠ 0 then
        (r.2.setMain { r.2.app.main with dialupPhase := .runing }).log (.app .dialStarted)
      else r.2
  | .runing =>
      if cmdCheckIsEmpty w.cmdSend ∧ w.phase = .ok then
        let w := dummyPppPacket.foldl commPutc w
        w.setMain { w.app.main with dialupPhase := .ok, dialupTryCnt := 0 }
      else if w.phase = .error then
        if w.app.main.dialupTryCnt ≥ 5 then
          w.setMain { w.app.main with
            dialupTryCnt := 0, modemResetFlag := true, dialupPhase := .fail }
        else
          w.setMain { w.app.main with
            dialupTryCnt := w.app.main.dialupTryCnt + 1, dialupPhase := .start }
      else w
  | .ok => w
  | .fail => w

/-- An iteration of the main task in its dial-up phase. -/
def dialUpStep (w : GsmWorld) (o : Outside) : GsmWorld := mainCmdTask (dialUp (w.outside o))

/-! ## The property -/

/-- The events that say how the commands of a chain went. -/
def CmdEvent.isProgress : CmdEvent gsmTypes → Bool
  | .send _ => true
  | .app (.okFound _) => true
  | .app (.ended _ _) => true
  | _ => false

/-- The start of the dial-up. -/
def CmdEvent.isDialStarted : CmdEvent gsmTypes → Bool
  | .app .dialStarted => true
  | _ => false

/-- What became of the commands since the dial-up was last started, newest first. -/
def dialProgress (hist : List (CmdEvent gsmTypes)) : List (CmdEvent gsmTypes) :=
  (hist.takeWhile fun e => !e.isDialStarted).filter CmdEvent.isProgress

/-- One after the other, and newest first, the commands were sent once or more, the answer of
their packet was found, and they ended in `AMPM_CMD_OK`. -/
inductive ChainDone : List GsmCmd → List (CmdEvent gsmTypes) → Prop
  | nil : ChainDone [] []
  | cons {cmds : List GsmCmd} {events : List (CmdEvent gsmTypes)} (cmd : GsmCmd)
      (packet : GsmPacket) (tries : ℕ) (hpacket : (gsmProcess cmd).appStruct = some packet)
      (h : ChainDone cmds events) :
      ChainDone (cmd :: cmds) (.app (.ended (some cmd) .ok) :: .app (.okFound packet) ::
        (List.replicate (tries + 1) (.send (some cmd)) ++ events))

/-- All five commands, the last one first. -/
def dialChain : List GsmCmd :=
  [.dialupCmdProcess4, .dialupCmdProcess3, .dialupCmdProcess2, .dialupCmdProcess1,
    .dialupCmdProcess0]

/-- The modem is connected, as far as the log can tell. -/
def Connected (w : GsmWorld) : Prop := ChainDone dialChain (dialProgress w.hist)

/-! ## The invariant -/

/-- How far the command `cmd` is, after those in `done`, when the engine is in `phase`.  A command
that failed is found by the next call of `Ampm_GSM_DialUp`. -/
def Progress (cmd : GsmCmd) (done : List GsmCmd) (events : List (CmdEvent gsmTypes)) :
    CmdPhase → Prop
  | .send => ∃ tries rest, ChainDone done rest ∧
      events = List.replicate tries (.send (some cmd)) ++ rest
  | .resend => ∃ tries rest, ChainDone done rest ∧
      events = List.replicate (tries + 1) (.send (some cmd)) ++ rest
  | .wait => ∃ tries rest, ChainDone done rest ∧
      events = List.replicate (tries + 1) (.send (some cmd)) ++ rest
  | .delay => ∃ packet tries rest, (gsmProcess cmd).appStruct = some packet ∧
      ChainDone done rest ∧
      events = .app (.okFound packet) ::
        (List.replicate (tries + 1) (.send (some cmd)) ++ rest)
  | .ok => ChainDone (cmd :: done) events
  | .gotoError => True
  | .error => True

/-- The chain is at `cmd`. -/
structure Dialling (cmd : GsmCmd) (done : List GsmCmd) (w : GsmWorld) : Prop where
  holds : Holds cmd w
  suffix : (cmd :: done) <:+ dialChain
  atCmd_eq : w.phase = .wait → (gsmProcess cmd).appStruct = some w.app.atCmd
  progress : Progress cmd done (dialProgress w.hist) w.phase

/-! ### The chain -/

lemma suffix_dialChain {cmd : GsmCmd} {done : List GsmCmd} (h : (cmd :: done) <:+ dialChain) :
    cmd = .dialupCmdProcess0 ∧ done = [] ∨
    cmd = .dialupCmdProcess1 ∧ done = [.dialupCmdProcess0] ∨
    cmd = .dialupCmdProcess2 ∧ done = [.dialupCmdProcess1, .dialupCmdProcess0] ∨
    cmd = .dialupCmdProcess3 ∧
      done = [.dialupCmdProcess2, .dialupCmdProcess1, .dialupCmdProcess0] ∨
    cmd = .dialupCmdProcess4 ∧
      done = [.dialupCmdProcess3, .dialupCmdProcess2, .dialupCmdProcess1, .dialupCmdProcess0] := by
  simp only [dialChain, List.suffix_cons_iff, List.suffix_nil, List.cons.injEq, reduceCtorEq,
    or_false] at h
  tauto

/-- The link of a command is the next one of the chain. -/
lemma suffix_next {cmd next : GsmCmd} {done : List GsmCmd} (h : (cmd :: done) <:+ dialChain)
    (hnext : (gsmProcess cmd).next = some next) : (next :: cmd :: done) <:+ dialChain := by
  rcases suffix_dialChain h with ⟨rfl, rfl⟩ | ⟨rfl, rfl⟩ | ⟨rfl, rfl⟩ | ⟨rfl, rfl⟩ | ⟨rfl, rfl⟩
  · obtain rfl : GsmCmd.dialupCmdProcess1 = next := Option.some_inj.mp hnext
    exact ⟨[.dialupCmdProcess4, .dialupCmdProcess3, .dialupCmdProcess2], rfl⟩
  · obtain rfl : GsmCmd.dialupCmdProcess2 = next := Option.some_inj.mp hnext
    exact ⟨[.dialupCmdProcess4, .dialupCmdProcess3], rfl⟩
  · obtain rfl : GsmCmd.dialupCmdProcess3 = next := Option.some_inj.mp hnext
    exact ⟨[.dialupCmdProcess4], rfl⟩
  · obtain rfl : GsmCmd.dialupCmdProcess4 = next := Option.some_inj.mp hnext
    exact List.suffix_refl _
  · exact absurd hnext nofun

/-- Only the last command has no link. -/
lemma suffix_last {cmd : GsmCmd} {done : List GsmCmd} (h : (cmd :: done) <:+ dialChain)
    (hnext : (gsmProcess cmd).next = none) : cmd :: done = dialChain := by
  rcases suffix_dialChain h with ⟨rfl, rfl⟩ | ⟨rfl, rfl⟩ | ⟨rfl, rfl⟩ | ⟨rfl, rfl⟩ | ⟨rfl, rfl⟩
  · exact absurd hnext nofun
  · exact absurd hnext nofun
  · exact absurd hnext nofun
  · exact absurd hnext nofun
  · rfl

/-- The commands of the chain are plain. -/
lemma suffix_plain {cmd : GsmCmd} {done : List GsmCmd} (h : (cmd :: done) <:+ dialChain)
    (s : GsmState) :
    (gsmProcess cmd).endDataCallback = none ∧ ∃ packet, (gsmProcess cmd).appStruct = some packet ∧
      (gsmPacket s packet).callback = none ∧
      ((gsmPacket s packet).sprintf = none ∨
        (gsmPacket s packet).sprintf = some .dialupAtCallback0) := by
  rcases suffix_dialChain h with ⟨rfl, rfl⟩ | ⟨rfl, rfl⟩ | ⟨rfl, rfl⟩ | ⟨rfl, rfl⟩ | ⟨rfl, rfl⟩
  · exact ⟨rfl, _, rfl, rfl, Or.inl rfl⟩
  · exact ⟨rfl, _, rfl, rfl, Or.inl rfl⟩
  · exact ⟨rfl, _, rfl, rfl, Or.inl rfl⟩
  · exact ⟨rfl, _, rfl, rfl, Or.inr rfl⟩
  · exact ⟨rfl, _, rfl, rfl, Or.inl rfl⟩

lemma Dialling.plain {cmd : GsmCmd} {done : List GsmCmd} {w : GsmWorld}
    (h : Dialling cmd done w) :
    ∃ packet, (gsmProcess cmd).appStruct = some packet ∧ PlainCmd packet w := by
  obtain ⟨hend, packet, happ, hcallback, hsprintf⟩ := suffix_plain h.suffix w.app
  refine ⟨packet, happ, ?_, ?_, ?_, ?_, hcallback, hsprintf, fun hwait => ?_⟩
  · rw [h.holds.cmdSend_eq]
    exact (gsmProcess_callbacks cmd).1
  · rw [h.holds.cmdSend_eq]
    exact (gsmProcess_callbacks cmd).2
  · rw [h.holds.cmdSend_eq]
    exact hend
  · rw [h.holds.cmdSend_eq]
    exact happ
  · exact Option.some_inj.mp ((h.atCmd_eq hwait).symm.trans happ)

/-! ### The log -/

section Log

variable {e : CmdEvent gsmTypes} (hist : List (CmdEvent gsmTypes))

lemma dialProgress_skip (hstart : e.isDialStarted = false) (hprogress : e.isProgress = false) :
    dialProgress (e :: hist) = dialProgress hist := by
  simp [dialProgress, hstart, hprogress]

lemma dialProgress_keep (hstart : e.isDialStarted = false) (hprogress : e.isProgress = true) :
    dialProgress (e :: hist) = e :: dialProgress hist := by
  simp [dialProgress, hstart, hprogress]

lemma dialProgress_started : dialProgress (.app .dialStarted :: hist) = [] := by
  simp [dialProgress, CmdEvent.isDialStarted]

end Log

/-! ### The steps -/

/-- A step of the engine that goes on with the command in hand. -/
lemma Dialling.moved {cmd : GsmCmd} {done : List GsmCmd} {w w' : GsmWorld} {phase : CmdPhase}
    {events : List (CmdEvent gsmTypes)} (h : Dialling cmd done w)
    (hmove : PlainMove w phase events w')
    (hcmd : phase = .wait → (gsmProcess cmd).appStruct = some w'.app.atCmd)
    (hprogress : Progress cmd done (dialProgress (events ++ w.hist)) phase) :
    Dialling cmd done w' := by
  refine ⟨⟨hmove.loaded_eq.trans h.holds.loaded_eq, ?_⟩, h.suffix, fun hwait => ?_, ?_⟩
  · rw [hmove.cmdSend_eq, h.holds.cmdSend_eq]
  · exact hcmd (hmove.phase_eq.symm.trans hwait)
  · rw [hmove.hist_eq, hmove.phase_eq]
    exact hprogress

/-- A move of the engine leaves the log of its end, if it is one. -/
lemma mainCmdTask_move {w : GsmWorld} {phase : CmdPhase} {events : List (CmdEvent gsmTypes)}
    (hbusy : cmdTaskIsIdle w.phase = false)
    (hmove : PlainMove w phase events (cmdTask mainCode w)) :
    PlainMove w phase (if cmdTaskIsIdle phase then .app (.ended w.loaded phase) :: events
      else events) (mainCmdTask w) := by
  unfold mainCmdTask
  dsimp only
  rw [hbusy, hmove.phase_eq]
  cases hidle : cmdTaskIsIdle phase with
  | false => exact hmove
  | true =>
      refine ⟨hmove.phase_eq, ?_, hmove.cmdSend_eq, hmove.loaded_eq, hmove.cmdList_eq, hmove.frame⟩
      show _ :: (cmdTask mainCode w).hist = _
      rw [hmove.hist_eq]
      rfl

/-- **The engine goes on with the command in hand.** -/
theorem Dialling.mainCmdTask {cmd : GsmCmd} {done : List GsmCmd} {w : GsmWorld}
    (h : Dialling cmd done w) (hbusy : cmdTaskIsIdle w.phase = false) :
    Dialling cmd done (mainCmdTask w) := by
  obtain ⟨packet, happ, hplain⟩ := h.plain
  have hloaded := h.holds.loaded_eq
  have hprogress := h.progress
  have hstep := plainTask_step hplain hbusy
  have hatCmd : (Ampm.mainCmdTask w).app.atCmd = (cmdTask mainCode w).app.atCmd := by
    unfold Ampm.mainCmdTask
    dsimp only
    split_ifs <;> rfl
  cases hstep with
  | early hphase move =>
      have hmove := mainCmdTask_move hbusy move
      rw [hbusy] at hmove
      refine h.moved hmove (fun hwait => ?_) hprogress
      rcases hphase with hsend | hdelay
      · exact absurd (hsend.symm.trans hwait) nofun
      · exact absurd (hdelay.symm.trans hwait) nofun
  | sent hphase bytes hcmd move =>
      rw [hphase] at hprogress
      obtain ⟨tries, rest, hdone, heq⟩ := hprogress
      refine h.moved (mainCmdTask_move hbusy move) (fun _ => ?_) ⟨tries, rest, hdone, ?_⟩
      · rw [hatCmd, hcmd]
        exact happ
      · show dialProgress (.app (.tx bytes) :: .send w.loaded :: w.hist) = _
        rw [dialProgress_skip _ rfl rfl, dialProgress_keep _ rfl rfl, heq, hloaded]
        rfl
  | retry hphase move =>
      rw [hphase] at hprogress
      obtain ⟨tries, rest, hdone, heq⟩ := hprogress
      exact h.moved (mainCmdTask_move hbusy move) nofun ⟨tries + 1, rest, hdone, heq⟩
  | giveUp hphase move => exact h.moved (mainCmdTask_move hbusy move) nofun trivial
  | failed hphase move => exact h.moved (mainCmdTask_move hbusy move) nofun trivial
  | lapsed hphase move =>
      rw [hphase] at hprogress
      obtain ⟨tries, rest, hdone, heq⟩ := hprogress
      refine h.moved (mainCmdTask_move hbusy move) nofun ⟨tries, rest, hdone, ?_⟩
      exact (dialProgress_skip _ rfl rfl).trans heq
  | matched hphase res move =>
      rw [hphase] at hprogress
      obtain ⟨tries, rest, hdone, heq⟩ := hprogress
      refine h.moved (mainCmdTask_move hbusy move) nofun ⟨packet, tries, rest, happ, hdone, ?_⟩
      show dialProgress (.recv w.loaded res :: .app (.okFound packet) :: w.hist) = _
      rw [dialProgress_skip _ rfl rfl, dialProgress_keep _ rfl rfl, heq]
  | refused hphase res move =>
      rw [hphase] at hprogress
      obtain ⟨tries, rest, hdone, heq⟩ := hprogress
      refine h.moved (mainCmdTask_move hbusy move) nofun ⟨tries, rest, hdone, ?_⟩
      exact (dialProgress_skip _ rfl rfl).trans heq
  | waits hphase res hcmd move =>
      rw [hphase] at hprogress
      obtain ⟨tries, rest, hdone, heq⟩ := hprogress
      refine h.moved (mainCmdTask_move hbusy move) (fun _ => ?_) ⟨tries, rest, hdone, ?_⟩
      · rw [hatCmd, hcmd]
        exact happ
      · exact (dialProgress_skip _ rfl rfl).trans heq
  | succeeded hphase move =>
      rw [hphase] at hprogress
      obtain ⟨packet', tries, rest, happ', hdone, heq⟩ := hprogress
      refine h.moved (mainCmdTask_move hbusy move) nofun ?_
      show ChainDone (cmd :: done) (dialProgress (.app (.ended w.loaded .ok) :: w.hist))
      rw [dialProgress_keep _ rfl rfl, heq, hloaded]
      exact .cons cmd packet' tries happ' hdone

/-- **The engine goes on with the next command.** -/
theorem Dialling.next {cmd next : GsmCmd} {done : List GsmCmd} {w : GsmWorld}
    (h : Dialling cmd done w) (hphase : w.phase = .ok)
    (hnext : (gsmProcess cmd).next = some next) :
    Dialling next (cmd :: done) (Ampm.mainCmdTask w) := by
  have hidle : cmdTaskIsIdle w.phase = true := by rw [hphase]; rfl
  have hlink : w.cmdSend.next = some next := by rw [h.holds.cmdSend_eq]; exact hnext
  have htask : Ampm.mainCmdTask w = w.load gsmProcess next := by
    unfold Ampm.mainCmdTask
    rw [cmdTask_of_next mainCode hidle hlink, hidle]
    rfl
  have hprogress := h.progress
  rw [hphase] at hprogress
  rw [htask]
  refine ⟨⟨rfl, rfl⟩, suffix_next h.suffix hnext, nofun, 0, dialProgress w.hist, hprogress, ?_⟩
  exact dialProgress_skip _ rfl rfl

/-! ### The run -/

/-- While the dial-up runs, the engine is at a command of the chain. -/
def DialInv (w : GsmWorld) : Prop :=
  w.app.main.dialupPhase = .runing → ∃ cmd done, Dialling cmd done w

lemma Dialling.outside {cmd : GsmCmd} {done : List GsmCmd} {w : GsmWorld}
    (h : Dialling cmd done w) (o : Outside) : Dialling cmd done (w.outside o) :=
  ⟨h.holds.own _ _ _, h.suffix, h.atCmd_eq, h.progress⟩

lemma mainCmdTask_app (w : GsmWorld) : (mainCmdTask w).app = (cmdTask mainCode w).app := by
  unfold mainCmdTask
  dsimp only
  split_ifs <;> rfl

/-- The engine only ever resets the dial-up. -/
lemma mainCmdTask_dialupPhase (w : GsmWorld) :
    (mainCmdTask w).app.main.dialupPhase = w.app.main.dialupPhase ∨
      (mainCmdTask w).app.main.dialupPhase = .start := by
  rw [mainCmdTask_app]
  cases (cmdTask_moves w).main.phases with
  | stay task dialup => exact Or.inl dialup
  | idle task dialup => exact dialup

/-- An idle engine logs nothing but a load. -/
lemma mainCmdTask_idle_hist {w : GsmWorld} (hidle : cmdTaskIsIdle w.phase = true) :
    (mainCmdTask w).hist = w.hist ∨ ∃ name, (mainCmdTask w).hist = .load (some name) :: w.hist := by
  have hhist : (mainCmdTask w).hist = (cmdTask mainCode w).hist := by
    unfold mainCmdTask
    rw [hidle]
    rfl
  rw [hhist]
  have hstep := cmdTask_step mainCode w
  generalize cmdTask mainCode w = w' at hstep
  have hbusy : ∀ phase, w.phase = phase → cmdTaskIsIdle phase = true :=
    fun phase hphase => hphase ▸ hidle
  cases hstep with
  | loaded name rest => exact Or.inr ⟨name, rfl⟩
  | idle => exact Or.inl rfl
  | tooEarly hphase => rcases hphase with h | h <;> exact absurd (hbusy _ h) nofun
  | sent callback hphase => exact absurd (hbusy _ hphase) nofun
  | notSent hphase => exact absurd (hbusy _ hphase) nofun
  | retry hphase => exact absurd (hbusy _ hphase) nofun
  | giveUp hphase => exact absurd (hbusy _ hphase) nofun
  | failed hphase => exact absurd (hbusy _ hphase) nofun
  | notAwaited hphase => exact absurd (hbusy _ hphase) nofun
  | lapsed callback hphase => exact absurd (hbusy _ hphase) nofun
  | asked callback hphase => exact absurd (hbusy _ hphase) nofun
  | succeeded hphase => exact absurd (hbusy _ hphase) nofun

/-- All that `Ampm_GSM_DialUp` can do. -/
inductive DialUpMoves (w : GsmWorld) : GsmWorld → Prop
  | started (hphase : w.app.main.dialupPhase = .start) {w' : GsmWorld}
      (hrun : w'.app.main.dialupPhase = .runing) (hsend : w'.phase = .send)
      (h : Dialling .dialupCmdProcess0 [] w') : DialUpMoves w w'
  | rejected (hphase : w.app.main.dialupPhase = .start) : DialUpMoves w w
  | connected (hphase : w.app.main.dialupPhase = .runing) (hnext : w.cmdSend.next = none)
      (hok : w.phase = .ok) {w' : GsmWorld} (hidle : w'.phase = .ok)
      (hdone : w'.app.main.dialupPhase = .ok)
      (hhist : dialProgress w'.hist = dialProgress w.hist) : DialUpMoves w w'
  | failed (hphase : w.app.main.dialupPhase = .runing) {w' : GsmWorld}
      (hfail : w'.app.main.dialupPhase = .start ∨ w'.app.main.dialupPhase = .fail) :
      DialUpMoves w w'
  | waiting (hphase : w.app.main.dialupPhase = .runing) (herr : w.phase ≠ .error)
      (hnot : ¬ (w.cmdSend.next = none ∧ w.phase = .ok)) : DialUpMoves w w
  | done (hphase : w.app.main.dialupPhase = .ok ∨ w.app.main.dialupPhase = .fail) :
      DialUpMoves w w

lemma cmdCheckIsEmpty_iff {p : CmdProcess gsmTypes} :
    cmdCheckIsEmpty p = true ↔ p.next = none := Option.isNone_iff_eq_none

/-- Bytes that go out are no progress. -/
lemma commPutc_foldl (bytes : List UInt8) (w : GsmWorld) :
    dialProgress (bytes.foldl commPutc w).hist = dialProgress w.hist ∧
      (bytes.foldl commPutc w).phase = w.phase := by
  induction bytes generalizing w with
  | nil => exact ⟨rfl, rfl⟩
  | cons c rest ih =>
      obtain ⟨hhist, hphase⟩ := ih (commPutc w c)
      exact ⟨hhist.trans (dialProgress_skip _ rfl rfl), hphase⟩

/-- **`Ampm_GSM_DialUp`.** -/
theorem dialUp_moves (w : GsmWorld) : DialUpMoves w (dialUp w) := by
  unfold dialUp
  cases hphase : w.app.main.dialupPhase with
  | start =>
      dsimp only
      unfold issue sendAtCmd sendCmd
      cases hidle : cmdTaskIsIdle w.phase with
      | false => exact .rejected hphase
      | true =>
          have hfirst : [GsmCmd.dialupCmdProcess0] <:+ dialChain :=
            ⟨[.dialupCmdProcess4, .dialupCmdProcess3, .dialupCmdProcess2, .dialupCmdProcess1], rfl⟩
          refine .started hphase rfl rfl ⟨⟨rfl, rfl⟩, hfirst, nofun, 0, [], .nil, ?_⟩
          exact dialProgress_started _
  | runing =>
      dsimp only
      split_ifs with hdone herr htries
      · rw [cmdCheckIsEmpty_iff] at hdone
        obtain ⟨hhist, hkept⟩ := commPutc_foldl dummyPppPacket w
        exact .connected hphase hdone.1 hdone.2 (hkept.trans hdone.2) rfl hhist
      · exact .failed hphase (Or.inr rfl)
      · exact .failed hphase (Or.inl rfl)
      · rw [cmdCheckIsEmpty_iff] at hdone
        exact .waiting hphase herr hdone
  | ok => exact .done (Or.inl hphase)
  | fail => exact .done (Or.inr hphase)

/-- **An iteration keeps the invariant.** -/
theorem dialUpStep_inv (w : GsmWorld) (o : Outside) (h : DialInv w) : DialInv (dialUpStep w o) := by
  intro hrun
  have hrun' : (dialUp (w.outside o)).app.main.dialupPhase = .runing := by
    rcases mainCmdTask_dialupPhase (dialUp (w.outside o)) with heq | heq
    · exact heq.symm.trans hrun
    · exact absurd (heq.symm.trans hrun) nofun
  have hmoves := dialUp_moves (w.outside o)
  have hinv : (w.outside o).app.main.dialupPhase = .runing →
      ∃ cmd done, Dialling cmd done (w.outside o) := fun hphase => by
    obtain ⟨cmd, done, hdial⟩ := h hphase
    exact ⟨cmd, done, hdial.outside o⟩
  show ∃ cmd done, Dialling cmd done (mainCmdTask (dialUp (w.outside o)))
  generalize dialUp (w.outside o) = w' at hmoves hrun'
  cases hmoves with
  | started hphase hrun hsend hdial =>
      exact ⟨_, _, hdial.mainCmdTask (by rw [hsend]; rfl)⟩
  | rejected hphase => exact absurd (hphase.symm.trans hrun') nofun
  | connected hphase hnext hok hidle hdone hhist => exact absurd (hdone.symm.trans hrun') nofun
  | failed hphase hfail =>
      rcases hfail with hfail | hfail <;> exact absurd (hfail.symm.trans hrun') nofun
  | waiting hphase herr hnot =>
      obtain ⟨cmd, done, hdial⟩ := hinv hphase
      cases hidle : cmdTaskIsIdle (w.outside o).phase with
      | false => exact ⟨cmd, done, hdial.mainCmdTask hidle⟩
      | true =>
          have hok : (w.outside o).phase = .ok := by
            cases hp : (w.outside o).phase <;> rw [hp] at hidle herr <;> simp_all [cmdTaskIsIdle]
          cases hnext : (gsmProcess cmd).next with
          | none =>
              refine absurd ⟨?_, hok⟩ hnot
              rw [hdial.holds.cmdSend_eq]
              exact hnext
          | some next => exact ⟨next, _, hdial.next hok hnext⟩
  | done hphase => rcases hphase with hp | hp <;> exact absurd (hp.symm.trans hrun') nofun

/-- **The dial-up is only reported done after the whole chain.**  In every run of the dial-up
phase, the phase of the dial-up becomes `AMPM_GSM_DIALUP_OK` only if since it was last started all
five commands were sent in order, the answer of each was found, the last being `CONNECT`, and each
ended in `AMPM_CMD_OK`. -/
theorem dialUp_connected (start : GsmWorld) (hstart : start.app.main.dialupPhase = .start)
    (os : List Outside) (o : Outside)
    (hbefore : (run dialUpStep start os).app.main.dialupPhase ≠ .ok)
    (hafter : (dialUpStep (run dialUpStep start os) o).app.main.dialupPhase = .ok) :
    Connected (dialUpStep (run dialUpStep start os) o) := by
  have hinv : DialInv (run dialUpStep start os) :=
    run_invariant dialUpStep_inv os fun hrun => absurd (hstart.symm.trans hrun) nofun
  generalize run dialUpStep start os = w at hbefore hafter hinv
  have hok : (dialUp (w.outside o)).app.main.dialupPhase = .ok := by
    rcases mainCmdTask_dialupPhase (dialUp (w.outside o)) with heq | heq
    · exact heq.symm.trans hafter
    · exact absurd (heq.symm.trans hafter) nofun
  have hmoves := dialUp_moves (w.outside o)
  show ChainDone dialChain (dialProgress (mainCmdTask (dialUp (w.outside o))).hist)
  generalize dialUp (w.outside o) = w' at hmoves hok
  cases hmoves with
  | started hphase hrun hsend hdial => exact absurd (hrun.symm.trans hok) nofun
  | rejected hphase => exact absurd (hphase.symm.trans hok) nofun
  | connected hphase hnext hphaseOk hidle hdone hhist =>
      obtain ⟨cmd, done, hdial⟩ := hinv hphase
      have hprogress := (hdial.outside o).progress
      rw [hphaseOk, ← hhist] at hprogress
      have hlast : (gsmProcess cmd).next = none := by
        rw [(hdial.outside o).holds.cmdSend_eq] at hnext
        exact hnext
      rw [← suffix_last hdial.suffix hlast]
      have htask := mainCmdTask_idle_hist (w := w') (by rw [hidle]; rfl)
      rcases htask with heq | ⟨name, heq⟩
      · rw [heq]
        exact hprogress
      · rw [heq, dialProgress_skip _ rfl rfl]
        exact hprogress
  | failed hphase hfail =>
      rcases hfail with hfail | hfail <;> exact absurd (hfail.symm.trans hok) nofun
  | waiting hphase herr hnot => exact absurd (hphase.symm.trans hok) nofun
  | done hphase =>
      rcases hphase with hp | hp
      · exact absurd hp hbefore
      · exact absurd (hp.symm.trans hok) nofun

/-- A modem that answers every command, `200 * k` ticks after the start. -/
def answering (k : ℕ) : Outside :=
  { app := { gsmReset with rx := bytesOf "OK CONNECT" }
    clock := fun _ => (200 * k).toUInt32
    smsList_nodup := List.nodup_nil
    callList_nodup := List.nodup_nil }

/-- Four iterations for each command, and one that finds the last one done. -/
theorem dialUp_connected_answering :
    Connected (dialUpStep (run dialUpStep (engineAt .ampmCmdProcessAt .ok gsmReset)
      ((List.range 20).map answering)) (answering 20)) :=
  dialUp_connected _ rfl _ _ (by decide +kernel) (by decide +kernel)

end Ampm

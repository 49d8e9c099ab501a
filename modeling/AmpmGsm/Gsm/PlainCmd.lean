import AmpmGsm.Gsm.MainFrame

/-!
# Commands without a response to parse

A command that has no end callback and whose packet has no response to parse goes through the
phases of the engine and touches nothing but the matchers: what comes of it is its phase.

* `PlainCmd` — such a command is in hand.
* `PlainFrame` — nothing but the receive buffer, the matchers and the text sent has changed.
* `PlainStep`, `plainTask_step` — one call of `Ampm_Cmd_Task` until the command ends.
-/

namespace Ampm

/-- Nothing but the variables of the send and receive callbacks differs. -/
abbrev PlainFrame (s s' : GsmState) : Prop :=
  s' = { s with
    rx := s'.rx
    atCmd := s'.atCmd
    atCmdBuf := s'.atCmdBuf
    cmdOk := s'.cmdOk
    cmdFails := s'.cmdFails }

namespace PlainFrame

variable {s s' s'' : GsmState}

lemma refl (s : GsmState) : PlainFrame s s := rfl

lemma trans (h : PlainFrame s s') (h' : PlainFrame s' s'') : PlainFrame s s'' := by
  unfold PlainFrame at *
  rw [h] at h'
  exact h'

lemma main_eq (h : PlainFrame s s') : s'.main = s.main := by rw [h]

lemma smsList_eq (h : PlainFrame s s') : s'.smsList = s.smsList := by rw [h]

/-- The packets are the same but for the text that `common` sends. -/
lemma packet (h : PlainFrame s s') (p : GsmPacket) :
    (gsmPacket s' p).callback = (gsmPacket s p).callback ∧
      (gsmPacket s' p).sprintf = (gsmPacket s p).sprintf := by
  rw [h]
  cases p <;> exact ⟨rfl, rfl⟩

end PlainFrame

/-- The command in hand sends `packet`, and neither its packet nor itself has anything to do with
the answer. -/
structure PlainCmd (packet : GsmPacket) (w : GsmWorld) : Prop where
  send_eq : w.cmdSend.sendDataCallback = some .gsmSendCallback
  recv_eq : w.cmdSend.recvDataCallback = some .gsmRecvCallback
  end_eq : w.cmdSend.endDataCallback = none
  app_eq : w.cmdSend.appStruct = some packet
  callback_eq : (gsmPacket w.app packet).callback = none
  sprintf_or : (gsmPacket w.app packet).sprintf = none ∨
    (gsmPacket w.app packet).sprintf = some .dialupAtCallback0
  atCmd_eq : w.phase = .wait → w.app.atCmd = packet

/-- From `w` to `w'` the command in hand went to `phase`, and `events` were logged. -/
structure PlainMove (w : GsmWorld) (phase : CmdPhase) (events : List (CmdEvent gsmTypes))
    (w' : GsmWorld) : Prop where
  phase_eq : w'.phase = phase
  hist_eq : w'.hist = events ++ w.hist
  cmdSend_eq : w'.cmdSend = { w.cmdSend with retryNum := w'.cmdSend.retryNum }
  loaded_eq : w'.loaded = w.loaded
  cmdList_eq : w'.cmdList = w.cmdList
  frame : PlainFrame w.app w'.app

/-! ## The callbacks -/

lemma recvBytes_plain (bytes : List UInt8) (w : GsmWorld)
    (hcallback : (gsmPacket w.app w.app.atCmd).callback = none) :
    ∃ app, (recvBytes bytes w).2 =
        w.own app w.clock (recvEvents w.app.atCmd (recvBytes bytes w).1) ∧
      PlainFrame w.app app ∧ app.atCmd = w.app.atCmd := by
  induction bytes generalizing w with
  | nil => exact ⟨w.app, rfl, .refl _, rfl⟩
  | cons c rest ih =>
      have hparse : ∀ w' : GsmWorld, (gsmPacket w'.app w'.app.atCmd).callback = none →
          parseResponse w' c = w' := by
        intro w' hnone
        simp only [parseResponse, hnone, Option.isSome_none, Bool.false_eq_true, false_and,
          if_false]
      have hrec : ∀ app : GsmState, PlainFrame w.app app → app.atCmd = w.app.atCmd →
          ∃ app', (recvBytes rest (w.setApp app)).2 =
              w.own app' w.clock (recvEvents w.app.atCmd (recvBytes rest (w.setApp app)).1) ∧
            PlainFrame w.app app' ∧ app'.atCmd = w.app.atCmd := by
        intro app hframe hcmd
        obtain ⟨app', heq, hframe', hcmd'⟩ := ih (w.setApp app) (by
          show (gsmPacket app app.atCmd).callback = none
          rw [(hframe.packet _).1, hcmd]
          exact hcallback)
        refine ⟨app', ?_, hframe.trans hframe', hcmd'.trans hcmd⟩
        rw [heq]
        show CmdWorld.own _ _ _ _ = CmdWorld.own _ _ _ _
        rw [CmdWorld.setApp_app, hcmd]
        rfl
      unfold recvBytes
      dsimp only
      rw [hparse (w.setApp { w.app with rx := rest }) hcallback]
      split_ifs
      · exact ⟨_, rfl, rfl, rfl⟩
      · exact ⟨_, rfl, rfl, rfl⟩
      · exact hrec _ rfl rfl
      · exact hrec _ rfl rfl

lemma afterRecv_plain {w : GsmWorld}
    (hcallback : (gsmPacket w.app w.app.atCmd).callback = none) :
    (afterRecv (gsmRecvCallback w)).app.atCmd = w.app.atCmd ∧
      ∃ res, PlainMove w .delay [.recv w.loaded res, .app (.okFound w.app.atCmd)]
          (afterRecv (gsmRecvCallback w)) ∨
        PlainMove w .resend [.recv w.loaded res] (afterRecv (gsmRecvCallback w)) ∨
        PlainMove w w.phase [.recv w.loaded res] (afterRecv (gsmRecvCallback w)) := by
  obtain ⟨app, heq, hframe, hcmd⟩ := recvBytes_plain w.app.rx w hcallback
  have hret : (gsmRecvCallback w).1 = 1 ∨ (gsmRecvCallback w).1 = 2 ∨ (gsmRecvCallback w).1 = 3 :=
    recvBytes_res w.app.rx w
  change (gsmRecvCallback w).2 =
    w.own app w.clock (recvEvents w.app.atCmd (gsmRecvCallback w).1) at heq
  unfold afterRecv
  generalize gsmRecvCallback w = r at heq hret
  obtain ⟨res, w'⟩ := r
  simp only at heq hret
  subst heq
  rcases hret with rfl | rfl | rfl
  · exact ⟨hcmd, _, Or.inr (Or.inl ⟨rfl, rfl, rfl, rfl, rfl, hframe⟩)⟩
  · exact ⟨hcmd, _, Or.inr (Or.inr ⟨rfl, rfl, rfl, rfl, rfl, hframe⟩)⟩
  · exact ⟨hcmd, _, Or.inl ⟨rfl, rfl, rfl, rfl, rfl, hframe⟩⟩

lemma initMatchers_plain {packet : AtCmdPacket} (hcallback : packet.callback = none)
    (timeout : UInt16) (s : GsmState) :
    PlainFrame s (initMatchers packet timeout s) ∧
      (initMatchers packet timeout s).atCmd = s.atCmd := by
  unfold initMatchers
  rw [hcallback]
  exact ⟨rfl, rfl⟩

lemma closeSend_plain {packet : AtCmdPacket} (hcallback : packet.callback = none) (w : GsmWorld)
    (text : List UInt8) :
    ∃ app bytes, closeSend packet w text = w.own app w.clock [.tx bytes] ∧
      PlainFrame w.app app ∧ app.atCmd = w.app.atCmd :=
  ⟨_, _, rfl, initMatchers_plain hcallback w.cmdSend.timeout w.app⟩

lemma gsmSendCallback_plain {w : GsmWorld} {packet : GsmPacket} (h : PlainCmd packet w) :
    ∃ app bytes, gsmSendCallback w = w.own app w.clock [.tx bytes] ∧ PlainFrame w.app app ∧
      app.atCmd = packet := by
  have hopen : PlainFrame w.app (openSend w packet).app := rfl
  rcases h.sprintf_or with hnone | hdial
  · rw [gsmSendCallback_fixed h.app_eq hnone]
    obtain ⟨app, bytes, heq, hframe, hcmd⟩ := closeSend_plain h.callback_eq (openSend w packet)
      ((gsmPacket w.app packet).command.getD [])
    exact ⟨app, bytes, heq, hopen.trans hframe, hcmd⟩
  · rw [gsmSendCallback_formatted h.app_eq hdial, closeFormatted]
    obtain ⟨app, bytes, heq, hframe, hcmd⟩ := closeSend_plain h.callback_eq
      ((gsmSprintf .dialupAtCallback0 (openSend w packet)).setApp
        { (gsmSprintf .dialupAtCallback0 (openSend w packet)).app with
          atCmdBuf := (gsmSprintf .dialupAtCallback0 (openSend w packet)).app.atCmdBuf.take 255 })
      ((gsmSprintf .dialupAtCallback0 (openSend w packet)).app.atCmdBuf.take 255)
    refine ⟨app, bytes, heq, ?_, hcmd⟩
    have htext : PlainFrame w.app ((gsmSprintf .dialupAtCallback0 (openSend w packet)).setApp
        { (gsmSprintf .dialupAtCallback0 (openSend w packet)).app with
          atCmdBuf :=
            (gsmSprintf .dialupAtCallback0 (openSend w packet)).app.atCmdBuf.take 255 }).app := rfl
    exact htext.trans hframe

/-! ## The engine -/

/-- One call of `Ampm_Cmd_Task` on such a command, before it has ended. -/
inductive PlainStep (packet : GsmPacket) (w w' : GsmWorld) : Prop
  | early (hphase : w.phase = .send ∨ w.phase = .delay) (move : PlainMove w w.phase [] w')
  | sent (hphase : w.phase = .send) (bytes : List UInt8) (hcmd : w'.app.atCmd = packet)
      (move : PlainMove w .wait [.app (.tx bytes), .send w.loaded] w')
  | retry (hphase : w.phase = .resend) (move : PlainMove w .send [] w')
  | giveUp (hphase : w.phase = .resend) (move : PlainMove w .gotoError [] w')
  | failed (hphase : w.phase = .gotoError) (move : PlainMove w .error [] w')
  | lapsed (hphase : w.phase = .wait) (move : PlainMove w .resend [.timeout w.loaded] w')
  | matched (hphase : w.phase = .wait) (res : UInt8)
      (move : PlainMove w .delay [.recv w.loaded res, .app (.okFound packet)] w')
  | refused (hphase : w.phase = .wait) (res : UInt8)
      (move : PlainMove w .resend [.recv w.loaded res] w')
  | waits (hphase : w.phase = .wait) (res : UInt8) (hcmd : w'.app.atCmd = packet)
      (move : PlainMove w .wait [.recv w.loaded res] w')
  | succeeded (hphase : w.phase = .delay) (move : PlainMove w .ok [] w')

lemma PlainCmd.moved {packet : GsmPacket} {w w' : GsmWorld} {phase : CmdPhase}
    {events : List (CmdEvent gsmTypes)} (h : PlainCmd packet w)
    (hmove : PlainMove w phase events w') (hcmd : phase = .wait → w'.app.atCmd = packet) :
    PlainCmd packet w' := by
  obtain ⟨hcallback, hsprintf⟩ := hmove.frame.packet packet
  refine ⟨?_, ?_, ?_, ?_, hcallback.trans h.callback_eq, hsprintf ▸ h.sprintf_or, ?_⟩
  · rw [hmove.cmdSend_eq]
    exact h.send_eq
  · rw [hmove.cmdSend_eq]
    exact h.recv_eq
  · rw [hmove.cmdSend_eq]
    exact h.end_eq
  · rw [hmove.cmdSend_eq]
    exact h.app_eq
  · exact fun hwait => hcmd (hmove.phase_eq.symm.trans hwait)

/-- The call keeps the command in hand. -/
lemma PlainStep.keeps {packet : GsmPacket} {w w' : GsmWorld} (h : PlainCmd packet w)
    (hstep : PlainStep packet w w') : PlainCmd packet w' := by
  cases hstep with
  | early hphase move =>
      refine h.moved move fun hwait => ?_
      rcases hphase with hsend | hdelay
      · exact absurd (hsend.symm.trans hwait) nofun
      · exact absurd (hdelay.symm.trans hwait) nofun
  | sent hphase bytes hcmd move => exact h.moved move fun _ => hcmd
  | retry hphase move => exact h.moved move nofun
  | giveUp hphase move => exact h.moved move nofun
  | failed hphase move => exact h.moved move nofun
  | lapsed hphase move => exact h.moved move nofun
  | matched hphase res move => exact h.moved move nofun
  | refused hphase res move => exact h.moved move nofun
  | waits hphase res hcmd move => exact h.moved move fun _ => hcmd
  | succeeded hphase move => exact h.moved move nofun

/-- **The engine on a plain command.** -/
theorem plainTask_step {packet : GsmPacket} {w : GsmWorld} (h : PlainCmd packet w)
    (hbusy : cmdTaskIsIdle w.phase = false) : PlainStep packet w (cmdTask mainCode w) := by
  have hstep := cmdTask_step mainCode w
  generalize cmdTask mainCode w = w' at hstep
  cases hstep with
  | tooEarly hphase hexp => exact .early hphase ⟨rfl, rfl, rfl, rfl, rfl, rfl⟩
  | sent callback hphase hexp hcb =>
      have hlog : PlainCmd packet (w.checkTask.log (.send w.loaded)) :=
        ⟨h.send_eq, h.recv_eq, h.end_eq, h.app_eq, h.callback_eq, h.sprintf_or, h.atCmd_eq⟩
      obtain ⟨app, bytes, heq, hframe, hcmd⟩ := gsmSendCallback_plain hlog
      show PlainStep packet w (afterSend (gsmSendCallback (w.checkTask.log (.send w.loaded))))
      rw [heq]
      refine .sent hphase bytes hcmd ⟨rfl, rfl, ?_, ?_, ?_, hframe⟩
      · simp [afterSend]
      · simp [afterSend]
      · simp [afterSend]
  | notSent hphase hexp hcb => exact absurd (h.send_eq.symm.trans hcb) (Option.some_ne_none _)
  | retry hphase hnum => exact .retry hphase ⟨rfl, rfl, rfl, rfl, rfl, rfl⟩
  | giveUp hphase hnum => exact .giveUp hphase ⟨rfl, rfl, rfl, rfl, rfl, rfl⟩
  | failed hphase =>
      rw [cmdTaskEnd_of_none h.end_eq]
      exact .failed hphase ⟨rfl, rfl, rfl, rfl, rfl, rfl⟩
  | notAwaited hphase hcb => exact absurd (h.recv_eq.symm.trans hcb) (Option.some_ne_none _)
  | lapsed callback hphase hexp hcb => exact .lapsed hphase ⟨rfl, rfl, rfl, rfl, rfl, rfl⟩
  | asked callback hphase hexp hcb =>
      have hcmd := h.atCmd_eq hphase
      have hnone : (gsmPacket w.checkTask.app w.checkTask.app.atCmd).callback = none := by
        show (gsmPacket w.app w.app.atCmd).callback = none
        rw [hcmd]
        exact h.callback_eq
      obtain ⟨hkept, res, hmoves⟩ := afterRecv_plain hnone
      show PlainStep packet w (afterRecv (gsmRecvCallback w.checkTask))
      have hback : ∀ {phase events w''}, PlainMove w.checkTask phase events w'' →
          PlainMove w phase events w'' := fun hmove =>
        ⟨hmove.phase_eq, hmove.hist_eq, hmove.cmdSend_eq, hmove.loaded_eq, hmove.cmdList_eq,
          hmove.frame⟩
      rcases hmoves with hmove | hmove | hmove
      · rw [show w.checkTask.app.atCmd = packet from hcmd] at hmove
        exact .matched hphase res (hback hmove)
      · exact .refused hphase res (hback hmove)
      · rw [show w.checkTask.phase = .wait from hphase] at hmove
        exact .waits hphase res (hkept.trans hcmd) (hback hmove)
  | succeeded hphase hexp =>
      rw [cmdTaskEnd_of_none (w := w.checkTask) h.end_eq]
      exact .succeeded hphase ⟨rfl, rfl, rfl, rfl, rfl, rfl⟩
  | loaded name rest hphase hnext => exact absurd (hbusy.symm.trans hphase) Bool.false_ne_true
  | idle hphase hnext => exact absurd (hbusy.symm.trans hphase) Bool.false_ne_true

end Ampm

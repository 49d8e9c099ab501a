import AmpmGsm.Gsm.CallTask
import AmpmGsm.Gsm.Dispatch
import AmpmGsm.Lib.Runs

/-!
# Where the parsers of answers store

`ampm_gsm_common.c`, `ampm_gsm_sms.c`, `ampm_gsm_call.c` and `ampm_gsm_startup.c`: each of the five
functions that `ampm_AtCallBackParser` hands an answer to has a limit of its own, or none.  The line
of `AT+CLCC` that one of them keeps is scanned by an end callback, into an array on the stack and
from there into one that is half as long.

* `AnswerArray`, `responseStores`, `scanStores` — the arrays, and the indices of the stores.
* `parseResponse_frame`, `gsmVoiceCallCheckStateEndCallback_frame` — nothing else is stored.
* `AnswerInv` — the invariant: how far the five functions have come.
* **`answerStores_within_iff`** — the runs all of whose stores are inside the arrays.
-/

namespace Ampm

open Runs

/-! ## Arrays -/

/-- The arrays. -/
inductive AnswerArray
  | csqBuff | serviceCenterNumber | listOfCurrentCall | gsmImeiBuf | gsmSimCidBuf
  | incomingCallPhoneNo | phoneNumber
  deriving DecidableEq

namespace AnswerArray

/-- Their sizes. -/
def size : AnswerArray → ℕ
  | csqBuff => 16
  | serviceCenterNumber => 16
  | listOfCurrentCall => 128
  | gsmImeiBuf => 18
  | gsmSimCidBuf => 32
  | incomingCallPhoneNo => 16
  | phoneNumber => 32

/-- What they hold; `phoneNumber` is on the stack, and gone. -/
def held (s : GsmState) : AnswerArray → Option (ℕ → UInt8)
  | csqBuff => some s.csqBuff
  | serviceCenterNumber => some s.serviceCenterNumber
  | listOfCurrentCall => some s.listOfCurrentCall
  | gsmImeiBuf => some s.main.gsmImeiBuf
  | gsmSimCidBuf => some s.main.gsmSimCidBuf
  | incomingCallPhoneNo => some s.incomingCallPhoneNo
  | phoneNumber => none

end AnswerArray

/-- Stores, each with the array that it is meant for. -/
abbrev AnswerStores := List (AnswerArray × ℕ)

/-- All of them are inside the arrays. -/
def AnswerStores.Within (st : AnswerStores) : Prop := ∀ a ∈ st, a.2 < a.1.size

instance decidableAnswerStores (st : AnswerStores) : Decidable st.Within :=
  inferInstanceAs (Decidable (∀ a ∈ st, a.2 < a.1.size))

/-- The arrays are the same but for the stores. -/
def OnlyStores (st : AnswerStores) (s s' : GsmState) : Prop :=
  ∀ array i, (array, i) ∉ st →
    (array.held s').map (fun content => content i) = (array.held s).map (fun content => content i)

/-! ## Stores -/

/-- `len` of `Ampm_GetServiceCenterNumber`. -/
def centerLen (cnt : UInt16) (s : GsmState) : UInt8 := if cnt = 0 then 0 else s.serviceCenterLen

/-- `len` of `Ampm_GetListOfCurrentCall`. -/
def listLen (cnt : UInt16) (s : GsmState) : UInt8 := if cnt = 0 then 0 else s.listOfCurrentCallLen

/-- The stores of the function that parses an answer. -/
def responseStores (f : GsmRespCb) (cnt : UInt16) (c : UInt8) (s : GsmState) : AnswerStores :=
  match f with
  | .gsmGetCsq => [(.csqBuff, cnt.toNat)]
  | .getServiceCenterNumber =>
      if isDigit c then
        [(.serviceCenterNumber, (centerLen cnt s).toNat),
          (.serviceCenterNumber, (centerLen cnt s + 1).toNat)]
      else []
  | .getListOfCurrentCall =>
      [(.listOfCurrentCall, (listLen cnt s).toNat),
        (.listOfCurrentCall, (listLen cnt s + 1).toNat)]
  | .gsmGetImei => if cnt < 18 ∧ isDigit c then [(.gsmImeiBuf, cnt.toNat)] else []
  | .gsmGetSimCid => if cnt < 30 ∧ c ≥ 48 then [(.gsmSimCidBuf, cnt.toNat)] else []
  | _ => []

/-- The end callback scans the line of `AT+CLCC`. -/
def scansClcc (phase : CmdPhase) (s : GsmState) : Bool :=
  s.call.timeout ≠ 0 && (phase = .ok && s.gotListOfCurrentCall)

/-- The stores of the end callback: those of `sscanf`, and those of `memcpy`. -/
def scanStores (phase : CmdPhase) (s : GsmState) : AnswerStores :=
  if scansClcc phase s then
    (List.range (clccPhoneNumber s).length).map (AnswerArray.phoneNumber, ·) ++
      if s.voiceCall = some .incomingCall then
        (List.range 32).map (AnswerArray.incomingCallPhoneNo, ·)
      else []
  else []

/-- The function that a byte of an answer goes to, and its count. -/
def answerDispatch (w : GsmWorld) : Option (GsmRespCb × UInt16) :=
  let packet := gsmPacket w.app w.app.atCmd
  if packet.callback.isSome ∧ packet.response.isSome then
    (strDispatch (w.clock 0) w.app.callBackParser).bind fun d =>
      w.app.atProcessCmd.1.map fun f => (f, d.2)
  else none

/-- The stores that a byte of an answer causes. -/
def answerByteStores (w : GsmWorld) (c : UInt8) : AnswerStores :=
  match answerDispatch w with
  | none => []
  | some (f, cnt) => responseStores f cnt c w.app

/-! ## Nothing else is stored -/

section Frame

variable {st : AnswerStores} {s s' s'' : GsmState}

lemma OnlyStores.refl : OnlyStores st s s := fun _ _ _ => rfl

lemma OnlyStores.of_held (h : ∀ array, AnswerArray.held s' array = AnswerArray.held s array) :
    OnlyStores st s s' := fun array i _ => by rw [h array]

lemma OnlyStores.trans (h : OnlyStores st s s') (h' : OnlyStores st s' s'') :
    OnlyStores st s s'' := fun array i hi => (h' array i hi).trans (h array i hi)

/-- Stores to one array. -/
lemma onlyStores_of_array (array : AnswerArray) {content content' : ℕ → UInt8}
    (hbefore : array.held s = some content) (hafter : array.held s' = some content')
    (hother : ∀ array' ≠ array, array'.held s' = array'.held s)
    (hsame : ∀ i, (array, i) ∉ st → content' i = content i) : OnlyStores st s s' := by
  intro array' i hi
  by_cases heq : array' = array
  · rw [heq] at hi ⊢
    rw [hbefore, hafter]
    exact congrArg some (hsame i hi)
  · rw [hother array' heq]

lemma ne_of_store {array : AnswerArray} {i j : ℕ} (hj : (array, j) ∈ st) (hi : (array, i) ∉ st) :
    i ≠ j := fun heq => hi (heq ▸ hj)

/-- A store that has to be listed first. -/
lemma update_of_store {array : AnswerArray} {content : ℕ → UInt8} {v : UInt8} {i j : ℕ}
    (hi : (array, i) ∉ (array, j) :: st) : Function.update content j v i = content i :=
  Function.update_of_ne (ne_of_store List.mem_cons_self hi) _ _

/-- Two of them. -/
lemma update_of_stores {array : AnswerArray} {content : ℕ → UInt8} {u v : UInt8} {i j k : ℕ}
    (hi : (array, i) ∉ [(array, j), (array, k)]) :
    Function.update (Function.update content j u) k v i = content i :=
  (Function.update_of_ne (ne_of_store (List.mem_cons_of_mem _ List.mem_cons_self) hi) _ _).trans
    (update_of_store hi)

variable (cnt : UInt16) (c : UInt8) (s : GsmState)

lemma gsmGetCsq_stores : OnlyStores [(.csqBuff, cnt.toNat)] s (gsmGetCsq cnt c s).2 := by
  unfold gsmGetCsq
  split_ifs
  · refine onlyStores_of_array .csqBuff rfl rfl (fun array hne => ?_) fun _ => update_of_store
    cases array <;> first | rfl | exact absurd rfl hne
  · refine onlyStores_of_array .csqBuff rfl rfl (fun array hne => ?_) fun _ => update_of_store
    cases array <;> first | rfl | exact absurd rfl hne

lemma getServiceCenterNumber_stores :
    OnlyStores (responseStores .getServiceCenterNumber cnt c s) s
      (getServiceCenterNumber cnt c s).2 := by
  have hreset : ∀ array, AnswerArray.held
      (if cnt = 0 then { s with serviceCenterLen := 0 } else s) array = array.held s := by
    intro array
    split_ifs
    · cases array <;> rfl
    · rfl
  have hlen : (if cnt = 0 then { s with serviceCenterLen := 0 } else s).serviceCenterLen =
      centerLen cnt s := by
    unfold centerLen
    split_ifs <;> rfl
  unfold getServiceCenterNumber responseStores
  dsimp only
  generalize (if cnt = 0 then { s with serviceCenterLen := 0 } else s) = s₀ at hreset hlen ⊢
  refine (OnlyStores.of_held hreset).trans ?_
  rw [← hlen]
  by_cases hdigit : isDigit c = true
  · have hnot : c ≠ 43 := by
      rintro rfl
      exact absurd hdigit (by decide)
    rw [if_pos hdigit, if_pos (Or.inl hdigit), if_pos hnot]
    refine onlyStores_of_array .serviceCenterNumber rfl rfl (fun array hne => ?_) fun _ =>
      update_of_stores
    cases array <;> first | rfl | exact absurd rfl hne
  · rw [if_neg hdigit]
    by_cases hplus : c = 43
    · rw [if_pos (Or.inr hplus), if_neg (not_not.mpr hplus)]
      exact .refl
    · rw [if_neg (not_or.mpr ⟨hdigit, hplus⟩)]
      split_ifs <;> exact .of_held fun array => by cases array <;> rfl

lemma getListOfCurrentCall_stores :
    OnlyStores (responseStores .getListOfCurrentCall cnt c s) s
      (getListOfCurrentCall cnt c s).2 := by
  unfold getListOfCurrentCall
  dsimp only
  rw [← listLen]
  split_ifs
  all_goals
    refine onlyStores_of_array .listOfCurrentCall rfl rfl (fun array hne => ?_) fun _ =>
      update_of_stores
    cases array <;> first | rfl | exact absurd rfl hne

lemma gsmGetImei_stores :
    OnlyStores (responseStores .gsmGetImei cnt c s) s (gsmGetImei cnt c s).2 := by
  unfold gsmGetImei responseStores
  dsimp only
  by_cases hcnt : cnt ≥ 18
  · rw [if_pos hcnt]
    exact .refl
  · by_cases hdigit : isDigit c = true
    · rw [if_neg hcnt, if_pos hdigit, if_pos ⟨UInt16.not_le.mp hcnt, hdigit⟩]
      refine onlyStores_of_array .gsmImeiBuf rfl rfl (fun array hne => ?_) fun _ => update_of_store
      cases array <;> first | rfl | exact absurd rfl hne
    · rw [if_neg hcnt, if_neg hdigit]
      exact .refl

lemma gsmGetSimCid_stores :
    OnlyStores (responseStores .gsmGetSimCid cnt c s) s (gsmGetSimCid cnt c s).2 := by
  unfold gsmGetSimCid responseStores
  dsimp only
  by_cases hcnt : cnt ≥ 30
  · rw [if_pos hcnt]
    exact .refl
  · by_cases hchar : c ≥ 48
    · rw [if_neg hcnt, if_pos hchar, if_pos ⟨UInt16.not_le.mp hcnt, hchar⟩]
      refine onlyStores_of_array .gsmSimCidBuf rfl rfl (fun array hne => ?_) fun _ =>
        update_of_store
      cases array <;> first | rfl | exact absurd rfl hne
    · rw [if_neg hcnt, if_neg hchar]
      exact .refl

/-- **The functions store nothing else.** -/
lemma gsmResponse_stores (f : GsmRespCb) :
    OnlyStores (responseStores f cnt c s) s (gsmResponse f cnt c s).2 := by
  cases f with
  | gsmGetCsq => exact gsmGetCsq_stores cnt c s
  | getServiceCenterNumber => exact getServiceCenterNumber_stores cnt c s
  | getListOfCurrentCall => exact getListOfCurrentCall_stores cnt c s
  | gsmGetImei => exact gsmGetImei_stores cnt c s
  | gsmGetSimCid => exact gsmGetSimCid_stores cnt c s
  | getCeer =>
      simp only [gsmResponse, getCeer]
      split_ifs <;> exact .of_held fun array => by cases array <;> rfl
  | mainSwithToIdle => exact .of_held fun array => by cases array <;> rfl
  | gsmGetAti =>
      obtain ⟨ati, cmps, script, heq⟩ := gsmGetAti_main cnt c s
      rw [gsmResponse, heq]
      exact .of_held fun array => by cases array <;> rfl

/-- **A byte stores nothing else.** -/
theorem parseResponse_frame (w : GsmWorld) :
    OnlyStores (answerByteStores w c) w.app (parseResponse w c).app := by
  unfold parseResponse answerByteStores answerDispatch
  dsimp only
  split_ifs with hparses
  · have hhandled := strComnandParser_dispatch (w.clock 0) [w.app.atProcessCmd.2]
      atProcessCallback0 w.app.callBackParser w.app.lastChar c w.app
    refine OnlyStores.trans ?_ (.of_held (s := (strComnandParser (w.clock 0)
      [w.app.atProcessCmd.2] atProcessCallback0 w.app.callBackParser w.app.lastChar c w.app).2.2)
      fun array => by cases array <;> rfl)
    rw [hhandled]
    cases strDispatch (w.clock 0) w.app.callBackParser with
    | none => exact .refl
    | some d =>
        unfold atProcessCallback0
        dsimp only [Option.bind]
        cases w.app.atProcessCmd.1 with
        | none => exact .refl
        | some f => exact gsmResponse_stores d.2 c w.app f
  · exact .refl

variable {cnt c s}

/-- The arrays and the parser are left alone. -/
structure AnswersKept (s s' : GsmState) : Prop where
  held_eq : ∀ array, AnswerArray.held s' array = AnswerArray.held s array
  parser_eq : s'.callBackParser = s.callBackParser
  process_eq : s'.atProcessCmd = s.atProcessCmd
  len_eq : s'.listOfCurrentCallLen = s.listOfCurrentCallLen

namespace AnswersKept

variable {w : GsmWorld}

lemma refl : AnswersKept s s := ⟨fun _ => rfl, rfl, rfl, rfl⟩

lemma trans (h : AnswersKept s s') (h' : AnswersKept s' s'') : AnswersKept s s'' :=
  ⟨fun array => (h'.held_eq array).trans (h.held_eq array), h'.parser_eq.trans h.parser_eq,
    h'.process_eq.trans h.process_eq, h'.len_eq.trans h.len_eq⟩

end AnswersKept

lemma setVoiceCall_answers (w : GsmWorld) (call : Call) :
    AnswersKept w.app (setVoiceCall w call).app := by
  unfold setVoiceCall
  cases w.app.voiceCall with
  | none => exact .refl
  | some pointer =>
      cases pointer with
      | incomingCall => exact ⟨fun array => by cases array <;> rfl, rfl, rfl, rfl⟩
      | call address => exact ⟨fun array => by cases array <;> rfl, rfl, rfl, rfl⟩

lemma loadThenRespond_answers (w : GsmWorld) (cmd : GsmCmd) (response : CallResponse) :
    AnswersKept w.app (loadThenRespond w cmd response).app :=
  setVoiceCall_answers (sendAtCmdNow w cmd) _

lemma checkCallState_answers (w : GsmWorld) : AnswersKept w.app (checkCallState w).2.app := by
  unfold checkCallState
  dsimp only
  split
  · exact ⟨fun array => by cases array <;> rfl, rfl, rfl, rfl⟩
  · exact ⟨fun array => by cases array <;> rfl, rfl, rfl, rfl⟩
  · split_ifs
    · exact (setVoiceCall_answers w _).trans ⟨fun array => by cases array <;> rfl, rfl, rfl, rfl⟩
    · exact .refl
  · exact .refl
  · exact .refl

lemma checkCallAction_answers (w : GsmWorld) : AnswersKept w.app (checkCallAction w).app := by
  have htimed (main : MainVars) (himei : main.gsmImeiBuf = w.app.main.gsmImeiBuf)
      (hcid : main.gsmSimCidBuf = w.app.main.gsmSimCidBuf) :
      AnswersKept w.app (w.ticked.setMain main).app :=
    ⟨fun array => by cases array <;> first | rfl | exact congrArg some ‹_›, rfl, rfl, rfl⟩
  unfold checkCallAction
  dsimp only
  split
  · exact .refl
  · split_ifs
    · refine AnswersKept.trans ?_ (loadThenRespond_answers _ _ _)
      exact htimed _ rfl rfl
    · exact loadThenRespond_answers _ _ _
    · exact htimed _ rfl rfl
    · exact .refl
  · split_ifs
    · exact loadThenRespond_answers _ _ _
    · exact .refl
  · split_ifs
    · refine AnswersKept.trans ?_ (loadThenRespond_answers _ _ _)
      exact htimed _ rfl rfl
    · exact loadThenRespond_answers _ _ _
    · exact htimed _ rfl rfl
    · exact .refl
  · split_ifs
    · exact .refl
    · exact .refl
  · exact loadThenRespond_answers _ _ _

lemma checkCallDone_answers (w : GsmWorld) : AnswersKept w.app (checkCallDone w).2.app :=
  (checkCallAction_answers w).trans ⟨fun array => by cases array <;> rfl, rfl, rfl, rfl⟩

/-- The variables behind the copy of the number. -/
def copied (s : GsmState) : GsmState := { s with incomingCallPhoneNo := copyPhoneNumber s }

lemma checkCallState_done_answers {w₀ : GsmState} {w : GsmWorld} (h : AnswersKept w₀ w.app)
    (call : Call) :
    AnswersKept w₀ (if (checkCallState (setVoiceCall w call)).1 then
      ((1 : UInt8), (checkCallState (setVoiceCall w call)).2)
      else checkCallDone (checkCallState (setVoiceCall w call)).2).2.app := by
  have hstate := h.trans ((setVoiceCall_answers w call).trans (checkCallState_answers _))
  split_ifs
  · exact hstate
  · exact hstate.trans (checkCallDone_answers _)

/-- **The end callback** copies the number, and leaves everything else alone. -/
lemma gsmVoiceCallCheckStateEndCallback_answers (phase : CmdPhase) (w : GsmWorld) :
    AnswersKept (if scansClcc phase w.app then copied w.app else w.app)
      (gsmVoiceCallCheckStateEndCallback phase w).2.app := by
  unfold gsmVoiceCallCheckStateEndCallback scansClcc
  dsimp only
  by_cases htimeout : w.app.call.timeout = 0
  · rw [if_pos htimeout, if_neg (by simp [htimeout])]
    exact setVoiceCall_answers w _
  · rw [if_neg htimeout]
    by_cases hok : phase = .ok ∧ w.app.gotListOfCurrentCall = true
    · rw [if_pos hok, if_pos (by simp [htimeout, hok])]
      refine checkCallState_done_answers ?_ _
      exact ⟨fun array => by cases array <;> rfl, rfl, rfl, rfl⟩
    · rw [if_neg hok, if_neg (by simpa [htimeout] using hok)]
      split_ifs
      · exact .refl
      · exact checkCallDone_answers w

/-- **It stores nothing else.** -/
theorem gsmVoiceCallCheckStateEndCallback_frame (phase : CmdPhase) (w : GsmWorld) :
    OnlyStores (scanStores phase w.app) w.app
      (gsmVoiceCallCheckStateEndCallback phase w).2.app := by
  refine OnlyStores.trans ?_
    (.of_held (gsmVoiceCallCheckStateEndCallback_answers phase w).held_eq)
  unfold scanStores
  by_cases hscans : scansClcc phase w.app = true
  · rw [if_pos hscans, if_pos hscans]
    refine onlyStores_of_array .incomingCallPhoneNo rfl rfl (fun array hne => ?_)
      fun i hi => ?_
    · cases array <;> first | rfl | exact absurd rfl hne
    · by_cases hcall : w.app.voiceCall = some .incomingCall
      · rw [if_pos hcall] at hi
        have hout : ¬ i < 32 := fun hlt => hi (List.mem_append_right _
          (List.mem_map_of_mem (List.mem_range.mpr hlt)))
        exact if_neg fun h => hout h.2
      · exact if_neg fun h => hcall h.1
  · rw [if_neg hscans, if_neg hscans]
    exact .refl

end Frame

/-! ## The stores outside -/

/-- A byte behind sixteen that ended no `+CSQ:` line. -/
def SeventeenthOfCsq (d : GsmRespCb × UInt16) : Prop := d = (.gsmGetCsq, 16)

/-- The sixteenth digit of a service centre's number. -/
def SixteenthOfCenter (d : GsmRespCb × UInt16) (c : UInt8) (s : GsmState) : Prop :=
  d.1 = .getServiceCenterNumber ∧ isDigit c = true ∧ 15 ≤ (centerLen d.2 s).toNat

instance (d : GsmRespCb × UInt16) : Decidable (SeventeenthOfCsq d) :=
  inferInstanceAs (Decidable (_ = _))

instance (d : GsmRespCb × UInt16) (c : UInt8) (s : GsmState) :
    Decidable (SixteenthOfCenter d c s) := inferInstanceAs (Decidable (_ ∧ _))

/-- The byte is neither. -/
def FitsAnswer (w : GsmWorld) (c : UInt8) : Prop :=
  ∀ d ∈ answerDispatch w, ¬ SeventeenthOfCsq d ∧ ¬ SixteenthOfCenter d c w.app

instance (w : GsmWorld) (c : UInt8) : Decidable (FitsAnswer w c) :=
  inferInstanceAs (Decidable (∀ d ∈ answerDispatch w, _))

/-- The call that the end callback looks at is not `incomingCall`, and its number is short. -/
def FitsScan (phase : CmdPhase) (s : GsmState) : Prop :=
  scansClcc phase s = true → s.voiceCall ≠ some .incomingCall ∧ (clccNumber s).length ≤ 31

instance (phase : CmdPhase) (s : GsmState) : Decidable (FitsScan phase s) :=
  inferInstanceAs (Decidable (_ → _))

/-- How far the functions have come when the parser waits. -/
structure AnswerInv (s : GsmState) : Prop where
  csq : s.callBackParser.process.state = .waitFinish → s.atProcessCmd.1 = some .gsmGetCsq →
    s.callBackParser.process.dataRecvLength.toNat ≤ 16
  list : s.callBackParser.process.state = .waitFinish →
    s.atProcessCmd.1 = some .getListOfCurrentCall →
    s.callBackParser.process.dataRecvLength ≠ 0 → s.listOfCurrentCallLen.toNat ≤ 126

section Outside

variable {w : GsmWorld} {cnt : UInt16} {c : UInt8} {s : GsmState}

lemma stores_nil : AnswerStores.Within [] := List.forall_mem_nil _

lemma stores_singleton {a : AnswerArray × ℕ} : AnswerStores.Within [a] ↔ a.2 < a.1.size :=
  List.forall_mem_singleton

lemma stores_pair {a b : AnswerArray × ℕ} :
    AnswerStores.Within [a, b] ↔ a.2 < a.1.size ∧ b.2 < b.1.size :=
  List.forall_mem_cons.trans (and_congr_right' List.forall_mem_singleton)

lemma centerStores_iff :
    (responseStores .getServiceCenterNumber cnt c s).Within ↔
      ¬ SixteenthOfCenter (.getServiceCenterNumber, cnt) c s := by
  unfold responseStores SixteenthOfCenter
  dsimp only
  by_cases hdigit : isDigit c = true
  · rw [if_pos hdigit, stores_pair]
    show _ < 16 ∧ _ < 16 ↔ _
    rw [UInt8.toNat_add]
    show _ < 16 ∧ ((centerLen cnt s).toNat + 1) % 256 < 16 ↔ _
    have hlt := (centerLen cnt s).toNat_lt
    constructor
    · rintro ⟨hfirst, hsecond⟩ ⟨-, -, hmany⟩
      omega
    · intro hnot
      have hfew : ¬ 15 ≤ (centerLen cnt s).toNat := fun h => hnot ⟨rfl, hdigit, h⟩
      omega
  · rw [if_neg hdigit]
    exact iff_of_true stores_nil fun h => hdigit h.2.1

lemma listStores_within (hlen : (listLen cnt s).toNat ≤ 126) :
    (responseStores .getListOfCurrentCall cnt c s).Within := by
  refine stores_pair.mpr ⟨?_, ?_⟩
  · show (listLen cnt s).toNat < 128
    omega
  · show (listLen cnt s + 1).toNat < 128
    rw [UInt8.toNat_add]
    exact Nat.lt_of_le_of_lt (Nat.mod_le _ _) (Nat.succ_lt_succ (Nat.lt_succ_of_le hlen))

lemma csqStores_iff (hcnt : cnt.toNat ≤ 16) :
    (responseStores .gsmGetCsq cnt c s).Within ↔ ¬ SeventeenthOfCsq (.gsmGetCsq, cnt) := by
  refine stores_singleton.trans ?_
  show cnt.toNat < 16 ↔ _
  have heq : SeventeenthOfCsq (.gsmGetCsq, cnt) ↔ cnt.toNat = 16 :=
    Prod.mk_right_inj.trans ⟨fun h => congrArg UInt16.toNat h, fun h => UInt16.toNat_inj.mp h⟩
  rw [heq]
  omega

/-- Where the functions store inside whatever comes. -/
lemma otherStores_within {f : GsmRespCb} (hcsq : f ≠ .gsmGetCsq)
    (hcenter : f ≠ .getServiceCenterNumber) (hlist : f ≠ .getListOfCurrentCall) :
    (responseStores f cnt c s).Within := by
  cases f with
  | gsmGetCsq => exact absurd rfl hcsq
  | getServiceCenterNumber => exact absurd rfl hcenter
  | getListOfCurrentCall => exact absurd rfl hlist
  | gsmGetImei =>
      unfold responseStores
      dsimp only
      split_ifs with hstores
      · exact stores_singleton.mpr (UInt16.lt_iff_toNat_lt.mp hstores.1)
      · exact stores_nil
  | gsmGetSimCid =>
      unfold responseStores
      dsimp only
      split_ifs with hstores
      · have hlt : cnt.toNat < 30 := UInt16.lt_iff_toNat_lt.mp hstores.1
        exact stores_singleton.mpr (Nat.lt_of_lt_of_le hlt (by decide : 30 ≤ 32))
      · exact stores_nil
  | getCeer => exact stores_nil
  | mainSwithToIdle => exact stores_nil
  | gsmGetAti => exact stores_nil

/-- **A byte stores inside** exactly if it fits, as far as the invariant has come. -/
lemma responseStores_iff {f : GsmRespCb} (hcsq : f = .gsmGetCsq → cnt.toNat ≤ 16)
    (hlist : f = .getListOfCurrentCall → (listLen cnt s).toNat ≤ 126) :
    (responseStores f cnt c s).Within ↔
      ¬ SeventeenthOfCsq (f, cnt) ∧ ¬ SixteenthOfCenter (f, cnt) c s := by
  have hseventeenth (hne : f ≠ .gsmGetCsq) : ¬ SeventeenthOfCsq (f, cnt) := fun h =>
    hne (congrArg Prod.fst h)
  have hsixteenth (hne : f ≠ .getServiceCenterNumber) : ¬ SixteenthOfCenter (f, cnt) c s :=
    fun h => hne h.1
  by_cases hfirst : f = .gsmGetCsq
  · subst hfirst
    rw [and_iff_left (hsixteenth (by decide))]
    exact csqStores_iff (hcsq rfl)
  by_cases hsecond : f = .getServiceCenterNumber
  · subst hsecond
    rw [and_iff_right (hseventeenth (by decide))]
    exact centerStores_iff
  refine iff_of_true ?_ ⟨hseventeenth hfirst, hsixteenth hsecond⟩
  by_cases hthird : f = .getListOfCurrentCall
  · subst hthird
    exact listStores_within (hlist rfl)
  · exact otherStores_within hfirst hsecond hthird

/-- The first elements of an array. -/
lemma stores_range {array : AnswerArray} {n : ℕ} :
    AnswerStores.Within ((List.range n).map (array, ·)) ↔ n ≤ array.size := by
  unfold AnswerStores.Within
  rw [List.forall_mem_map]
  constructor
  · intro h
    rcases Nat.eq_zero_or_pos n with rfl | hpos
    · exact Nat.zero_le _
    · have hlast := h (n - 1) (List.mem_range.mpr (by omega))
      dsimp only at hlast
      omega
  · exact fun h i hi => Nat.lt_of_lt_of_le (List.mem_range.mp hi) h

lemma clccPhoneNumber_length : (clccPhoneNumber s).length ≤ 32 ↔ (clccNumber s).length ≤ 31 := by
  unfold clccPhoneNumber
  split_ifs with hnone
  · rw [hnone]
    decide
  · rw [List.length_append, List.length_singleton]
    omega

/-- **The end callback stores inside** exactly if the scan fits. -/
lemma scanStores_iff {phase : CmdPhase} : (scanStores phase s).Within ↔ FitsScan phase s := by
  unfold scanStores FitsScan
  by_cases hscans : scansClcc phase s = true
  · rw [if_pos hscans, forall_prop_of_true hscans]
    refine List.forall_mem_append.trans (and_comm.trans (and_congr ?_ ?_))
    · by_cases hcall : s.voiceCall = some .incomingCall
      · rw [if_pos hcall]
        exact iff_of_false (fun h => absurd (stores_range.mp h) (by decide)) (not_not.mpr hcall)
      · rw [if_neg hcall]
        exact iff_of_true stores_nil hcall
    · exact stores_range.trans clccPhoneNumber_length
  · rw [if_neg hscans]
    exact iff_of_true stores_nil fun h => absurd h hscans

/-- The byte is for a function only when the parser waits. -/
lemma answerDispatch_eq_some {f : GsmRespCb} (h : answerDispatch w = some (f, cnt)) :
    w.app.callBackParser.process.state = .waitFinish ∧ w.app.atProcessCmd.1 = some f ∧
      w.app.callBackParser.process.dataRecvLength = cnt := by
  unfold answerDispatch at h
  dsimp only at h
  split_ifs at h with hparses
  obtain ⟨d, hd, hf⟩ := Option.bind_eq_some_iff.mp h
  obtain ⟨g, hg, heq⟩ := Option.map_eq_some_iff.mp hf
  obtain ⟨rfl, rfl⟩ := Prod.mk.inj heq
  unfold strDispatch at hd
  split_ifs at hd with hwaits
  exact ⟨(strParserCtl_eq _ _).2.2 hwaits, hg, congrArg Prod.snd (Option.some.inj hd)⟩

/-- The invariant gives the functions what they need. -/
lemma AnswerInv.handler (h : AnswerInv w.app) {f : GsmRespCb}
    (hto : answerDispatch w = some (f, cnt)) :
    (f = .gsmGetCsq → cnt.toNat ≤ 16) ∧
      (f = .getListOfCurrentCall → (listLen cnt w.app).toNat ≤ 126) := by
  obtain ⟨hwaits, hf, rfl⟩ := answerDispatch_eq_some hto
  refine ⟨fun heq => h.csq hwaits (hf.trans (congrArg some heq)), fun heq => ?_⟩
  unfold listLen
  split_ifs with hzero
  · exact Nat.zero_le _
  · exact h.list hwaits (hf.trans (congrArg some heq)) hzero

lemma AnswerInv.byte_iff (h : AnswerInv w.app) :
    (answerByteStores w c).Within ↔ FitsAnswer w c := by
  unfold answerByteStores FitsAnswer
  cases hto : answerDispatch w with
  | none => exact iff_of_true stores_nil fun d hd => absurd hd (Option.not_mem_none d)
  | some d =>
      obtain ⟨hcsq, hlist⟩ := h.handler hto
      simp only [Option.mem_some_iff, forall_eq']
      exact responseStores_iff hcsq hlist

/-- A function that parses an answer does not choose another. -/
lemma gsmResponse_process (f : GsmRespCb) (cnt : UInt16) (c : UInt8) (s : GsmState) :
    (gsmResponse f cnt c s).2.atProcessCmd = s.atProcessCmd := by
  cases f with
  | gsmGetCsq => simp only [gsmResponse, gsmGetCsq]; split_ifs <;> rfl
  | getServiceCenterNumber =>
      simp only [gsmResponse, getServiceCenterNumber]; split_ifs <;> rfl
  | getListOfCurrentCall => simp only [gsmResponse, getListOfCurrentCall]; split_ifs <;> rfl
  | getCeer => simp only [gsmResponse, getCeer]; split_ifs <;> rfl
  | mainSwithToIdle => rfl
  | gsmGetImei => simp only [gsmResponse, gsmGetImei]; split_ifs <;> rfl
  | gsmGetSimCid => simp only [gsmResponse, gsmGetSimCid]; split_ifs <;> rfl
  | gsmGetAti =>
      obtain ⟨ati, cmps, script, heq⟩ := gsmGetAti_main cnt c s
      rw [gsmResponse, heq]

lemma gsmGetCsq_more (h : (gsmGetCsq cnt c s).1 ≠ 0) : cnt.toNat < 16 := by
  unfold gsmGetCsq at h
  split_ifs at h with hends
  · exact absurd rfl h
  · exact UInt16.not_le.mp fun hle => hends (Or.inr (Or.inr hle))

lemma getListOfCurrentCall_more (h : (getListOfCurrentCall cnt c s).1 ≠ 0) :
    (getListOfCurrentCall cnt c s).2.listOfCurrentCallLen.toNat ≤ 126 := by
  unfold getListOfCurrentCall at h ⊢
  dsimp only at h ⊢
  rw [← listLen] at h ⊢
  split_ifs at h ⊢ with hends
  · exact absurd rfl h
  · have hlt : ¬ 127 ≤ (listLen cnt s + 1).toNat := fun hle => hends (Or.inr (Or.inr hle))
    exact Nat.le_of_lt_succ (Nat.not_le.mp hlt)

/-- What `StrComnandParser` does with the byte. -/
def answerParse (w : GsmWorld) (c : UInt8) : StrInstance × UInt8 × GsmState :=
  strComnandParser (w.clock 0) [w.app.atProcessCmd.2] atProcessCallback0 w.app.callBackParser
    w.app.lastChar c w.app

lemma atProcessCallback0_eq {f : GsmRespCb} (hf : s.atProcessCmd.1 = some f) (i : ℕ)
    (cnt : UInt16) (c : UInt8) : atProcessCallback0 i cnt c s = gsmResponse f cnt c s := by
  unfold atProcessCallback0
  rw [hf]

lemma atProcessCallback0_process (i : ℕ) (cnt : UInt16) (c : UInt8) (s : GsmState) :
    (atProcessCallback0 i cnt c s).2.atProcessCmd = s.atProcessCmd := by
  cases hf : s.atProcessCmd.1 with
  | none =>
      unfold atProcessCallback0
      rw [hf]
  | some f =>
      rw [atProcessCallback0_eq hf]
      exact gsmResponse_process f cnt c s

lemma answerParse_process : (answerParse w c).2.2.atProcessCmd = w.app.atProcessCmd := by
  rcases strComnandParser_state (w.clock 0) [w.app.atProcessCmd.2] atProcessCallback0
      w.app.callBackParser w.app.lastChar c w.app with heq | ⟨i, cnt, heq⟩
  · exact congrArg GsmState.atProcessCmd heq
  · exact (congrArg GsmState.atProcessCmd heq).trans (atProcessCallback0_process i cnt c w.app)

/-- How the parser comes to wait. -/
lemma answerParse_waits {f : GsmRespCb} (hf : (answerParse w c).2.2.atProcessCmd.1 = some f)
    (h : (answerParse w c).1.process.state = .waitFinish) :
    (answerParse w c).1.process.dataRecvLength = 0 ∨
      ∃ cnt, (gsmResponse f cnt c w.app).1 ≠ 0 ∧
        (answerParse w c).2.2 = (gsmResponse f cnt c w.app).2 ∧
        (answerParse w c).1.process.dataRecvLength = cnt + 1 := by
  rw [answerParse_process] at hf
  have hhandled := strComnandParser_dispatch (w.clock 0) [w.app.atProcessCmd.2]
    atProcessCallback0 w.app.callBackParser w.app.lastChar c w.app
  rcases strComnandParser_waits _ _ _ _ _ _ _ h with hzero | ⟨i, cnt, hto, hmore, -, hcnt⟩
  · exact Or.inl hzero
  · rw [hto] at hhandled
    dsimp only at hhandled
    rw [atProcessCallback0_eq hf] at hmore hhandled
    exact Or.inr ⟨cnt, hmore, hhandled, hcnt⟩

/-- **The invariant is kept.** -/
lemma AnswerInv.byte (h : AnswerInv w.app) : AnswerInv (parseResponse w c).app := by
  unfold parseResponse
  dsimp only
  rw [← answerParse]
  split_ifs with hparses
  · refine ⟨fun hwaits hf => ?_, fun hwaits hf hsome => ?_⟩
    · rcases answerParse_waits hf hwaits with hzero | ⟨cnt, hmore, -, hcnt⟩
      · exact (congrArg UInt16.toNat hzero).trans_le (Nat.zero_le _)
      · have hlt := gsmGetCsq_more hmore
        refine (congrArg UInt16.toNat hcnt).trans_le ?_
        rw [UInt16.toNat_add]
        exact (Nat.mod_le _ _).trans hlt
    · rcases answerParse_waits hf hwaits with hzero | ⟨cnt, hmore, hhandled, -⟩
      · exact absurd hzero hsome
      · show (answerParse w c).2.2.listOfCurrentCallLen.toNat ≤ 126
        rw [hhandled]
        exact getListOfCurrentCall_more hmore
  · exact h

lemma AnswersKept.inv {s' : GsmState} (h : AnswersKept s s') (hinv : AnswerInv s) :
    AnswerInv s' := by
  refine ⟨?_, ?_⟩
  · rw [h.parser_eq, h.process_eq]
    exact hinv.csq
  · rw [h.parser_eq, h.process_eq, h.len_eq]
    exact hinv.list

lemma AnswerInv.scan (h : AnswerInv w.app) (phase : CmdPhase) :
    AnswerInv (gsmVoiceCallCheckStateEndCallback phase w).2.app := by
  refine (gsmVoiceCallCheckStateEndCallback_answers phase w).inv ?_
  split_ifs
  · exact ⟨h.csq, h.list⟩
  · exact h

end Outside

/-! ## Runs -/

/-- The parser, the function that it has chosen and `len` are the same. -/
def SameAnswer (s s' : GsmState) : Prop :=
  s'.callBackParser = s.callBackParser ∧ s'.atProcessCmd = s.atProcessCmd ∧
    s'.listOfCurrentCallLen = s.listOfCurrentCallLen

/-- What happens between the calls: whatever initialises `ampm_AtCallBackParser` anew or leaves it
alone. -/
structure BetweenAnswers where
  change : GsmWorld → GsmWorld
  keeps : ∀ w, (change w).app.callBackParser.process.state ≠ .waitFinish ∨
    SameAnswer w.app (change w).app

lemma BetweenAnswers.inv (e : BetweenAnswers) {w : GsmWorld} (h : AnswerInv w.app) :
    AnswerInv (e.change w).app := by
  rcases e.keeps w with hidle | ⟨hparser, hprocess, hlen⟩
  · exact ⟨fun hwaits => absurd hwaits hidle, fun hwaits => absurd hwaits hidle⟩
  · refine ⟨?_, ?_⟩
    · rw [hparser, hprocess]
      exact h.csq
    · rw [hparser, hprocess, hlen]
      exact h.list

lemma gsmSprintf_sameAnswer (f : GsmSprintf) (w : GsmWorld) :
    SameAnswer w.app (gsmSprintf f w).app := by
  cases f with
  | dialupAtCallback0 => exact ⟨rfl, rfl, rfl⟩
  | gsmSmsRecvCallbackCmgr => exact ⟨rfl, rfl, rfl⟩
  | gsmSmsRecvCallbackCmgd => exact ⟨rfl, rfl, rfl⟩
  | gsmSmsSendCallbackCmgs =>
      simp only [gsmSprintf, gsmSmsSendCallbackCmgs]
      split_ifs <;> exact ⟨rfl, rfl, rfl⟩
  | gsmSmsSendMessageCallback =>
      simp only [gsmSprintf, gsmSmsSendMessageCallback]
      split_ifs <;> exact ⟨rfl, rfl, rfl⟩
  | gsmCallDialStartCallback =>
      simp only [gsmSprintf, gsmCallDialStartCallback]
      split_ifs <;> exact ⟨rfl, rfl, rfl⟩
  | gsmChld1XCallback =>
      simp only [gsmSprintf, gsmChld1XCallback]
      split
      · next pointer _ => cases pointer <;> exact ⟨rfl, rfl, rfl⟩
      · exact ⟨rfl, rfl, rfl⟩

lemma sendPacket_sameAnswer (w : GsmWorld) (packet : AtCmdPacket) :
    SameAnswer w.app (sendPacket w packet).app := by
  unfold sendPacket
  cases packet.sprintf with
  | none => exact ⟨rfl, rfl, rfl⟩
  | some f => exact gsmSprintf_sameAnswer f w

lemma initMatchers_answer (packet : AtCmdPacket) (timeout : UInt16) (s : GsmState) :
    (initMatchers packet timeout s).callBackParser.process.state ≠ .waitFinish ∨
      SameAnswer s (initMatchers packet timeout s) := by
  unfold initMatchers
  cases packet.callback with
  | none => exact Or.inr ⟨rfl, rfl, rfl⟩
  | some f =>
      cases packet.response with
      | none => exact Or.inr ⟨rfl, rfl, rfl⟩
      | some response =>
          left
          show StrState.finish ≠ .waitFinish
          decide

/-- `Ampm_GsmSendCallback` does the one or the other. -/
def sendsCommand : BetweenAnswers where
  change := gsmSendCallback
  keeps w := by
    unfold gsmSendCallback
    dsimp only
    generalize gsmPacket w.app (w.cmdSend.appStruct.getD w.app.atCmd) = packet
    have hsent := sendPacket_sameAnswer (w.setApp { w.app with
      atCmd := w.cmdSend.appStruct.getD w.app.atCmd, rx := [] }) packet
    generalize sendPacket _ packet = w' at hsent ⊢
    refine (initMatchers_answer packet w'.cmdSend.timeout w'.app).imp_right fun hsame => ?_
    exact ⟨hsame.1.trans hsent.1, hsame.2.1.trans hsent.2.1, hsame.2.2.trans hsent.2.2⟩

/-- A byte of an answer, or a call of `Ampm_GsmVoiceCallCheckStateEndCallback`. -/
inductive AnswerCall
  | byte (c : UInt8)
  | scan (phase : CmdPhase)

/-- Its stores. -/
def answerStores (w : GsmWorld) : AnswerCall → AnswerStores
  | .byte c => answerByteStores w c
  | .scan phase => scanStores phase w.app

/-- It fits. -/
def FitsArrays (w : GsmWorld) : AnswerCall → Prop
  | .byte c => FitsAnswer w c
  | .scan phase => FitsScan phase w.app

instance (w : GsmWorld) : ∀ call, Decidable (FitsArrays w call)
  | .byte c => inferInstanceAs (Decidable (FitsAnswer w c))
  | .scan phase => inferInstanceAs (Decidable (FitsScan phase w.app))

/-- Something happens, and then the call. -/
def answerStep (w : GsmWorld) (i : BetweenAnswers × AnswerCall) : GsmWorld :=
  match i.2 with
  | .byte c => parseResponse (i.1.change w) c
  | .scan phase => (gsmVoiceCallCheckStateEndCallback phase (i.1.change w)).2

/-- **The runs whose stores are all inside the arrays** are those in which no `+CSQ:` line has a
seventeenth byte, no service centre's number a sixteenth digit, and no line of `AT+CLCC` is scanned
for `incomingCall` or has a number of more than 31 characters. -/
theorem answerStores_within_iff {w : GsmWorld}
    (hidle : w.app.callBackParser.process.state ≠ .waitFinish)
    (is : List (BetweenAnswers × AnswerCall)) :
    StepsMeet answerStep (fun w i => (answerStores (i.1.change w) i.2).Within) w is ↔
      StepsMeet answerStep (fun w i => FitsArrays (i.1.change w) i.2) w is := by
  refine stepsMeet_iff_of_invariant (I := fun w => AnswerInv w.app) (fun w i hinv => ?_)
    (fun w i hinv _ => ?_) ?_
  · obtain ⟨e, call⟩ := i
    cases call with
    | byte c => exact (e.inv hinv).byte_iff
    | scan phase => exact scanStores_iff
  · obtain ⟨e, call⟩ := i
    cases call with
    | byte c => exact (e.inv hinv).byte
    | scan phase => exact (e.inv hinv).scan phase
  · exact ⟨fun hwaits => absurd hwaits hidle, fun hwaits => absurd hwaits hidle⟩

/-- Nothing happens before a call. -/
def directly (call : AnswerCall) : BetweenAnswers × AnswerCall :=
  ({ change := id, keeps := fun _ => Or.inr ⟨rfl, rfl, rfl⟩ }, call)

/-- A command is sent, and answered. -/
def sentAndAnswered (answer : List UInt8) : List (BetweenAnswers × AnswerCall) :=
  (sendsCommand, .byte 13) :: answer.map fun c => directly (.byte c)

/-- An answer to `AT+CSQ`. -/
theorem answerStores_csq_example :
    StepsMeet answerStep (fun w i => (answerStores (i.1.change w) i.2).Within)
      (engineAt .smsRecvCmdProcess0 .send gsmReset) (sentAndAnswered (bytesOf "+CSQ: 20,99\r")) :=
  (answerStores_within_iff (by decide) _).mpr (by decide +kernel)

/-- `AT+CLCC` is about to be sent for an incoming call. -/
def incomingWorld : GsmWorld :=
  let w := voiceCallStartRecvCall (engineAt .voiceCallSendCmdProcessAtClcc .send gsmReset)
  w.setApp { w.app with voiceCall := some .incomingCall }

/-- The answer to it. -/
theorem answerStores_incoming_call :
    ¬ StepsMeet answerStep (fun w i => (answerStores (i.1.change w) i.2).Within) incomingWorld
      (sentAndAnswered (bytesOf "+CLCC: 1,1,4,0,0,\"0978779222\",129\r") ++
        [directly (.scan .ok)]) := by
  decide +kernel

end Ampm

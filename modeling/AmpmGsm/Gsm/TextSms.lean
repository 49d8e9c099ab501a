import AmpmGsm.Gsm.SmsTask
import AmpmGsm.Gsm.Sprintf
import Mathlib.Data.List.GetD

/-!
# Text messages from end to end

`AmpmGsm::SendSms` in `SMS_TEXT_MODE` hands a string to `Ampm_Sms_SendMsg`, whose parameter `len`
has eight bits, and `Ampm_GsmSmsSendMessageCallback` formats the copy with `%s` into `ampmAtCmdBuf`.

* `sendSmsText`, `messageCallbackText` — the two ends, the second with the memory it touches.
* `SendsText` — what the user of the library expects.
* `sendSmsText_sendsText_iff` — when it is so.
* `messageCallbackText_of_nul` — what happens when the copy is followed by a NUL.
-/

namespace Ampm

/-! ## The code -/

/-- `AmpmGsm::SendSms` with `SMS_TEXT_MODE`. -/
def sendSmsText (w : GsmWorld) (osOk : Bool) (status : Option ℕ) (callback : Bool)
    (phone sms : List UInt8) : UInt8 × GsmWorld :=
  smsSendMsg w osOk
    { status := status
      callback := callback
      phone := some phone
      msg := sms
      len := sms.length.toUInt8
      mode := .text
      timeout := 10
      tryNum := 3 }

/-- The memory from `SMS->msg` on: the copy, and behind it what the heap holds there. -/
def msgMemory (m : SmsMsg) (behind : ℕ → UInt8) (k : ℕ) : UInt8 :=
  let copy := m.msg.getD []
  if k < copy.length then copy.getD k 0 else behind (k - copy.length)

/-- `Ampm_GsmSmsSendMessageCallback` for a text message; `buf` is the memory from `ampmAtCmdBuf`
on. -/
def messageCallbackText (m : SmsMsg) (behind buf : ℕ → UInt8) : Printer :=
  ampmVsprintf buf (bytesOf "%s%c") [.str (msgMemory m behind), .num 0x1A]

/-! ## What is expected -/

/-- A call of `Ampm_GsmSmsSendMessageCallback` puts `text` and the control character into
`ampmAtCmdBuf`, reads bytes of the copy, and writes bytes of the buffer. -/
structure PutsText (m : SmsMsg) (text : List UInt8) (behind buf : ℕ → UInt8) : Prop where
  ended : (messageCallbackText m behind buf).ended = true
  text_eq : ∀ k < text.length + 2,
    (messageCallbackText m behind buf).buf k = (text ++ [0x1A, 0]).getD k 0
  read_lt : ∀ k ∈ (messageCallbackText m behind buf).read, k < (m.msg.getD []).length
  written_lt : ∀ k ∈ (messageCallbackText m behind buf).written, k < 256

/-- `SMS_ERROR` is returned, or the message at `msg` is queued and every call for it puts `text`. -/
def SendsText (r : UInt8 × GsmWorld) (msg : ℕ) (text : List UInt8) : Prop :=
  r.1 = 1 ∨ msg ∈ r.2.app.smsList ∧ ∀ behind buf, PutsText (r.2.app.smsHeap msg) text behind buf

/-! ## What is so -/

section Memory

variable {m : SmsMsg} {behind buf : ℕ → UInt8}

lemma msgMemory_ne_zero (hcopy : 0 ∉ m.msg.getD []) {k : ℕ} (hk : k < (m.msg.getD []).length) :
    msgMemory m behind k ≠ 0 := by
  intro hzero
  rw [msgMemory, if_pos hk, List.getD_eq_getElem _ _ hk] at hzero
  exact hcopy (hzero ▸ List.getElem_mem hk)

/-- A string without a NUL: the formatter reads behind the copy. -/
lemma messageCallbackText_reads (hcopy : 0 ∉ m.msg.getD []) (hlen : (m.msg.getD []).length < 2 ^ 16) :
    (m.msg.getD []).length ∈ (messageCallbackText m behind buf).read := by
  cases hend : strEnd (msgMemory m behind) with
  | none =>
      rw [messageCallbackText, ampmVsprintf_text_endless hend]
      exact mem_strReach.mpr hlen
  | some n =>
      obtain ⟨-, hn, -⟩ := strEnd_eq_some hend
      have hle : (m.msg.getD []).length ≤ n := 
        Nat.not_lt.mp fun hlt => msgMemory_ne_zero hcopy hlt hn
      rw [messageCallbackText, ampmVsprintf_text hend]
      exact List.mem_append_left _ (List.mem_range.mpr (Nat.lt_succ_of_le hle))

/-- If the heap happens to hold a NUL behind the copy, the formatter stops there: the copy and the
control character are in the buffer, and one byte behind the copy was read. -/
theorem messageCallbackText_of_nul (hcopy : 0 ∉ m.msg.getD [])
    (hlen : (m.msg.getD []).length < 2 ^ 16) (hnul : behind 0 = 0) :
    (messageCallbackText m behind buf).ended = true ∧
      (∀ k < (m.msg.getD []).length + 2,
        (messageCallbackText m behind buf).buf k = (m.msg.getD [] ++ [0x1A, 0]).getD k 0) ∧
      (∀ k, k ∈ (messageCallbackText m behind buf).read ↔ k ≤ (m.msg.getD []).length) ∧
      ∀ k, k ∈ (messageCallbackText m behind buf).written ↔ k ≤ (m.msg.getD []).length + 1 := by
  have hend : strEnd (msgMemory m behind) = some (m.msg.getD []).length := by
    refine strEnd_of hlen ?_ fun k hk => msgMemory_ne_zero hcopy hk
    rw [msgMemory, if_neg (Nat.lt_irrefl _), Nat.sub_self, hnul]
  have hmap : (List.range (m.msg.getD []).length).map (msgMemory m behind) = m.msg.getD [] := by
    refine List.ext_getElem (by simp) fun k hk hk' => ?_
    rw [List.getElem_map, List.getElem_range, msgMemory, if_pos hk', List.getD_eq_getElem _ _ hk']
  have hchar : (0x1A : UInt32).toUInt8 = 0x1A := by decide
  rw [messageCallbackText, ampmVsprintf_text hend, hmap, hchar]
  have hne : m.msg.getD [] ++ [0x1A] ≠ [] := by simp
  have hsplit : m.msg.getD [] ++ [0x1A, 0] = m.msg.getD [] ++ [0x1A] ++ [0] := by simp
  obtain ⟨hchars, hzero⟩ := putAll_buf ⟨buf, 0, 0, [], [], true⟩ _ hne
  rw [List.length_append, List.length_singleton] at hchars hzero
  refine ⟨putAll_ended _ _, fun k hk => ?_, fun k => ?_, fun k => ?_⟩
  · rcases Nat.lt_or_eq_of_le (Nat.lt_succ_iff.mp hk) with hlt | rfl
    · have hk' := hchars k hlt
      rw [Nat.zero_add] at hk'
      rw [hk', hsplit, List.getD_append _ [0] _ _ (by simpa using hlt)]
    · rw [Nat.zero_add] at hzero
      rw [hzero, hsplit, List.getD_append_right _ _ _ _ (by simp)]
      simp
  · refine Iff.trans ?_ Nat.lt_succ_iff
    simp
  · rw [mem_putAll_written _ _ hne]
    simp

end Memory

section Send

variable {w : GsmWorld} {osOk : Bool} {status : Option ℕ} {callback : Bool}
  {phone text : List UInt8}

/-- The bytes that `Ampm_Sms_SendMsg` copies. -/
lemma newMsg_copy {args : SendMsgArgs} (hlen : args.len.toNat ≤ args.msg.length) :
    (newMsg args).msg.getD [] = args.msg.take args.len.toNat := by
  refine List.ext_getElem (by simp [newMsg, hlen]) fun k hk hk' => ?_
  rw [List.length_take] at hk'
  have hlt : k < args.msg.length := Nat.lt_of_lt_of_le hk' (Nat.min_le_right _ _)
  simp only [newMsg, Option.getD_some, List.getElem_map, List.getElem_range, List.getElem_take,
    List.getD_eq_getElem _ _ hlt]

/-- The message that `AmpmGsm::SendSms` queues. -/
def textMsg (status : Option ℕ) (callback : Bool) (phone text : List UInt8) : SmsMsg :=
  newMsg ⟨status, callback, some phone, text, text.length.toUInt8, .text, 10, 3⟩

lemma textMsg_copy :
    (textMsg status callback phone text).msg.getD [] = text.take (text.length % 256) := by
  have hlen : text.length.toUInt8.toNat = text.length % 256 := UInt8.toNat_ofNat'
  rw [textMsg, newMsg_copy, hlen]
  rw [hlen]
  exact Nat.mod_le _ _

/-- A text message with a number is refused only if the mutex is not free. -/
lemma sendSmsText_eq (w : GsmWorld) (osOk : Bool) (hphone : firstChar (some phone) ≠ 0) :
    sendSmsText w osOk status callback phone text =
      smsAddMsg (w.setApp (w.app.malloc (textMsg status callback phone text))) osOk
        w.app.smsNext := by
  rw [sendSmsText, smsSendMsg]
  simp only [ne_eq, not_true_eq_false, false_and, if_false]
  exact if_pos hphone

/-- **A text message is sent as it is**, or refused, if and only if the wait for the mutex fails: a
message that is queued is never sent without reading behind its copy. -/
theorem sendSmsText_sendsText_iff (w : GsmWorld) (osOk : Bool) (status : Option ℕ)
    (callback : Bool) (phone text : List UInt8) (hphone : firstChar (some phone) ≠ 0)
    (hnul : 0 ∉ text) :
    SendsText (sendSmsText w osOk status callback phone text) w.app.smsNext text ↔
      osOk = false := by
  rw [sendSmsText_eq w osOk hphone]
  cases osOk with
  | false => simp [SendsText, smsAddMsg]
  | true =>
      have hheap : (smsAddMsg (w.setApp (w.app.malloc (textMsg status callback phone text)))
          true w.app.smsNext).2.app.smsHeap w.app.smsNext = textMsg status callback phone text :=
        Function.update_self ..
      have hret : (smsAddMsg (w.setApp (w.app.malloc (textMsg status callback phone text)))
          true w.app.smsNext).1 = 0 := rfl
      rw [SendsText, hheap, hret]
      refine iff_of_false ?_ (by simp)
      rintro (herr | ⟨-, hall⟩)
      · cases herr
      · have hputs := hall (fun _ => 0) fun _ => 0
        refine Nat.lt_irrefl _ (hputs.read_lt _ (messageCallbackText_reads ?_ ?_))
        · rw [textMsg_copy]
          exact fun h => hnul (List.mem_of_mem_take h)
        · rw [textMsg_copy, List.length_take]
          omega
/-- The library before its first message. -/
def textIdle : GsmWorld := engineAt .smsSendCmdProcessEnd .ok gsmReset

theorem sendSmsText_sendsText_busy :
    SendsText (sendSmsText textIdle false none false [49] [72]) textIdle.app.smsNext [72] :=
  (sendSmsText_sendsText_iff textIdle false none false [49] [72] (by decide) (by decide)).mpr rfl

/-- The message "H": of its copy only the byte 0 was allocated, and the formatter reads the
byte 1. -/
theorem sendSmsText_reads_behind :
    ¬ SendsText (sendSmsText textIdle true none false [49] [72]) textIdle.app.smsNext [72] := by
  rintro (herr | ⟨-, hall⟩)
  · exact absurd herr (by decide +kernel)
  · have hputs := hall (fun _ => 0) fun _ => 0
    exact absurd (hputs.read_lt 1 (by decide +kernel)) (by decide +kernel)

end Send

end Ampm

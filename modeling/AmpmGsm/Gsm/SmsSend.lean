import AmpmGsm.Gsm.State

/-!
# Callbacks of the SMS send chain

`ampm_gsm_sms.c`: what the descriptors `smsSendCmdProcess_0` to `smsSendCmdProcess_6` do when they
are sent and when they end.

* `gsmSmsSendCallbackCmgs`, `gsmSmsSendMessageCallback` — the two formatted commands.
* `gsmSmsSendCallbackCmgf`, `gsmSmsSendCallbackCsca`, `gsmSmsSent`, `gsmCreg` — the end callbacks.
* `cmgsLoads` — when `AT+CMGS` is not formatted and another descriptor is loaded instead.
-/

namespace Ampm

/-- `Ampm_SendAtCmd`. -/
def sendAtCmd (w : GsmWorld) (cmd : GsmCmd) : UInt8 × GsmWorld := sendCmd gsmProcess w cmd

/-- `Ampm_SendAtCmdNow`. -/
def sendAtCmdNow (w : GsmWorld) (cmd : GsmCmd) : GsmWorld := sendCmdNow gsmProcess w cmd

/-! ## Formatting -/

/-- `%02X`. -/
def hexByte (c : UInt8) : List UInt8 :=
  let digit (d : UInt8) : UInt8 := if d < 10 then 48 + d else 55 + d
  [digit (c >>> 4), digit (c &&& 0x0F)]

/-- The `AT+CMGS` argument of a message that is not plain text: what `pdu_encode` or
`pdu16_encode` returns and leaves in `smsDataBuf`. -/
def encodeSms (s : GsmState) (m : SmsMsg) : ℤ × (ℕ → UInt8) :=
  let serviceCenterNumber := cString s.serviceCenterNumber 16
  if m.mode = .pdu16 then
    pdu16Encode serviceCenterNumber (stringAt m.phone) (m.msg.getD []) m.len s.smsDataBuf 256
  else pduEncode serviceCenterNumber (stringAt m.phone) (stringAt m.msg) s.smsDataBuf 256

/-- `smsMsg->phone = NULL; smsMsg->len = 0; smsMsg->flag = flag;` -/
def finishSms (w : GsmWorld) (flag : UInt8) : GsmWorld :=
  w.setApp (w.app.setMsg w.app.smsMsg { w.app.sms with phone := none, len := 0, flag := flag })

/-- `smsTaskFailCnt++;` -/
def countFailure (w : GsmWorld) : GsmWorld :=
  w.setApp { w.app with smsTaskFailCnt := w.app.smsTaskFailCnt + 1 }

/-- `Ampm_GsmSmsSendCallback_CMGS`. -/
def gsmSmsSendCallbackCmgs (w : GsmWorld) : GsmWorld :=
  let m := w.app.sms
  if (firstChar m.msg ≠ 0 ∨ m.mode ≠ .text) ∧ firstChar m.phone ≠ 0 then
    if m.mode = .text then
      ampmSprintf w (bytesOf "AT+CMGS=\"" ++ stringAt m.phone ++ bytesOf "\"\r")
    else if w.app.getServiceCenterNumber ∧ w.app.serviceCenterNumber 0 ≠ 0 then
      let r := encodeSms w.app m
      let w := w.setApp { w.app with pduLen := r.1, smsDataBuf := r.2 }
      if r.1 < 0 then sendAtCmdNow (countFailure (finishSms w smsMsgFail)) .smsSendCmdProcessEnd
      else
        let len := r.1.toNat.toUInt8 - 1 - r.2 0
        let w := w.setApp { w.app with pduLenExceptSmsc := len }
        ampmSprintf w (bytesOf "AT+CMGS=" ++ decimal len.toNat ++ bytesOf "\r")
    else sendAtCmdNow w .smsSendCmdProcess0
  else countFailure (sendAtCmdNow (finishSms w smsMsgSent) .smsSendCmdProcessEnd)

/-- `Ampm_GsmSmsSendMessageCallback`. -/
def gsmSmsSendMessageCallback (w : GsmWorld) : GsmWorld :=
  let m := w.app.sms
  let w := w.log (.app (.bodyWritten w.app.smsMsg))
  if m.mode = .text then ampmSprintf w (stringAt m.msg ++ [0x1A])
  else
    ampmSprintf w (((List.range w.app.pduLen.toNat).flatMap fun i => hexByte (w.app.smsDataBuf i))
      ++ [0x1A])

/-! ## End callbacks -/

/-- `Ampm_GsmSmsSendCallback_CMGF`. -/
def gsmSmsSendCallbackCmgf (w : GsmWorld) : UInt8 × GsmWorld :=
  if w.app.sms.mode = .text then (1, sendAtCmdNow w .smsSendCmdProcess1)
  else (1, sendAtCmdNow w .smsSendCmdProcess2)

/-- `Ampm_GsmSmsSendCallback_CSCA`. -/
def gsmSmsSendCallbackCsca (w : GsmWorld) : UInt8 × GsmWorld :=
  let m := w.app.sms
  if m.msg.isSome ∧ m.phone.isSome then
    if m.mode ≠ .text then
      (1, sendAtCmdNow (w.setApp { w.app with getServiceCenterNumber := false })
        .smsSendCmdProcess3)
    else (1, w)
  else (1, sendAtCmdNow w .smsSendCmdProcessEnd)

/-- `Ampm_GsmSmsSent`. -/
def gsmSmsSent (phase : CmdPhase) (w : GsmWorld) : UInt8 × GsmWorld :=
  if phase = .ok then
    let w := (finishSms w smsMsgSent).log (.app (.flagSent w.app.smsMsg))
    let w := sendAtCmdNow w .smsSendCmdProcessEnd
    (1, w.setApp { w.app with smsTaskFailCnt := 0 })
  else (1, sendAtCmdNow (countFailure (commPutc w 0x1B)) .smsSendCmdProcess6)

/-- `Ampm_GsmCREG`. -/
def gsmCreg (phase : CmdPhase) (w : GsmWorld) : UInt8 × GsmWorld :=
  if phase = .error then (1, countFailure w) else (1, w)

/-! ## When `AT+CMGS` is not sent -/

/-- `Ampm_GsmSmsSendCallback_CMGS` calls `Ampm_SendAtCmdNow`: the message is empty or has no
number, or its mode needs a service centre number that is not there, or it cannot be encoded. -/
def cmgsLoads (s : GsmState) : Bool :=
  firstChar s.sms.phone = 0 || (if s.sms.mode = .text then firstChar s.sms.msg = 0
    else !s.getServiceCenterNumber || s.serviceCenterNumber 0 = 0 || (encodeSms s s.sms).1 < 0)

end Ampm

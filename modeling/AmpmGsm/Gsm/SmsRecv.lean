import AmpmGsm.Gsm.SmsSend

/-!
# Callbacks of the SMS receive chain

`ampm_gsm_sms.c` and `at_command_parser.c`: what the descriptors `smsRecvCmdProcess_0` to
`smsRecvCmdProcess_5` do when they are sent and when they end, and what the parser of unsolicited
result codes does with each byte from the modem.

* `gsmSmsRecvCallbackCmgr`, `gsmSmsRecvCallbackCmgd` — the two formatted commands.
* `gsmSmsRecv0`, `gsmSmsRecv1`, `gsmSmsRecv2` — the end callbacks.
* `smsReadMsg`, `smsProcess`, `smsUrcIncomming` — the URC callbacks of the SMS part.
* `gsmPortRxIrq` — one byte from the modem.
-/

namespace Ampm

/-! ## Formatting -/

/-- `InitTimeout(&tSmsTaskTimeOut, SYSTICK_TIME_SEC(3))`. -/
def initSmsTimeout (w : GsmWorld) : GsmWorld :=
  w.ticked.setApp { w.app with tSmsTaskTimeOut := initTimeout (w.clock 0) 3000 }

/-- `Ampm_GsmSmsRecvCallback_CMGR`. -/
def gsmSmsRecvCallbackCmgr (w : GsmWorld) : GsmWorld :=
  let w := (initSmsTimeout w).log (.app (.cmgr w.app.smsIndex))
  ampmSprintf w (bytesOf "AT+CMGR=" ++ decimal w.app.smsIndex.toNat ++ bytesOf "\r")

/-- `Ampm_GsmSmsRecvCallback_CMGD`. -/
def gsmSmsRecvCallbackCmgd (w : GsmWorld) : GsmWorld :=
  ampmSprintf w (bytesOf "AT+CMGD=" ++ decimal w.app.smsIndex.toNat ++ bytesOf "\r")

/-! ## End callbacks -/

/-- The two `RINGBUF_Get` of `Ampm_GsmSmsRecv0` and `Ampm_GsmSmsRecv1`, low byte first; a call that
finds the ring empty leaves the variable as it was. -/
def getSmsIndex (s : GsmState) : GsmState :=
  let low := ringbufGet s.smsUnreadRingBuff
  let c := low.2.1.getD 0
  let high := ringbufGet low.2.2
  { s with
    smsIndex := c.toUInt16 ||| ((high.2.1.getD c).toUInt16 <<< 8)
    smsUnreadRingBuff := high.2.2 }

/-- `Ampm_GsmSmsRecv0` and `Ampm_GsmSmsRecv1`, which differ in the descriptor `whenEmpty` that they
load when no index is queued. -/
def gsmSmsRecvNext (whenEmpty : GsmCmd) (w : GsmWorld) : UInt8 × GsmWorld :=
  if ringbufGetFill w.app.smsUnreadRingBuff ≥ 2 then
    let w := w.setApp (getSmsIndex w.app)
    let w := w.log (.app (.indexTaken w.app.smsIndex))
    if w.app.smsIndex ≥ 1000 then (1, sendAtCmdNow w .smsRecvCmdProcess5)
    else (1, sendAtCmdNow (w.setApp { w.app with readTryCnt := 3 }) .smsRecvCmdProcess4)
  else (1, sendAtCmdNow w whenEmpty)

/-- `Ampm_GsmSmsRecv0`. -/
def gsmSmsRecv0 (w : GsmWorld) : UInt8 × GsmWorld := gsmSmsRecvNext .smsRecvCmdProcess3 w

/-- `Ampm_GsmSmsRecv1`. -/
def gsmSmsRecv1 (w : GsmWorld) : UInt8 × GsmWorld := gsmSmsRecvNext .smsRecvCmdProcessEnd w

/-- What `smsDataBuf` holds. -/
def GsmState.smsBody (s : GsmState) : List UInt8 := cString s.smsDataBuf 256

/-- `Ampm_SmsRecvCallback(smsDataBuf)`. -/
def smsRecvCallback (w : GsmWorld) : GsmWorld :=
  w.log (.app (.smsReceived w.app.smsIndex w.app.smsBody))

/-- `Ampm_GsmSmsRecv2`. -/
def gsmSmsRecv2 (w : GsmWorld) : UInt8 × GsmWorld :=
  if w.app.flagSmsReadFinish then
    (1, sendAtCmdNow (smsRecvCallback w) .smsRecvCmdProcess5)
  else
    let r := checkTimeout w.app.tSmsTaskTimeOut (w.clock 0)
    let w := w.ticked.setApp { w.app with tSmsTaskTimeOut := r.2 }
    if r.1 = 0 then
      if w.app.readTryCnt ≠ 0 then
        let w := commPutc (w.setApp { w.app with readTryCnt := w.app.readTryCnt - 1 }) 0x1B
        (1, sendAtCmdNow (initSmsTimeout w) .smsRecvCmdProcess4)
      else (1, sendAtCmdNow w .smsRecvCmdProcess5)
    else (0, w)

/-! ## Unsolicited result codes -/

/-- `terminateStr`; the array ends with a NUL. -/
def terminateStr : List UInt8 := bytesOf "\r\nOK\r\n"

/-- `sizeof(terminateStr)`. -/
def terminateSize : ℕ := 7

/-- The end of a body: the terminating bytes are cut off and `flagSmsReadFinish` is set. -/
def finishReadMsg (w : GsmWorld) (u8pt2 : ℕ) : UInt32 × GsmWorld :=
  let u8pt2 := if u8pt2 > terminateSize then u8pt2 - terminateSize else u8pt2
  let w := w.setApp { w.app with
    smsDataBuf := Function.update w.app.smsDataBuf u8pt2 0
    flagSmsReadFinish := true
    readMsg := { w.app.readMsg with u8pt2 := u8pt2 } }
  (0, w.log (.app (.bodyRead w.app.smsBody)))

/-- The comma count and the header of `Ampm_SMS_ReadMsg`, before the body starts: `none` when the
number is too long. -/
def readMsgHeader (s : GsmState) (c : UInt8) : Option GsmState :=
  if s.readMsg.comma = 1 then
    if s.readMsg.u8pt ≥ 16 then none
    else if isDigit c ∨ c = 43 then
      some { s with
        smsSender := Function.update (Function.update s.smsSender s.readMsg.u8pt c)
          (s.readMsg.u8pt + 1) 0
        readMsg := { s.readMsg with u8pt := s.readMsg.u8pt + 1 } }
    else some s
  else some s

/-- The last test of `Ampm_SMS_ReadMsg`. -/
def readMsgLine (s : GsmState) (c : UInt8) : GsmState :=
  if c = 10 then { s with readMsg := { s.readMsg with getSmsDataFlag := true } } else s

/-- `Ampm_SMS_ReadMsg`. -/
def smsReadMsg (cnt : UInt16) (c : UInt8) (w : GsmWorld) : UInt32 × GsmWorld :=
  if cnt = 0 then
    (0xff, w.setApp { w.app with
      readMsg := { comma := 0, getSmsDataFlag := false, u8pt := 0, u8pt1 := 0, u8pt2 := 0 } })
  else
    let m := w.app.readMsg
    let m := if c = 44 then { m with comma := m.comma + 1 } else m
    if m.getSmsDataFlag then
      let m :=
        if c = terminateStr.getD m.u8pt1 0 then { m with u8pt1 := m.u8pt1 + 1 }
        else { m with u8pt1 := if c = terminateStr.getD 0 0 then 1 else 0 }
      let w := w.setApp { w.app with readMsg := m }
      if terminateStr.getD m.u8pt1 0 = 0 ∨ m.u8pt2 ≥ 256 then finishReadMsg w m.u8pt2
      else
        (0xff, w.setApp (readMsgLine { w.app with
          smsDataBuf := Function.update w.app.smsDataBuf m.u8pt2 c
          readMsg := { m with u8pt2 := m.u8pt2 + 1 } } c))
    else
      let w := w.setApp { w.app with readMsg := m }
      match readMsgHeader w.app c with
      | none => (0, w.setApp { w.app with smsSender := Function.update w.app.smsSender 0 0 })
      | some s => (0xff, w.setApp (readMsgLine s c))

/-- The two `RINGBUF_Put` that queue an index. -/
def putSmsIndex (r : Ringbuf) (length : UInt32) : Ringbuf :=
  (ringbufPut (ringbufPut r length.toUInt8).2 (length >>> 8).toUInt8).2

/-- The switch of `Ampm_SMS_Process` and `Ampm_SMS_URC_Incomming` on their static `length`: the
return value, `length` and the ring. -/
def smsIndexDigit (cnt : UInt16) (c : UInt8) (length : UInt32) (r : Ringbuf) :
    UInt32 × UInt32 × Ringbuf :=
  if cnt = 0 then
    if isDigit c then (0xff, c.toUInt32 - 48, r) else (0, length, r)
  else if cnt ≤ 3 then
    if isDigit c then (0xff, length * 10 + (c.toUInt32 - 48), r)
    else (0, length, putSmsIndex r length)
  else (0, length, r)

/-- `Ampm_SMS_URC_Incomming`. -/
def smsUrcIncomming (cnt : UInt16) (c : UInt8) (w : GsmWorld) : UInt32 × GsmWorld :=
  let r := smsIndexDigit cnt c w.app.urcIncommingLength w.app.smsUnreadRingBuff
  (r.1, w.setApp { w.app with urcIncommingLength := r.2.1, smsUnreadRingBuff := r.2.2 })

/-- `Ampm_SetAtCmti`. -/
def setAtCmti (s : GsmState) : GsmState :=
  { s with newSmsFlag := true, ringingFlag := s.ringingFlag ||| 0x08 }

/-- `Ampm_SMS_Process`. -/
def smsProcess (cnt : UInt16) (c : UInt8) (w : GsmWorld) : UInt32 × GsmWorld :=
  let s := if cnt = 0 then setAtCmti w.app else w.app
  let r := smsIndexDigit cnt c s.smsProcessLength s.smsUnreadRingBuff
  (r.1, w.setApp { s with smsProcessLength := r.2.1, smsUnreadRingBuff := r.2.2 })

/-- `Ampm_SetAtClip`. -/
def setAtClip (s : GsmState) : GsmState :=
  { s with ringingFlag := s.ringingFlag ||| 0x02, ringingTime := 0 }

/-- `Ampm_SetAtRing`. -/
def setAtRing (s : GsmState) : GsmState :=
  { s with ringingFlag := s.ringingFlag ||| 0x04, ringingTime := 0 }

/-- `Ampm_URC_CLIP_Process`. -/
def urcClipProcess (cnt : UInt16) (c : UInt8) (s : GsmState) : UInt32 × GsmState :=
  if isDigit c then
    let s := { s with
      clipPhoneNo := Function.update (Function.update s.clipPhoneNo cnt.toNat c)
        (cnt.toNat + 1) 0 }
    if cnt > 14 then (0, setAtClip s) else (0xff, s)
  else if c = 34 ∧ cnt ≥ 2 then
    (0, setAtClip { s with incomingCallPhoneNo := s.clipPhoneNo, gotIncomingNumberFlag := true })
  else (0, setAtClip s)

/-- `AT_ProcessCmd`, the strings. -/
def atProcessCommands : List (List UInt8) :=
  [bytesOf "+CLIP: \"", bytesOf "RING", bytesOf "+CMGL: ", bytesOf "+CMGR: ",
    bytesOf "+CMTI: \"SM\",", bytesOf "+CMTI: \"ME\",", bytesOf "+CMTI: \"MT\",",
    bytesOf "AT+CLCC\r\r\nOK"]

/-- `AT_ProcessCmd`, the callbacks. -/
def atProcessCallback (i : ℕ) (cnt : UInt16) (c : UInt8) (w : GsmWorld) : UInt32 × GsmWorld :=
  match i with
  | 0 => ((urcClipProcess cnt c w.app).1, w.setApp (urcClipProcess cnt c w.app).2)
  | 1 => (0, w.setApp (setAtRing w.app))
  | 2 => smsUrcIncomming cnt c w
  | 3 => smsReadMsg cnt c w
  | 4 => smsProcess cnt c w
  | 5 => smsProcess cnt c w
  | 6 => smsProcess cnt c w
  | _ => (0, w.setApp { w.app with callListIsEmpty := true })

/-- `AT_ComnandParser`. -/
def atComnandParser (w : GsmWorld) (c : UInt8) : GsmWorld :=
  let w :=
    if w.app.atCommandParserStarted then w
    else w.setApp { w.app with
      atCommandParserStarted := true
      atCmdParser := strParserInit w.app.atCmdParser 8 1024 }
  if w.app.atCommandParserEnable then
    let r := strComnandParser (w.clock 0) atProcessCommands atProcessCallback w.app.atCmdParser
      w.app.lastChar c w.ticked
    r.2.2.setApp { r.2.2.app with atCmdParser := r.1, lastChar := r.2.1 }
  else w

/-- `gsmPort_RxIrq`: a byte from the modem goes to the parser and into `GSM_RxRingBuff`. -/
def gsmPortRxIrq (w : GsmWorld) (c : UInt8) : GsmWorld :=
  let w := atComnandParser w c
  if w.app.rx.length < 511 then w.setApp { w.app with rx := w.app.rx ++ [c] } else w

end Ampm

import AmpmGsm.Cmd.Engine
import AmpmGsm.Gsm.DataCmp
import AmpmGsm.Gsm.Pdu
import AmpmGsm.Gsm.Ringing
import AmpmGsm.Gsm.StrParser
import AmpmGsm.Ring.Ringbuf

/-!
# The state of the GSM library

The constant command descriptors and packets of the library, and the variables its callbacks work
on.

* `GsmCmd`, `gsmProcess` — every `AMPM_CMD_PROCESS_TYPE` of the library, entry for entry.
* `GsmPacket`, `gsmPacket` — every `AMPM_GSM_AT_CMD_PACKET_TYPE`.
* `MainVars`, `GsmState` — the variables.
* `gsmTypes`, `GsmWorld` — the engine with this library on it.
-/

namespace Ampm

/-! ## Descriptors -/

/-- The constant descriptors. -/
inductive GsmCmd
  | dialupCmdProcess0 | dialupCmdProcess1 | dialupCmdProcess2 | dialupCmdProcess3
  | dialupCmdProcess4
  | ampmCmdProcessAt | ampmCmdProcessAth
  | ampmMainCmdProcessChld | ampmMainCmdProcessEnd | ampmMainCmdProcessAtCfun1
  | ampmMainCmdProcessAtCfun9 | ampmMainCmdProcessAth | ampmMainCmdProcessAt
  | smsRecvCmdProcess0 | smsRecvCmdProcess1 | smsRecvCmdProcess2 | smsRecvCmdProcess3
  | smsRecvCmdProcess4 | smsRecvCmdProcess5 | smsRecvCmdProcessEnd
  | smsSendCmdProcess0 | smsSendCmdProcess1 | smsSendCmdProcess2 | smsSendCmdProcess3
  | smsSendCmdProcess4 | smsSendCmdProcess5 | smsSendCmdProcess6 | smsSendCmdProcessEnd
  | voiceCallSendCmdProcessEnd | voiceCallSendCmdProcessAtChld1X | voiceCallSendCmdProcessAtChld
  | voiceCallSendCmdProcessAth | voiceCallSendCmdProcessAtCeer | voiceCallSendCmdProcessAtClcc
  | voiceCallSendCmdProcessAtd | voiceCallSendCmdProcessAtm | voiceCallSendCmdProcessClvl
  | voiceCallSendCmdProcessAtl | voiceCallSendCmdProcessStart | voiceCallSendCmdProcessAta
  deriving DecidableEq

/-- The packets that `appStruct` points to; `common` is `ampmCommonAppStruct`, which lies in RAM. -/
inductive GsmPacket
  | at | atChld | ath | atCsq | atClip | atCmgf1 | atCmgf0 | atCmgl | atCgact | atDialup | atCreg
  | atCgdcont | atCfun1 | atCfun9
  | smsRecvCmdAtCmgr | smsRecvCmdAtCmgd
  | smsSendCmdAtCsca | smsSendCmdAtCmgs | smsSendMessage
  | ata | atClvl | atm | atl | callDial | atClcc | atCeer | atChld1X
  | common
  deriving DecidableEq

/-- `send_data_callback`: always `Ampm_GsmSendCallback`. -/
inductive GsmSendCb
  | gsmSendCallback
  deriving DecidableEq

/-- `recv_data_callback`: always `Ampm_GsmRecvCallback`. -/
inductive GsmRecvCb
  | gsmRecvCallback
  deriving DecidableEq

/-- The functions used as `end_data_callback`. -/
inductive GsmEndCb
  | gsmSmsRecv0 | gsmSmsRecv1 | gsmSmsRecv2
  | gsmSmsSendCallbackCmgf | gsmSmsSendCallbackCsca | gsmSmsSent | gsmCreg
  | gsmVoiceCallCheckCeerEndCallback | gsmVoiceCallCheckStateEndCallback | gsmCallEndCallback
  | gsmAtm1EndCallback | gsmCallDialEndCallback
  | gsmMainCallPhaseFinished | gsmMainAtPhaseFinished | setCmdOk
  deriving DecidableEq

/-- The functions used as `sprintf` of a packet. -/
inductive GsmSprintf
  | dialupAtCallback0
  | gsmSmsRecvCallbackCmgr | gsmSmsRecvCallbackCmgd
  | gsmSmsSendCallbackCmgs | gsmSmsSendMessageCallback
  | gsmCallDialStartCallback | gsmChld1XCallback
  deriving DecidableEq

/-- The functions used as `callback` of a packet, or as the one of `Ampm_CmdTask_SendCmd`. -/
inductive GsmRespCb
  | gsmGetCsq | getServiceCenterNumber | getListOfCurrentCall | getCeer | mainSwithToIdle
  | gsmGetImei | gsmGetSimCid | gsmGetAti
  deriving DecidableEq

/-- `AMPM_GSM_AT_CMD_PACKET_TYPE`. -/
structure AtCmdPacket where
  command : Option (List UInt8)
  sprintf : Option GsmSprintf
  response : Option (List UInt8)
  callback : Option GsmRespCb
  resOk : List UInt8
  resFails : List UInt8

/-! ## Variables -/

/-- `SMS_MODE_TYPE`. -/
inductive SmsMode
  | pdu8
  | pdu16
  | text
  deriving DecidableEq

/-- `SMS_LIST_TYPE`.  A string pointer is the string it points to; reading a string through `NULL`
is taken to give the empty one.  `callback` says whether the pointer is not `NULL`. -/
structure SmsMsg where
  phone : Option (List UInt8)
  msg : Option (List UInt8)
  len : UInt8
  timeout : UInt8
  timeoutReload : UInt8
  tryNum : UInt8
  flag : UInt8
  status : Option ℕ
  callback : Bool
  mode : SmsMode

/-- The first character of a string. -/
def firstChar (s : Option (List UInt8)) : UInt8 := (s.getD []).headD 0

/-- `SMS_MSG_SENT`, `SMS_MSG_FAIL`, `SMS_NEW_MSG`. -/
def smsMsgSent : UInt8 := 0

def smsMsgFail : UInt8 := 1

def smsNewMsg : UInt8 := 2

/-- `CALL_ACTION`. -/
inductive CallAction
  | none
  | hangupWhenAlerting
  | hangupWhenActive
  | hangupAfterActiveActionTimeout
  | pickupWhenIncoming
  | hangupNow
  deriving DecidableEq

/-- `CALL_STATE_RESPONSE`.  `other` are the values that a modem can report beyond the named
ones. -/
inductive CallState
  | start
  | active
  | held
  | dialing
  | alerting
  | incoming
  | waiting
  | ended
  | other (code : UInt8)
  deriving DecidableEq

/-- `CALL_RESPONSE`. -/
inductive CallResponse
  | none
  | timeout
  | miss
  | busy
  | alertingButNoAnswer
  | noCarrier
  | unsuccess
  | normalCallClearing
  | cancelBySoftware
  | success
  deriving DecidableEq

/-- `CALL_LIST_TYPE`.  `actionCallback` says whether the pointer is not `NULL`. -/
structure Call where
  phone : Option (List UInt8)
  index : UInt8
  state : CallState
  timeout : UInt16
  timeoutReload : UInt16
  tryNum : UInt8
  response : CallResponse
  action : CallAction
  actionCallback : Bool
  actionTimeout : UInt8

/-- Where a pointer to a call can point to: `incomingCall`, or a call of the application. -/
inductive CallRef
  | incomingCall
  | call (address : ℕ)
  deriving DecidableEq

/-- `AMPM_GSM_MAIN_PHASE_TYPE`. -/
inductive MainPhase
  | init
  | startup
  | smsRecv
  | smsSend
  | voicecall
  | datacall
  | dialUp
  | gotoCmdMode
  | gotoCmdModeCheck
  | waitGotoCmdMode
  | gotoDataMode
  | waitGotoDataMode
  | idle
  | goToSleep
  | sleep
  | wakeup
  deriving DecidableEq

/-- `phase > AMPM_GSM_MAIN_STARTUP_PHASE`. -/
def MainPhase.isStarted : MainPhase → Bool
  | .init => false
  | .startup => false
  | _ => true

/-- `AMPM_GSM_MODE`. -/
inductive GsmMode
  | none
  | gprsEnable
  | sleepMode
  deriving DecidableEq

/-- `PPPStatus`. -/
inductive PppStatus
  | connecting
  | connected
  | disconnected
  deriving DecidableEq

/-- The values of `ampmGsmDialupPhase`. -/
inductive DialupPhase
  | start
  | runing
  | ok
  | fail
  deriving DecidableEq

/-- `AMPM_GSM_STARTUP_PHASE_TYPE`. -/
inductive StartupPhase
  | init
  | turnOn
  | turnOn1
  | getCmd
  | idle
  deriving DecidableEq

/-- A line of a start-up script: the letter behind `@@` and what is read behind it. -/
inductive StartupCmd
  /-- `0`, and `G` if the command is to count as done when it fails. -/
  | at (always : Bool) (cmd res : List UInt8) (callback : Option GsmRespCb) (ok err : List UInt8)
      (tryCnt timeout delay : UInt32)
  /-- `D`, and `F` if the command is to count as done when it fails. -/
  | plain (always : Bool) (cmd : List UInt8)
  /-- `1`, `2`, `4`, `5`: a pin of the modem. -/
  | pin
  /-- `3`. -/
  | delay (ms : UInt32)
  /-- `S`. -/
  | stop
  /-- Any other letter. -/
  | unknown

/-- `AMPM_GSM_MODULE_TYPE`, the modules that are supported. -/
inductive ModuleType
  | bgs2W
  | bgs2E
  | bg2E
  | m95
  | m26
  | sim900
  | ubloxG100
  deriving DecidableEq

/-- The variables of the main task and of what it drives: the start-up, the dial-up, the ring
machine and the calls. -/
structure MainVars where
  -- `ampm_gsm_main_task.c`, `ampm_gsm_io.c` and `ampm_gsm_common.c`
  taskPhase : MainPhase
  mode : GsmMode
  mainTaskTryCnt : UInt8
  smsCheckTime : UInt32
  dataSendingTimeout : UInt8
  tRingTask : Timeout
  thisPpp : ℤ
  pppStatus : PppStatus
  gotoCmdModeFlag : Bool
  gotoDataModeFlag : Bool
  modemResetFlag : Bool
  -- `ampm_gsm_dial_up.c`
  dialupPhase : DialupPhase
  dialupTryCnt : UInt8
  -- `ampm_gsm_ring.c`
  missCall : Bool
  ringingFlagTimes : UInt8
  ringingPauseTime : UInt8
  ringingPhase : RingPhase
  -- `ampm_gsm_startup.c`; `atGsmCmdStart` is what is left of the script
  startupPhase : StartupPhase
  tStartupTaskDelay : Timeout
  startupTryCnt : UInt32
  atGsmCmdStart : List StartupCmd
  cmpAti : Compare
  cmpModule : ModuleType → Compare
  gsmImeiBuf : ℕ → UInt8
  gsmSimCidBuf : ℕ → UInt8
  -- `ampm_gsm_call.c`
  calls : ℕ → Call
  callList : List ℕ
  incomingCall : Call
  callTaskFailCnt : UInt8
  callTimeout : Timeout
  callAlertingTimeout : Timeout
  tCallDelayTimeout : Timeout
  callDelayTime : UInt8
  callTaskIsRunningCnt : UInt8

/-- The static variables of `Ampm_SMS_ReadMsg`; the pointers are indices into `smsSender`, into
`terminateStr` and into `smsDataBuf`. -/
structure ReadMsgStatics where
  comma : UInt8
  getSmsDataFlag : Bool
  u8pt : ℕ
  u8pt1 : ℕ
  u8pt2 : ℕ

/-- The variables of the library that its command callbacks and its URC parser work on.  `rx` is
what `GSM_RxRingBuff` holds, oldest first.  `smsHeap` is the memory of the messages: `smsNext` is
the address that `malloc` returns next, and `smsFreed` says which blocks were freed. -/
structure GsmState where
  -- `ampm_gsm_io.c`
  rx : List UInt8
  atCmd : GsmPacket
  commonAppStruct : AtCmdPacket
  atCmdBuf : List UInt8
  cmdOk : Compare
  cmdFails : Compare
  callBackParser : StrInstance
  atProcessCmd : Option GsmRespCb × List UInt8
  lastChar : UInt8
  csqBuff : ℕ → UInt8
  gprsApn : List UInt8
  -- `ampm_gsm_sms.c`, sending
  smsHeap : ℕ → SmsMsg
  smsNext : ℕ
  smsFreed : ℕ → Bool
  smsList : List ℕ
  smsMsg : ℕ
  checkCnt : UInt8
  pduLen : ℤ
  pduLenExceptSmsc : UInt8
  serviceCenterNumber : ℕ → UInt8
  serviceCenterLen : UInt8
  getServiceCenterNumber : Bool
  smsTaskFailCnt : UInt8
  -- `ampm_gsm_sms.c`, receiving
  smsUnreadRingBuff : Ringbuf
  smsIndex : UInt16
  readTryCnt : UInt8
  tSmsTaskTimeOut : Timeout
  smsSender : ℕ → UInt8
  smsDataBuf : ℕ → UInt8
  flagSmsReadFinish : Bool
  readMsg : ReadMsgStatics
  urcIncommingLength : UInt32
  smsProcessLength : UInt32
  -- `at_command_parser.c` and `ampm_gsm_ring.c`
  atCommandParserEnable : Bool
  atCommandParserStarted : Bool
  atCmdParser : StrInstance
  clipPhoneNo : ℕ → UInt8
  incomingCallPhoneNo : ℕ → UInt8
  gotIncomingNumberFlag : Bool
  ringingFlag : UInt8
  ringingTime : UInt8
  newSmsFlag : Bool
  -- `ampm_gsm_call.c`
  voiceCall : Option CallRef
  callListIsEmpty : Bool
  listOfCurrentCall : ℕ → UInt8
  listOfCurrentCallLen : UInt8
  gotListOfCurrentCall : Bool
  ceerId : UInt16
  gotCeerId : Bool
  getCeerFlag : Bool
  -- the main task
  main : MainVars

/-- What a run of the library lets be seen, and the internal steps that its specifications speak
about. -/
inductive GsmEvent
  /-- Bytes went to the modem. -/
  | tx (bytes : List UInt8)
  /-- `FindData` found the `resOk` string of a packet. -/
  | okFound (packet : GsmPacket)
  /-- `Ampm_GsmSmsSendMessageCallback` wrote the body of the message at `msg`. -/
  | bodyWritten (msg : ℕ)
  /-- `Ampm_GsmSmsSent` set the flag of the message at `msg` to `SMS_MSG_SENT`. -/
  | flagSent (msg : ℕ)
  /-- `smsIndex` was taken out of `smsUnreadRingBuff`. -/
  | indexTaken (index : UInt16)
  /-- `Ampm_GsmSmsRecvCallback_CMGR` wrote `AT+CMGR=index`. -/
  | cmgr (index : UInt16)
  /-- `Ampm_SMS_ReadMsg` completed a body. -/
  | bodyRead (body : List UInt8)
  /-- `Ampm_SmsRecvCallback` was called for `index`. -/
  | smsReceived (index : UInt16) (body : List UInt8)
  /-- `Ampm_SmsAddMsg` put the message at `msg` on `smsList`. -/
  | queued (msg : ℕ)
  /-- An attempt to send the message at `msg` was started. -/
  | attempt (msg : ℕ)
  /-- The completion callback of the message at `msg` was called. -/
  | completed (msg : ℕ)
  /-- `SMS_OK` was written to the status cell of the message at `msg`. -/
  | statusOk (msg : ℕ)
  /-- The main task loaded a constant descriptor. -/
  | issued (cmd : GsmCmd)
  /-- The main task loaded a command by `Ampm_CmdTask_SendCmd`. -/
  | issuedText (text : List UInt8)
  /-- `Ampm_Cmd_Task` ended a command, built in place if `cmd` is `none`. -/
  | ended (cmd : Option GsmCmd) (phase : CmdPhase)
  /-- `Ampm_GSM_DialUp` went from `AMPM_GSM_DIALUP_START_PHASE` to `AMPM_GSM_DIALUP_RUNING_PHASE`. -/
  | dialStarted
  /-- The main task went through its `AMPM_GSM_MAIN_INIT_PHASE`. -/
  | mainInit
  /-- `pppOverSerialOpen` returned `pd`. -/
  | pppOpened (pd : ℤ)
  /-- `pppClose` was called. -/
  | pppClosed (pd : ℤ)
  /-- `pppInputThread` was called. -/
  | pppInput (pd : ℤ)
  deriving DecidableEq

def GsmEvent.isTx : GsmEvent → Bool
  | .tx _ => true
  | _ => false

/-- The library as a user of the command engine. -/
abbrev gsmTypes : CmdTypes :=
  { Name := GsmCmd
    App := GsmPacket
    SendCb := GsmSendCb
    RecvCb := GsmRecvCb
    EndCb := GsmEndCb
    State := GsmState
    Event := GsmEvent }

abbrev GsmWorld := CmdWorld gsmTypes

/-! ## The tables -/

/-- A descriptor with the callbacks that all of them have. -/
def gsmCmd (next : Option GsmCmd) (appStruct : GsmPacket) (endDataCallback : Option GsmEndCb)
    (retryNum : UInt8) (timeout delay : UInt16) : CmdProcess gsmTypes :=
  { next := next, appStruct := some appStruct, sendDataCallback := some .gsmSendCallback,
    recvDataCallback := some .gsmRecvCallback, endDataCallback := endDataCallback,
    retryNum := retryNum, timeout := timeout, delay := delay }

/-- The constant descriptors. -/
def gsmProcess : GsmCmd → CmdProcess gsmTypes
  | .dialupCmdProcess4 => gsmCmd none .atDialup none 1 1000 100
  | .dialupCmdProcess3 => gsmCmd (some .dialupCmdProcess4) .atCgdcont none 1 1000 100
  | .dialupCmdProcess2 => gsmCmd (some .dialupCmdProcess3) .atCgact none 1 1000 100
  | .dialupCmdProcess1 => gsmCmd (some .dialupCmdProcess2) .ath none 1 1000 100
  | .dialupCmdProcess0 => gsmCmd (some .dialupCmdProcess1) .at none 1 1000 100
  | .ampmCmdProcessAt => gsmCmd none .at none 1 1000 100
  | .ampmCmdProcessAth => gsmCmd none .ath none 1 1000 100
  | .ampmMainCmdProcessChld =>
      gsmCmd (some .ampmCmdProcessAt) .atChld (some .gsmMainCallPhaseFinished) 1 2000 500
  | .ampmMainCmdProcessEnd => gsmCmd none .at none 1 2000 100
  | .ampmMainCmdProcessAtCfun1 => gsmCmd (some .ampmMainCmdProcessEnd) .atCfun1 none 1 3000 100
  | .ampmMainCmdProcessAtCfun9 => gsmCmd none .atCfun9 none 1 3000 100
  | .ampmMainCmdProcessAth => gsmCmd (some .ampmMainCmdProcessAtCfun9) .ath none 1 3000 100
  | .ampmMainCmdProcessAt =>
      gsmCmd (some .ampmMainCmdProcessAth) .at (some .gsmMainAtPhaseFinished) 1 3000 500
  | .smsRecvCmdProcessEnd => gsmCmd none .at none 1 1000 100
  | .smsRecvCmdProcess5 => gsmCmd none .smsRecvCmdAtCmgd (some .gsmSmsRecv1) 1 1000 100
  | .smsRecvCmdProcess4 =>
      gsmCmd (some .smsRecvCmdProcess5) .smsRecvCmdAtCmgr (some .gsmSmsRecv2) 1 1000 100
  | .smsRecvCmdProcess3 =>
      gsmCmd (some .smsRecvCmdProcess4) .atCmgl (some .gsmSmsRecv1) 1 1000 1000
  | .smsRecvCmdProcess2 =>
      gsmCmd (some .smsRecvCmdProcess3) .atCmgf1 (some .gsmSmsRecv0) 1 1000 100
  | .smsRecvCmdProcess1 => gsmCmd (some .smsRecvCmdProcess2) .atClip none 1 1000 100
  | .smsRecvCmdProcess0 => gsmCmd (some .smsRecvCmdProcess1) .atCsq none 1 1000 100
  | .smsSendCmdProcessEnd => gsmCmd none .at none 1 1000 100
  | .smsSendCmdProcess6 => gsmCmd none .atCreg (some .gsmCreg) 1 3000 100
  | .smsSendCmdProcess5 =>
      gsmCmd (some .smsSendCmdProcessEnd) .smsSendMessage (some .gsmSmsSent) 1 10000 100
  | .smsSendCmdProcess4 => gsmCmd (some .smsSendCmdProcess5) .smsSendCmdAtCmgs none 1 5000 500
  | .smsSendCmdProcess3 => gsmCmd (some .smsSendCmdProcess4) .smsSendCmdAtCsca none 1 5000 500
  | .smsSendCmdProcess2 =>
      gsmCmd (some .smsSendCmdProcess3) .atCmgf0 (some .gsmSmsSendCallbackCsca) 1 1000 100
  | .smsSendCmdProcess1 =>
      gsmCmd (some .smsSendCmdProcess4) .atCmgf1 (some .gsmSmsSendCallbackCsca) 1 1000 100
  | .smsSendCmdProcess0 =>
      gsmCmd (some .smsSendCmdProcess1) .at (some .gsmSmsSendCallbackCmgf) 1 1000 100
  | .voiceCallSendCmdProcessEnd => gsmCmd none .at (some .gsmCallEndCallback) 1 1000 100
  | .voiceCallSendCmdProcessAtChld1X =>
      gsmCmd (some .voiceCallSendCmdProcessEnd) .atChld1X none 3 1000 100
  | .voiceCallSendCmdProcessAtChld =>
      gsmCmd (some .voiceCallSendCmdProcessEnd) .atChld none 3 1000 100
  | .voiceCallSendCmdProcessAth => gsmCmd (some .voiceCallSendCmdProcessEnd) .ath none 3 1000 100
  | .voiceCallSendCmdProcessAtCeer =>
      gsmCmd (some .voiceCallSendCmdProcessEnd) .atCeer (some .gsmVoiceCallCheckCeerEndCallback)
        1 3000 500
  | .voiceCallSendCmdProcessAtClcc =>
      gsmCmd (some .voiceCallSendCmdProcessAtClcc) .atClcc
        (some .gsmVoiceCallCheckStateEndCallback) 1 3000 100
  | .voiceCallSendCmdProcessAtd =>
      gsmCmd (some .voiceCallSendCmdProcessAtClcc) .callDial (some .gsmCallDialEndCallback)
        0 5000 1000
  | .voiceCallSendCmdProcessAtm =>
      gsmCmd (some .voiceCallSendCmdProcessAtd) .atm (some .gsmAtm1EndCallback) 1 1000 100
  | .voiceCallSendCmdProcessClvl => gsmCmd (some .voiceCallSendCmdProcessAtm) .atClvl none 1 1000 100
  | .voiceCallSendCmdProcessAtl => gsmCmd (some .voiceCallSendCmdProcessClvl) .atl none 1 1000 100
  | .voiceCallSendCmdProcessStart => gsmCmd (some .voiceCallSendCmdProcessAtl) .at none 1 1000 100
  | .voiceCallSendCmdProcessAta => gsmCmd (some .voiceCallSendCmdProcessAtClcc) .ata none 3 1000 100

/-- A packet with a fixed command and no response to parse. -/
def fixedPacket (command resOk : String) : AtCmdPacket :=
  { command := some (bytesOf command), sprintf := none, response := none, callback := none,
    resOk := bytesOf resOk, resFails := bytesOf "ERROR" }

/-- A packet whose command is formatted when it is sent. -/
def formattedPacket (sprintf : GsmSprintf) (resOk : String) : AtCmdPacket :=
  { command := none, sprintf := some sprintf, response := none, callback := none,
    resOk := bytesOf resOk, resFails := bytesOf "ERROR" }

/-- A packet with a fixed command whose response is parsed. -/
def parsedPacket (command response : String) (callback : GsmRespCb) (resFails : String) :
    AtCmdPacket :=
  { command := some (bytesOf command), sprintf := none, response := some (bytesOf response),
    callback := some callback, resOk := bytesOf "OK", resFails := bytesOf resFails }

/-- What a packet pointer points to. -/
def gsmPacket (s : GsmState) : GsmPacket → AtCmdPacket
  | .at => fixedPacket "AT\r" "OK"
  | .atChld => fixedPacket "AT+CHLD=0\r" "OK"
  | .ath => fixedPacket "ATH\r" "OK"
  | .atCsq => parsedPacket "AT+CSQ\r" "+CSQ:" .gsmGetCsq "ERROR"
  | .atClip => fixedPacket "AT+CLIP=1\r" "OK"
  | .atCmgf1 => fixedPacket "AT+CMGF=1\r" "OK"
  | .atCmgf0 => fixedPacket "AT+CMGF=0\r" "OK"
  | .atCmgl => fixedPacket "AT+CMGL=\"ALL\"\r" "OK"
  | .atCgact => fixedPacket "AT+CGACT=0\r" "OK"
  | .atDialup => fixedPacket "ATDT*99***1#\r" "CONNECT"
  | .atCreg => fixedPacket "AT+CREG?\r" "+CREG: 0,1"
  | .atCgdcont => formattedPacket .dialupAtCallback0 "OK"
  | .atCfun1 => fixedPacket "AT+CFUN=1\r" "OK"
  | .atCfun9 => fixedPacket "AT+CFUN=9\r" "OK"
  | .smsRecvCmdAtCmgr => formattedPacket .gsmSmsRecvCallbackCmgr "OK"
  | .smsRecvCmdAtCmgd => formattedPacket .gsmSmsRecvCallbackCmgd "OK"
  | .smsSendCmdAtCsca => parsedPacket "AT+CSCA?\r" "+CSCA: \"" .getServiceCenterNumber "ERROR"
  | .smsSendCmdAtCmgs => formattedPacket .gsmSmsSendCallbackCmgs "\r\r\n>"
  | .smsSendMessage => formattedPacket .gsmSmsSendMessageCallback "OK"
  | .ata => fixedPacket "ATA\r" "OK"
  | .atClvl => fixedPacket "AT+CLVL=100\r" "OK"
  | .atm => fixedPacket "ATM1\r" "OK"
  | .atl => fixedPacket "ATL3\r" "OK"
  | .callDial => formattedPacket .gsmCallDialStartCallback "OK"
  | .atClcc => parsedPacket "AT+CLCC\r" "+CLCC: " .getListOfCurrentCall "AT+CLCC\r\r\nOK"
  | .atCeer => parsedPacket "AT+CEER\r" "+CEER: " .getCeer "ERROR"
  | .atChld1X => formattedPacket .gsmChld1XCallback "OK"
  -- its `command` points to `ampmAtCmdBuf`
  | .common =>
      { s.commonAppStruct with command := s.commonAppStruct.command.map fun _ => s.atCmdBuf }

/-- Every constant descriptor sends and receives through the two callbacks of the library. -/
lemma gsmProcess_callbacks (n : GsmCmd) :
    (gsmProcess n).sendDataCallback = some .gsmSendCallback ∧
    (gsmProcess n).recvDataCallback = some .gsmRecvCallback := by
  cases n <;> exact ⟨rfl, rfl⟩

/-! ## Input and output -/

/-- The library's variables have changed. -/
@[simps]
def CmdWorld.setApp (w : GsmWorld) (app : GsmState) : GsmWorld := { w with app := app }

/-- The string at a pointer, up to its terminating NUL. -/
def stringAt (s : Option (List UInt8)) : List UInt8 := (s.getD []).takeWhile fun c => c ≠ 0

/-- `COMM_Putc`. -/
def commPutc (w : GsmWorld) (c : UInt8) : GsmWorld := w.log (.app (.tx [c]))

/-- `COMM_Puts`. -/
def commPuts (w : GsmWorld) (s : List UInt8) : GsmWorld := w.log (.app (.tx (stringAt (some s))))

/-- `ampm_sprintf(buf, ...)` into `ampmAtCmdBuf`. -/
def ampmSprintf (w : GsmWorld) (text : List UInt8) : GsmWorld :=
  w.setApp { w.app with atCmdBuf := text }

/-- The message that `smsMsg` points to. -/
def GsmState.sms (s : GsmState) : SmsMsg := s.smsHeap s.smsMsg

/-- A write to the block at `address`. -/
@[simps]
def GsmState.setMsg (s : GsmState) (address : ℕ) (msg : SmsMsg) : GsmState :=
  { s with smsHeap := Function.update s.smsHeap address msg }

/-- A call that was never set up. -/
def zeroCall : Call :=
  { phone := none, index := 0, state := .start, timeout := 0, timeoutReload := 0, tryNum := 0,
    response := .none, action := .none, actionCallback := false, actionTimeout := 0 }

/-- The call at a pointer. -/
def GsmState.callAt (s : GsmState) : CallRef → Call
  | .incomingCall => s.main.incomingCall
  | .call address => s.main.calls address

/-- The call that `voiceCall` points to; a read through `NULL` is taken to give zeros. -/
def GsmState.call (s : GsmState) : Call :=
  match s.voiceCall with
  | some pointer => s.callAt pointer
  | none => zeroCall

/-- A write to the call at a pointer. -/
@[simps]
def GsmState.setCall (s : GsmState) (pointer : CallRef) (call : Call) : GsmState :=
  { s with
    main := match pointer with
      | .incomingCall => { s.main with incomingCall := call }
      | .call address => { s.main with calls := Function.update s.main.calls address call } }

/-! ## The variables at reset -/

/-- A parser whose variables are all zero. -/
def zeroParser : StrInstance :=
  { process := ⟨.newState, 0, 0, 0, 0, 0, 0⟩
    numCharParsed := fun _ => 0 }

/-- A block of memory that was never written. -/
def zeroMsg : SmsMsg :=
  { phone := none, msg := none, len := 0, timeout := 0, timeoutReload := 0, tryNum := 0,
    flag := 0, status := none, callback := false, mode := .pdu8 }

/-- The variables of the main task before it ran. -/
def mainReset : MainVars :=
  { taskPhase := .init, mode := .none, mainTaskTryCnt := 0, smsCheckTime := 0
    dataSendingTimeout := 0, tRingTask := ⟨0, 0, 0⟩, thisPpp := -1, pppStatus := .disconnected
    gotoCmdModeFlag := false, gotoDataModeFlag := false, modemResetFlag := false
    dialupPhase := .start, dialupTryCnt := 0
    missCall := false, ringingFlagTimes := 0, ringingPauseTime := 0, ringingPhase := .idle
    startupPhase := .init, tStartupTaskDelay := ⟨0, 0, 0⟩, startupTryCnt := 0, atGsmCmdStart := []
    cmpAti := ⟨0, [], 0, 0⟩, cmpModule := fun _ => ⟨0, [], 0, 0⟩
    gsmImeiBuf := fun _ => 0, gsmSimCidBuf := fun _ => 0
    calls := fun _ => zeroCall, callList := [], incomingCall := zeroCall
    callTaskFailCnt := 0, callTimeout := ⟨0, 0, 0⟩, callAlertingTimeout := ⟨0, 0, 0⟩
    tCallDelayTimeout := ⟨0, 0, 0⟩, callDelayTime := 3, callTaskIsRunningCnt := 0 }

/-- The variables before anything ran, with `Ampm_SmsTask_Init` done; address 0 is `NULL`. -/
def gsmReset : GsmState :=
  { rx := [], atCmd := .at
    commonAppStruct := ⟨none, none, none, none, [], []⟩
    atCmdBuf := [], cmdOk := ⟨0, [], 0, 0⟩, cmdFails := ⟨0, [], 0, 0⟩
    callBackParser := zeroParser, atProcessCmd := (none, []), lastChar := 0
    csqBuff := fun _ => 0, gprsApn := bytesOf "internet"
    smsHeap := fun _ => zeroMsg, smsNext := 1, smsFreed := fun _ => false, smsList := []
    smsMsg := 0, checkCnt := 0, pduLen := 0, pduLenExceptSmsc := 0
    serviceCenterNumber := fun _ => 0, serviceCenterLen := 0, getServiceCenterNumber := false
    smsTaskFailCnt := 0
    smsUnreadRingBuff := ⟨0, 0, 32, fun _ => 0⟩, smsIndex := 0, readTryCnt := 0
    tSmsTaskTimeOut := ⟨0, 0, 0⟩, smsSender := fun _ => 0, smsDataBuf := fun _ => 0
    flagSmsReadFinish := false
    readMsg := { comma := 0, getSmsDataFlag := false, u8pt := 0, u8pt1 := 0, u8pt2 := 0 }
    urcIncommingLength := 0, smsProcessLength := 0
    atCommandParserEnable := true, atCommandParserStarted := false, atCmdParser := zeroParser
    clipPhoneNo := fun _ => 0, incomingCallPhoneNo := fun _ => 0, gotIncomingNumberFlag := false
    ringingFlag := 0, ringingTime := 0, newSmsFlag := false
    voiceCall := none, callListIsEmpty := false, listOfCurrentCall := fun _ => 0
    listOfCurrentCallLen := 0, gotListOfCurrentCall := false, ceerId := 0, gotCeerId := false
    getCeerFlag := false
    main := mainReset }

/-- An engine with the descriptor `name` in `cmdSend`. -/
def engineAt (name : GsmCmd) (phase : CmdPhase) (app : GsmState) : GsmWorld :=
  { phase := phase, cmdSend := gsmProcess name, loaded := some name, cmdList := [],
    taskTimeout := initTimeout 0 0, clock := fun _ => 0, app := app, hist := [] }

end Ampm

import AmpmGsm.Gsm.State

/-!
# The modules that are supported

`ampm_gsm_main_task.c`: the start-up script of each module, and how the answer to `ATI` picks one.

* `ampmAtGsmCmdStart`, `moduleScript` — the scripts.
* `gsmGetImei`, `gsmGetSimCid`, `gsmGetAti` — what parses the answers that a script asks for.
-/

namespace Ampm

/-! ## The scripts -/

/-- `@@0$cmd$0$0$ok$NOT USE$tryCnt$timeout$100`. -/
def scriptAt (cmd ok : String) (tryCnt timeout : UInt32) : StartupCmd :=
  .at false (bytesOf cmd) (bytesOf "0") none (bytesOf ok) (bytesOf "NOT USE") tryCnt timeout 100

/-- `@@0$cmd$res$callback$OK$ERROR$3$timeout$100`. -/
def scriptAsk (cmd res : String) (callback : GsmRespCb) (timeout : UInt32) : StartupCmd :=
  .at false (bytesOf cmd) (bytesOf res) (some callback) (bytesOf "OK") (bytesOf "ERROR") 3 timeout
    100

/-- `@@D$cmd$`. -/
def scriptPlain (cmd : String) : StartupCmd := .plain false (bytesOf cmd)

/-- `@@G$AT+CSQ\r$+CSQ:$4$OK$ERROR$1$2000$100` and `@@S`, the end of every script. -/
def scriptEnd : List StartupCmd :=
  [.at true (bytesOf "AT+CSQ\r") (bytesOf "+CSQ:") (some .gsmGetCsq) (bytesOf "OK")
    (bytesOf "ERROR") 1 2000 100, .stop]

/-- `ampm_AtGsmCmdStart`. -/
def ampmAtGsmCmdStart : List StartupCmd :=
  [.pin, .delay 100, .pin, .delay 100, .pin, .delay 1500,
    scriptAt "AT\r" "OK" 3 1000,
    scriptAsk "ATI\r" "ATI\r\r\n" .gsmGetAti 1000,
    scriptPlain "ATZ\r", scriptPlain "ATI\r", scriptPlain "AT&C1\r", scriptPlain "AT+CMGF=1\r",
    scriptPlain "AT+CNMI=2,1,0,0,0\r", scriptPlain "AT+CLIP=1\r",
    scriptAt "AT+CREG?\r" "+CREG: 0,1" 20 3000,
    scriptAsk "AT+CGSN\r" "+CGSN\r\r\n" .gsmGetImei 1000,
    scriptAt "AT+COPS=0,2\r" "OK" 20 3000] ++ scriptEnd

/-- `ampm_AtGsmCmdStartBGS2_W`. -/
def ampmAtGsmCmdStartBgs2W : List StartupCmd :=
  [scriptAt "AT\r" "OK" 3 1000,
    scriptPlain "ATZ\r", scriptPlain "ATI\r", scriptPlain "AT&D1\r", scriptPlain "AT&C1\r",
    scriptPlain "AT+CMGF=1\r", scriptPlain "AT^SCFG=\"URC/Datamode/Ringline\",\"on\"\r",
    scriptPlain "AT+CNMI=3,1,0,0,1\r", scriptPlain "AT+CLIP=1\r", scriptPlain "AT^SM20=0\r",
    scriptAt "AT+CREG?\r" "+CREG: 0,1" 20 3000,
    scriptAsk "AT+CGSN\r" "+CGSN\r\r\n" .gsmGetImei 1000,
    scriptAsk "AT^SCID\r" "^SCID: " .gsmGetSimCid 1000,
    scriptAt "AT+COPS=0,2\r" "OK" 20 3000] ++ scriptEnd

/-- `ampm_AtGsmCmdStartBGS2_E`. -/
def ampmAtGsmCmdStartBgs2E : List StartupCmd :=
  [scriptAt "AT\r" "OK" 3 1000,
    scriptPlain "ATZ\r", scriptPlain "ATZ\r", scriptPlain "ATI\r", scriptPlain "AT&D1\r",
    scriptPlain "AT&C1\r", scriptPlain "AT+CMGF=1\r",
    scriptPlain "AT^SCFG=\"URC/Datamode/Ringline\",\"on\"\r",
    scriptPlain "AT+CNMI=3,1,0,0,1\r", scriptPlain "AT+CLIP=1\r", scriptPlain "AT^SM20=0\r",
    scriptAt "AT+CREG?\r" "+CREG: 0,1" 20 3000,
    scriptAsk "AT+CGSN\r" "+CGSN\r\r\n" .gsmGetImei 1000,
    scriptAsk "AT^SCID\r" "^SCID: " .gsmGetSimCid 1000,
    scriptAt "AT+COPS=0,2\r" "OK" 20 3000] ++ scriptEnd

/-- `ampm_AtGsmCmdStartBG2_E`. -/
def ampmAtGsmCmdStartBg2E : List StartupCmd :=
  [scriptAt "AT\r" "OK" 3 1000,
    scriptPlain "ATZ\r", scriptPlain "ATI\r", scriptPlain "AT&D1\r", scriptPlain "AT&C1\r",
    scriptPlain "AT\\Q3\r", scriptPlain "AT+CMGF=1\r",
    scriptPlain "AT^SCFG=\"URC/Datamode/Ringline\",\"on\"\r",
    scriptPlain "AT+CNMI=3,1,0,0,1\r", scriptPlain "AT+CLIP=1\r",
    scriptAt "AT+CREG?\r" "+CREG: 0,1" 20 3000,
    scriptAsk "AT+CGSN\r" "+CGSN\r\r\n" .gsmGetImei 1000,
    scriptAsk "AT^SCID\r" "^SCID: " .gsmGetSimCid 1000,
    scriptAt "AT+COPS=0,2\r" "OK" 20 3000] ++ scriptEnd

/-- `ampm_AtGsmCmdStartM95` and `ampm_AtGsmCmdStartM26`. -/
def ampmAtGsmCmdStartM95 : List StartupCmd :=
  [scriptAt "AT\r" "OK" 3 1000,
    scriptPlain "ATZ\r", scriptPlain "ATI\r", scriptPlain "AT&C1\r", scriptPlain "AT+CMGF=1\r",
    scriptPlain "AT+CNMI=2,1,0,0,0\r", scriptPlain "AT+CLIP=1\r",
    scriptAt "AT+CREG?\r" "+CREG: 0,1" 20 3000,
    scriptAsk "AT+CGSN\r" "+CGSN\r\r\n" .gsmGetImei 3000,
    scriptAsk "AT+QCCID\r" "+QCCID\r\r\n" .gsmGetSimCid 3000,
    scriptAt "AT+COPS=0,2\r" "OK" 20 3000] ++ scriptEnd

/-- `ampm_AtGsmCmdStartSIM900`. -/
def ampmAtGsmCmdStartSim900 : List StartupCmd :=
  [scriptAt "AT\r" "OK" 3 1000,
    scriptPlain "ATZ\r", scriptPlain "ATI\r", scriptPlain "AT&C1\r", scriptPlain "AT+CMGF=1\r",
    scriptPlain "AT+CNMI=2,1,0,0,0\r", scriptPlain "AT+CLIP=1\r",
    scriptAt "AT+CREG?\r" "+CREG: 0,1" 20 3000,
    scriptAsk "AT+CGSN\r" "+CGSN\r\r\n" .gsmGetImei 1000,
    scriptAt "AT+COPS=0,2\r" "OK" 20 3000] ++ scriptEnd

/-- `ampm_AtGsmCmdStartUbloxG100`. -/
def ampmAtGsmCmdStartUbloxG100 : List StartupCmd :=
  [scriptAt "AT\r" "OK" 3 1000,
    scriptPlain "ATZ\r", scriptPlain "AT&K0\r", scriptPlain "AT+UPSV=2\r",
    scriptPlain "AT+CMGF=1\r", scriptPlain "AT+CNMI=2,1,0,0,0\r", scriptPlain "AT+CLIP=1\r",
    scriptAt "AT+CREG?\r" "+CREG: 0,1" 20 3000,
    scriptAsk "AT+CGSN\r" "+CGSN\r\r\n" .gsmGetImei 1000,
    scriptAsk "AT+CCID\r" "+CCID: " .gsmGetSimCid 1000,
    scriptAt "AT+COPS=0,2\r" "OK" 20 3000] ++ scriptEnd

/-- The script of a module. -/
def moduleScript : ModuleType → List StartupCmd
  | .bgs2W => ampmAtGsmCmdStartBgs2W
  | .bgs2E => ampmAtGsmCmdStartBgs2E
  | .bg2E => ampmAtGsmCmdStartBg2E
  | .m95 => ampmAtGsmCmdStartM95
  | .m26 => ampmAtGsmCmdStartM95
  | .sim900 => ampmAtGsmCmdStartSim900
  | .ubloxG100 => ampmAtGsmCmdStartUbloxG100

/-! ## The answers -/

/-- `Ampm_GSM_GetIMEI`, without the flags that it sets for the application. -/
def gsmGetImei (cnt : UInt16) (c : UInt8) (s : GsmState) : UInt32 × GsmState :=
  if cnt ≥ 18 then (0, s)
  else if isDigit c then
    (0xff, { s with main := { s.main with
      gsmImeiBuf := Function.update s.main.gsmImeiBuf cnt.toNat c } })
  else (0, s)

/-- `Ampm_GSM_GetSimCID`, without the flags that it sets for the application. -/
def gsmGetSimCid (cnt : UInt16) (c : UInt8) (s : GsmState) : UInt32 × GsmState :=
  if cnt ≥ 30 then (0, s)
  else if c ≥ 48 then
    (0xff, { s with main := { s.main with
      gsmSimCidBuf := Function.update s.main.gsmSimCidBuf cnt.toNat c } })
  else (0, s)

/-- The name that a module gives in its answer to `ATI`. -/
def moduleName : ModuleType → List UInt8
  | .bgs2W => bytesOf "BGS2-W"
  | .bgs2E => bytesOf "BGS2-E"
  | .bg2E => bytesOf "BG2-E"
  | .m95 => bytesOf "M95"
  | .m26 => bytesOf "M26"
  | .sim900 => bytesOf "SIM900"
  | .ubloxG100 => bytesOf "G100"

/-- The calls of `FindData` of `Ampm_GSM_GetATI`, one name after the other up to the first that is
found. -/
def findModule (c : UInt8) :
    List ModuleType → (ModuleType → Compare) → Option ModuleType × (ModuleType → Compare)
  | [], cmps => (none, cmps)
  | m :: rest, cmps =>
      let r := findData (cmps m) c
      let cmps := Function.update cmps m r.2
      if r.1 = 0 then (some m, cmps) else findModule c rest cmps

/-- `Ampm_GSM_GetATI`. -/
def gsmGetAti (cnt : UInt16) (c : UInt8) (s : GsmState) : UInt32 × GsmState :=
  let m := s.main
  let m := if cnt = 0 then
      { m with
        cmpAti := initFindData (bytesOf "\r\nOK")
        cmpModule := fun name => initFindData (moduleName name) }
    else m
  let r := findData m.cmpAti c
  let m := { m with cmpAti := r.2 }
  if r.1 = 0 ∨ cnt ≥ 45 then (0, { s with main := m })
  else
    let found := findModule c [.bgs2W, .bgs2E, .bg2E, .m95, .m26, .sim900, .ubloxG100] m.cmpModule
    let m := { m with cmpModule := found.2 }
    match found.1 with
    | some name => (0, { s with main := { m with atGsmCmdStart := moduleScript name } })
    | none => (0xff, { s with main := m })

/-- It writes its matchers and the script. -/
lemma gsmGetAti_main (cnt : UInt16) (c : UInt8) (s : GsmState) :
    ∃ ati cmps script, (gsmGetAti cnt c s).2 = { s with
      main := { s.main with cmpAti := ati, cmpModule := cmps, atGsmCmdStart := script } } := by
  unfold gsmGetAti
  dsimp only
  by_cases hcnt : cnt = 0
  · simp only [if_pos hcnt]
    split
    · exact ⟨_, _, s.main.atGsmCmdStart, rfl⟩
    · split
      · exact ⟨_, _, _, rfl⟩
      · exact ⟨_, _, s.main.atGsmCmdStart, rfl⟩
  · simp only [if_neg hcnt]
    split
    · exact ⟨_, s.main.cmpModule, s.main.atGsmCmdStart, rfl⟩
    · split
      · exact ⟨_, _, _, rfl⟩
      · exact ⟨_, _, s.main.atGsmCmdStart, rfl⟩

end Ampm

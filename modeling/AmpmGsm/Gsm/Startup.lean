import AmpmGsm.Gsm.DialUp

/-!
# The start-up of the modem

`ampm_gsm_startup.c`: the modem is powered up, and a script of commands is read and sent one by
one.  The pins of the modem are left out.

* `startupInit`, `startup` — the functions.
-/

namespace Ampm

/-! ## The code -/

/-- `InitTimeout(&tAmpm_GsmStartupTaskDelay, ms)`. -/
def startupDelay (w : GsmWorld) (ms : UInt32) : GsmWorld :=
  w.ticked.setMain { w.app.main with tStartupTaskDelay := initTimeout (w.clock 0) ms }

/-- `CheckTimeout(&tAmpm_GsmStartupTaskDelay)`: whether it has passed, and the state. -/
def startupExpired (w : GsmWorld) : Bool × GsmWorld :=
  let r := checkTimeout w.app.main.tStartupTaskDelay (w.clock 0)
  (r.1 = 0, w.ticked.setMain { w.app.main with tStartupTaskDelay := r.2 })

/-- `ampm_GSM_StartupPhase = phase;` -/
def setStartup (w : GsmWorld) (phase : StartupPhase) : GsmWorld :=
  w.setMain { w.app.main with startupPhase := phase }

/-- `AMPM_GSM_Startup_Init`. -/
def startupInit (w : GsmWorld) : GsmWorld := startupDelay (setStartup w .init) 100

/-- `ampmGSM_CmdSend.end_data_callback = Ampm_SetCmdOK;` -/
def endWithOk (w : GsmWorld) : GsmWorld :=
  { w with cmdSend := { w.cmdSend with endDataCallback := some .setCmdOk } }

/-- The arguments that a line of the script gives to `Ampm_CmdTask_SendCmd`. -/
def startupArgs : StartupCmd → Option (Bool × SendCmdArgs)
  | .at always cmd res callback ok err tryCnt timeout delay =>
      some (always,
        { callback := callback, response := some res, delay := if delay = 0 then 300 else delay
          resOk := ok, resFails := err, timeout := if timeout = 0 then 1000 else timeout
          tryAgainNum := tryCnt.toUInt8, text := some cmd })
  | .plain always cmd =>
      some (always,
        { callback := none, response := none, delay := 100, resOk := bytesOf "OK"
          resFails := bytesOf "ERROR", timeout := 1000, tryAgainNum := if always then 1 else 3
          text := some cmd })
  | _ => none

/-- The line `cmd` of the script, once it is read. -/
def startupLine (w : GsmWorld) (cmd : StartupCmd) : GsmWorld :=
  match startupArgs cmd with
  | some (always, args) =>
      let w := (issueText w args).2
      if always then endWithOk w else w
  | none =>
      match cmd with
      | .delay ms => startupDelay w (if ms ≥ 10000 then 10000 else ms)
      | .stop => setStartup (w.setMain { w.app.main with startupTryCnt := 0 }) .idle
      | .pin => w
      | _ => setStartup w .init

/-- The next line of the script.  Behind the `S` at its end a script is not read. -/
def startupGetCmd (w : GsmWorld) : GsmWorld :=
  match w.app.main.atGsmCmdStart with
  | [] => setStartup (startupDelay w 1) .init
  | cmd :: rest =>
      startupLine (startupDelay (w.setMain { w.app.main with atGsmCmdStart := rest }) 1) cmd

/-- `AMPM_GSM_Startup`: whether the start-up is done, and the state. -/
def startup (cmdList : List StartupCmd) (w : GsmWorld) : Bool × GsmWorld :=
  match w.app.main.startupPhase with
  | .init =>
      let tryCnt := w.app.main.startupTryCnt + 1
      let w := w.setMain { w.app.main with startupTryCnt := if tryCnt ≥ 2 then 0 else tryCnt }
      (false, setStartup (startupDelay w (if tryCnt ≥ 2 then 10000 else 3000)) .turnOn)
  | .turnOn =>
      let r := startupExpired w
      (false, if r.1 then setStartup (startupDelay r.2 1000) .turnOn1 else r.2)
  | .turnOn1 =>
      let r := startupExpired w
      if r.1 then
        let w := setStartup r.2 .getCmd
        let w := startupDelay (w.setMain { w.app.main with atGsmCmdStart := cmdList }) 1
        (false, w.setPhase .ok)
      else (false, r.2)
  | .getCmd =>
      let r := startupExpired w
      let w := r.2
      if r.1 then
        if w.phase = .ok then (false, startupGetCmd w)
        else if w.phase = .error then (false, startupDelay (setStartup w .init) 5000)
        else (false, w)
      else (false, w)
  | .idle => (true, w)

end Ampm

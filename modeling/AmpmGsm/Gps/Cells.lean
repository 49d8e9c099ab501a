import AmpmGsm.Gps.Acceptance
import AmpmGsm.Lib.Checked

/-!
# The parser on its arrays

`GPS_ComnandParser` once more, now with the arrays and the counters of `AMPM_GPS` and with the loop
variable of the recogniser: an index is a number, and an access that is out of range has no result.

* `GpsCells` — the part of `AMPM_GPS` that the parser uses.
* `cmdInfoAt`, `nameEnd`, `matchNames` — the table, and the two loops over the names.
* `GpsCells.process`, `GpsCells.waitFinish`, `GpsCells.comnandParser` — the code.
* `HandlerCall` — what the parser calls a handler with.
* `GpsCells.parser` — the same state with names for the rows of the table.
-/

namespace Ampm

open Checked Function

/-! ## Data -/

/-- `GPS_CMD_COUNT`. -/
def gpsCmdCount : ℕ := 4

/-- `GPS_CMD_PARSER_SIZE`, and the size of `cmdInfo`. -/
def gpsCmdParserSize : ℕ := 16

/-- The number of a row of `GPS_ProcessCmd`. -/
def GpsCmd.row : GpsCmd → Fin gpsCmdCount
  | .gprmc => ⟨0, by decide⟩
  | .gpgga => ⟨1, by decide⟩
  | .gpgsa => ⟨2, by decide⟩
  | .gpgsv => ⟨3, by decide⟩

lemma GpsCmd.row_lt (cmd : GpsCmd) : (cmd.row : ℕ) < gpsCmdCount := cmd.row.isLt

/-- `cmdInfo` with the zeros behind the name. -/
def GpsCmd.cmdInfoCells (cmd : GpsCmd) : Vector UInt8 gpsCmdParserSize :=
  Vector.ofFn fun i => cmd.cmdInfo.getD i 0

/-- What the parser uses of `AMPM_GPS`, with a flag and a buffer for each sentence. -/
structure GpsCells where
  gpsCalcCheckSumFlag : UInt8
  gpsCheckSum : UInt8
  gpsCheckSumX : UInt8
  gpsGetCheckSumFlag : UInt8
  gotDataFlag : GpsCmd → UInt8
  buff : GpsCmd → Vector UInt8 gpsMsgMaxSize
  gpsCmdCnt : Vector UInt32 gpsCmdCount
  gpsNumCmd : UInt8
  gpsCmdRecvLength : UInt32
  gpsCmdState : GpsCmdState

/-- A call of a handler: the row it is taken from, and the length at that time. -/
structure HandlerCall where
  numCmd : ℕ
  recvLength : ℕ
  deriving DecidableEq

/-! ## The code -/

/-- `GPS_ProcessCmd[i].cmdInfo[j]`. -/
def cmdInfoAt (i j : ℕ) : Option UInt8 :=
  GpsCmd.all[i]?.bind fun cmd => cmd.cmdInfoCells[j]?

/-- The inner loop: the index of the zero behind the name, or the size of `cmdInfo`. -/
def nameEnd (numCmd : ℕ) : ℕ → ℕ → Option ℕ
  | 0, _ => none
  | fuel + 1, i =>
      if i < gpsCmdParserSize then
        (cmdInfoAt numCmd i).bind fun c =>
          if c = 0 then some i else nameEnd numCmd fuel (i + 1)
      else some i

namespace GpsCells

/-- `GPSInit`, as far as the parser is concerned; it does not touch the counters. -/
def init (gps : GpsCells) : GpsCells :=
  { gps with
    gpsCheckSum := 0
    gpsCheckSumX := 0
    gpsGetCheckSumFlag := 0
    gotDataFlag := fun _ => 0
    buff := fun _ => Vector.replicate gpsMsgMaxSize 0
    gpsCmdState := .finish }

/-- The last two statements of the processes. -/
def store (gps : GpsCells) (cmd : GpsCmd) (c : UInt8) : Option (UInt8 × GpsCells) :=
  (store? (gps.buff cmd) gps.gpsCmdRecvLength.toNat c).map fun cells =>
    (0xff, { gps with buff := update gps.buff cmd cells })

/-- The four processes. -/
def process (cmd : GpsCmd) (gps : GpsCells) (c : UInt8) : Option (UInt8 × GpsCells) :=
  if gps.gotDataFlag cmd ≠ 0 then some (0, gps)
  else
    let gps := if gps.gpsCmdRecvLength = 0 then
      { gps with gpsGetCheckSumFlag := 0, gpsCheckSumX := 0 } else gps
    if c = 42 then { gps with gpsCheckSumX := 0, gpsGetCheckSumFlag := 1 }.store cmd c
    else if gps.gpsGetCheckSumFlag ≠ 0 then
      let x := gps.gpsCheckSumX ||| checkSumDigit c
      let x := if gps.gpsGetCheckSumFlag = 1 then x <<< 4 else x
      let gps := { gps with
        gpsCheckSumX := x
        gpsGetCheckSumFlag := gps.gpsGetCheckSumFlag + 1 }
      if gps.gpsGetCheckSumFlag > 2 then
        some (0, if gps.gpsCheckSumX = gps.gpsCheckSum then
          { gps with gotDataFlag := update gps.gotDataFlag cmd 1 } else gps)
      else gps.store cmd c
    else gps.store cmd c

/-- `GPRMC_Process`. -/
def gprmcProcess : GpsCells → UInt8 → Option (UInt8 × GpsCells) := process .gprmc

/-- `GPGGA_Process`. -/
def gpggaProcess : GpsCells → UInt8 → Option (UInt8 × GpsCells) := process .gpgga

/-- `GPGSA_Process`. -/
def gpgsaProcess : GpsCells → UInt8 → Option (UInt8 × GpsCells) := process .gpgsa

/-- `GPGSV_Process`. -/
def gpgsvProcess : GpsCells → UInt8 → Option (UInt8 × GpsCells) := process .gpgsv

/-- `func` of a row. -/
def func : GpsCmd → GpsCells → UInt8 → Option (UInt8 × GpsCells)
  | .gprmc => gprmcProcess
  | .gpgga => gpggaProcess
  | .gpgsa => gpgsaProcess
  | .gpgsv => gpgsvProcess

/-- The outer loop.  Behind a complete name it goes on with the `i` that the inner loop left; there
is no result if it takes more turns than the fuel. -/
def matchNames (c : UInt8) : ℕ → ℕ → GpsCells → Option GpsCells
  | 0, _, _ => none
  | fuel + 1, i, gps =>
      if i < gpsCmdCount then
        gps.gpsCmdCnt[i]?.bind fun cnt =>
        (cmdInfoAt i cnt.toNat).bind fun wanted =>
          if c = wanted then
            (store? gps.gpsCmdCnt i (cnt + 1)).bind fun cnts =>
            (cmdInfoAt i (cnt + 1).toNat).bind fun next =>
              if next = 0 then
                (nameEnd i (gpsCmdParserSize + 1) 0).bind fun i' =>
                  matchNames c fuel (i' + 1) { gps with
                    gpsCmdCnt := cnts
                    gpsNumCmd := UInt8.ofNat i
                    gpsCmdState := .waitFinish
                    gpsCmdRecvLength := 0 }
              else matchNames c fuel (i + 1) { gps with gpsCmdCnt := cnts }
          else
            (store? gps.gpsCmdCnt i 0).bind fun cnts =>
              matchNames c fuel (i + 1) { gps with gpsCmdCnt := cnts }
      else some gps

/-- The end of a sentence. -/
def finished (gps : GpsCells) : GpsCells :=
  { gps with gpsCmdState := .finish, gpsCmdCnt := Vector.replicate gpsCmdCount 0 }

/-- The two conditionals before the `switch`. -/
def trackCheckSum (gps : GpsCells) (c : UInt8) : GpsCells :=
  let gps := if c = 42 then { gps with gpsCalcCheckSumFlag := 0 } else gps
  if c = 36 then
    { gps with gpsCalcCheckSumFlag := 1, gpsCheckSum := 0, gpsGetCheckSumFlag := 0 }
  else if gps.gpsCalcCheckSumFlag ≠ 0 then { gps with gpsCheckSum := gps.gpsCheckSum ^^^ c }
  else gps

/-- The case `GPS_CMD_WAIT_FINISH`. -/
def waitFinish (gps : GpsCells) (c : UInt8) : Option (List HandlerCall × GpsCells) :=
  GpsCmd.all[gps.gpsNumCmd.toNat]?.bind fun cmd =>
  (func cmd gps c).map fun r =>
    let next := if r.1 = 0 then r.2.finished else r.2
    let next := { next with gpsCmdRecvLength := next.gpsCmdRecvLength + 1 }
    ([⟨gps.gpsNumCmd.toNat, gps.gpsCmdRecvLength.toNat⟩],
      if gpsMsgMaxSize ≤ next.gpsCmdRecvLength.toNat then next.finished else next)

/-- `GPS_ComnandParser`, and the handlers it calls. -/
def comnandParser (gps : GpsCells) (c : UInt8) : Option (List HandlerCall × GpsCells) :=
  let gps := gps.trackCheckSum c
  match gps.gpsCmdState with
  | .finish => (matchNames c (gpsCmdCount + 1) 0 gps).map fun next => ([], next)
  | .waitFinish => gps.waitFinish c
  | .newState => some ([], gps.finished)

/-- A byte, or `GPS_Task` clears a flag. -/
def step (gps : GpsCells) : GpsInput → Option (List HandlerCall × GpsCells)
  | .byte c => gps.comnandParser c
  | .taken cmd => some ([], { gps with gotDataFlag := update gps.gotDataFlag cmd 0 })

/-! ## The state by name -/

/-- The counter of a name. -/
def cnt (gps : GpsCells) (cmd : GpsCmd) : UInt32 := gps.gpsCmdCnt[cmd.row]

/-- The state with the rows of the table in place of their numbers. -/
def parser (gps : GpsCells) : GpsParser where
  gpsCalcCheckSumFlag := gps.gpsCalcCheckSumFlag ≠ 0
  gpsCheckSum := gps.gpsCheckSum
  gpsCheckSumX := gps.gpsCheckSumX
  gpsGetCheckSumFlag := gps.gpsGetCheckSumFlag
  gotDataFlag := fun cmd => gps.gotDataFlag cmd ≠ 0
  buff := fun cmd i => (gps.buff cmd)[i]?.getD 0
  gpsCmdCnt := fun cmd => (gps.cnt cmd).toNat
  gpsNumCmd := GpsCmd.all[gps.gpsNumCmd.toNat]?.getD .gprmc
  gpsCmdRecvLength := gps.gpsCmdRecvLength.toNat
  gpsCmdState := gps.gpsCmdState

end GpsCells

end Ampm

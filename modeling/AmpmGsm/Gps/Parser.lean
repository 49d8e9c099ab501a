import AmpmGsm.Gsm.DataCmp
import Mathlib.Logic.Function.Basic

/-!
# The recogniser of GPS sentences

`gps/ampm_gps.c`: three machines read one stream of bytes.  `GPS_ComnandParser` keeps the checksum,
keyed on `'$'` and `'*'`; its `switch` looks for the four names anywhere in the stream; and behind a
name the four `GP..._Process` functions fill a buffer and compare the checksum.

* `GpsCmd`, `GpsParser` — the table `GPS_ProcessCmd` and the part of `AMPM_GPS` that the parser uses.
* `gpsProcess` — the four `GP..._Process` functions, which differ in the flag and the buffer.
* `matchCmds`, `gpsComnandParser` — the parser.
* `matchCmds_cases` — what the loop over the names can do.
-/

namespace Ampm

open Function

/-! ## Data -/

/-- The rows of `GPS_ProcessCmd`. -/
inductive GpsCmd
  | gprmc
  | gpgga
  | gpgsa
  | gpgsv
  deriving DecidableEq

/-- The rows in their order. -/
def GpsCmd.all : List GpsCmd := [.gprmc, .gpgga, .gpgsa, .gpgsv]

/-- The three letters of a sentence. -/
def GpsCmd.letters : GpsCmd → List UInt8
  | .gprmc => bytesOf "RMC"
  | .gpgga => bytesOf "GGA"
  | .gpgsa => bytesOf "GSA"
  | .gpgsv => bytesOf "GSV"

/-- `cmdInfo`, up to the zeros that fill the array. -/
def GpsCmd.cmdInfo (cmd : GpsCmd) : List UInt8 := cmd.letters ++ bytesOf ","

/-- `GPS_CMD_STATE`. -/
inductive GpsCmdState
  | newState
  | waitFinish
  | finish
  deriving DecidableEq

/-- `GPS_MSG_MAX_SIZE`. -/
def gpsMsgMaxSize : ℕ := 80

/-- What the parser uses of `AMPM_GPS`; a got-data flag and a buffer for each sentence. -/
structure GpsParser where
  gpsCalcCheckSumFlag : Bool
  gpsCheckSum : UInt8
  gpsCheckSumX : UInt8
  gpsGetCheckSumFlag : UInt8
  gotDataFlag : GpsCmd → Bool
  buff : GpsCmd → ℕ → UInt8
  gpsCmdCnt : GpsCmd → ℕ
  gpsNumCmd : GpsCmd
  gpsCmdRecvLength : ℕ
  gpsCmdState : GpsCmdState

/-! ## The code -/

/-- `GPSInit`, as far as the parser is concerned. -/
def gpsInitParser (gps : GpsParser) : GpsParser :=
  { gps with
    gpsCheckSum := 0
    gpsCheckSumX := 0
    gpsGetCheckSumFlag := 0
    gotDataFlag := fun _ => false
    buff := fun _ _ => 0
    gpsCmdState := .finish }

/-- What the processes make of a character of the checksum. -/
def checkSumDigit (c : UInt8) : UInt8 := if 48 ≤ c ∧ c ≤ 57 then c - 48 else c - 65 + 10

/-- The last statement of the processes. -/
def GpsParser.store (gps : GpsParser) (cmd : GpsCmd) (c : UInt8) : GpsParser :=
  { gps with buff := update gps.buff cmd (update (gps.buff cmd) gps.gpsCmdRecvLength c) }

/-- The four processes. -/
def gpsProcess (cmd : GpsCmd) (gps : GpsParser) (c : UInt8) : UInt8 × GpsParser :=
  if gps.gotDataFlag cmd then (0, gps)
  else
    let gps := if gps.gpsCmdRecvLength = 0 then
      { gps with gpsGetCheckSumFlag := 0, gpsCheckSumX := 0 } else gps
    if c = 42 then
      (0xff, { gps with gpsCheckSumX := 0, gpsGetCheckSumFlag := 1 }.store cmd c)
    else if gps.gpsGetCheckSumFlag ≠ 0 then
      let x := gps.gpsCheckSumX ||| checkSumDigit c
      let x := if gps.gpsGetCheckSumFlag = 1 then x <<< 4 else x
      let gps := { gps with
        gpsCheckSumX := x
        gpsGetCheckSumFlag := gps.gpsGetCheckSumFlag + 1 }
      if gps.gpsGetCheckSumFlag > 2 then
        (0, if gps.gpsCheckSumX = gps.gpsCheckSum then
          { gps with gotDataFlag := update gps.gotDataFlag cmd true } else gps)
      else (0xff, gps.store cmd c)
    else (0xff, gps.store cmd c)

/-- `GPRMC_Process`. -/
def gprmcProcess : GpsParser → UInt8 → UInt8 × GpsParser := gpsProcess .gprmc

/-- `GPGGA_Process`. -/
def gpggaProcess : GpsParser → UInt8 → UInt8 × GpsParser := gpsProcess .gpgga

/-- `GPGSA_Process`. -/
def gpgsaProcess : GpsParser → UInt8 → UInt8 × GpsParser := gpsProcess .gpgsa

/-- `GPGSV_Process`. -/
def gpgsvProcess : GpsParser → UInt8 → UInt8 × GpsParser := gpsProcess .gpgsv

/-- `func`. -/
def GpsCmd.func : GpsCmd → GpsParser → UInt8 → UInt8 × GpsParser
  | .gprmc => gprmcProcess
  | .gpgga => gpggaProcess
  | .gpgsa => gpgsaProcess
  | .gpgsv => gpgsvProcess

/-- The loop over the names.  Behind a complete name the inner loop leaves `i` at its length, which
is the number of rows, and the outer loop ends. -/
def matchCmds (c : UInt8) : List GpsCmd → GpsParser → GpsParser
  | [], gps => gps
  | cmd :: cmds, gps =>
      if c = cmd.cmdInfo.getD (gps.gpsCmdCnt cmd) 0 then
        let gps := { gps with
          gpsCmdCnt := update gps.gpsCmdCnt cmd (gps.gpsCmdCnt cmd + 1) }
        if cmd.cmdInfo.getD (gps.gpsCmdCnt cmd) 0 = 0 then
          { gps with
            gpsNumCmd := cmd
            gpsCmdState := .waitFinish
            gpsCmdRecvLength := 0 }
        else matchCmds c cmds gps
      else matchCmds c cmds { gps with gpsCmdCnt := update gps.gpsCmdCnt cmd 0 }

/-- The end of a sentence. -/
def GpsParser.finished (gps : GpsParser) : GpsParser :=
  { gps with gpsCmdState := .finish, gpsCmdCnt := fun _ => 0 }

/-- The two conditionals before the `switch`. -/
def trackCheckSum (gps : GpsParser) (c : UInt8) : GpsParser :=
  let gps := if c = 42 then { gps with gpsCalcCheckSumFlag := false } else gps
  if c = 36 then
    { gps with gpsCalcCheckSumFlag := true, gpsCheckSum := 0, gpsGetCheckSumFlag := 0 }
  else if gps.gpsCalcCheckSumFlag then { gps with gpsCheckSum := gps.gpsCheckSum ^^^ c }
  else gps

/-- The case `GPS_CMD_WAIT_FINISH`. -/
def waitFinish (gps : GpsParser) (c : UInt8) : GpsParser :=
  let r := gps.gpsNumCmd.func gps c
  let gps := if r.1 = 0 then r.2.finished else r.2
  let gps := { gps with gpsCmdRecvLength := gps.gpsCmdRecvLength + 1 }
  if gps.gpsCmdRecvLength ≥ gpsMsgMaxSize then gps.finished else gps

/-- `GPS_ComnandParser`. -/
def gpsComnandParser (gps : GpsParser) (c : UInt8) : GpsParser :=
  let gps := trackCheckSum gps c
  match gps.gpsCmdState with
  | .finish => matchCmds c GpsCmd.all gps
  | .waitFinish => waitFinish gps c
  | .newState => gps.finished

@[simp] lemma GpsCmd.func_eq (cmd : GpsCmd) : cmd.func = gpsProcess cmd := by
  cases cmd <;> rfl

/-! ## The loop over the names -/

/-- The counter of a name behind a byte. -/
def GpsCmd.nextCnt (cmd : GpsCmd) (cnt : ℕ) (c : UInt8) : ℕ :=
  if c = cmd.cmdInfo.getD cnt 0 then cnt + 1 else 0

/-- The byte is the last one of a name. -/
def GpsCmd.Completes (cmd : GpsCmd) (cnt : ℕ) (c : UInt8) : Prop :=
  c = cmd.cmdInfo.getD cnt 0 ∧ cmd.cmdInfo.getD (cnt + 1) 0 = 0

instance (cmd : GpsCmd) (cnt : ℕ) (c : UInt8) : Decidable (cmd.Completes cnt c) :=
  inferInstanceAs (Decidable (_ ∧ _))

/-- **The loop over the names.**  Either no name is complete, and the counters are the next ones; or
one is, and the parser waits for its sentence. -/
theorem matchCmds_cases (c : UInt8) {cmds : List GpsCmd} (hnodup : cmds.Nodup) (gps : GpsParser) :
    ((∀ cmd ∈ cmds, ¬ cmd.Completes (gps.gpsCmdCnt cmd) c) ∧
      matchCmds c cmds gps = { gps with
        gpsCmdCnt := fun cmd => if cmd ∈ cmds then cmd.nextCnt (gps.gpsCmdCnt cmd) c
          else gps.gpsCmdCnt cmd }) ∨
    ∃ cmd ∈ cmds, cmd.Completes (gps.gpsCmdCnt cmd) c ∧ ∃ cnt,
      matchCmds c cmds gps = { gps with
        gpsCmdCnt := cnt
        gpsNumCmd := cmd
        gpsCmdState := .waitFinish
        gpsCmdRecvLength := 0 } := by
  induction cmds generalizing gps with
  | nil => exact Or.inl ⟨by simp, by simp [matchCmds]⟩
  | cons cmd cmds ih =>
      obtain ⟨hnew, hnodup⟩ := List.nodup_cons.mp hnodup
      by_cases hdone : cmd.Completes (gps.gpsCmdCnt cmd) c
      · refine Or.inr ⟨cmd, List.mem_cons_self, hdone,
          update gps.gpsCmdCnt cmd (gps.gpsCmdCnt cmd + 1), ?_⟩
        rw [matchCmds, if_pos hdone.1]
        simp only [update_self, if_pos hdone.2]
      · -- the counter of this name moves on, and the rest of the loop does not look at it
        have hrest : matchCmds c (cmd :: cmds) gps = matchCmds c cmds { gps with
            gpsCmdCnt := update gps.gpsCmdCnt cmd (cmd.nextCnt (gps.gpsCmdCnt cmd) c) } := by
          rw [matchCmds, GpsCmd.nextCnt]
          by_cases hc : c = cmd.cmdInfo.getD (gps.gpsCmdCnt cmd) 0
          · have hmore : ¬ cmd.cmdInfo.getD (gps.gpsCmdCnt cmd + 1) 0 = 0 :=
              fun h => hdone ⟨hc, h⟩
            simp only [if_pos hc, update_self, if_neg hmore]
          · simp only [if_neg hc]
        have hother : ∀ other ∈ cmds, update gps.gpsCmdCnt cmd
            (cmd.nextCnt (gps.gpsCmdCnt cmd) c) other = gps.gpsCmdCnt other := by
          intro other hmem
          have hne : other ≠ cmd := ne_of_mem_of_not_mem hmem hnew
          exact update_of_ne hne _ _
        rw [hrest]
        rcases ih hnodup { gps with
            gpsCmdCnt := update gps.gpsCmdCnt cmd (cmd.nextCnt (gps.gpsCmdCnt cmd) c) } with
          ⟨hnone, heq⟩ | ⟨found, hmem, hfound, cnt, heq⟩
        · refine Or.inl ⟨?_, ?_⟩
          · intro other hmem
            rcases List.mem_cons.mp hmem with rfl | hmem
            · exact hdone
            · have hnone' := hnone other hmem
              simpa only [hother other hmem] using hnone'
          · rw [heq]
            congr 1
            funext other
            by_cases hmem : other ∈ cmds
            · simp [hmem, hother other hmem]
            · by_cases hsame : other = cmd
              · subst hsame
                simp [hmem]
              · simp [hmem, hsame]
        · refine Or.inr ⟨found, List.mem_cons_of_mem cmd hmem, ?_, cnt, heq⟩
          simpa only [hother found hmem] using hfound

/-- A byte that completes no name. -/
lemma matchCmds_of_none {c : UInt8} {gps : GpsParser}
    (h : ∀ cmd : GpsCmd, ¬ cmd.Completes (gps.gpsCmdCnt cmd) c) :
    matchCmds c GpsCmd.all gps = { gps with
      gpsCmdCnt := fun cmd => cmd.nextCnt (gps.gpsCmdCnt cmd) c } := by
  rcases matchCmds_cases c (show GpsCmd.all.Nodup by decide) gps with
    ⟨-, heq⟩ | ⟨cmd, -, hdone, -⟩
  · rw [heq]
    congr 1
    funext cmd
    exact if_pos (by cases cmd <;> decide)
  · exact absurd hdone (h cmd)

/-- A byte that completes a name. -/
lemma matchCmds_of_some {c : UInt8} {gps : GpsParser} {cmd : GpsCmd}
    (h : cmd.Completes (gps.gpsCmdCnt cmd) c) :
    ∃ found : GpsCmd, found.Completes (gps.gpsCmdCnt found) c ∧ ∃ cnt,
      matchCmds c GpsCmd.all gps = { gps with
        gpsCmdCnt := cnt
        gpsNumCmd := found
        gpsCmdState := .waitFinish
        gpsCmdRecvLength := 0 } := by
  rcases matchCmds_cases c (show GpsCmd.all.Nodup by decide) gps with
    ⟨hnone, -⟩ | ⟨found, -, hdone, heq⟩
  · exact absurd h (hnone cmd (by cases cmd <;> decide))
  · exact ⟨found, hdone, heq⟩

end Ampm

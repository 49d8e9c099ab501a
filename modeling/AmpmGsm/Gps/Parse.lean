import AmpmGsm.Gps.Info
import Mathlib.Data.Int.Notation

/-!
# The sentences of the GPS receiver

`gps/ampm_gps.c`: `nmea_scanf` and the four functions that parse a sentence with it.

* `nmeaAtoi`, `nmeaAtof` — numbers.
* `nmeaScanf` — the conversions that a format finds in a buffer, up to the first byte that does not
  fit; `fillTargets` — what they store.
* `nmeaParseGprmc`, `nmeaParseGpgga`, `nmeaParseGpgsa`, `nmeaParseGpgsv` — the return value, and the
  packet, which is filled as far as the conversions went.
-/

namespace Ampm

/-! ## Numbers -/

/-- `strtol` to the base of ten; `long` has 32 bits, and a number that does not fit becomes the
nearest one that does. -/
def strtol (str : List UInt8) : Int32 :=
  match str.dropWhile isSpace with
  | 45 :: digits => Int32.ofIntClamp (-(leadingDigits digits : ℤ))
  | 43 :: digits => Int32.ofIntClamp (leadingDigits digits)
  | digits => Int32.ofIntClamp (leadingDigits digits)

/-- `nmea_atoi` to the base of ten. -/
def nmeaAtoi (str : List UInt8) : Int32 := if str.length < 32 then strtol str else 0

/-- `nmea_atof`. -/
def nmeaAtof {D : Type} (ops : Doubles D) (str : List UInt8) : D :=
  if str.length < 32 then ops.strtod str else ops.zero

/-! ## `nmea_scanf` -/

/-- The width of a conversion `f`: its digits, or one byte for a character. -/
def scanWidth (f next : UInt8) (digits buff : List UInt8) : ℕ :=
  let width := if digits = [] then 0 else (nmeaAtoi digits).toInt.toNat
  if width = 0 ∧ (f = 99 ∨ f = 67) ∧ buff.headD 0 ≠ next then 1 else width

/-- The bytes of a conversion and those behind them: as many as its width, or up to the next byte
of the format. -/
def scanToken (next : UInt8) (width : ℕ) (buff : List UInt8) :
    Option (List UInt8 × List UInt8) :=
  if width ≠ 0 then
    if width ≤ buff.length then some (buff.take width, buff.drop width) else none
  else if next = 0 then some (buff, [])
  else some (buff.takeWhile (· ≠ next), buff.dropWhile (· ≠ next))

/-- The conversions of the `switch`. -/
def scanTypes : List UInt8 := bytesOf "cCsSfgGeEdiuxXo"

/-- `nmea_scanf`, as the conversions it counts and their bytes.  The second argument holds the
digits behind a `'%'`, if the format is there. -/
def nmeaScanf : List UInt8 → Option (List UInt8) → List UInt8 → List (UInt8 × List UInt8)
  | [], _, _ => []
  | _ :: _, _, [] => []
  | f :: format, none, c :: buff =>
      if f = 37 then nmeaScanf format (some []) (c :: buff)
      else if c = f then nmeaScanf format none buff
      else []
  | f :: format, some digits, c :: buff =>
      if isDigit f then nmeaScanf format (some (digits ++ [f])) (c :: buff)
      else
        let next := format.headD 0
        match scanToken next (scanWidth f next digits (c :: buff)) (c :: buff) with
        | none => []
        | some (token, rest) =>
            if token ≠ [] ∧ f ∉ scanTypes then [(f, token)]
            else (f, token) :: nmeaScanf format none rest

/-- What the conversions store through their arguments; one without bytes stores nothing. -/
def fillTargets {P : Type} (targets : List (List UInt8 → P → P))
    (tokens : List (UInt8 × List UInt8)) (pack : P) : P :=
  (tokens.zip targets).foldl (fun p t => if t.1.2 = [] then p else t.2 t.1.2 p) pack

/-- The argument of `%d`. -/
def intTarget {P : Type} (store : Int32 → P → P) : List UInt8 → P → P :=
  fun text => store (nmeaAtoi text)

/-- The argument of `%C`. -/
def charTarget {P : Type} (store : UInt8 → P → P) : List UInt8 → P → P :=
  fun text => store (text.headD 0)

/-- The argument of `%f`. -/
def doubleTarget {D P : Type} (ops : Doubles D) (store : D → P → P) : List UInt8 → P → P :=
  fun text => store (nmeaAtof ops text)

/-- `NMEA_TIMEPARSE_BUF`. -/
def nmeaTimeparseBuf : ℕ := 16

/-- The argument of `%s`: the string that `time_buff` holds, and `none` once the field with its NUL
was copied past the end of the array. -/
def timeTarget {P : Type} : List UInt8 → P × Option (List UInt8) → P × Option (List UInt8) :=
  fun text p =>
    (p.1, if text.length < nmeaTimeparseBuf then some (text.takeWhile (· ≠ 0)) else none)

/-! ## The packets -/

section Packets

variable {D : Type} (ops : Doubles D)

/-- `memset` of a `nmeaGPRMC`. -/
def nmeaGprmcZero : NmeaGprmc D :=
  ⟨nmeaTimeZero, 0, ops.zero, 0, ops.zero, 0, ops.zero, ops.zero, ops.zero, 0, 0⟩

/-- `memset` of a `nmeaGPGGA`. -/
def nmeaGpggaZero : NmeaGpgga D :=
  ⟨nmeaTimeZero, ops.zero, 0, ops.zero, 0, 0, 0, ops.zero, ops.zero, 0, ops.zero, 0, ops.zero, 0⟩

/-- `memset` of a `nmeaGPGSA`. -/
def nmeaGpgsaZero : NmeaGpgsa D := ⟨0, 0, fun _ => 0, ops.zero, ops.zero, ops.zero⟩

/-- `memset` of a `nmeaGPGSV`. -/
def nmeaGpgsvZero : NmeaGpgsv := ⟨0, 0, 0, fun _ => nmeaSatelliteZero⟩

/-- The arguments of the time of day. -/
def timeTargets : List (List UInt8 → NmeaTime → NmeaTime) :=
  [intTarget fun v t => { t with hour := v }, intTarget fun v t => { t with min := v },
    intTarget fun v t => { t with sec := v }, intTarget fun v t => { t with hsec := v }]

/-- `_nmea_parse_time`. -/
def nmeaParseTime (buff : List UInt8) (res : NmeaTime) : ℤ × NmeaTime :=
  if buff.length = 6 then
    let tokens := nmeaScanf (bytesOf "%2d%2d%2d") none buff
    (if tokens.length = 3 then 0 else -1, fillTargets timeTargets tokens res)
  else if buff.length = 8 ∨ buff.length = 9 ∨ buff.length = 10 then
    let tokens := nmeaScanf (bytesOf "%2d%2d%2d.%d") none buff
    (if tokens.length = 4 then 0 else -1, fillTargets timeTargets tokens res)
  else (-1, res)

/-- The arguments of the scan of `nmea_parse_GPRMC`. -/
def gprmcTargets :
    List (List UInt8 → NmeaGprmc D × Option (List UInt8) → NmeaGprmc D × Option (List UInt8)) :=
  [timeTarget,
    charTarget fun v p => ({ p.1 with status := v }, p.2),
    doubleTarget ops fun v p => ({ p.1 with lat := v }, p.2),
    charTarget fun v p => ({ p.1 with ns := v }, p.2),
    doubleTarget ops fun v p => ({ p.1 with lon := v }, p.2),
    charTarget fun v p => ({ p.1 with ew := v }, p.2),
    doubleTarget ops fun v p => ({ p.1 with speed := v }, p.2),
    doubleTarget ops fun v p => ({ p.1 with direction := v }, p.2),
    intTarget fun v p => ({ p.1 with utc := { p.1.utc with day := v } }, p.2),
    intTarget fun v p => ({ p.1 with utc := { p.1.utc with mon := v } }, p.2),
    intTarget fun v p => ({ p.1 with utc := { p.1.utc with year := v } }, p.2),
    doubleTarget ops fun v p => ({ p.1 with declination := v }, p.2),
    charTarget fun v p => ({ p.1 with declinEw := v }, p.2),
    charTarget fun v p => ({ p.1 with mode := v }, p.2)]

/-- `nmea_parse_GPRMC`; `stack` is the string that `time_buff` holds before it is written.  There is
no result when the first field runs over the end of `time_buff`. -/
def nmeaParseGprmc (stack buff : List UInt8) : Option (ℤ × NmeaGprmc D) :=
  let tokens := nmeaScanf (bytesOf "%s,%C,%f,%C,%f,%C,%f,%f,%2d%2d%2d,%f,%C,%C*") none buff
  let p := fillTargets (gprmcTargets ops) tokens (nmeaGprmcZero ops, some stack)
  p.2.map fun timeBuff =>
    if tokens.length ≠ 13 ∧ tokens.length ≠ 14 then (0, p.1)
    else
      let time := nmeaParseTime timeBuff p.1.utc
      if time.1 ≠ 0 then (0, { p.1 with utc := time.2 })
      else
        (1, { p.1 with
          utc := { time.2 with
            year := if time.2.year < 90 then time.2.year + 100 else time.2.year
            mon := time.2.mon - 1 } })

/-- The arguments of the scan of `nmea_parse_GPGGA`. -/
def gpggaTargets :
    List (List UInt8 → NmeaGpgga D × Option (List UInt8) → NmeaGpgga D × Option (List UInt8)) :=
  [timeTarget,
    doubleTarget ops fun v p => ({ p.1 with lat := v }, p.2),
    charTarget fun v p => ({ p.1 with ns := v }, p.2),
    doubleTarget ops fun v p => ({ p.1 with lon := v }, p.2),
    charTarget fun v p => ({ p.1 with ew := v }, p.2),
    intTarget fun v p => ({ p.1 with sig := v }, p.2),
    intTarget fun v p => ({ p.1 with satinuse := v }, p.2),
    doubleTarget ops fun v p => ({ p.1 with hdop := v }, p.2),
    doubleTarget ops fun v p => ({ p.1 with elv := v }, p.2),
    charTarget fun v p => ({ p.1 with elvUnits := v }, p.2),
    doubleTarget ops fun v p => ({ p.1 with diff := v }, p.2),
    charTarget fun v p => ({ p.1 with diffUnits := v }, p.2),
    doubleTarget ops fun v p => ({ p.1 with dgpsAge := v }, p.2),
    intTarget fun v p => ({ p.1 with dgpsSid := v }, p.2)]

/-- `nmea_parse_GPGGA`, as `nmeaParseGprmc`. -/
def nmeaParseGpgga (stack buff : List UInt8) : Option (ℤ × NmeaGpgga D) :=
  let tokens := nmeaScanf (bytesOf "%s,%f,%C,%f,%C,%d,%d,%f,%f,%C,%f,%C,%f,%d*") none buff
  let p := fillTargets (gpggaTargets ops) tokens (nmeaGpggaZero ops, some stack)
  p.2.map fun timeBuff =>
    if tokens.length ≠ 14 then (0, p.1)
    else
      let time := nmeaParseTime timeBuff p.1.utc
      (if time.1 ≠ 0 then 0 else 1, { p.1 with utc := time.2 })

/-- The arguments of the scan of `nmea_parse_GPGSA`. -/
def gpgsaTargets : List (List UInt8 → NmeaGpgsa D → NmeaGpgsa D) :=
  [charTarget fun v p => { p with fixMode := v }, intTarget fun v p => { p with fixType := v }]
    ++ (List.range 12).map (fun i =>
      intTarget fun v p => { p with satPrn := Function.update p.satPrn i v })
    ++ [doubleTarget ops fun v p => { p with pdop := v },
      doubleTarget ops fun v p => { p with hdop := v },
      doubleTarget ops fun v p => { p with vdop := v }]

/-- `nmea_parse_GPGSA`. -/
def nmeaParseGpgsa (buff : List UInt8) : ℤ × NmeaGpgsa D :=
  let tokens :=
    nmeaScanf (bytesOf "%C,%d,%d,%d,%d,%d,%d,%d,%d,%d,%d,%d,%d,%d,%f,%f,%f*") none buff
  (if tokens.length ≠ 17 then 0 else 1,
    fillTargets (gpgsaTargets ops) tokens (nmeaGpgsaZero ops))

/-- An argument in `sat_data`. -/
def satTarget (i : ℕ) (store : Int32 → NmeaSatellite → NmeaSatellite) :
    List UInt8 → NmeaGpgsv → NmeaGpgsv :=
  intTarget fun v p => { p with
    satData := Function.update p.satData i (store v (p.satData i)) }

/-- The arguments of the scan of `nmea_parse_GPGSV`. -/
def gpgsvTargets : List (List UInt8 → NmeaGpgsv → NmeaGpgsv) :=
  [intTarget fun v p => { p with packCount := v }, intTarget fun v p => { p with packIndex := v },
      intTarget fun v p => { p with satCount := v }]
    ++ (List.range 4).flatMap fun i =>
      [satTarget i fun v sat => { sat with id := v }, satTarget i fun v sat => { sat with elv := v },
        satTarget i fun v sat => { sat with azimuth := v },
        satTarget i fun v sat => { sat with sig := v }]

/-- `nmea_parse_GPGSV`. -/
def nmeaParseGpgsv (buff : List UInt8) : ℤ × NmeaGpgsv :=
  let tokens :=
    nmeaScanf (bytesOf "%d,%d,%d,%d,%d,%d,%d,%d,%d,%d,%d,%d,%d,%d,%d,%d,%d,%d,%d*") none buff
  let pack := fillTargets gpgsvTargets tokens nmeaGpgsvZero
  let nsen := Int32.ofNat tokens.length
  let nsat := (pack.packIndex - 1) * nmeaSatinpack
  let nsat := if nsat + nmeaSatinpack > pack.satCount then pack.satCount - nsat else nmeaSatinpack
  let nsat := nsat * 4 + 3
  (if nsen < nsat ∨ nsen > nmeaSatinpack * 4 + 3 then 0 else 1, pack)

end Packets

end Ampm

import AmpmGsm.Gsm.DataCmp
import Mathlib.Logic.Function.Basic
import Mathlib.Tactic.Ext

/-!
# The summary of the GPS data

`gps/ampm_gps.c`: the packets of the four sentences, and what each does to `nmeaINFO`.  `int` is 32
bits wide and wraps around.  `double` is a type of its own with the operations that the code uses.

* `Doubles` — the operations on `double`.
* `NmeaInfo` — `nmeaINFO`, and `NmeaGprmc`, `NmeaGpgga`, `NmeaGpgsa`, `NmeaGpgsv` — the packets.
* `nmeaGprmc2info`, `nmeaGpgga2info`, `nmeaGpgsa2info`, `nmeaGpgsv2info` — the four functions; the
  two that touch the satellite table also say which entries.
-/

namespace Ampm

open Function

/-! ## Data -/

/-- The operations on `double`: zero, the sign, `formatLatLng`, the product with `NMEA_TUD_KNOTS`,
and `strtod` on the bytes of a string. -/
structure Doubles (D : Type) where
  zero : D
  neg : D → D
  formatLatLng : D → D
  knots : D → D
  strtod : List UInt8 → D

/-- `nmeaTIME`. -/
@[ext]
structure NmeaTime where
  year : Int32
  mon : Int32
  day : Int32
  hour : Int32
  min : Int32
  sec : Int32
  hsec : Int32
  deriving DecidableEq

/-- `nmeaSATELLITE`. -/
@[ext]
structure NmeaSatellite where
  id : Int32
  inUse : Int32
  elv : Int32
  azimuth : Int32
  sig : Int32
  deriving DecidableEq

/-- `nmeaSATINFO`; `sat` has 12 entries. -/
@[ext]
structure NmeaSatinfo where
  inuse : Int32
  inview : Int32
  sat : Int32 → NmeaSatellite

/-- `nmeaINFO`, without the fields that nothing writes. -/
@[ext]
structure NmeaInfo (D : Type) where
  smask : Int32
  utc : NmeaTime
  sig : Int32
  fix : Int32
  pdop : D
  hdop : D
  vdop : D
  mlat : D
  ns : UInt8
  mlon : D
  ew : UInt8
  lat : D
  lon : D
  elv : D
  speed : D
  direction : D
  satinfo : NmeaSatinfo

/-- `nmeaGPRMC`. -/
@[ext]
structure NmeaGprmc (D : Type) where
  utc : NmeaTime
  status : UInt8
  lat : D
  ns : UInt8
  lon : D
  ew : UInt8
  speed : D
  direction : D
  declination : D
  declinEw : UInt8
  mode : UInt8

/-- `nmeaGPGGA`. -/
@[ext]
structure NmeaGpgga (D : Type) where
  utc : NmeaTime
  lat : D
  ns : UInt8
  lon : D
  ew : UInt8
  sig : Int32
  satinuse : Int32
  hdop : D
  elv : D
  elvUnits : UInt8
  diff : D
  diffUnits : UInt8
  dgpsAge : D
  dgpsSid : Int32

/-- `nmeaGPGSA`; `satPrn` has 12 entries. -/
@[ext]
structure NmeaGpgsa (D : Type) where
  fixMode : UInt8
  fixType : Int32
  satPrn : ℕ → Int32
  pdop : D
  hdop : D
  vdop : D

/-- `nmeaGPGSV`; `satData` has 4 entries. -/
@[ext]
structure NmeaGpgsv where
  packCount : Int32
  packIndex : Int32
  satCount : Int32
  satData : ℕ → NmeaSatellite

/-! ## Constants -/

/-- `NMEA_SIG_BAD`. -/
def nmeaSigBad : Int32 := 0

/-- `NMEA_SIG_MID`. -/
def nmeaSigMid : Int32 := 2

/-- `NMEA_FIX_BAD`. -/
def nmeaFixBad : Int32 := 1

/-- `NMEA_FIX_2D`. -/
def nmeaFix2d : Int32 := 2

/-- `NMEA_MAXSAT`. -/
def nmeaMaxsat : Int32 := 12

/-- `NMEA_SATINPACK`. -/
def nmeaSatinpack : Int32 := 4

/-- `GPGGA`, `GPGSA`, `GPGSV` and `GPRMC` of `nmeaPACKTYPE`. -/
def maskGpgga : Int32 := 1

def maskGpgsa : Int32 := 2

def maskGpgsv : Int32 := 4

def maskGprmc : Int32 := 8

/-- A cleared `nmeaTIME`. -/
def nmeaTimeZero : NmeaTime := ⟨0, 0, 0, 0, 0, 0, 0⟩

/-- A cleared `nmeaSATELLITE`. -/
def nmeaSatelliteZero : NmeaSatellite := ⟨0, 0, 0, 0, 0⟩

/-! ## The code -/

section Code

variable {D : Type} (ops : Doubles D)

/-- `nmea_zero_INFO`. -/
def nmeaZeroInfo : NmeaInfo D where
  smask := 0
  utc := nmeaTimeZero
  sig := nmeaSigBad
  fix := nmeaFixBad
  pdop := ops.zero
  hdop := ops.zero
  vdop := ops.zero
  mlat := ops.zero
  ns := 0
  mlon := ops.zero
  ew := 0
  lat := ops.zero
  lon := ops.zero
  elv := ops.zero
  speed := ops.zero
  direction := ops.zero
  satinfo := ⟨0, 0, fun _ => nmeaSatelliteZero⟩

/-- A coordinate with its hemisphere. -/
def signedLatLng (positive : Prop) [Decidable positive] (v : D) : D :=
  if positive then ops.formatLatLng v else ops.neg (ops.formatLatLng v)

/-- `nmea_GPGGA2info`. -/
def nmeaGpgga2info (pack : NmeaGpgga D) (info : NmeaInfo D) : NmeaInfo D :=
  { info with
    utc := { info.utc with
      hour := pack.utc.hour
      min := pack.utc.min
      sec := pack.utc.sec
      hsec := pack.utc.hsec }
    sig := pack.sig
    hdop := pack.hdop
    elv := pack.elv
    mlat := pack.lat
    mlon := pack.lon
    ew := pack.ew
    ns := pack.ns
    lat := signedLatLng ops (pack.ns = 78) pack.lat
    lon := signedLatLng ops (pack.ew = 69) pack.lon
    smask := info.smask ||| maskGpgga }

/-- The body of the loops of `nmea_GPGSA2info`, on the table, `nuse` and the entries touched. -/
def gsaVisit (prn : Int32) (s : NmeaSatinfo × Int32 × List Int32) (j : ℕ) :
    NmeaSatinfo × Int32 × List Int32 :=
  if prn ≠ 0 then
    let touched := s.2.2 ++ [Int32.ofNat j]
    if prn = (s.1.sat (Int32.ofNat j)).id then
      ({ s.1 with
          sat := update s.1.sat (Int32.ofNat j)
            { s.1.sat (Int32.ofNat j) with inUse := 1 } }, s.2.1 + 1, touched)
    else (s.1, s.2.1, touched)
  else s

/-- `nmea_GPGSA2info`, and the entries of `satinfo.sat` it touches. -/
def nmeaGpgsa2info (pack : NmeaGpgsa D) (info : NmeaInfo D) : NmeaInfo D × List Int32 :=
  let s := (List.range 12).foldl
    (fun s i => (List.range info.satinfo.inview.toInt.toNat).foldl (gsaVisit (pack.satPrn i)) s)
    (info.satinfo, 0, [])
  ({ info with
    fix := pack.fixType
    pdop := pack.pdop
    hdop := pack.hdop
    vdop := pack.vdop
    satinfo := { s.1 with inuse := s.2.1 }
    smask := info.smask ||| maskGpgsa }, s.2.2)

/-- The body of the loop of `nmea_GPGSV2info`. -/
def gsvStore (pack : NmeaGpgsv) (first : Int32) (s : (Int32 → NmeaSatellite) × List Int32)
    (isat : ℕ) : (Int32 → NmeaSatellite) × List Int32 :=
  let isi := first + Int32.ofNat isat
  (update s.1 isi { s.1 isi with
      id := (pack.satData isat).id
      elv := (pack.satData isat).elv
      azimuth := (pack.satData isat).azimuth
      sig := (pack.satData isat).sig }, s.2 ++ [isi])

/-- `nmea_GPGSV2info`, and the entries of `satinfo.sat` it touches. -/
def nmeaGpgsv2info (pack : NmeaGpgsv) (info : NmeaInfo D) : NmeaInfo D × List Int32 :=
  if pack.packIndex > pack.packCount ∨ pack.packIndex * nmeaSatinpack > nmeaMaxsat then (info, [])
  else
    let packIndex := if pack.packIndex < 1 then 1 else pack.packIndex
    let nsat := (packIndex - 1) * nmeaSatinpack
    let nsat := if nsat + nmeaSatinpack > pack.satCount then pack.satCount - nsat else nmeaSatinpack
    let s := (List.range nsat.toInt.toNat).foldl
      (gsvStore pack ((packIndex - 1) * nmeaSatinpack)) (info.satinfo.sat, [])
    ({ info with
      satinfo := { info.satinfo with inview := pack.satCount, sat := s.1 }
      smask := info.smask ||| maskGpgsv }, s.2)

/-- `nmea_GPRMC2info`. -/
def nmeaGprmc2info (pack : NmeaGprmc D) (info : NmeaInfo D) : NmeaInfo D :=
  let info :=
    if pack.status = 65 then
      { info with
        sig := if info.sig = nmeaSigBad then nmeaSigMid else info.sig
        fix := if info.fix = nmeaFixBad then nmeaFix2d else info.fix }
    else if pack.status = 86 then { info with sig := nmeaSigBad, fix := nmeaFixBad }
    else info
  { info with
    utc := pack.utc
    mlat := pack.lat
    mlon := pack.lon
    ew := pack.ew
    ns := pack.ns
    lat := signedLatLng ops (pack.ns = 78) pack.lat
    lon := signedLatLng ops (pack.ew = 69) pack.lon
    speed := ops.knots pack.speed
    direction := pack.direction
    smask := info.smask ||| maskGprmc }

end Code

end Ampm

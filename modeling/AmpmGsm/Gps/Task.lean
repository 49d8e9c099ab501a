import AmpmGsm.Gps.Parse
import AmpmGsm.Gps.Satellites
import AmpmGsm.Gps.Sentence
import AmpmGsm.Ring.Ringbuf

/-!
# The task of the GPS receiver

`GPS_Task`: a byte at a time goes through the parser, and a sentence that was accepted is parsed and
its packet applied to `gpsInfo`, whatever the return value of the parse function was.

* `AmpmGps`, `gpsTake`, `gpsTaskStep`, `gpsTask` — the task, in the steps of its loop; there is no
  state behind a sentence whose first field ran over the end of `time_buff`.
* `gpsTask_eq_run` — the loop takes the bytes of the ring.
-/

namespace Ampm

open Function Runs

/-! ## The code -/

/-- `AMPM_GPS`. -/
structure AmpmGps (D : Type) extends GpsParser where
  gpsInfo : NmeaInfo D
  gpsRxRingBuff : Ringbuf

section Code

variable {D : Type} (ops : Doubles D)

/-- The buffer of a sentence. -/
def AmpmGps.sentence (gps : AmpmGps D) (cmd : GpsCmd) : List UInt8 :=
  (List.range gpsMsgMaxSize).map (gps.buff cmd)

/-- The parse function on the buffer of the sentence: its return value, and what the packet makes of
`gpsInfo`.  `stack` is what `time_buff` starts with. -/
def parseApply (cmd : GpsCmd) (stack text : List UInt8) (info : NmeaInfo D) :
    Option (ℤ × NmeaInfo D) :=
  match cmd with
  | .gprmc => (nmeaParseGprmc ops stack text).map fun r => (r.1, nmeaGprmc2info ops r.2 info)
  | .gpgga => (nmeaParseGpgga ops stack text).map fun r => (r.1, nmeaGpgga2info ops r.2 info)
  | .gpgsa => some ((nmeaParseGpgsa ops text).1, (nmeaGpgsa2info (nmeaParseGpgsa ops text).2 info).1)
  | .gpgsv => some ((nmeaParseGpgsv text).1, (nmeaGpgsv2info (nmeaParseGpgsv text).2 info).1)

/-- The conditional of `GPS_Task` for a sentence; the return value is not looked at. -/
def gpsTake (cmd : GpsCmd) (stack : List UInt8) (gps : AmpmGps D) : Option (AmpmGps D) :=
  if gps.gotDataFlag cmd then
    (parseApply ops cmd stack (gps.sentence cmd) gps.gpsInfo).map fun r =>
      { gps with gpsInfo := r.2, gotDataFlag := update gps.gotDataFlag cmd false }
  else some gps

/-- A step of the loop of `GPS_Task`. -/
inductive GpsTaskStep
  | byte (c : UInt8)
  | take (cmd : GpsCmd) (stack : List UInt8)

/-- The steps from a state that is known: none is once the stack was overwritten. -/
def gpsTaskStep (gps : Option (AmpmGps D)) (i : GpsTaskStep) : Option (AmpmGps D) :=
  gps.bind fun gps =>
    match i with
    | .byte c => some { gps with toGpsParser := gpsComnandParser gps.toGpsParser c }
    | .take cmd stack => gpsTake ops cmd stack gps

/-- The steps of the loop for a byte. -/
def gpsTaskSteps (c : UInt8 × (GpsCmd → List UInt8)) : List GpsTaskStep :=
  .byte c.1 :: GpsCmd.all.map fun cmd => .take cmd (c.2 cmd)

/-- `GPS_Task`, for as many bytes as there are entries; an entry is what `time_buff` holds then. -/
def gpsTask : List (GpsCmd → List UInt8) → AmpmGps D → Option (AmpmGps D)
  | [], gps => some gps
  | stack :: frames, gps =>
      let r := ringbufGet gps.gpsRxRingBuff
      match r.2.1 with
      | none => some gps
      | some c =>
          (run (gpsTaskStep ops) (some { gps with gpsRxRingBuff := r.2.2 })
            (gpsTaskSteps (c, stack))).bind (gpsTask frames)

end Code

/-! ## The loop of the task -/

section Loop

variable {D : Type} (ops : Doubles D)

/-- The receive ring is another one. -/
def AmpmGps.setRing (ring : Ringbuf) (gps : AmpmGps D) : AmpmGps D :=
  { gps with gpsRxRingBuff := ring }

lemma gpsTaskStep_ring (ring : Ringbuf) (gps : Option (AmpmGps D)) (i : GpsTaskStep) :
    gpsTaskStep ops (gps.map (AmpmGps.setRing ring)) i =
      (gpsTaskStep ops gps i).map (AmpmGps.setRing ring) := by
  cases gps with
  | none => rfl
  | some gps =>
      cases i with
      | byte c => rfl
      | take cmd stack =>
          show gpsTake ops cmd stack (gps.setRing ring) =
            (gpsTake ops cmd stack gps).map (AmpmGps.setRing ring)
          by_cases hflag : gps.gotDataFlag cmd = true
          · have hring : gpsTake ops cmd stack (gps.setRing ring) = _ := if_pos hflag
            have hplain : gpsTake ops cmd stack gps = _ := if_pos hflag
            rw [hring, hplain, Option.map_map]
            rfl
          · have hring : gpsTake ops cmd stack (gps.setRing ring) = _ := if_neg hflag
            have hplain : gpsTake ops cmd stack gps = _ := if_neg hflag
            rw [hring, hplain]
            rfl

lemma run_gpsTaskStep_ring (ring : Ringbuf) (is : List GpsTaskStep) (gps : Option (AmpmGps D)) :
    run (gpsTaskStep ops) (gps.map (AmpmGps.setRing ring)) is =
      (run (gpsTaskStep ops) gps is).map (AmpmGps.setRing ring) := by
  induction is generalizing gps with
  | nil => rfl
  | cons i is ih => rw [run_cons, run_cons, gpsTaskStep_ring, ih]

/-- There is no way back once the stack was overwritten. -/
lemma run_gpsTaskStep_none (is : List GpsTaskStep) :
    run (gpsTaskStep ops) (none : Option (AmpmGps D)) is = none := by
  induction is with
  | nil => rfl
  | cons i is ih => exact ih

/-- **The loop takes the bytes of the ring.**  `GPS_Task` makes the steps for the bytes that are
queued, in their order, and leaves the ring empty. -/
theorem gpsTask_eq_run {frames : List (GpsCmd → List UInt8)} (gps : AmpmGps D) (v : ValidRingbuf)
    (hring : v.toRingbuf = gps.gpsRxRingBuff) (hlen : frames.length = v.contents.length) :
    ∃ v' : ValidRingbuf, v'.contents = [] ∧ v'.size = v.size ∧
      gpsTask ops frames gps =
        (run (gpsTaskStep ops) (some gps) ((v.contents.zip frames).flatMap gpsTaskSteps)).map
          (AmpmGps.setRing v'.toRingbuf) := by
  induction frames generalizing gps v with
  | nil =>
      have hempty : v.contents = [] := List.eq_nil_of_length_eq_zero hlen.symm
      refine ⟨v, hempty, rfl, ?_⟩
      rw [gpsTask, hempty, hring]
      rfl
  | cons stack frames ih =>
      have hne : v.contents ≠ [] := by
        intro hnil
        rw [hnil] at hlen
        exact absurd hlen (Nat.succ_ne_zero _)
      have hcontents := v.contents_eq_cons_taken hne
      have hget := v.ringbufGet_of_nonempty hne
      rw [hcontents, List.length_cons, List.length_cons] at hlen
      have htask : gpsTask ops (stack :: frames) gps =
          ((run (gpsTaskStep ops) (some gps) (gpsTaskSteps (v.pt v.tail, stack))).map
            (AmpmGps.setRing v.taken.toRingbuf)).bind (gpsTask ops frames) := by
        rw [gpsTask, ← hring, hget, ← run_gpsTaskStep_ring]
        rfl
      rw [htask, hcontents, List.zip_cons_cons, List.flatMap_cons, run_append]
      cases run (gpsTaskStep ops) (some gps) (gpsTaskSteps (v.pt v.tail, stack)) with
      | none =>
          obtain ⟨v', hempty, hsize, -⟩ :=
            ih (gps.setRing v.taken.toRingbuf) v.taken rfl (Nat.succ.inj hlen)
          refine ⟨v', hempty, hsize, ?_⟩
          rw [run_gpsTaskStep_none]
          rfl
      | some gps' =>
          obtain ⟨v', hempty, hsize, hrun⟩ :=
            ih (gps'.setRing v.taken.toRingbuf) v.taken rfl (Nat.succ.inj hlen)
          refine ⟨v', hempty, hsize, ?_⟩
          have hfirst := run_gpsTaskStep_ring ops v.taken.toRingbuf
            ((v.taken.contents.zip frames).flatMap gpsTaskSteps) (some gps')
          rw [Option.map_some] at hfirst
          rw [Option.map_some, Option.bind_some, hrun, hfirst, Option.map_map]
          rfl

end Loop

/-! ## A receiver at noon -/

/-- Doubles that are whole numbers, as far as the sentences of the examples need them. -/
def wholeDoubles : Doubles ℤ where
  zero := 0
  neg := fun v => -v
  formatLatLng := fun v => v / 100 + (v - v / 100 * 100) / 60
  knots := fun v => v * 1852 / 1000
  strtod := fun text => leadingDigits text

/-- A receiver with a fix, at noon. -/
def gpsFix : AmpmGps ℤ where
  toGpsParser := gpsInitParser gpsParserReset
  gpsInfo := { nmeaZeroInfo wholeDoubles with
    utc := ⟨115, 9, 30, 12, 0, 0, 0⟩
    sig := 1
    fix := 3 }
  gpsRxRingBuff := ⟨0, 0, 512, fun _ => 0⟩

/-- `time_buff` is all zeros. -/
def emptyStack : GpsCmd → List UInt8 := fun _ => []

end Ampm

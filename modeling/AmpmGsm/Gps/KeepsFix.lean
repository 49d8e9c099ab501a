import AmpmGsm.Gps.Said
import AmpmGsm.Gps.Task

/-!
# Sentences that cannot be parsed

`GPS_Task` applies the packet of a sentence whatever the return value of the parse function was.

* `KeepsFix` — a sentence that cannot be parsed leaves `gpsInfo` alone.
* `Told`, `SaysNothingNew` — what there is of such a sentence is in `gpsInfo` already.
* `keepsFix_iff` — one sentence.
* **`gpsTask_keepsFix_iff`** — the streams that leave it alone throughout.
* `gpsTask_coldStart` — a sentence without a fix takes the last one away.
-/

namespace Ampm

open Runs

section Claim

variable {D : Type} (ops : Doubles D)

/-! ## The property -/

/-- A sentence that was accepted is parsed within the memory of the function, and if that answers 0
then `gpsInfo` is the same behind it. -/
def KeepsFix : Option (AmpmGps D) → GpsTaskStep → Prop
  | some gps, .take cmd stack => gps.gotDataFlag cmd = true →
      ∃ res info gps', parseApply ops cmd stack (gps.sentence cmd) gps.gpsInfo = some (res, info) ∧
        gpsTaskStep ops (some gps) (.take cmd stack) = some gps' ∧
        (res = 0 → gps'.gpsInfo = gps.gpsInfo)
  | _, _ => True

/-! ## The condition -/

/-- `gpsInfo` shows already what there is of the sentence. -/
def Told (cmd : GpsCmd) (stack text : List UInt8) (info : NmeaInfo D) : Prop :=
  match cmd with
  | .gprmc => HoldsGprmc ops (gprmcSaid ops stack text) info
  | .gpgga => HoldsGpgga ops (gpggaSaid ops stack text) info
  | .gpgsa => HoldsGpgsa (gpgsaSaid ops text) info
  | .gpgsv => HoldsGpgsv (gpgsvSaid text) info

/-- The first field of a sentence fits into `time_buff`, and either the sentence can be read or it
tells nothing new. -/
def SaysNothingNew : Option (AmpmGps D) → GpsTaskStep → Prop
  | some gps, .take cmd stack => gps.gotDataFlag cmd = true →
      TimeFits cmd (gps.sentence cmd) ∧
        (Readable cmd stack (gps.sentence cmd) ∨
          Told ops cmd stack (gps.sentence cmd) gps.gpsInfo)
  | _, _ => True

/-! ## One sentence -/

/-- A sentence that fits is parsed; one that cannot be read leaves `gpsInfo` alone exactly if that
shows already what there is of it. -/
lemma parseApply_of_fits {cmd : GpsCmd} (stack : List UInt8) {text : List UInt8} (info : NmeaInfo D)
    (hfits : TimeFits cmd text) :
    ∃ info', parseApply ops cmd stack text info =
        some (if Readable cmd stack text then 1 else 0, info') ∧
      (¬ Readable cmd stack text → (info' = info ↔ Told ops cmd stack text info)) := by
  cases cmd with
  | gprmc =>
      obtain ⟨p, hparse, hsaid⟩ := nmeaParseGprmc_said ops stack (hfits (Or.inl rfl))
      refine ⟨nmeaGprmc2info ops p info, ?_, fun hread => ?_⟩
      · rw [parseApply, hparse]
        rfl
      · rw [hsaid hread]
        exact nmeaGprmc2info_eq_iff
  | gpgga =>
      obtain ⟨p, hparse, hsaid⟩ := nmeaParseGpgga_said ops stack (hfits (Or.inr rfl))
      refine ⟨nmeaGpgga2info ops p info, ?_, fun hread => ?_⟩
      · rw [parseApply, hparse]
        rfl
      · rw [hsaid hread]
        exact nmeaGpgga2info_eq_iff
  | gpgsa =>
      refine ⟨(nmeaGpgsa2info (gpgsaSaid ops text) info).1, ?_, fun _ => nmeaGpgsa2info_eq_iff⟩
      rw [parseApply, nmeaParseGpgsa_said ops stack]
  | gpgsv =>
      refine ⟨(nmeaGpgsv2info (gpgsvSaid text) info).1, ?_, fun _ => nmeaGpgsv2info_eq_iff⟩
      rw [parseApply, nmeaParseGpgsv_said stack]

/-- One that does not fit overwrites the stack. -/
lemma parseApply_of_overrun {cmd : GpsCmd} (stack : List UInt8) {text : List UInt8}
    (info : NmeaInfo D) (hlong : ¬ TimeFits cmd text) :
    parseApply ops cmd stack text info = none := by
  obtain ⟨hcmd, hlong⟩ := Classical.not_imp.mp hlong
  obtain ⟨hrmc, hgga⟩ := nmeaParse_overrun ops stack (Nat.lt_of_not_le hlong)
  rcases hcmd with rfl | rfl
  · rw [parseApply, hrmc]
    rfl
  · rw [parseApply, hgga]
    rfl

/-- **One sentence.** -/
lemma keepsFix_iff (gps : Option (AmpmGps D)) (i : GpsTaskStep) :
    KeepsFix ops gps i ↔ SaysNothingNew ops gps i := by
  cases gps with
  | none => exact Iff.rfl
  | some gps =>
      cases i with
      | byte c => exact Iff.rfl
      | take cmd stack =>
          refine forall_congr' fun hflag => ?_
          have hstep : gpsTaskStep ops (some gps) (.take cmd stack) = _ := if_pos hflag
          rw [hstep]
          by_cases hfits : TimeFits cmd (gps.sentence cmd)
          · obtain ⟨info, hparse, htold⟩ := parseApply_of_fits ops stack gps.gpsInfo hfits
            rw [hparse, and_iff_right hfits, Option.map_some]
            constructor
            · rintro ⟨res, info', gps', hres, hgps, hkeeps⟩
              obtain ⟨rfl, rfl⟩ := Prod.mk.inj (Option.some.inj hres)
              obtain rfl := Option.some.inj hgps
              by_cases hread : Readable cmd stack (gps.sentence cmd)
              · exact Or.inl hread
              · exact Or.inr ((htold hread).mp (hkeeps (if_neg hread)))
            · intro hsaid
              refine ⟨_, info, _, rfl, rfl, fun hzero => ?_⟩
              have hread : ¬ Readable cmd stack (gps.sentence cmd) := by
                intro hread
                rw [if_pos hread] at hzero
                exact absurd hzero (by decide)
              exact (htold hread).mpr (hsaid.resolve_left hread)
          · rw [parseApply_of_overrun ops stack gps.gpsInfo hfits]
            refine iff_of_false ?_ fun h => hfits h.1
            rintro ⟨res, info, gps', hres, -⟩
            exact Option.some_ne_none _ hres.symm

/-! ## The main result -/

/-- **When a sentence that cannot be parsed leaves the fix alone.**  For every state and every
stream that `GPS_Task` takes out of its ring: `gpsInfo` is the same behind every accepted sentence
that cannot be parsed exactly if the first field of each RMC and GGA sentence has 15 bytes at most,
and `gpsInfo` already shows, in front of each sentence that cannot be read, what there is of it. -/
theorem gpsTask_keepsFix_iff (gps : AmpmGps D) (stream : List (UInt8 × (GpsCmd → List UInt8))) :
    StepsMeet (gpsTaskStep ops) (KeepsFix ops) (some gps) (stream.flatMap gpsTaskSteps) ↔
      StepsMeet (gpsTaskStep ops) (SaysNothingNew ops) (some gps)
        (stream.flatMap gpsTaskSteps) := by
  generalize some gps = s
  generalize stream.flatMap gpsTaskSteps = is
  induction is generalizing s with
  | nil => exact Iff.rfl
  | cons i is ih => rw [StepsMeet, StepsMeet, keepsFix_iff, ih]

end Claim

/-! ### A cold start -/

/-- What a receiver sends that has lost the satellites, up to the last digit. -/
def coldSentence : List UInt8 := bytesOf "$GPRMC,,V,,,,,,,,,,N*5"

/-- The receiver when the last digit is to be parsed. -/
def beforeTake : Option (AmpmGps ℤ) :=
  gpsTaskStep wholeDoubles
    (run (gpsTaskStep wholeDoubles) (some gpsFix)
      ((coldSentence.map fun c => (c, emptyStack)).flatMap gpsTaskSteps)) (.byte 51)

/-- The sentence is accepted and cannot be parsed, and the time is gone. -/
theorem gpsTask_coldStart : ¬ ∀ (gps : AmpmGps ℤ) (stream : List (UInt8 × (GpsCmd → List UInt8))),
    StepsMeet (gpsTaskStep wholeDoubles) (KeepsFix wholeDoubles) (some gps)
      (stream.flatMap gpsTaskSteps) := by
  intro h
  have hmeet := h gpsFix ((coldSentence ++ [51]).map fun c => (c, emptyStack))
  have hlast : ([51].map fun c : UInt8 => (c, emptyStack)).flatMap gpsTaskSteps =
      [.byte 51, .take .gprmc [], .take .gpgga [], .take .gpgsa [], .take .gpgsv []] := rfl
  rw [List.map_append, List.flatMap_append, stepsMeet_append, hlast, StepsMeet, StepsMeet,
    ← beforeTake] at hmeet
  have hflag : beforeTake.map (fun gps => gps.gotDataFlag .gprmc) = some true := by decide +kernel
  have hres : (beforeTake.bind fun gps => parseApply wholeDoubles .gprmc [] (gps.sentence .gprmc)
      gps.gpsInfo).map Prod.fst = some 0 := by decide +kernel
  have hnoon : beforeTake.map (fun gps => gps.gpsInfo.utc.hour) = some 12 := by decide +kernel
  have hgone : (gpsTaskStep wholeDoubles beforeTake (.take .gprmc [])).map
      (fun gps => gps.gpsInfo.utc.hour) = some 0 := by decide +kernel
  generalize beforeTake = s at hmeet hflag hres hnoon hgone
  -- behind the last digit the sentence is taken
  have hkeeps := hmeet.2.2.1
  cases s with
  | none => exact Option.some_ne_none true hflag.symm
  | some gps =>
      obtain ⟨res, info, gps', hparse, hstep, hsame⟩ := hkeeps (Option.some.inj hflag)
      rw [Option.bind_some, hparse] at hres
      rw [hstep, Option.map_some, hsame (Option.some.inj hres)] at hgone
      exact absurd (hnoon.symm.trans hgone) (by decide)

end Ampm

import AmpmGsm.Gps.Info
import AmpmGsm.Lib.Runs
import Mathlib.Algebra.Group.Nat.Defs
import Mathlib.Algebra.Ring.Int.Defs
import Mathlib.Data.Int.Notation
import Mathlib.Data.List.Basic
import Mathlib.Tactic.SplitIfs

/-!
# The bounds of the satellite table

`nmea_GPGSV2info` and `nmea_GPGSA2info` on a table of 12 entries.  The index of the sentence is
checked before it is used; the number of satellites is not.

* `SatPacket`, `satStep`, `InBounds` — the runs, and what is asked of them.
* `Fits` — the packets that keep the table in bounds, by their fields.
* `loopInBounds_iff` — when a loop over consecutive entries stays in bounds.
* `satellites_inBounds_iff` — the runs that stay in bounds are those whose packets all fit.
* `satellites_thirteen` — a receiver that sees 13 satellites.
-/

namespace Ampm

open Function Runs

/-! ## Runs -/

/-- A packet of the sentences that touch the table. -/
inductive SatPacket (D : Type)
  | gsv (pack : NmeaGpgsv)
  | gsa (pack : NmeaGpgsa D)

/-- The summary, and the entries of the table that were touched. -/
structure SatRun (D : Type) where
  info : NmeaInfo D
  touched : List Int32

variable {D : Type}

/-- One packet is applied. -/
def satStep (r : SatRun D) : SatPacket D → SatRun D
  | .gsv pack =>
      let s := nmeaGpgsv2info pack r.info
      ⟨s.1, r.touched ++ s.2⟩
  | .gsa pack =>
      let s := nmeaGpgsa2info pack r.info
      ⟨s.1, r.touched ++ s.2⟩

/-- An index of the table. -/
def isEntry (i : Int32) : Prop := 0 ≤ i ∧ i ≤ 11

/-- At most 12 satellites are in view, and only entries of the table were touched. -/
def InBounds (r : SatRun D) : Prop :=
  r.info.satinfo.inview ≤ nmeaMaxsat ∧ ∀ i ∈ r.touched, isEntry i

/-- The index of the packet is out of the range that is checked. -/
def refusedGsv (pack : NmeaGpgsv) : Prop :=
  pack.packIndex > pack.packCount ∨ pack.packIndex * nmeaSatinpack > nmeaMaxsat

/-- The first entry that a packet stands for. -/
def firstEntry (pack : NmeaGpgsv) : ℤ :=
  ((if pack.packIndex < 1 then 0 else pack.packIndex.toInt - 1) * 4).bmod (2 ^ 32)

/-- The packets that keep the table in bounds.  The first entry is 0, 4 or 8 and the difference to
the number of satellites does not wrap around, or it has wrapped around and there is no entry. -/
def Fits : SatPacket D → Prop
  | .gsv pack =>
      refusedGsv pack ∨ pack.satCount.toInt ≤ 12 ∧
        (0 ≤ firstEntry pack ∧ firstEntry pack ≤ 8 ∧
            firstEntry pack - 2 ^ 31 ≤ pack.satCount.toInt ∨
          firstEntry pack < 0 ∧ pack.satCount.toInt ≤ firstEntry pack)
  | .gsa _ => True

/-! ## Loops over the table -/

section Loops

/-- Wrapping around adds a multiple of `2 ^ 32`. -/
lemma bmod_cases (x : ℤ) : ∃ k : ℤ, x.bmod (2 ^ 32) = x + 2 ^ 32 * k ∧
    -2 ^ 31 ≤ x.bmod (2 ^ 32) ∧ x.bmod (2 ^ 32) < 2 ^ 31 := by
  have hlow : -2 ^ 31 ≤ x.bmod (2 ^ 32) := Int.le_bmod (by decide)
  have hhigh : x.bmod (2 ^ 32) < 2 ^ 31 := Int.bmod_lt (by decide)
  have hsub := Int.bmod_eq_self_sub_mul_bdiv x (2 ^ 32)
  exact ⟨-Int.bdiv x (2 ^ 32), by omega, hlow, hhigh⟩

lemma isEntry_iff (i : Int32) : isEntry i ↔ 0 ≤ i.toInt ∧ i.toInt ≤ 11 := by
  rw [isEntry, Int32.le_iff_toInt_le, Int32.le_iff_toInt_le]
  rfl

/-- The entries of a loop that starts at `first`. -/
def loopEntries (first : Int32) (n : ℕ) : List Int32 :=
  (List.range n).map fun k => first + Int32.ofNat k

/-- A loop stays in the table if it is empty or ends there. -/
lemma loopInBounds_iff (first : Int32) {n : ℕ} (hn : n < 2 ^ 31) :
    (∀ i ∈ loopEntries first n, isEntry i)
      ↔ n = 0 ∨ 0 ≤ first.toInt ∧ first.toInt + n ≤ 12 := by
  have hlow := first.le_toInt
  have hhigh := first.toInt_lt
  have hentry : ∀ k < n, (isEntry (first + Int32.ofNat k) ↔
      0 ≤ (first.toInt + k).bmod (2 ^ 32) ∧ (first.toInt + k).bmod (2 ^ 32) ≤ 11) := by
    intro k hk
    rw [isEntry_iff, Int32.toInt_add, Int32.toInt_ofNat_of_lt (by omega)]
  simp only [loopEntries, List.mem_map, List.mem_range, forall_exists_index, and_imp,
    forall_apply_eq_imp_iff₂]
  constructor
  · intro h
    by_cases hzero : n = 0
    · exact Or.inl hzero
    · -- the first entry, and entry 12 if the loop comes there
      obtain ⟨hfirst, hfirst'⟩ := (hentry 0 (by omega)).mp (h 0 (by omega))
      obtain ⟨m, hm, -⟩ := bmod_cases (first.toInt + (0 : ℕ))
      refine Or.inr ⟨by omega, ?_⟩
      by_contra hover
      have hk : (12 - first.toInt).toNat < n := by omega
      obtain ⟨-, htwelve⟩ := (hentry _ hk).mp (h _ hk)
      obtain ⟨m', hm', hlow', -⟩ := bmod_cases (first.toInt + ((12 - first.toInt).toNat : ℕ))
      omega
  · rintro (rfl | ⟨hfirst, hlast⟩) k hk
    · omega
    · rw [hentry k hk]
      obtain ⟨m, hm, hlow', hhigh'⟩ := bmod_cases (first.toInt + k)
      omega

lemma gsvStore_touched (pack : NmeaGpgsv) (first : Int32) (n : ℕ)
    (s : (Int32 → NmeaSatellite) × List Int32) :
    ((List.range n).foldl (gsvStore pack first) s).2 = s.2 ++ loopEntries first n := by
  induction n with
  | zero => simp [loopEntries]
  | succ n ih =>
      rw [List.range_succ, List.foldl_append, List.foldl_cons, List.foldl_nil, gsvStore, ih,
        loopEntries, loopEntries, List.range_succ, List.map_append, List.append_assoc]
      rfl

/-- The loops of `nmea_GPGSA2info` touch entries in view. -/
lemma gsaVisit_touched (prn : ℕ → Int32) (satinfo : NmeaSatinfo) (n : ℕ) (is : List ℕ)
    (s : NmeaSatinfo × Int32 × List Int32) (hview : s.1.inview = satinfo.inview)
    (htouched : ∀ i ∈ s.2.2, ∃ j < n, i = Int32.ofNat j) :
    let s' := is.foldl (fun s i => (List.range n).foldl (gsaVisit (prn i)) s) s
    s'.1.inview = satinfo.inview ∧ ∀ i ∈ s'.2.2, ∃ j < n, i = Int32.ofNat j := by
  let P : NmeaSatinfo × Int32 × List Int32 → Prop := fun s =>
    s.1.inview = satinfo.inview ∧ ∀ i ∈ s.2.2, ∃ j < n, i = Int32.ofNat j
  refine List.foldlRecOn is _ (motive := P) ⟨hview, htouched⟩ fun s hs i _ => ?_
  refine List.foldlRecOn (List.range n) _ (motive := P) hs fun s hs j hj => ?_
  obtain ⟨hview, htouched⟩ := hs
  have hadd : ∀ i ∈ s.2.2 ++ [Int32.ofNat j], ∃ j < n, i = Int32.ofNat j := by
    intro i hi
    rcases List.mem_append.mp hi with hi | hi
    · exact htouched i hi
    · exact ⟨j, List.mem_range.mp hj, List.mem_singleton.mp hi⟩
  rw [gsaVisit]
  split_ifs
  · exact ⟨hview, hadd⟩
  · exact ⟨hview, hadd⟩
  · exact ⟨hview, htouched⟩

end Loops

/-! ## Packets -/

section Packets

variable {r : SatRun D}

/-- The first entry as the code computes it. -/
def gsvFirst (pack : NmeaGpgsv) : Int32 :=
  ((if pack.packIndex < 1 then 1 else pack.packIndex) - 1) * nmeaSatinpack

/-- The number of entries as the code computes it. -/
def gsvNsat (pack : NmeaGpgsv) : Int32 :=
  if gsvFirst pack + nmeaSatinpack > pack.satCount then pack.satCount - gsvFirst pack
  else nmeaSatinpack

lemma gsvFirst_toInt (pack : NmeaGpgsv) : (gsvFirst pack).toInt = firstEntry pack := by
  have hone : (1 : Int32).toInt = 1 := rfl
  have hfour : nmeaSatinpack.toInt = 4 := rfl
  have hhigh := pack.packIndex.toInt_lt
  rw [firstEntry, gsvFirst, Int32.toInt_mul, Int32.toInt_sub, hfour, hone]
  split_ifs with h
  · rw [hone]
    rfl
  · rw [Int32.lt_iff_toInt_lt, hone] at h
    obtain ⟨m, hm, hlow', hhigh'⟩ := bmod_cases (pack.packIndex.toInt - 1)
    have hsame : (pack.packIndex.toInt - 1).bmod (2 ^ 32) = pack.packIndex.toInt - 1 := by omega
    rw [hsame]

lemma gsvNsat_toInt (pack : NmeaGpgsv) : (gsvNsat pack).toInt
    = if (firstEntry pack + 4).bmod (2 ^ 32) > pack.satCount.toInt
      then (pack.satCount.toInt - firstEntry pack).bmod (2 ^ 32) else 4 := by
  have hfour : nmeaSatinpack.toInt = 4 := rfl
  have hsum : (gsvFirst pack + nmeaSatinpack > pack.satCount)
      = ((firstEntry pack + 4).bmod (2 ^ 32) > pack.satCount.toInt) := by
    rw [gt_iff_lt, gt_iff_lt, Int32.lt_iff_toInt_lt, Int32.toInt_add, gsvFirst_toInt, hfour]
  rw [gsvNsat]
  simp only [hsum]
  split_ifs
  · rw [Int32.toInt_sub, gsvFirst_toInt]
  · exact hfour

/-- A GSV packet that is refused. -/
lemma gsv_refused {pack : NmeaGpgsv} (h : refusedGsv pack) (info : NmeaInfo D) :
    nmeaGpgsv2info pack info = (info, []) := by
  have h' : pack.packIndex > pack.packCount ∨ pack.packIndex * nmeaSatinpack > nmeaMaxsat := h
  rw [nmeaGpgsv2info, if_pos h']

/-- A GSV packet that is not refused. -/
lemma gsv_accepted_eq {pack : NmeaGpgsv} (h : ¬ refusedGsv pack) (info : NmeaInfo D) :
    nmeaGpgsv2info pack info =
      let s := (List.range (gsvNsat pack).toInt.toNat).foldl (gsvStore pack (gsvFirst pack))
        (info.satinfo.sat, [])
      ({ info with
        satinfo := { info.satinfo with inview := pack.satCount, sat := s.1 }
        smask := info.smask ||| maskGpgsv }, s.2) := by
  have h' : ¬ (pack.packIndex > pack.packCount ∨ pack.packIndex * nmeaSatinpack > nmeaMaxsat) := h
  rw [nmeaGpgsv2info, if_neg h', gsvNsat, gsvFirst]

lemma gsv_accepted {pack : NmeaGpgsv} (h : ¬ refusedGsv pack) (info : NmeaInfo D) :
    (nmeaGpgsv2info pack info).1.satinfo.inview = pack.satCount ∧
      (nmeaGpgsv2info pack info).2
        = loopEntries (gsvFirst pack) (gsvNsat pack).toInt.toNat := by
  have htouched := gsvStore_touched pack (gsvFirst pack) (gsvNsat pack).toInt.toNat
    (info.satinfo.sat, [])
  rw [List.nil_append] at htouched
  simp only [gsv_accepted_eq h, htouched, and_self]

lemma firstEntry_dvd (pack : NmeaGpgsv) : ∃ k : ℤ, firstEntry pack = 4 * k := by
  obtain ⟨m, hm, -⟩ :=
    bmod_cases ((if pack.packIndex < 1 then 0 else pack.packIndex.toInt - 1) * 4)
  exact ⟨(if pack.packIndex < 1 then 0 else pack.packIndex.toInt - 1) + 2 ^ 30 * m, by
    rw [firstEntry, hm]
    omega⟩

/-- The test of the index bounds the end of the packet, wherever it has wrapped around to. -/
lemma firstEntry_accepted {pack : NmeaGpgsv} (h : ¬ refusedGsv pack) :
    (firstEntry pack + 4).bmod (2 ^ 32) ≤ 12 := by
  have hfour : nmeaSatinpack.toInt = 4 := rfl
  have htwelve : nmeaMaxsat.toInt = 12 := rfl
  have hone : (1 : Int32).toInt = 1 := rfl
  rw [refusedGsv, not_or, gt_iff_lt, gt_iff_lt, Int32.not_lt, Int32.not_lt,
    Int32.le_iff_toInt_le, Int32.le_iff_toInt_le, Int32.toInt_mul, hfour, htwelve] at h
  obtain ⟨m, hm, hlow, hhigh⟩ := bmod_cases (firstEntry pack + 4)
  rw [firstEntry] at hm hlow hhigh ⊢
  obtain ⟨m', hm', hlow', hhigh'⟩ := bmod_cases (pack.packIndex.toInt * 4)
  split_ifs at hm hlow hhigh ⊢ with hfirst
  · decide
  · obtain ⟨m₀, hm₀, hlow₀, hhigh₀⟩ := bmod_cases ((pack.packIndex.toInt - 1) * 4)
    omega

/-- A GSV packet keeps the table in bounds exactly if it fits. -/
lemma InBounds.gsv_iff (h : InBounds r) (pack : NmeaGpgsv) :
    InBounds (satStep r (.gsv pack)) ↔ Fits (.gsv pack : SatPacket D) := by
  obtain ⟨hview, htouched⟩ := h
  by_cases hrefused : refusedGsv pack
  · refine ⟨fun _ => Or.inl hrefused, fun _ => ?_⟩
    rw [satStep, gsv_refused hrefused]
    exact ⟨hview, by simpa using htouched⟩
  · obtain ⟨hview', htouched'⟩ := gsv_accepted hrefused r.info
    have hsmall : (gsvNsat pack).toInt.toNat < 2 ^ 31 := by
      have := (gsvNsat pack).toInt_lt
      omega
    have hloop := loopInBounds_iff (gsvFirst pack) hsmall
    have hstep : InBounds (satStep r (.gsv pack)) ↔ pack.satCount.toInt ≤ 12 ∧
        ((gsvNsat pack).toInt.toNat = 0 ∨ 0 ≤ (gsvFirst pack).toInt ∧
          (gsvFirst pack).toInt + (gsvNsat pack).toInt.toNat ≤ 12) := by
      rw [← hloop, InBounds, satStep, hview', htouched', Int32.le_iff_toInt_le]
      refine and_congr_right fun _ => ⟨fun hall i hi => ?_, fun hall i hi => ?_⟩
      · exact hall i (List.mem_append_right _ hi)
      · rcases List.mem_append.mp hi with hi | hi
        · exact htouched i hi
        · exact hall i hi
    have hbound : -2 ^ 31 ≤ firstEntry pack ∧ firstEntry pack < 2 ^ 31 := by
      rw [← gsvFirst_toInt]
      exact ⟨(gsvFirst pack).le_toInt, (gsvFirst pack).toInt_lt⟩
    have hcount := pack.satCount.le_toInt
    obtain ⟨m, hm, hlow, hhigh⟩ := bmod_cases (firstEntry pack + 4)
    obtain ⟨m', hm', hlow', hhigh'⟩ := bmod_cases (pack.satCount.toInt - firstEntry pack)
    obtain ⟨k, hk⟩ := firstEntry_dvd pack
    have haccepted := firstEntry_accepted hrefused
    rw [hstep, Fits, or_iff_right hrefused, gsvFirst_toInt, gsvNsat_toInt]
    refine and_congr_right fun hle => ?_
    split_ifs with hless <;> omega

lemma InBounds.gsa (h : InBounds r) (pack : NmeaGpgsa D) :
    InBounds (satStep r (.gsa pack)) := by
  obtain ⟨hview, htouched⟩ := h
  obtain ⟨hsame, hloops⟩ := gsaVisit_touched pack.satPrn r.info.satinfo
    r.info.satinfo.inview.toInt.toNat (List.range 12) (r.info.satinfo, 0, []) rfl (by simp)
  refine ⟨?_, fun i hi => ?_⟩
  · show (NmeaSatinfo.inview _) ≤ nmeaMaxsat
    exact hsame ▸ hview
  · rcases List.mem_append.mp hi with hi | hi
    · exact htouched i hi
    · obtain ⟨j, hj, rfl⟩ := hloops i hi
      have hle : r.info.satinfo.inview.toInt ≤ 12 := Int32.le_iff_toInt_le.mp hview
      rw [isEntry_iff, Int32.toInt_ofNat_of_lt (by omega)]
      omega

end Packets

/-! ## The main result -/

/-- **The table stays in bounds.**  From `nmea_zero_INFO` on, at most 12 satellites are in view and
only entries 0 to 11 are touched, in every state of a run, exactly if all its packets fit. -/
theorem satellites_inBounds_iff (ops : Doubles D) {r : SatRun D} (hinfo : r.info = nmeaZeroInfo ops)
    (htouched : r.touched = []) (ps : List (SatPacket D)) :
    Throughout satStep InBounds r ps ↔ ∀ p ∈ ps, Fits p := by
  have hstart : InBounds r := by
    rw [InBounds, hinfo, htouched]
    exact ⟨show (0 : Int32) ≤ nmeaMaxsat by decide, by simp⟩
  have hexact : Throughout satStep InBounds r ps ↔ StepsMeet satStep (fun _ p => Fits p) r ps := by
    refine throughout_iff_stepsMeet (I := InBounds) (fun _ h => h) (fun r p h hfits => ?_)
      (fun r p h hfits => ?_) hstart
    · cases p with
      | gsv pack => exact (h.gsv_iff pack).mpr hfits
      | gsa pack => exact h.gsa pack
    · cases p with
      | gsv pack => exact fun hstep => hfits ((h.gsv_iff pack).mp hstep)
      | gsa pack => exact absurd trivial hfits
  rw [hexact]
  clear hexact hstart hinfo htouched
  induction ps generalizing r with
  | nil => simp [StepsMeet]
  | cons p ps ih =>
      rw [StepsMeet, List.forall_mem_cons]
      exact and_congr_right fun _ => ih

/-- Doubles that nobody looks at. -/
def unitDoubles : Doubles Unit := ⟨(), id, id, id, fun _ => ()⟩

/-- The first of one GSV sentences, with some satellites in view. -/
def gsvPacket (satCount : Int32) : NmeaGpgsv where
  packCount := 1
  packIndex := 1
  satCount := satCount
  satData := fun i => ⟨Int32.ofNat (i + 1), 0, 0, 0, 0⟩

/-- A GSA sentence with one satellite. -/
def gsaPacket : NmeaGpgsa Unit where
  fixMode := 65
  fixType := 3
  satPrn := fun i => if i = 0 then 5 else 0
  pdop := ()
  hdop := ()
  vdop := ()

/-- Twelve satellites fit. -/
theorem satellites_inBounds_twelve :
    Throughout satStep InBounds ⟨nmeaZeroInfo unitDoubles, []⟩ [.gsv (gsvPacket 12), .gsa gsaPacket] :=
  (satellites_inBounds_iff unitDoubles rfl rfl _).mpr
    (by simp only [List.forall_mem_cons]; exact ⟨Or.inr (by decide), trivial, by simp⟩)

/-- Thirteen do not, and the loop over the satellites in view leaves the table. -/
theorem satellites_thirteen : ¬ ∀ (r : SatRun Unit) (ps : List (SatPacket Unit)),
    r.info = nmeaZeroInfo unitDoubles → r.touched = [] → Throughout satStep InBounds r ps := by
  intro h
  have hlast := (h ⟨nmeaZeroInfo unitDoubles, []⟩ [.gsv (gsvPacket 13), .gsa gsaPacket] rfl rfl).last
  have htwelve : (12 : Int32) ∈ (run satStep ⟨nmeaZeroInfo unitDoubles, []⟩
      [.gsv (gsvPacket 13), .gsa gsaPacket]).touched := by decide +kernel
  exact absurd (hlast.2 12 htwelve) (by rw [isEntry]; decide)

end Ampm

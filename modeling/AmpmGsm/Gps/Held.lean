import AmpmGsm.Gps.Satellites
import Mathlib.Data.List.Induction

/-!
# Packets that are held already

`gps/ampm_gps.c`: what `gpsInfo` must hold for a packet to change nothing in it.

* `HoldsGprmc`, `HoldsGpgga`, `HoldsGpgsa`, `HoldsGpgsv` — `gpsInfo` holds the packet already.
* `nmeaGprmc2info_eq_iff`, `nmeaGpgga2info_eq_iff`, `nmeaGpgsa2info_eq_iff`, `nmeaGpgsv2info_eq_iff` —
  then, and only then, the packet changes nothing.
* `gsaVisits`, `gsvStores` — what the loops over the satellite table do.
-/

namespace Ampm

open Function

section Holds

variable {D : Type} (ops : Doubles D)

/-- What `nmea_GPRMC2info` writes is there. -/
structure HoldsGprmc (pack : NmeaGprmc D) (info : NmeaInfo D) : Prop where
  active : pack.status = 65 → info.sig ≠ nmeaSigBad ∧ info.fix ≠ nmeaFixBad
  void : pack.status = 86 → info.sig = nmeaSigBad ∧ info.fix = nmeaFixBad
  utc : info.utc = pack.utc
  mlat : info.mlat = pack.lat
  mlon : info.mlon = pack.lon
  ew : info.ew = pack.ew
  ns : info.ns = pack.ns
  lat : info.lat = signedLatLng ops (pack.ns = 78) pack.lat
  lon : info.lon = signedLatLng ops (pack.ew = 69) pack.lon
  speed : info.speed = ops.knots pack.speed
  direction : info.direction = pack.direction
  smask : info.smask ||| maskGprmc = info.smask

/-- What `nmea_GPGGA2info` writes is there. -/
structure HoldsGpgga (pack : NmeaGpgga D) (info : NmeaInfo D) : Prop where
  hour : info.utc.hour = pack.utc.hour
  min : info.utc.min = pack.utc.min
  sec : info.utc.sec = pack.utc.sec
  hsec : info.utc.hsec = pack.utc.hsec
  sig : info.sig = pack.sig
  hdop : info.hdop = pack.hdop
  elv : info.elv = pack.elv
  mlat : info.mlat = pack.lat
  mlon : info.mlon = pack.lon
  ew : info.ew = pack.ew
  ns : info.ns = pack.ns
  lat : info.lat = signedLatLng ops (pack.ns = 78) pack.lat
  lon : info.lon = signedLatLng ops (pack.ew = 69) pack.lon
  smask : info.smask ||| maskGpgga = info.smask

/-- A satellite in view is used in the fix. -/
def gsaMatch (pack : NmeaGpgsa D) (info : NmeaInfo D) (v : ℕ × ℕ) : Bool :=
  pack.satPrn v.1 ≠ 0 && pack.satPrn v.1 = (info.satinfo.sat (Int32.ofNat v.2)).id

/-- The pairs that the loops of `nmea_GPGSA2info` look at. -/
def gsaPairs (info : NmeaInfo D) : List (ℕ × ℕ) :=
  (List.range 12).flatMap fun i =>
    (List.range info.satinfo.inview.toInt.toNat).map fun j => (i, j)

/-- What `nmea_GPGSA2info` writes is there. -/
structure HoldsGpgsa (pack : NmeaGpgsa D) (info : NmeaInfo D) : Prop where
  fix : info.fix = pack.fixType
  pdop : info.pdop = pack.pdop
  hdop : info.hdop = pack.hdop
  vdop : info.vdop = pack.vdop
  used : ∀ v ∈ gsaPairs info, gsaMatch pack info v = true →
    (info.satinfo.sat (Int32.ofNat v.2)).inUse = 1
  inuse : info.satinfo.inuse = Int32.ofNat ((gsaPairs info).filter (gsaMatch pack info)).length
  smask : info.smask ||| maskGpgsa = info.smask

/-- The data of a satellite, but for `in_use`. -/
def SameSatellite (sat data : NmeaSatellite) : Prop :=
  sat.id = data.id ∧ sat.elv = data.elv ∧ sat.azimuth = data.azimuth ∧ sat.sig = data.sig

/-- `nmea_GPGSV2info` refuses the packet, or what it writes is there. -/
def HoldsGpgsv (pack : NmeaGpgsv) (info : NmeaInfo D) : Prop :=
  refusedGsv pack ∨ info.satinfo.inview = pack.satCount ∧
    (∀ isat < (gsvNsat pack).toInt.toNat,
      SameSatellite (info.satinfo.sat (gsvFirst pack + Int32.ofNat isat)) (pack.satData isat)) ∧
    info.smask ||| maskGpgsv = info.smask

variable {ops}

/-- What a status does to the quality of the fix. -/
def statusSet (status : UInt8) (bad good old : Int32) : Int32 :=
  if status = 65 then if old = bad then good else old
  else if status = 86 then bad else old

lemma statusSet_eq_iff {status : UInt8} {bad good old : Int32} (hne : good ≠ bad) :
    statusSet status bad good old = old
      ↔ (status = 65 → old ≠ bad) ∧ (status = 86 → old = bad) := by
  rw [statusSet]
  split_ifs with hactive hbad hvoid
  · subst hactive hbad
    simp [hne]
  · subst hactive
    simp [hbad]
  · subst hvoid
    simp [eq_comm]
  · simp [hactive, hvoid]

lemma nmeaGprmc2info_eq (pack : NmeaGprmc D) (info : NmeaInfo D) :
    nmeaGprmc2info ops pack info = { info with
      sig := statusSet pack.status nmeaSigBad nmeaSigMid info.sig
      fix := statusSet pack.status nmeaFixBad nmeaFix2d info.fix
      utc := pack.utc
      mlat := pack.lat
      mlon := pack.lon
      ew := pack.ew
      ns := pack.ns
      lat := signedLatLng ops (pack.ns = 78) pack.lat
      lon := signedLatLng ops (pack.ew = 69) pack.lon
      speed := ops.knots pack.speed
      direction := pack.direction
      smask := info.smask ||| maskGprmc } := by
  rw [nmeaGprmc2info, statusSet, statusSet]
  by_cases hactive : pack.status = 65
  · simp only [if_pos hactive]
  · by_cases hvoid : pack.status = 86
    · simp only [if_neg hactive, if_pos hvoid]
    · simp only [if_neg hactive, if_neg hvoid]

lemma nmeaGprmc2info_eq_iff {pack : NmeaGprmc D} {info : NmeaInfo D} :
    nmeaGprmc2info ops pack info = info ↔ HoldsGprmc ops pack info := by
  have hsig : statusSet pack.status nmeaSigBad nmeaSigMid info.sig = info.sig ↔ _ :=
    statusSet_eq_iff (by decide)
  have hfix : statusSet pack.status nmeaFixBad nmeaFix2d info.fix = info.fix ↔ _ :=
    statusSet_eq_iff (by decide)
  rw [nmeaGprmc2info_eq]
  constructor
  · intro h
    obtain ⟨hactive, hvoid⟩ := hsig.mp (congrArg NmeaInfo.sig h)
    obtain ⟨hactive', hvoid'⟩ := hfix.mp (congrArg NmeaInfo.fix h)
    exact ⟨fun hs => ⟨hactive hs, hactive' hs⟩, fun hs => ⟨hvoid hs, hvoid' hs⟩,
      (congrArg NmeaInfo.utc h).symm, (congrArg NmeaInfo.mlat h).symm,
      (congrArg NmeaInfo.mlon h).symm, (congrArg NmeaInfo.ew h).symm,
      (congrArg NmeaInfo.ns h).symm, (congrArg NmeaInfo.lat h).symm,
      (congrArg NmeaInfo.lon h).symm, (congrArg NmeaInfo.speed h).symm,
      (congrArg NmeaInfo.direction h).symm, congrArg NmeaInfo.smask h⟩
  · intro h
    have hsig' := hsig.mpr ⟨fun hs => (h.active hs).1, fun hs => (h.void hs).1⟩
    have hfix' := hfix.mpr ⟨fun hs => (h.active hs).2, fun hs => (h.void hs).2⟩
    exact NmeaInfo.ext h.smask h.utc.symm hsig' hfix' rfl rfl rfl h.mlat.symm h.ns.symm
      h.mlon.symm h.ew.symm h.lat.symm h.lon.symm rfl h.speed.symm h.direction.symm rfl

lemma nmeaGpgga2info_eq_iff {pack : NmeaGpgga D} {info : NmeaInfo D} :
    nmeaGpgga2info ops pack info = info ↔ HoldsGpgga ops pack info := by
  constructor
  · intro h
    have hutc := congrArg NmeaInfo.utc h
    exact ⟨(congrArg NmeaTime.hour hutc).symm, (congrArg NmeaTime.min hutc).symm,
      (congrArg NmeaTime.sec hutc).symm, (congrArg NmeaTime.hsec hutc).symm,
      (congrArg NmeaInfo.sig h).symm, (congrArg NmeaInfo.hdop h).symm,
      (congrArg NmeaInfo.elv h).symm, (congrArg NmeaInfo.mlat h).symm,
      (congrArg NmeaInfo.mlon h).symm, (congrArg NmeaInfo.ew h).symm,
      (congrArg NmeaInfo.ns h).symm, (congrArg NmeaInfo.lat h).symm,
      (congrArg NmeaInfo.lon h).symm, congrArg NmeaInfo.smask h⟩
  · intro h
    have hutc : (nmeaGpgga2info ops pack info).utc = info.utc :=
      NmeaTime.ext rfl rfl rfl h.hour.symm h.min.symm h.sec.symm h.hsec.symm
    exact NmeaInfo.ext h.smask hutc h.sig.symm rfl rfl h.hdop.symm rfl h.mlat.symm h.ns.symm
      h.mlon.symm h.ew.symm h.lat.symm h.lon.symm h.elv.symm rfl rfl rfl

/-! ### The satellite table -/

/-- The two loops of `nmea_GPGSA2info` as one. -/
lemma gsaLoops_eq (prn : ℕ → Int32) (n : ℕ) (is : List ℕ) (s : NmeaSatinfo × Int32 × List Int32) :
    is.foldl (fun s i => (List.range n).foldl (gsaVisit (prn i)) s) s
      = (is.flatMap fun i => (List.range n).map fun j => (i, j)).foldl
          (fun s v => gsaVisit (prn v.1) s v.2) s := by
  rw [List.foldl_flatMap]
  simp only [List.foldl_map]

/-- The loops keep the data of the satellites and mark those that match. -/
lemma gsaVisits (pack : NmeaGpgsa D) (info : NmeaInfo D) (vs : List (ℕ × ℕ)) :
    let s := vs.foldl (fun s v => gsaVisit (pack.satPrn v.1) s v.2) (info.satinfo, 0, [])
    s.1.inuse = info.satinfo.inuse ∧ s.1.inview = info.satinfo.inview ∧
      s.2.1 = Int32.ofNat (vs.filter (gsaMatch pack info)).length ∧
      ∀ x, s.1.sat x = if ∃ v ∈ vs, gsaMatch pack info v = true ∧ Int32.ofNat v.2 = x
        then { info.satinfo.sat x with inUse := 1 } else info.satinfo.sat x := by
  induction vs using List.reverseRecOn with
  | nil => simp
  | append_singleton vs v ih =>
      simp only [List.foldl_append, List.foldl_cons, List.foldl_nil, List.filter_append,
        List.length_append]
      generalize vs.foldl (fun s v => gsaVisit (pack.satPrn v.1) s v.2) (info.satinfo, 0, []) = s
        at ih ⊢
      obtain ⟨hinuse, hview, hcount, hsat⟩ := ih
      have hid : ∀ x, (s.1.sat x).id = (info.satinfo.sat x).id := by
        intro x
        rw [hsat x]
        split_ifs <;> rfl
      by_cases hmatch : gsaMatch pack info v = true
      · have hmatch' := hmatch
        simp only [gsaMatch, Bool.and_eq_true, decide_eq_true_eq] at hmatch'
        obtain ⟨hne, heq⟩ := hmatch'
        have hvisit : gsaVisit (pack.satPrn v.1) s v.2
            = ({ s.1 with
                sat := update s.1.sat (Int32.ofNat v.2)
                  { s.1.sat (Int32.ofNat v.2) with inUse := 1 } }, s.2.1 + 1,
              s.2.2 ++ [Int32.ofNat v.2]) := by
          rw [gsaVisit, if_pos hne, if_pos (by rw [hid]; exact heq)]
        rw [hvisit]
        refine ⟨hinuse, hview, ?_, fun x => ?_⟩
        · rw [hcount, List.filter_singleton]
          simp [hmatch, Int32.ofNat_add]
        · by_cases hx : Int32.ofNat v.2 = x
          · subst hx
            rw [if_pos ⟨v, by simp, hmatch, rfl⟩]
            show update s.1.sat _ _ _ = _
            rw [update_self, hsat]
            split_ifs <;> rfl
          · have hiff : (∃ u ∈ vs ++ [v], gsaMatch pack info u = true ∧ Int32.ofNat u.2 = x)
                ↔ ∃ u ∈ vs, gsaMatch pack info u = true ∧ Int32.ofNat u.2 = x := by
              simp [hx]
            rw [if_congr hiff rfl rfl, ← hsat]
            exact update_of_ne (Ne.symm hx) _ _
      · have hskip : (gsaVisit (pack.satPrn v.1) s v.2).1 = s.1 ∧
            (gsaVisit (pack.satPrn v.1) s v.2).2.1 = s.2.1 := by
          simp only [gsaMatch, Bool.and_eq_true, decide_eq_true_eq, not_and] at hmatch
          rw [gsaVisit]
          split_ifs with hne heq
          · exact absurd (by rw [← hid]; exact heq) (hmatch hne)
          · exact ⟨rfl, rfl⟩
          · exact ⟨rfl, rfl⟩
        rw [hskip.1, hskip.2]
        refine ⟨hinuse, hview, ?_, fun x => ?_⟩
        · rw [hcount, List.filter_singleton]
          simp [hmatch]
        · have hiff : (∃ u ∈ vs ++ [v], gsaMatch pack info u = true ∧ Int32.ofNat u.2 = x)
              ↔ ∃ u ∈ vs, gsaMatch pack info u = true ∧ Int32.ofNat u.2 = x := by
            simp [hmatch]
          rw [if_congr hiff rfl rfl]
          exact hsat x

lemma nmeaGpgsa2info_eq_iff {pack : NmeaGpgsa D} {info : NmeaInfo D} :
    (nmeaGpgsa2info pack info).1 = info ↔ HoldsGpgsa pack info := by
  obtain ⟨hinuse, hview, hcount, hsat⟩ := gsaVisits pack info (gsaPairs info)
  have hloops : _ = (gsaPairs info).foldl (fun s v => gsaVisit (pack.satPrn v.1) s v.2)
      (info.satinfo, 0, []) :=
    gsaLoops_eq pack.satPrn info.satinfo.inview.toInt.toNat (List.range 12) (info.satinfo, 0, [])
  rw [nmeaGpgsa2info, hloops]
  generalize (gsaPairs info).foldl (fun s v => gsaVisit (pack.satPrn v.1) s v.2)
    (info.satinfo, 0, []) = s at hinuse hview hcount hsat ⊢
  constructor
  · intro h
    have hsatinfo := congrArg NmeaInfo.satinfo h
    refine ⟨(congrArg NmeaInfo.fix h).symm, (congrArg NmeaInfo.pdop h).symm,
      (congrArg NmeaInfo.hdop h).symm, (congrArg NmeaInfo.vdop h).symm, fun v hv hmatch => ?_, ?_,
      congrArg NmeaInfo.smask h⟩
    · have hsame := congrFun (congrArg NmeaSatinfo.sat hsatinfo) (Int32.ofNat v.2)
      have hmarked := hsat (Int32.ofNat v.2)
      rw [if_pos ⟨v, hv, hmatch, rfl⟩] at hmarked
      exact congrArg NmeaSatellite.inUse (hsame.symm.trans hmarked)
    · exact (congrArg NmeaSatinfo.inuse hsatinfo).symm.trans hcount
  · intro h
    have hsat' : s.1.sat = info.satinfo.sat := by
      funext x
      rw [hsat x]
      split_ifs with hx
      · obtain ⟨v, hv, hmatch, rfl⟩ := hx
        exact NmeaSatellite.ext rfl (h.used v hv hmatch).symm rfl rfl rfl
      · rfl
    have hsatinfo : ({ s.1 with inuse := s.2.1 } : NmeaSatinfo) = info.satinfo :=
      NmeaSatinfo.ext (hcount.trans h.inuse.symm) hview hsat'
    exact NmeaInfo.ext h.smask rfl rfl h.fix.symm h.pdop.symm h.hdop.symm h.vdop.symm rfl rfl rfl rfl
      rfl rfl rfl rfl rfl hsatinfo

lemma entry_ne (first : Int32) {k n : ℕ} (hk : k < n) (hn : n < 2 ^ 31) :
    first + Int32.ofNat k ≠ first + Int32.ofNat n := by
  intro h
  have heq : Int32.ofNat k = Int32.ofNat n := Int32.add_right_inj first |>.mp h
  have htoInt := congrArg Int32.toInt heq
  rw [Int32.toInt_ofNat_of_lt (by omega), Int32.toInt_ofNat_of_lt hn] at htoInt
  omega

/-- The loop of `nmea_GPGSV2info` comes to an entry once at most. -/
lemma gsvStores (pack : NmeaGpgsv) (first : Int32) (sat : Int32 → NmeaSatellite) {n : ℕ}
    (hn : n ≤ 2 ^ 31) :
    (∀ k < n, ((List.range n).foldl (gsvStore pack first) (sat, [])).1 (first + Int32.ofNat k)
        = { pack.satData k with inUse := (sat (first + Int32.ofNat k)).inUse }) ∧
      ∀ x, (∀ k < n, x ≠ first + Int32.ofNat k) →
        ((List.range n).foldl (gsvStore pack first) (sat, [])).1 x = sat x := by
  induction n with
  | zero => exact ⟨fun k hk => absurd hk (Nat.not_lt_zero k), fun x _ => rfl⟩
  | succ n ih =>
      obtain ⟨hwritten, hother⟩ := ih (by omega)
      rw [List.range_succ, List.foldl_append, List.foldl_cons, List.foldl_nil]
      generalize (List.range n).foldl (gsvStore pack first) (sat, []) = s at hwritten hother ⊢
      have hlast : s.1 (first + Int32.ofNat n) = sat (first + Int32.ofNat n) :=
        hother _ fun k hk => (entry_ne first hk (by omega)).symm
      refine ⟨fun k hk => ?_, fun x hx => ?_⟩
      · show update s.1 _ _ _ = _
        by_cases hkn : k = n
        · subst hkn
          rw [update_self, hlast]
        · have hlt : k < n := by omega
          rw [update_of_ne (entry_ne first hlt (by omega))]
          exact hwritten k hlt
      · show update s.1 _ _ _ = _
        rw [update_of_ne (hx n (by omega))]
        exact hother x fun k hk => hx k (by omega)

lemma nmeaGpgsv2info_eq_iff {pack : NmeaGpgsv} {info : NmeaInfo D} :
    (nmeaGpgsv2info pack info).1 = info ↔ HoldsGpgsv pack info := by
  by_cases hrefused : refusedGsv pack
  · rw [gsv_refused hrefused]
    exact iff_of_true rfl (Or.inl hrefused)
  · have hsmall : (gsvNsat pack).toInt.toNat ≤ 2 ^ 31 := by
      have := (gsvNsat pack).toInt_lt
      omega
    obtain ⟨hwritten, hother⟩ := gsvStores pack (gsvFirst pack) info.satinfo.sat hsmall
    rw [gsv_accepted_eq hrefused, HoldsGpgsv, or_iff_right hrefused]
    generalize (List.range (gsvNsat pack).toInt.toNat).foldl (gsvStore pack (gsvFirst pack))
      (info.satinfo.sat, []) = s at hwritten hother ⊢
    constructor
    · intro h
      have hsatinfo := congrArg NmeaInfo.satinfo h
      refine ⟨(congrArg NmeaSatinfo.inview hsatinfo).symm, fun k hk => ?_, congrArg NmeaInfo.smask h⟩
      have hsame := congrFun (congrArg NmeaSatinfo.sat hsatinfo) (gsvFirst pack + Int32.ofNat k)
      have hdata := hsame.symm.trans (hwritten k hk)
      rw [SameSatellite, hdata]
      exact ⟨rfl, rfl, rfl, rfl⟩
    · rintro ⟨hview, hsame, hmask⟩
      have hsat : s.1 = info.satinfo.sat := by
        funext x
        by_cases hx : ∃ k < (gsvNsat pack).toInt.toNat, x = gsvFirst pack + Int32.ofNat k
        · obtain ⟨k, hk, rfl⟩ := hx
          obtain ⟨hid, helv, hazimuth, hsig⟩ := hsame k hk
          rw [hwritten k hk]
          exact NmeaSatellite.ext hid.symm rfl helv.symm hazimuth.symm hsig.symm
        · exact hother x fun k hk heq => hx ⟨k, hk, heq⟩
      have hsatinfo : ({ info.satinfo with inview := pack.satCount, sat := s.1 } : NmeaSatinfo)
          = info.satinfo := NmeaSatinfo.ext rfl hview.symm hsat
      exact NmeaInfo.ext hmask rfl rfl rfl rfl rfl rfl rfl rfl rfl rfl rfl rfl rfl rfl rfl hsatinfo

end Holds

end Ampm

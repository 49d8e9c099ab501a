import AmpmGsm.Gps.Held
import AmpmGsm.Gps.Parse
import Mathlib.Algebra.GroupWithZero.Nat

/-!
# Satellites in use

`gps/ampm_gps.c`: `nmea_GPGSA2info` sets the flags of the satellites that the packet lists and
counts the pairs that match.  Nothing ever clears a flag: not the function itself, and not
`nmea_GPGSV2info`, which puts another satellite into the entry.

* `Listed`, `UseConsistent` — what is asked of the table behind a GSA packet.
* `UseClean` — the condition in front of it.
* `useConsistent_iff` — one packet.
* **`satellitesInUse_iff`** — the runs whose GSA packets all leave the table as asked.
-/

namespace Ampm

open Function Runs

variable {D : Type}

/-! ## The property -/

/-- The number of satellites in view. -/
def inView (info : NmeaInfo D) : ℕ := info.satinfo.inview.toInt.toNat

/-- An entry of the table. -/
def satAt (info : NmeaInfo D) (j : ℕ) : NmeaSatellite := info.satinfo.sat (Int32.ofNat j)

/-- The satellite is one that the packet lists. -/
def Listed (pack : NmeaGpgsa D) (id : Int32) : Prop :=
  id ≠ 0 ∧ id ∈ (List.range 12).map pack.satPrn

instance (pack : NmeaGpgsa D) (id : Int32) : Decidable (Listed pack id) :=
  inferInstanceAs (Decidable (_ ∧ _))

/-- What is asked of the table behind a packet. -/
def UseConsistent (pack : NmeaGpgsa D) (info : NmeaInfo D) : Prop :=
  (∀ j < inView info, (satAt info j).inUse = 1 ↔ Listed pack (satAt info j).id) ∧
    info.satinfo.inuse.toInt =
      ((List.range (inView info)).countP fun j => (satAt info j).inUse = 1 : ℕ)

instance (pack : NmeaGpgsa D) (info : NmeaInfo D) : Decidable (UseConsistent pack info) :=
  inferInstanceAs (Decidable (_ ∧ _))

/-- The condition: every flag that is set is of a satellite that the packet lists, and it lists no
satellite in view twice. -/
def UseClean (pack : NmeaGpgsa D) (info : NmeaInfo D) : Prop :=
  (∀ j < inView info, (satAt info j).inUse = 1 → Listed pack (satAt info j).id) ∧
    ∀ j < inView info, Listed pack (satAt info j).id →
      ((List.range 12).map pack.satPrn).count (satAt info j).id = 1

instance (pack : NmeaGpgsa D) (info : NmeaInfo D) : Decidable (UseClean pack info) :=
  inferInstanceAs (Decidable (_ ∧ _))

/-! ## Counting -/

section Counting

variable {ι κ : Type}

lemma sum_map_add_count (js : List κ) (c : κ → ℕ) (p : κ → Bool) :
    (js.map fun j => c j + if p j then 1 else 0).sum = (js.map c).sum + js.countP p := by
  induction js with
  | nil => rfl
  | cons j js ih =>
      rw [List.map_cons, List.sum_cons, ih, List.map_cons, List.sum_cons, List.countP_cons]
      omega

/-- Pairs are counted row by row or column by column. -/
lemma countP_pairs (m : ι → κ → Bool) (is : List ι) (js : List κ) :
    (is.flatMap fun i => js.map fun j => (i, j)).countP (fun v => m v.1 v.2) =
      (js.map fun j => is.countP fun i => m i j).sum := by
  induction is with
  | nil => simp
  | cons i is ih =>
      have hcons : ∀ j, (i :: is).countP (fun i => m i j) =
          is.countP (fun i => m i j) + if m i j then 1 else 0 := fun j => List.countP_cons
      rw [List.flatMap_cons, List.countP_append, ih, List.countP_map]
      simp only [hcons]
      rw [sum_map_add_count, Nat.add_comm]
      rfl

lemma count_le_sum (js : List κ) (c : κ → ℕ) :
    js.countP (fun j => 1 ≤ c j) ≤ (js.map c).sum := by
  induction js with
  | nil => exact Nat.le_refl 0
  | cons j js ih =>
      rw [List.countP_cons, List.map_cons, List.sum_cons]
      split_ifs with hj
      · have hone := of_decide_eq_true hj
        omega
      · omega

/-- There are as many ones as positive numbers. -/
lemma sum_eq_count_iff (js : List κ) (c : κ → ℕ) :
    (js.map c).sum = js.countP (fun j => 1 ≤ c j) ↔ ∀ j ∈ js, c j ≤ 1 := by
  induction js with
  | nil => exact iff_of_true rfl (List.forall_mem_nil _)
  | cons j js ih =>
      have hle := count_le_sum js c
      rw [List.forall_mem_cons, ← ih, List.countP_cons, List.map_cons, List.sum_cons]
      by_cases hj : 1 ≤ c j
      · rw [if_pos (decide_eq_true hj)]
        omega
      · rw [if_neg fun h => hj (of_decide_eq_true h)]
        omega

end Counting

section Packet

variable {pack : NmeaGpgsa D} {info : NmeaInfo D}

/-- The entries of the packet that name a satellite. -/
def matchCount (pack : NmeaGpgsa D) (info : NmeaInfo D) (j : ℕ) : ℕ :=
  (List.range 12).countP fun i => gsaMatch pack info (i, j)

lemma matchCount_eq (pack : NmeaGpgsa D) (info : NmeaInfo D) (j : ℕ) :
    matchCount pack info j = if (satAt info j).id = 0 then 0
      else ((List.range 12).map pack.satPrn).count (satAt info j).id := by
  have hmatch : ∀ i, gsaMatch pack info (i, j) =
      (pack.satPrn i ≠ 0 && pack.satPrn i = (satAt info j).id) := fun _ => rfl
  unfold matchCount
  simp only [hmatch]
  split_ifs with hzero
  · refine List.countP_eq_zero.mpr fun i _ => ?_
    rw [hzero]
    simp
  · rw [List.count_eq_countP, List.countP_map]
    refine List.countP_congr fun i _ => ?_
    simp only [Function.comp, Bool.and_eq_true, decide_eq_true_eq, beq_iff_eq]
    constructor
    · exact fun h => h.2
    · exact fun h => ⟨fun h' => hzero (h.symm.trans h'), h⟩

/-- A satellite is listed if an entry names it. -/
lemma matchCount_pos_iff {j : ℕ} : 1 ≤ matchCount pack info j ↔ Listed pack (satAt info j).id := by
  rw [matchCount_eq, Listed]
  split_ifs with hzero
  · exact iff_of_false (by decide) fun h => h.1 hzero
  · rw [and_iff_right hzero]
    exact List.count_pos_iff

/-- The matches that the loops find. -/
lemma gsaPairs_count : ((gsaPairs info).filter (gsaMatch pack info)).length =
    ((List.range (inView info)).map (matchCount pack info)).sum := by
  rw [← List.countP_eq_length_filter]
  exact countP_pairs (fun i j => gsaMatch pack info (i, j)) (List.range 12)
    (List.range (inView info))

lemma matchCount_le (j : ℕ) : matchCount pack info j ≤ 12 := by
  have hle := List.countP_le_length (p := fun i => gsaMatch pack info (i, j)) (l := List.range 12)
  rwa [List.length_range] at hle

lemma sum_map_le (c : ℕ → ℕ) (hc : ∀ j, c j ≤ 12) (js : List ℕ) :
    (js.map c).sum ≤ 12 * js.length := by
  induction js with
  | nil => exact Nat.le_refl 0
  | cons j js ih =>
      have hj := hc j
      rw [List.map_cons, List.sum_cons, List.length_cons]
      omega

/-- The pairs that match at an entry. -/
lemma exists_match_iff {j : ℕ} (hj : j < inView info) :
    (∃ v ∈ gsaPairs info, gsaMatch pack info v = true ∧ Int32.ofNat v.2 = Int32.ofNat j) ↔
      Listed pack (satAt info j).id := by
  rw [← matchCount_pos_iff, matchCount, Nat.one_le_iff_ne_zero, ← Nat.pos_iff_ne_zero,
    List.countP_pos_iff]
  constructor
  · rintro ⟨⟨i, j'⟩, hv, hmatch, hsame⟩
    obtain ⟨i', hi, hpair⟩ := List.mem_flatMap.mp hv
    obtain ⟨j'', -, heq⟩ := List.mem_map.mp hpair
    obtain rfl : i' = i := congrArg Prod.fst heq
    refine ⟨i', hi, ?_⟩
    unfold gsaMatch at hmatch ⊢
    dsimp only at hmatch hsame ⊢
    rw [hsame] at hmatch
    exact hmatch
  · rintro ⟨i, hi, hmatch⟩
    exact ⟨(i, j), List.mem_flatMap.mpr ⟨i, hi, List.mem_map.mpr ⟨j, List.mem_range.mpr hj, rfl⟩⟩,
      hmatch, rfl⟩

/-- **What a GSA packet does to the table.** -/
lemma nmeaGpgsa2info_table (pack : NmeaGpgsa D) {info : NmeaInfo D} (hview : inView info ≤ 12) :
    inView (nmeaGpgsa2info pack info).1 = inView info ∧
      (nmeaGpgsa2info pack info).1.satinfo.inuse.toInt =
        (((List.range (inView info)).map (matchCount pack info)).sum : ℕ) ∧
      ∀ j < inView info,
        (satAt (nmeaGpgsa2info pack info).1 j).id = (satAt info j).id ∧
        ((satAt (nmeaGpgsa2info pack info).1 j).inUse = 1 ↔
          Listed pack (satAt info j).id ∨ (satAt info j).inUse = 1) := by
  obtain ⟨-, hinview, hcount, hsat⟩ := gsaVisits pack info (gsaPairs info)
  have hloops : _ = (gsaPairs info).foldl (fun s v => gsaVisit (pack.satPrn v.1) s v.2)
      (info.satinfo, 0, []) :=
    gsaLoops_eq pack.satPrn info.satinfo.inview.toInt.toNat (List.range 12) (info.satinfo, 0, [])
  unfold satAt inView
  rw [nmeaGpgsa2info, hloops]
  generalize (gsaPairs info).foldl (fun s v => gsaVisit (pack.satPrn v.1) s v.2)
    (info.satinfo, 0, []) = s at hinview hcount hsat ⊢
  refine ⟨congrArg (fun v : Int32 => v.toInt.toNat) hinview, ?_, fun j hj => ?_⟩
  · have hle := sum_map_le (matchCount pack info) matchCount_le (List.range (inView info))
    rw [List.length_range] at hle
    show s.2.1.toInt = _
    rw [hcount, gsaPairs_count]
    exact Int32.toInt_ofNat_of_lt (by omega)
  · have hlisted : (∃ v ∈ gsaPairs info, gsaMatch pack info v = true ∧
        Int32.ofNat v.2 = Int32.ofNat j) ↔ Listed pack (satAt info j).id := exists_match_iff hj
    unfold satAt at hlisted
    dsimp only
    rw [hsat, ← hlisted]
    split_ifs with hmatch
    · exact ⟨rfl, iff_of_true rfl (Or.inl hmatch)⟩
    · exact ⟨rfl, (or_iff_right hmatch).symm⟩

/-- **One packet**: the table is as asked behind it exactly if it was clean in front of it. -/
lemma useConsistent_iff (pack : NmeaGpgsa D) {info : NmeaInfo D} (hview : inView info ≤ 12) :
    UseConsistent pack (nmeaGpgsa2info pack info).1 ↔ UseClean pack info := by
  obtain ⟨hinview, hinuse, htable⟩ := nmeaGpgsa2info_table pack hview
  unfold UseConsistent UseClean
  rw [hinview]
  have hflags : (∀ j < inView info, (satAt (nmeaGpgsa2info pack info).1 j).inUse = 1 ↔
      Listed pack (satAt (nmeaGpgsa2info pack info).1 j).id) ↔
      ∀ j < inView info, (satAt info j).inUse = 1 → Listed pack (satAt info j).id := by
    refine forall₂_congr fun j hj => ?_
    obtain ⟨hid, hused⟩ := htable j hj
    rw [hused, hid]
    exact or_iff_left_iff_imp
  rw [hflags]
  refine and_congr_right fun hfresh => ?_
  have hset : (List.range (inView info)).countP
        (fun j => (satAt (nmeaGpgsa2info pack info).1 j).inUse = 1) =
      (List.range (inView info)).countP fun j => 1 ≤ matchCount pack info j := by
    refine List.countP_congr fun j hj => ?_
    rw [decide_eq_true_eq, decide_eq_true_eq, matchCount_pos_iff,
      (htable j (List.mem_range.mp hj)).2]
    exact or_iff_left_of_imp (hfresh j (List.mem_range.mp hj))
  have honce : ∀ j, (Listed pack (satAt info j).id →
      ((List.range 12).map pack.satPrn).count (satAt info j).id = 1) ↔
        matchCount pack info j ≤ 1 := by
    intro j
    rw [← matchCount_pos_iff]
    by_cases hzero : (satAt info j).id = 0
    · rw [matchCount_eq, if_pos hzero]
      exact iff_of_true (fun h => absurd h (by decide)) (Nat.zero_le 1)
    · rw [matchCount_eq, if_neg hzero]
      omega
  rw [hinuse, hset, Int.ofNat_inj, sum_eq_count_iff]
  constructor
  · exact fun h j hj => (honce j).mpr (h j (List.mem_range.mpr hj))
  · exact fun h j hj => (honce j).mp (h j (List.mem_range.mp hj))

end Packet

/-! ## Runs -/

/-- What is asked behind a packet. -/
def UsedBehind (r : SatRun D) : SatPacket D → Prop
  | .gsv _ => True
  | .gsa pack => UseConsistent pack (satStep r (.gsa pack)).info

/-- The condition in front of it. -/
def UsedBefore (r : SatRun D) : SatPacket D → Prop
  | .gsv _ => True
  | .gsa pack => UseClean pack r.info

instance (r : SatRun D) : ∀ p, Decidable (UsedBehind r p)
  | .gsv _ => inferInstanceAs (Decidable True)
  | .gsa pack => inferInstanceAs (Decidable (UseConsistent pack _))

instance (r : SatRun D) : ∀ p, Decidable (UsedBefore r p)
  | .gsv _ => inferInstanceAs (Decidable True)
  | .gsa pack => inferInstanceAs (Decidable (UseClean pack _))

/-- **The runs whose GSA packets all leave the table as asked**, with at most 12 satellites in
view: those in which a packet never finds the flag of a satellite that it does not list, and never
lists one in view twice. -/
theorem satellitesInUse_iff (r : SatRun D) (ps : List (SatPacket D))
    (hview : Throughout satStep (fun r => inView r.info ≤ 12) r ps) :
    StepsMeet satStep UsedBehind r ps ↔ StepsMeet satStep UsedBefore r ps := by
  refine stepsMeet_iff_of_throughout (fun r p hview => ?_) hview
  cases p with
  | gsv pack => exact Iff.rfl
  | gsa pack => exact useConsistent_iff pack hview

/-- A GSA sentence that lists one satellite. -/
def gsaListing (prn : Int32) : NmeaGpgsa Unit :=
  { gsaPacket with satPrn := fun i => if i = 0 then prn else 0 }

/-- The same satellite is listed by two packets. -/
theorem satellitesInUse_twice :
    StepsMeet satStep UsedBehind ⟨nmeaZeroInfo unitDoubles, []⟩
      [.gsv (gsvPacket 12), .gsa (gsaListing 3), .gsv (gsvPacket 12), .gsa (gsaListing 3)] :=
  (satellitesInUse_iff ⟨nmeaZeroInfo unitDoubles, []⟩ _ (by decide +kernel)).mpr
    (by decide +kernel)

/-- A satellite that the next packet does not list any more is still in use. -/
theorem satellitesInUse_dropped : ¬ ∀ (r : SatRun Unit) (ps : List (SatPacket Unit)),
    r.info = nmeaZeroInfo unitDoubles → Throughout satStep (fun r => inView r.info ≤ 12) r ps →
      StepsMeet satStep UsedBehind r ps := by
  intro h
  have hall := h ⟨nmeaZeroInfo unitDoubles, []⟩
    [.gsv (gsvPacket 12), .gsa (gsaListing 3), .gsa (gsaListing 4)] rfl (by decide +kernel)
  revert hall
  decide +kernel

end Ampm

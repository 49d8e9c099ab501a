import AmpmGsm.Flash.Reads
import Mathlib.Data.List.Basic

/-!
# Which sectors a search looks at

The random search of `ampm_f_open` and `ampm_f_find_free_sector` goes down from the sector below the
random one to 0, and then up from the one above it.  The condition of its loop is tested before the
step, so it goes up to `DISK_SECTOR_MAX` itself, which is not a sector of the partition; and it never
looks at the random sector.

* `scanOrder`, `randomScan_eq` — the sectors in the order in which they are looked at.
* `untilSome_spec` — where a search stops.
* `ampmFFindFreeSector_spec`, `ampmFOpen_spec` — the sector that is found, and what was read till then.
* `HoldsFile`, `ampmFOpen_read_iff` — when opening does not depend on chance.
-/

namespace Ampm

open NorFlash

/-! ## The order -/

/-- The sectors that a search from `r` looks at. -/
def scanOrder (r : ℕ) : List ℕ :=
  (List.range r).reverse ++ (List.range (diskSectorMax - r)).map (r + 1 + ·)

lemma mem_scanOrder {r i : ℕ} (hr : r < diskSectorMax) :
    i ∈ scanOrder r ↔ i ≤ diskSectorMax ∧ i ≠ r := by
  rw [scanOrder, List.mem_append, List.mem_reverse, List.mem_range, List.mem_map]
  constructor
  · rintro (hlt | ⟨k, hk, rfl⟩)
    · omega
    · have hk' := List.mem_range.mp hk
      omega
  · rintro ⟨hle, hne⟩
    rcases Nat.lt_or_gt_of_ne hne with hlt | hgt
    · exact Or.inl hlt
    · exact Or.inr ⟨i - (r + 1), List.mem_range.mpr (by omega), by omega⟩

/-- The sector behind the partition comes last. -/
lemma scanOrder_last {r : ℕ} (hr : r < diskSectorMax) :
    ∃ init, scanOrder r = init ++ [diskSectorMax] ∧
      ∀ j, j ∈ init ↔ j < diskSectorMax ∧ j ≠ r := by
  refine ⟨(List.range r).reverse ++ (List.range (diskSectorMax - r - 1)).map (r + 1 + ·), ?_,
    fun j => ?_⟩
  · have hsplit : diskSectorMax - r = diskSectorMax - r - 1 + 1 := by omega
    have hlast : r + 1 + (diskSectorMax - r - 1) = diskSectorMax := by omega
    rw [scanOrder, hsplit, List.range_succ, List.map_append, List.map_singleton, hlast,
      List.append_assoc]
    rfl
  · rw [List.mem_append, List.mem_reverse, List.mem_range, List.mem_map]
    constructor
    · rintro (hlt | ⟨k, hk, rfl⟩)
      · omega
      · have hk' := List.mem_range.mp hk
        omega
    · rintro ⟨hlt, hne⟩
      rcases Nat.lt_or_gt_of_ne hne with hless | hgt
      · exact Or.inl hless
      · exact Or.inr ⟨j - (r + 1), List.mem_range.mpr (by omega), by omega⟩

/-- A search that stops has stopped in the partition, or has looked at all of it but the random
sector. -/
lemma scanOrder_stop {r t : ℕ} (hr : r < diskSectorMax) {pre post : List ℕ}
    (h : scanOrder r = pre ++ t :: post) :
    (t < diskSectorMax ∧ t ≠ r ∧ ∀ j ∈ pre, j < diskSectorMax) ∨
      (t = diskSectorMax ∧ ∀ j < diskSectorMax, j ≠ r → j ∈ pre) := by
  obtain ⟨init, hinit, hmem⟩ := scanOrder_last hr
  rw [hinit] at h
  rcases List.eq_nil_or_concat post with rfl | ⟨rest, last, rfl⟩
  · obtain ⟨rfl, hlast⟩ := List.append_inj' h rfl
    exact Or.inr ⟨(List.singleton_inj.mp hlast).symm, fun j hj hne => (hmem j).mpr ⟨hj, hne⟩⟩
  · rw [List.concat_eq_append, ← List.cons_append, ← List.append_assoc] at h
    obtain ⟨rfl, -⟩ := List.append_inj' h rfl
    have ht := (hmem t).mp (List.mem_append_right _ List.mem_cons_self)
    exact Or.inl ⟨ht.1, ht.2, fun j hj => ((hmem j).mp (List.mem_append_left _ hj)).1⟩

section Loop

variable {σ ρ : Type*} {body : ℕ → σ → Option ρ × σ}

/-- On the way up. -/
lemma scanLoop_up (n : ℕ) :
    ∀ (fuel i : ℕ) (s : σ), diskSectorMax - i = n → i ≤ diskSectorMax → n < fuel →
      scanLoop body fuel ⟨i, 0, 0⟩ s = untilSome body ((List.range n).map (i + 1 + ·)) s := by
  induction n with
  | zero =>
      intro fuel i s hn hi hfuel
      cases fuel with
      | zero => exact absurd hfuel (Nat.lt_irrefl 0)
      | succ fuel =>
          rw [scanLoop, if_neg (show ¬ i < diskSectorMax by omega)]
          rfl
  | succ n ih =>
      intro fuel i s hn hi hfuel
      cases fuel with
      | zero => exact absurd hfuel (Nat.not_lt_zero _)
      | succ fuel =>
          have hnext : (⟨i, 0, 0⟩ : Scan).next = ⟨i + 1, 0, 0⟩ := rfl
          have hrest : ((List.range (n + 1)).map (i + 1 + ·)) =
              (i + 1) :: (List.range n).map (i + 1 + 1 + ·) := by
            rw [List.range_succ_eq_map, List.map_cons, List.map_map]
            refine congrArg₂ _ rfl (List.map_congr_left fun k _ => ?_)
            simp only [Function.comp]
            omega
          rw [scanLoop, if_pos (show i < diskSectorMax by omega), hnext, hrest, untilSome,
            ← ih fuel (i + 1) (body (i + 1) s).2 (by omega) (by omega) (by omega)]

/-- On the way down. -/
lemma scanLoop_down {r : ℕ} (hr : r < diskSectorMax) (k : ℕ) :
    ∀ (fuel : ℕ) (s : σ), k ≤ r → k + (diskSectorMax - r) < fuel →
      scanLoop body fuel ⟨k, k, r⟩ s =
        untilSome body
          ((List.range k).reverse ++ (List.range (diskSectorMax - r)).map (r + 1 + ·)) s := by
  induction k with
  | zero =>
      intro fuel s _ hfuel
      have hup : scanLoop body fuel ⟨r, 0, 0⟩ s = _ :=
        scanLoop_up (diskSectorMax - r) fuel r s rfl (Nat.le_of_lt hr) (by omega)
      rw [List.range_zero, List.reverse_nil, List.nil_append, ← hup]
      cases fuel with
      | zero => rfl
      | succ fuel =>
          have hnext : (⟨0, 0, r⟩ : Scan).next = (⟨r, 0, 0⟩ : Scan).next := by
            cases r <;> rfl
          rw [scanLoop, scanLoop, hnext, if_pos hr, if_pos (show 0 < diskSectorMax by omega)]
  | succ k ih =>
      intro fuel s hk hfuel
      cases fuel with
      | zero => exact absurd hfuel (Nat.not_lt_zero _)
      | succ fuel =>
          have hnext : (⟨k + 1, k + 1, r⟩ : Scan).next = ⟨k, k, r⟩ := rfl
          rw [scanLoop, if_pos (show k + 1 < diskSectorMax by omega), hnext, List.range_succ,
            List.reverse_append, List.reverse_singleton, List.singleton_append, List.cons_append,
            untilSome, ← ih fuel (body k s).2 (by omega) (by omega)]

/-- The loop with its three counters goes through `scanOrder`. -/
theorem randomScan_eq (rand : ℕ) (s : σ) :
    randomScan body rand s = untilSome body (scanOrder (rand % diskSectorMax)) s := by
  have hr : rand % diskSectorMax < diskSectorMax := Nat.mod_lt _ (by decide)
  exact scanLoop_down hr _ _ s (Nat.le_refl _) (by omega)

variable (body) in
/-- Where a loop stops, if an invariant about the sectors it has passed tells at which it does. -/
lemma untilSome_spec {I : List ℕ → σ → Prop} {P : ℕ → Prop} [DecidablePred P]
    (hkeep : ∀ pre i s, I pre s → ¬ P i → I (pre ++ [i]) (body i s).2)
    (hstop : ∀ pre i s, I pre s → ((body i s).1.isSome = true ↔ P i)) :
    ∀ (is pre : List ℕ) (s : σ), I pre s →
      (∃ mid i post s', is = mid ++ i :: post ∧ (∀ j ∈ mid, ¬ P j) ∧ P i ∧ I (pre ++ mid) s' ∧
        untilSome body is s = body i s') ∨
      (∃ s', (∀ j ∈ is, ¬ P j) ∧ I (pre ++ is) s' ∧ untilSome body is s = (none, s'))
  | [], pre, s, hs =>
      Or.inr ⟨s, fun _ hj => absurd hj List.not_mem_nil, (List.append_nil pre).symm ▸ hs, rfl⟩
  | i :: is, pre, s, hs => by
      have hsome := hstop pre i s hs
      by_cases hP : P i
      · refine Or.inl ⟨[], i, is, s, rfl, fun _ hj => absurd hj List.not_mem_nil, hP,
          (List.append_nil pre).symm ▸ hs, ?_⟩
        rw [untilSome, if_pos (hsome.mpr hP)]
      · have hgo : untilSome body (i :: is) s = untilSome body is (body i s).2 := by
          rw [untilSome, if_neg fun h => hP (hsome.mp h)]
        have hfirst : ∀ {l : List ℕ}, (∀ k ∈ l, ¬ P k) → ∀ k ∈ i :: l, ¬ P k := by
          intro l hl k hk
          rcases List.mem_cons.mp hk with rfl | hk'
          · exact hP
          · exact hl k hk'
        rw [hgo]
        rcases untilSome_spec hkeep hstop is _ _ (hkeep pre i s hs hP) with
          ⟨mid, j, post, s', rfl, hmid, hj, hs', heq⟩ | ⟨s', hnone, hs', heq⟩
        · rw [List.append_assoc, List.singleton_append] at hs'
          exact Or.inl ⟨i :: mid, j, post, s', rfl, hfirst hmid, hj, hs', heq⟩
        · rw [List.append_assoc, List.singleton_append] at hs'
          exact Or.inr ⟨s', hfirst hnone, hs', heq⟩

end Loop

/-! ## Free sectors -/

/-- A free sector: the first in the order that is not valid, if there is one. -/
lemma ampmFFindFreeSector_spec (ff : Ff) :
    (∃ pre t post, scanOrder (ff.rand ff.drawn % diskSectorMax) = pre ++ t :: post ∧
      (∀ j ∈ pre, sectorValid ff.flash.mem j = true) ∧ sectorValid ff.flash.mem t = false ∧
      ampmFFindFreeSector ff = (some t,
        { ff.draw.2.logged ((pre ++ [t]).flatMap (headerReads ff.flash.mem)) with
          found := ff.found ++ [t] })) ∨
    ((∀ j ∈ scanOrder (ff.rand ff.drawn % diskSectorMax), sectorValid ff.flash.mem j = true) ∧
      ampmFFindFreeSector ff = (none,
        ff.draw.2.logged ((scanOrder (ff.rand ff.drawn % diskSectorMax)).flatMap
          (headerReads ff.flash.mem)))) := by
  have hkeep : ∀ (pre : List ℕ) (i : ℕ) (s : Ff),
      s = ff.draw.2.logged (pre.flatMap (headerReads ff.flash.mem)) →
      ¬ sectorValid ff.flash.mem i = false → (readHeader s i).2.2 =
        ff.draw.2.logged ((pre ++ [i]).flatMap (headerReads ff.flash.mem)) := by
    rintro pre i _ rfl -
    simp only [readHeader_eq, logged_logged, List.flatMap_append, List.flatMap_singleton]
    rfl
  have hstop : ∀ (pre : List ℕ) (i : ℕ) (s : Ff),
      s = ff.draw.2.logged (pre.flatMap (headerReads ff.flash.mem)) →
      ((if (readHeader s i).1 = true then none else some i).isSome = true ↔
        sectorValid ff.flash.mem i = false) := by
    rintro pre i _ rfl
    simp only [readHeader_eq, logged_mem]
    show (if sectorValid ff.flash.mem i = true then none else some i).isSome = true ↔ _
    cases sectorValid ff.flash.mem i <;> simp
  have hspec := untilSome_spec
    (fun i ff => ((if (readHeader ff i).1 = true then none else some i), (readHeader ff i).2.2))
    hkeep hstop (scanOrder (ff.rand ff.drawn % diskSectorMax)) [] ff.draw.2 (logged_nil _).symm
  simp only [ampmFFindFreeSector, randomScan_eq]
  rw [show ff.draw.1 = ff.rand ff.drawn from rfl]
  rcases hspec with ⟨pre, t, post, s, horder, hpre, ht, rfl, heq⟩ | ⟨s, hall, rfl, heq⟩
  · refine Or.inl ⟨pre, t, post, horder, fun j hj => Bool.of_not_eq_false (hpre j hj), ht, ?_⟩
    rw [heq]
    simp only [readHeader_eq, logged_mem, logged_logged, List.flatMap_append,
      List.flatMap_singleton, List.nil_append]
    rw [show ff.draw.2.flash.mem = ff.flash.mem from rfl, ht]
    rfl
  · refine Or.inr ⟨fun j hj => Bool.of_not_eq_false (hall j hj), ?_⟩
    rw [heq, List.nil_append]
    simp only [Option.toList_none, List.append_nil]

/-! ## Opening -/

/-- A mode with which files are opened that exist. -/
def opensFiles (mode : UInt8) : Bool := hasMode mode (0x01 ||| 0x10 ||| 0x80)

/-- A mode with which files are created. -/
def createsFiles (mode : UInt8) : Bool := hasMode mode (0x08 ||| 0x04)

/-- The sector has a valid header of a file with the name, and the record that was written when the
file was closed is valid. -/
def HoldsFile (mem : Memory) (fileName : List UInt8) (i : ℕ) : Prop :=
  sectorValid mem i = true ∧ fileName = (headerAt mem i).name ∧
    formatCheck (filAt mem (headerAt mem i).startSector (2 * sizeofAmpmFil)) = true

instance (mem : Memory) (fileName : List UInt8) : DecidablePred (HoldsFile mem fileName) :=
  fun _ => inferInstanceAs (Decidable (_ ∧ _ ∧ _))

/-- The search for a file stops at the sector: it holds the file, or it is free for a new one. -/
def OpensAt (mem : Memory) (fileName : List UInt8) (mode : UInt8) (i : ℕ) : Prop :=
  (HoldsFile mem fileName i ∧ opensFiles mode = true) ∨
    (sectorValid mem i = false ∧ createsFiles mode = true)

instance (mem : Memory) (fileName : List UInt8) (mode : UInt8) :
    DecidablePred (OpensAt mem fileName mode) :=
  fun _ => inferInstanceAs (Decidable (_ ∨ _))

/-- What it reads there. -/
def openReads (mem : Memory) (fileName : List UInt8) (mode : UInt8) (i : ℕ) : List FlashAccess :=
  headerReads mem i ++
    if sectorValid mem i = true ∧ opensFiles mode = true ∧ fileName = (headerAt mem i).name then
      [.read (ffAddr (headerAt mem i).startSector (2 * sizeofAmpmFil)) sizeofAmpmFil]
    else []

/-- What `ampm_f_open` comes to at the sector where it stops. -/
def openedAt (ff : Ff) (fileName : List UInt8) (mode : UInt8) (i : ℕ) : AmpmFOpened :=
  if sectorValid ff.flash.mem i then
    let fil := filAt ff.flash.mem (headerAt ff.flash.mem i).startSector (2 * sizeofAmpmFil)
    ⟨.frOk, false, { fil with permission := if hasMode mode 0x02 then 2 else 1, fileOffset := 0 },
      ff.logged (openReads ff.flash.mem fileName mode i)⟩
  else
    let fil := newFil (headerAt ff.flash.mem i) fileName i
    let w := writeFil (ff.logged (headerReads ff.flash.mem i)) i 0 fil
    ⟨w.1, true, fil, w.2⟩

section Opening

variable {mem : Memory} {fileName : List UInt8} {mode : UInt8} {i : ℕ} {s : AmpmFil × Ff}

lemma ampmFOpenBody_stop (hmem : s.2.flash.mem = mem) (h : OpensAt mem fileName mode i) :
    ampmFOpenBody fileName mode i s =
      let o := openedAt s.2 fileName mode i
      (some (o.ret, o.created), o.fil, o.ff) := by
  subst hmem
  rcases h with ⟨⟨hvalid, hname, hclosed⟩, hmode⟩ | ⟨hvalid, hmode⟩
  · have hmatch : (hasMode mode (0x01 ||| 0x10 ||| 0x80) &&
        decide (fileName = (headerAt s.2.flash.mem i).name)) = true := by
      rw [show hasMode mode (0x01 ||| 0x10 ||| 0x80) = true from hmode, decide_eq_true hname]
      rfl
    have hreads : openReads s.2.flash.mem fileName mode i = headerReads s.2.flash.mem i ++
        [.read (ffAddr (headerAt s.2.flash.mem i).startSector (2 * sizeofAmpmFil)) sizeofAmpmFil] := by
      rw [openReads, if_pos ⟨hvalid, hmode, hname⟩]
    simp only [ampmFOpenBody, readHeader_eq, readFil_eq, openedAt, hreads, logged_mem,
      logged_logged]
    rw [if_pos hvalid, if_pos hvalid, if_pos hmatch, if_pos hclosed]
  · have hcreates : hasMode mode (0x08 ||| 0x04) = true := hmode
    simp only [ampmFOpenBody, readHeader_eq, openedAt]
    rw [if_neg (Bool.eq_false_iff.mp hvalid), if_neg (Bool.eq_false_iff.mp hvalid),
      if_pos hcreates]
    rfl

lemma ampmFOpenBody_pass (hmem : s.2.flash.mem = mem) (h : ¬ OpensAt mem fileName mode i) :
    (ampmFOpenBody fileName mode i s).1 = none ∧
      (ampmFOpenBody fileName mode i s).2.2 = s.2.logged (openReads mem fileName mode i) := by
  subst hmem
  unfold OpensAt HoldsFile opensFiles createsFiles at h
  simp only [ampmFOpenBody, readHeader_eq, readFil_eq, openReads, opensFiles, Bool.and_eq_true,
    decide_eq_true_eq, logged_mem]
  cases hvalid : sectorValid s.2.flash.mem i with
  | true =>
      by_cases hmatch : hasMode mode (0x01 ||| 0x10 ||| 0x80) = true ∧
          fileName = (headerAt s.2.flash.mem i).name
      · have hclosed : ¬ formatCheck (filAt s.2.flash.mem (headerAt s.2.flash.mem i).startSector
            (2 * sizeofAmpmFil)) = true :=
          fun hclosed => h (Or.inl ⟨⟨hvalid, hmatch.2, hclosed⟩, hmatch.1⟩)
        simp only [if_pos hmatch, if_neg hclosed, if_true, true_and, logged_logged]
      · simp only [if_neg hmatch, if_true, true_and, List.append_nil]
  | false =>
      have hmode : ¬ hasMode mode (0x08 ||| 0x04) = true := fun hmode => h (Or.inr ⟨hvalid, hmode⟩)
      simp [hmode]

/-- `ampm_f_open`: the first sector in the order at which it stops, if there is one. -/
lemma ampmFOpen_spec (ff : Ff) (fil : AmpmFil) (fileName : List UInt8) (mode : UInt8) :
    (∃ pre i post, scanOrder (ff.rand ff.drawn % diskSectorMax) = pre ++ i :: post ∧
      (∀ j ∈ pre, ¬ OpensAt ff.flash.mem fileName mode j) ∧ OpensAt ff.flash.mem fileName mode i ∧
      ampmFOpen ff fil fileName mode =
        openedAt (ff.draw.2.logged (pre.flatMap (openReads ff.flash.mem fileName mode))) fileName
          mode i) ∨
    ((∀ j ∈ scanOrder (ff.rand ff.drawn % diskSectorMax), ¬ OpensAt ff.flash.mem fileName mode j) ∧
      ∃ fil', ampmFOpen ff fil fileName mode =
        ⟨.frErr, false, fil', ff.draw.2.logged ((scanOrder (ff.rand ff.drawn % diskSectorMax)).flatMap
          (openReads ff.flash.mem fileName mode))⟩) := by
  have hkeep : ∀ (pre : List ℕ) (i : ℕ) (s : AmpmFil × Ff),
      s.2 = ff.draw.2.logged (pre.flatMap (openReads ff.flash.mem fileName mode)) →
      ¬ OpensAt ff.flash.mem fileName mode i → (ampmFOpenBody fileName mode i s).2.2 =
        ff.draw.2.logged ((pre ++ [i]).flatMap (openReads ff.flash.mem fileName mode)) := by
    intro pre i s hs hpass
    have hmem : s.2.flash.mem = ff.flash.mem := by
      rw [hs]
      rfl
    rw [(ampmFOpenBody_pass hmem hpass).2, hs, logged_logged, List.flatMap_append,
      List.flatMap_singleton]
  have hstop : ∀ (pre : List ℕ) (i : ℕ) (s : AmpmFil × Ff),
      s.2 = ff.draw.2.logged (pre.flatMap (openReads ff.flash.mem fileName mode)) →
      ((ampmFOpenBody fileName mode i s).1.isSome = true ↔
        OpensAt ff.flash.mem fileName mode i) := by
    intro pre i s hs
    have hmem : s.2.flash.mem = ff.flash.mem := by
      rw [hs]
      rfl
    constructor
    · intro hsome
      by_contra hpass
      rw [(ampmFOpenBody_pass hmem hpass).1] at hsome
      exact Bool.false_ne_true hsome
    · intro hstop
      rw [ampmFOpenBody_stop hmem hstop]
      rfl
  have hspec := untilSome_spec _ hkeep hstop (scanOrder (ff.rand ff.drawn % diskSectorMax)) []
    (fil, ff.draw.2) (logged_nil _).symm
  simp only [ampmFOpen, randomScan_eq]
  rw [show ff.draw.1 = ff.rand ff.drawn from rfl]
  rcases hspec with ⟨pre, i, post, s, horder, hpre, hi, hs, heq⟩ | ⟨⟨fil', s⟩, hall, rfl, heq⟩
  · have hmem : s.2.flash.mem = ff.flash.mem := by
      rw [hs]
      rfl
    refine Or.inl ⟨pre, i, post, horder, hpre, hi, ?_⟩
    rw [heq, ampmFOpenBody_stop hmem hi, hs]
    rfl
  · refine Or.inr ⟨hall, fil'.clearName, ?_⟩
    rw [heq]
    rfl

/-- A file that is created gets the first free sector in the order. -/
lemma ampmFOpen_created {ff : Ff} {fil : AmpmFil} {fileName : List UInt8} {mode : UInt8}
    (hcreated : (ampmFOpen ff fil fileName mode).created = true) :
    ∃ i as r ff', i ∈ scanOrder (ff.rand ff.drawn % diskSectorMax) ∧
      sectorValid ff.flash.mem i = false ∧
      writeFil (ff.draw.2.logged as) i 0 (newFil (headerAt ff.flash.mem i) fileName i) = (r, ff') ∧
      ampmFOpen ff fil fileName mode =
        ⟨r, true, newFil (headerAt ff.flash.mem i) fileName i, ff'⟩ := by
  rcases ampmFOpen_spec ff fil fileName mode with
    ⟨pre, i, post, horder, -, hi, heq⟩ | ⟨-, fil', heq⟩
  · have hin : i ∈ scanOrder (ff.rand ff.drawn % diskSectorMax) := by
      rw [horder]
      exact List.mem_append_right _ List.mem_cons_self
    have hmem : (ff.draw.2.logged (pre.flatMap (openReads ff.flash.mem fileName mode))).flash.mem =
        ff.flash.mem := rfl
    cases hvalid : sectorValid ff.flash.mem i with
    | true =>
        rw [heq, openedAt, hmem, if_pos hvalid] at hcreated
        exact absurd hcreated Bool.false_ne_true
    | false =>
        rw [heq, openedAt, hmem, if_neg (Bool.eq_false_iff.mp hvalid), logged_logged]
        exact ⟨i, _, _, _, hin, hvalid, rfl, rfl⟩
  · rw [heq] at hcreated
    exact absurd hcreated Bool.false_ne_true

end Opening

/-- With a mode that does not create files. -/
lemma opensAt_iff {mem : Memory} {fileName : List UInt8} {mode : UInt8}
    (hopens : opensFiles mode = true) (hcreates : createsFiles mode = false) {i : ℕ} :
    OpensAt mem fileName mode i ↔ HoldsFile mem fileName i := by
  simp [OpensAt, hopens, hcreates]

lemma opensAt_read {mem : Memory} {fileName : List UInt8} {i : ℕ} :
    OpensAt mem fileName 0x01 i ↔ HoldsFile mem fileName i := opensAt_iff (by decide) (by decide)

/-- A file is opened for reading if and only if one of the sectors that the search looks at holds
it. -/
lemma ampmFOpen_read_ret (ff : Ff) (fil : AmpmFil) (fileName : List UInt8) :
    (ampmFOpen ff fil fileName 0x01).ret = .frOk ↔
      ∃ i ∈ scanOrder (ff.rand ff.drawn % diskSectorMax), HoldsFile ff.flash.mem fileName i := by
  rcases ampmFOpen_spec ff fil fileName 0x01 with
    ⟨pre, i, post, horder, -, hi, heq⟩ | ⟨hnone, fil', heq⟩
  · have hfile := opensAt_read.mp hi
    refine iff_of_true ?_ ⟨i, ?_, hfile⟩
    · rw [heq, openedAt, logged_mem,
        if_pos (show sectorValid ff.draw.2.flash.mem i = true from hfile.1)]
    · rw [horder]
      exact List.mem_append_right _ List.mem_cons_self
  · refine iff_of_false ?_ fun ⟨i, hmem, hi⟩ => hnone i hmem (opensAt_read.mpr hi)
    rw [heq]
    show ¬ AmpmFResult.frErr = .frOk
    decide

/-- **When opening does not depend on chance.**  For every flash image, every name and every value
of `rand()`: opening for reading succeeds exactly if a sector of the partition holds the file, if
and only if the sector that the search leaves out is not the only one that holds it, and neither is
the one behind the partition. -/
theorem ampmFOpen_read_iff (ff : Ff) (fil : AmpmFil) (fileName : List UInt8) :
    ((ampmFOpen ff fil fileName 0x01).ret = .frOk ↔
        ∃ i < diskSectorMax, HoldsFile ff.flash.mem fileName i) ↔
      (HoldsFile ff.flash.mem fileName (ff.rand ff.drawn % diskSectorMax) →
        ∃ i ≤ diskSectorMax, i ≠ ff.rand ff.drawn % diskSectorMax ∧
          HoldsFile ff.flash.mem fileName i) ∧
      (HoldsFile ff.flash.mem fileName diskSectorMax →
        ∃ i < diskSectorMax, HoldsFile ff.flash.mem fileName i) := by
  have hr : ff.rand ff.drawn % diskSectorMax < diskSectorMax := Nat.mod_lt _ (by decide)
  rw [ampmFOpen_read_ret]
  generalize ff.rand ff.drawn % diskSectorMax = r at hr
  simp only [mem_scanOrder hr]
  constructor
  · rintro ⟨hfound, hholds⟩
    refine ⟨fun hr' => ?_, fun hmax => ?_⟩
    · obtain ⟨i, ⟨hi, hne⟩, hfile⟩ := hholds ⟨r, hr, hr'⟩
      exact ⟨i, hi, hne, hfile⟩
    · exact hfound ⟨diskSectorMax, ⟨Nat.le_refl _, (Nat.ne_of_lt hr).symm⟩, hmax⟩
  · rintro ⟨hskipped, hbehind⟩
    constructor
    · rintro ⟨i, ⟨hi, -⟩, hfile⟩
      rcases Nat.lt_or_eq_of_le hi with hlt | rfl
      · exact ⟨i, hlt, hfile⟩
      · exact hbehind hfile
    · rintro ⟨i, hi, hfile⟩
      by_cases hne : i = r
      · obtain ⟨j, hj, hjr, hfile'⟩ := hskipped (hne ▸ hfile)
        exact ⟨j, ⟨hj, hjr⟩, hfile'⟩
      · exact ⟨i, ⟨Nat.le_of_lt hi, hne⟩, hfile⟩

/-! ### One file in the first sector -/

/-- An empty file `A` in the sector 0, on a flash that is erased otherwise. -/
def oneFileMem : Memory :=
  let fil := newFil (AmpmFil.ofBytes fun _ => 0) [0x41] 0
  program (ffAddr 0 (2 * sizeofAmpmFil)) fil.bytes (program (ffAddr 0 0) fil.bytes fun _ => 0xFF)

/-- The state in which `rand()` returns `r`. -/
def oneFileFf (r : ℕ) : Ff := ⟨⟨oneFileMem, fun _ => none, 0, []⟩, fun _ => 0, fun _ => r, 0, []⟩

lemma oneFileMem_zero : HoldsFile oneFileMem [0x41] 0 := by
  decide +kernel

/-- The other sectors are erased. -/
lemma not_holdsFile_oneFileMem {i : ℕ} (hpos : i ≠ 0) (hi : i ≤ diskSectorMax) :
    ¬ HoldsFile oneFileMem [0x41] i := by
  have hmax : diskSectorMax = 110 := rfl
  have haddr : devAddr (ffAddr i 0) = 0x92000 + i * 0x1000 := by
    rw [devAddr, ffAddr]
    omega
  have hinvalid : sectorValid oneFileMem i = false := by
    refine sectorValid_of_erased fun k _ => ?_
    rw [haddr, oneFileMem, program_of_le, program_of_le]
    · show ffAddr 0 0 + 68 ≤ _
      rw [ffAddr]
      omega
    · show ffAddr 0 (2 * 68) + 68 ≤ _
      rw [ffAddr]
      omega
  rintro ⟨hvalid, -⟩
  rw [hinvalid] at hvalid
  exact Bool.false_ne_true hvalid

/-- The file is there, and is not found if `rand()` returns 0. -/
theorem ampmFOpen_depends_on_rand :
    ¬ ∀ (ff : Ff) (fil : AmpmFil) (fileName : List UInt8),
      (ampmFOpen ff fil fileName 0x01).ret = .frOk ↔
        ∃ i < diskSectorMax, HoldsFile ff.flash.mem fileName i := by
  intro h
  have hfound := (h (oneFileFf 0) (AmpmFil.ofBytes fun _ => 0) [0x41]).mpr
    ⟨0, by decide, oneFileMem_zero⟩
  obtain ⟨i, hmem, hfile⟩ := (ampmFOpen_read_ret _ _ _).mp hfound
  obtain ⟨hi, hne⟩ := (mem_scanOrder (by decide)).mp hmem
  exact not_holdsFile_oneFileMem hne hi hfile

end Ampm

import AmpmGsm.Gps.Scan
import Mathlib.Algebra.Group.Nat.Defs
import Mathlib.Algebra.Ring.Int.Defs
import Mathlib.Data.List.Forall2

/-!
# Satellites in view

`gps/ampm_gps.c`, `nmea_parse_GPGSV`: the format has a comma behind every number but the nineteenth,
and a message of less than four satellites has fewer.  Its last number is followed by an asterisk,
and is taken up to the next comma that the buffer still holds from another sentence.

* `GsvBody` — a message; `satsDue` — the number of its satellites.
* `HoldsSats` — what is asked of the function.
* `gsv_tokens` — the conversions.
* **`nmeaParseGpgsv_sats_iff`** — the function does what is asked unless the last number and what
  follows it have 32 characters or more.
-/

namespace Ampm

/-! ## Messages -/

/-- A number, as it is written; it may be missing. -/
structure GsvNumber where
  text : List UInt8
  digits : ∀ c ∈ text, isDigit c = true
  short : text.length ≤ 8

/-- The number itself. -/
def GsvNumber.value (n : GsvNumber) : Int32 := Int32.ofNat (leadingDigits n.text)

/-- Four numbers of a satellite. -/
structure SatGroup where
  id : GsvNumber
  elv : GsvNumber
  azimuth : GsvNumber
  sig : GsvNumber

/-- What stands between `$GPGSV,` and the asterisk. -/
structure GsvBody where
  packCount : GsvNumber
  packIndex : GsvNumber
  satCount : GsvNumber
  sats : List SatGroup

namespace GsvBody

/-- The numbers of a satellite. -/
def groupFields (g : SatGroup) : List (List UInt8) :=
  [g.id.text, g.elv.text, g.azimuth.text, g.sig.text]

/-- All numbers. -/
def fields (body : GsvBody) : List (List UInt8) :=
  [body.packCount.text, body.packIndex.text, body.satCount.text] ++ body.sats.flatMap groupFields

/-- The bytes, with a comma between two numbers. -/
def bytes (body : GsvBody) : List UInt8 := [44].intercalate body.fields

end GsvBody

/-- The number of satellites due in a message, by its index and the number in view. -/
def satsDue (packIndex satCount : ℤ) : ℤ :=
  let first := (packIndex - 1) * 4
  if first + 4 > satCount then satCount - first else 4

/-- The entry of a satellite. -/
def HoldsSat (sat : NmeaSatellite) (g : SatGroup) : Prop :=
  sat.id = g.id.value ∧ sat.elv = g.elv.value ∧ sat.azimuth = g.azimuth.value ∧
    sat.sig = g.sig.value

/-- What is asked of `nmea_parse_GPGSV` on a buffer. -/
def HoldsSats (body : GsvBody) (buff : List UInt8) : Prop :=
  (nmeaParseGpgsv buff).1 = 1 ∧
    ∀ i (h : i < body.sats.length), HoldsSat ((nmeaParseGpgsv buff).2.satData i) body.sats[i]

/-- The last number and what is taken with it are short enough to be converted, or it is zero. -/
def LastFits (body : GsvBody) (leftover : List UInt8) : Prop :=
  ∀ g ∈ body.sats.getLast?, body.sats.length < 4 →
    g.sig.value = 0 ∨ g.sig.text.length + 2 + (leftover.takeWhile (· ≠ 44)).length < 32

/-! ## The conversions -/

/-- What is left of the format in front of `n` commas. -/
def gsvFormat (n : ℕ) : List UInt8 := (List.replicate n [37, 100, 44]).flatten ++ [37, 100, 42]

lemma gsvFormat_eq :
    bytesOf "%d,%d,%d,%d,%d,%d,%d,%d,%d,%d,%d,%d,%d,%d,%d,%d,%d,%d,%d*" = gsvFormat 18 := by
  decide

lemma gsvFormat_succ (n : ℕ) : gsvFormat (n + 1) = 37 :: 100 :: 44 :: gsvFormat n := by
  rw [gsvFormat, List.replicate_succ, List.flatten_cons, List.append_assoc]
  rfl

/-- A number with a comma behind it. -/
lemma gsv_field {field : List UInt8} (hfield : 44 ∉ field) (n : ℕ) (rest : List UInt8) :
    nmeaScanf (gsvFormat (n + 1)) none (field ++ 44 :: rest) =
      (100, field) :: nmeaScanf (gsvFormat n) none rest := by
  have hnot : ∀ c ∈ field, (decide (c ≠ 44)) = true := fun c hc =>
    decide_eq_true (ne_of_mem_of_not_mem hc hfield)
  rw [gsvFormat_succ, nmeaScanf_field (by decide) (by decide) (by decide) _ (by simp),
    List.takeWhile_append_of_pos hnot, List.dropWhile_append_of_pos hnot,
    List.takeWhile_cons_of_neg (by simp), List.dropWhile_cons_of_neg (by simp), List.append_nil,
    nmeaScanf_compare (by decide)]

/-- All numbers but the last. -/
lemma gsv_fields {fields : List (List UInt8)} (hfields : ∀ field ∈ fields, 44 ∉ field) (n : ℕ)
    (rest : List UInt8) :
    nmeaScanf (gsvFormat (fields.length + n)) none (fields.flatMap (· ++ [44]) ++ rest) =
      fields.map (Prod.mk 100) ++ nmeaScanf (gsvFormat n) none rest := by
  induction fields with
  | nil => simp
  | cons field fields ih =>
      have hrest := ih fun f hf => hfields f (List.mem_cons_of_mem _ hf)
      rw [List.length_cons, Nat.add_right_comm, List.flatMap_cons, List.append_assoc,
        List.append_assoc]
      show nmeaScanf _ none (field ++ 44 :: (fields.flatMap (· ++ [44]) ++ rest)) = _
      rw [gsv_field (hfields field List.mem_cons_self), hrest]
      rfl

/-- The last number of a message of less than four satellites. -/
lemma gsv_last_short {last : List UInt8} {d : UInt8} (hlast : 44 ∉ last) (hd : d ≠ 44) (n : ℕ)
    (leftover : List UInt8) :
    nmeaScanf (gsvFormat (n + 1)) none (last ++ 42 :: d :: leftover) =
      (100, last ++ 42 :: d :: leftover.takeWhile (· ≠ 44)) ::
        nmeaScanf (44 :: gsvFormat n) none (leftover.dropWhile (· ≠ 44)) := by
  have hnot : ∀ c ∈ last, (decide (c ≠ 44)) = true := fun c hc =>
    decide_eq_true (ne_of_mem_of_not_mem hc hlast)
  rw [gsvFormat_succ, nmeaScanf_field (by decide) (by decide) (by decide) _ (by simp),
    List.takeWhile_append_of_pos hnot, List.dropWhile_append_of_pos hnot,
    List.takeWhile_cons_of_pos (by decide), List.dropWhile_cons_of_pos (by decide),
    List.takeWhile_cons_of_pos (by simp [hd]), List.dropWhile_cons_of_pos (by simp [hd])]

/-- The last number of a message of four. -/
lemma gsv_last_full {last : List UInt8} (hlast : 42 ∉ last) (rest : List UInt8) :
    nmeaScanf (gsvFormat 0) none (last ++ 42 :: rest) = [(100, last)] := by
  have hnot : ∀ c ∈ last, (decide (c ≠ 42)) = true := fun c hc =>
    decide_eq_true (ne_of_mem_of_not_mem hc hlast)
  show nmeaScanf (37 :: 100 :: 42 :: []) none _ = _
  rw [nmeaScanf_field (by decide) (by decide) (by decide) _ (by simp),
    List.takeWhile_append_of_pos hnot, List.dropWhile_append_of_pos hnot,
    List.takeWhile_cons_of_neg (by simp), List.dropWhile_cons_of_neg (by simp), List.append_nil,
    nmeaScanf_compare (by decide), nmeaScanf]

lemma intercalate_concat (fields : List (List UInt8)) (last : List UInt8) :
    [44].intercalate (fields ++ [last]) = fields.flatMap (· ++ [44]) ++ last := by
  induction fields with
  | nil => simp [List.intercalate]
  | cons field fields ih =>
      obtain ⟨next, rest, hnext⟩ : ∃ next rest, fields ++ [last] = next :: rest :=
        List.exists_cons_of_ne_nil (by simp)
      rw [List.cons_append, List.flatMap_cons, List.append_assoc, List.append_assoc, ← ih, hnext]
      simp [List.intercalate]

/-- What is converted for the last number. -/
def lastToken (n : ℕ) (last : List UInt8) (d : UInt8) (leftover : List UInt8) : List UInt8 :=
  if n = 0 then last else last ++ 42 :: d :: leftover.takeWhile (· ≠ 44)

/-- **The conversions**: all numbers but the last as they are, the last with what follows it, and
perhaps more behind. -/
lemma gsv_tokens {fields : List (List UInt8)} {last : List UInt8} {d : UInt8} {n : ℕ}
    (hfields : ∀ field ∈ fields, 44 ∉ field) (hlast : 44 ∉ last ∧ 42 ∉ last) (hd : d ≠ 44)
    (hn : fields.length + n = 18) (leftover : List UInt8) :
    ∃ more, nmeaScanf (gsvFormat 18) none
        ([44].intercalate (fields ++ [last]) ++ 42 :: d :: leftover) =
      (fields ++ [lastToken n last d leftover]).map (Prod.mk 100) ++ more := by
  rw [intercalate_concat, List.append_assoc, ← hn, gsv_fields hfields, List.map_append]
  cases n with
  | zero =>
      rw [gsv_last_full hlast.2]
      exact ⟨[], (List.append_nil _).symm⟩
  | succ n =>
      rw [gsv_last_short hlast.1 hd]
      refine ⟨nmeaScanf (44 :: gsvFormat n) none (leftover.dropWhile (· ≠ 44)), ?_⟩
      rw [List.append_assoc]
      rfl

lemma gsv_tokens_length (buff : List UInt8) : (nmeaScanf (gsvFormat 18) none buff).length ≤ 19 :=
  nmeaScanf_length (gsvFormat 18) none buff

/-! ## What is stored -/

/-- What the scan finds for a satellite. -/
structure SatTexts where
  id : List UInt8
  elv : List UInt8
  azimuth : List UInt8
  sig : List UInt8

namespace SatTexts

def fields (t : SatTexts) : List (List UInt8) := [t.id, t.elv, t.azimuth, t.sig]

/-- The entry for it. -/
def sat (t : SatTexts) : NmeaSatellite :=
  ⟨nmeaAtoi t.id, 0, nmeaAtoi t.elv, nmeaAtoi t.azimuth, nmeaAtoi t.sig⟩

end SatTexts

/-- The arguments for a satellite. -/
def groupTargets (i : ℕ) : List (List UInt8 → NmeaGpgsv → NmeaGpgsv) :=
  [satTarget i fun v sat => { sat with id := v }, satTarget i fun v sat => { sat with elv := v },
    satTarget i fun v sat => { sat with azimuth := v },
    satTarget i fun v sat => { sat with sig := v }]

/-- The arguments in front of them. -/
def countTargets : List (List UInt8 → NmeaGpgsv → NmeaGpgsv) :=
  [intTarget fun v p => { p with packCount := v }, intTarget fun v p => { p with packIndex := v },
    intTarget fun v p => { p with satCount := v }]

lemma gpgsvTargets_eq (k m : ℕ) (hkm : k + m = 4) :
    gpgsvTargets = countTargets ++ ((List.range' 0 k).flatMap groupTargets ++
      (List.range' k m).flatMap groupTargets) := by
  rw [← List.flatMap_append]
  have hrange : List.range' 0 k ++ List.range' k m = List.range 4 := by
    rw [List.range_eq_range', ← hkm]
    simpa using List.range'_append_1 (s := 0) (m := k) (n := m)
  rw [hrange]
  rfl

/-- The packet with the entries in front of `k`. -/
def SameFront (k : ℕ) (p q : NmeaGpgsv) : Prop :=
  q.packIndex = p.packIndex ∧ q.satCount = p.satCount ∧ ∀ i < k, q.satData i = p.satData i

/-- The packet with an entry. -/
def NmeaGpgsv.setSat (p : NmeaGpgsv) (i : ℕ) (sat : NmeaSatellite) : NmeaGpgsv :=
  { p with satData := Function.update p.satData i sat }

lemma setSat_zero {p : NmeaGpgsv} {i : ℕ} (hzero : p.satData i = nmeaSatelliteZero) :
    p.setSat i nmeaSatelliteZero = p := by
  rw [NmeaGpgsv.setSat, ← hzero, Function.update_eq_self]

/-- A number that is missing is as good as zero, if zero is what is there. -/
lemma satTarget_setSat {store : Int32 → NmeaSatellite → NmeaSatellite} {sat : NmeaSatellite}
    (hzero : store 0 sat = sat) (p : NmeaGpgsv) (i : ℕ) (text : List UInt8) :
    (if text = [] then p.setSat i sat else satTarget i store text (p.setSat i sat)) =
      p.setSat i (store (nmeaAtoi text) sat) := by
  split_ifs with hnone
  · rw [hnone]
    exact congrArg (p.setSat i) hzero.symm
  · unfold satTarget intTarget NmeaGpgsv.setSat
    dsimp only
    rw [Function.update_self, Function.update_idem]

lemma fill_group (i : ℕ) (t : SatTexts) {p : NmeaGpgsv} (hzero : p.satData i = nmeaSatelliteZero) :
    fillTargets (groupTargets i) (t.fields.map (Prod.mk 100)) p = p.setSat i t.sat := by
  unfold fillTargets groupTargets SatTexts.fields
  simp only [List.map_cons, List.map_nil, List.zip_cons_cons, List.zip_nil_right, List.foldl_cons,
    List.foldl_nil]
  rw [← setSat_zero hzero, satTarget_setSat rfl, satTarget_setSat rfl, satTarget_setSat rfl,
    satTarget_setSat rfl, setSat_zero hzero]
  rfl

/-- The entries from `j` on. -/
lemma fill_groups (seen : List SatTexts) : ∀ (j : ℕ) {p : NmeaGpgsv},
    (∀ i, j ≤ i → p.satData i = nmeaSatelliteZero) →
    let q := fillTargets ((List.range' j seen.length).flatMap groupTargets)
      ((seen.flatMap SatTexts.fields).map (Prod.mk 100)) p
    SameFront j p q ∧ ∀ i (h : i < seen.length), q.satData (j + i) = seen[i].sat := by
  induction seen with
  | nil => exact fun j p _ => ⟨⟨rfl, rfl, fun _ _ => rfl⟩, fun i h => absurd h (Nat.not_lt_zero i)⟩
  | cons t seen ih =>
      intro j p hzero
      have hrest : ∀ i, j + 1 ≤ i → (p.setSat j t.sat).satData i = nmeaSatelliteZero := fun i hi =>
        (Function.update_of_ne (by omega) _ _).trans (hzero i (by omega))
      obtain ⟨⟨hindex, hcount, hfront⟩, hsats⟩ := ih (j + 1) hrest
      have hfill : fillTargets ((List.range' j (t :: seen).length).flatMap groupTargets)
          (((t :: seen).flatMap SatTexts.fields).map (Prod.mk 100)) p =
          fillTargets ((List.range' (j + 1) seen.length).flatMap groupTargets)
            ((seen.flatMap SatTexts.fields).map (Prod.mk 100)) (p.setSat j t.sat) := by
        rw [List.length_cons, List.range'_succ, List.flatMap_cons, List.flatMap_cons,
          List.map_append, fillTargets_append rfl, fill_group j t (hzero j (Nat.le_refl j))]
      dsimp only
      rw [hfill]
      refine ⟨⟨hindex, hcount, fun i hi => ?_⟩, fun i hi => ?_⟩
      · exact (hfront i (Nat.lt_succ_of_lt hi)).trans (Function.update_of_ne (by omega) _ _)
      · cases i with
        | zero => exact (hfront j (Nat.lt_succ_self j)).trans (Function.update_self _ _ _)
        | succ i =>
            have hsat := hsats i (Nat.lt_of_succ_lt_succ hi)
            rw [Nat.add_right_comm] at hsat
            exact hsat

/-- The entries from `k` on leave those in front of `k` alone. -/
lemma fill_rest (k m : ℕ) (more : List (UInt8 × List UInt8)) (p : NmeaGpgsv) :
    SameFront k p (fillTargets ((List.range' k m).flatMap groupTargets) more p) := by
  refine fillTargets_keeps (fun _ => ⟨rfl, rfl, fun _ _ => rfl⟩)
    (fun _ _ _ h h' => ⟨h'.1.trans h.1, h'.2.1.trans h.2.1,
      fun i hi => (h'.2.2 i hi).trans (h.2.2 i hi)⟩) ?_ more p
  intro target htarget text p
  obtain ⟨j, hj, hin⟩ := List.mem_flatMap.mp htarget
  have hle : k ≤ j := (List.mem_range'_1.mp hj).1
  have hstored (store : Int32 → NmeaSatellite → NmeaSatellite) :
      SameFront k p (satTarget j store text p) :=
    ⟨rfl, rfl, fun i hi => Function.update_of_ne (by omega) _ _⟩
  unfold groupTargets at hin
  simp only [List.mem_cons, List.not_mem_nil, or_false] at hin
  rcases hin with rfl | rfl | rfl | rfl
  · exact hstored _
  · exact hstored _
  · exact hstored _
  · exact hstored _

/-- The three numbers in front. -/
lemma fill_counts (packCount packIndex satCount : List UInt8) :
    fillTargets countTargets ([packCount, packIndex, satCount].map (Prod.mk 100)) nmeaGpgsvZero =
      { nmeaGpgsvZero with
        packCount := nmeaAtoi packCount
        packIndex := nmeaAtoi packIndex
        satCount := nmeaAtoi satCount } := by
  cases packCount <;> cases packIndex <;> cases satCount <;> rfl

/-- **What a scan stores**: the counts, and the entries of the satellites that it has found
completely. -/
lemma fill_scanned (packCount packIndex satCount : List UInt8) {seen : List SatTexts}
    (hseen : seen.length ≤ 4) (more : List (UInt8 × List UInt8)) :
    let p := fillTargets gpgsvTargets
      (([packCount, packIndex, satCount] ++ seen.flatMap SatTexts.fields).map (Prod.mk 100) ++ more)
      nmeaGpgsvZero
    p.packIndex = nmeaAtoi packIndex ∧ p.satCount = nmeaAtoi satCount ∧
      ∀ i (h : i < seen.length), p.satData i = seen[i].sat := by
  have hlength : ((List.range' 0 seen.length).flatMap groupTargets).length =
      ((seen.flatMap SatTexts.fields).map (Prod.mk (100 : UInt8))).length := by
    rw [List.length_map, List.length_flatMap, List.length_flatMap]
    simp [groupTargets, SatTexts.fields, List.map_const']
  dsimp only
  rw [gpgsvTargets_eq seen.length (4 - seen.length) (by omega), List.map_append, List.append_assoc,
    fillTargets_append rfl, fillTargets_append hlength, fill_counts]
  obtain ⟨⟨hindex, hcount, -⟩, hsats⟩ := fill_groups seen 0 (p := { nmeaGpgsvZero with
    packCount := nmeaAtoi packCount
    packIndex := nmeaAtoi packIndex
    satCount := nmeaAtoi satCount }) fun _ _ => rfl
  obtain ⟨hindex', hcount', hfront⟩ := fill_rest seen.length (4 - seen.length) more
    (fillTargets ((List.range' 0 seen.length).flatMap groupTargets)
      ((seen.flatMap SatTexts.fields).map (Prod.mk 100)) { nmeaGpgsvZero with
        packCount := nmeaAtoi packCount
        packIndex := nmeaAtoi packIndex
        satCount := nmeaAtoi satCount })
  refine ⟨hindex'.trans hindex, hcount'.trans hcount, fun i hi => (hfront i hi).trans ?_⟩
  have hsat := hsats i hi
  rw [Nat.zero_add] at hsat
  exact hsat

/-! ## Numbers -/

section Numbers

variable (n : GsvNumber)

lemma digits_small {text : List UInt8} {v : ℕ} (hdigits : ∀ c ∈ text, isDigit c = true) :
    text.foldl (fun v c => 10 * v + (c.toNat - 48)) v < (v + 1) * 10 ^ text.length := by
  induction text generalizing v with
  | nil => simp
  | cons c text ih =>
      have hc : c.toNat ≤ 57 := by
        have hdigit := hdigits c List.mem_cons_self
        unfold isDigit at hdigit
        rw [Bool.and_eq_true, decide_eq_true_eq, decide_eq_true_eq] at hdigit
        exact UInt8.le_iff_toNat_le.mp hdigit.2
      have hrest := ih (v := 10 * v + (c.toNat - 48)) fun d hd => hdigits d (List.mem_cons_of_mem _ hd)
      rw [List.foldl_cons, List.length_cons, Nat.pow_succ']
      refine Nat.lt_of_lt_of_le hrest ?_
      rw [← Nat.mul_assoc]
      exact Nat.mul_le_mul_right _ (by omega)

lemma takeWhile_number (rest : List UInt8) (hrest : ∀ c ∈ rest.head?, isDigit c = false) :
    (n.text ++ rest).takeWhile isDigit = n.text := by
  rw [List.takeWhile_append_of_pos n.digits]
  cases rest with
  | nil => exact List.append_nil _
  | cons c rest =>
      rw [List.takeWhile_cons_of_neg (by simp [hrest c rfl]), List.append_nil]

/-- A number of at most eight digits. -/
lemma GsvNumber.small : leadingDigits n.text < 10 ^ 8 := by
  have htake := takeWhile_number n [] fun c hc => absurd hc (Option.not_mem_none c)
  rw [List.append_nil] at htake
  unfold leadingDigits
  rw [htake]
  have hlt := digits_small (v := 0) n.digits
  have hpow : 10 ^ n.text.length ≤ 10 ^ 8 := Nat.pow_le_pow_right (by decide) n.short
  omega

lemma GsvNumber.value_toInt : n.value.toInt = leadingDigits n.text :=
  Int32.toInt_ofNat_of_lt (Nat.lt_trans n.small (by decide))

lemma digit_plain {c : UInt8} (h : isDigit c = true) : isSpace c = false ∧ c ≠ 45 ∧ c ≠ 43 := by
  refine ⟨Bool.eq_false_iff.mpr fun hspace => ?_, ?_, ?_⟩
  · unfold isDigit isSpace at *
    simp only [Bool.and_eq_true, Bool.or_eq_true, decide_eq_true_eq, UInt8.le_iff_toNat_le,
      ← UInt8.toNat_inj] at h hspace
    have hnumbers : (32 : UInt8).toNat = 32 ∧ (9 : UInt8).toNat = 9 ∧ (13 : UInt8).toNat = 13 ∧
        (48 : UInt8).toNat = 48 := by decide
    omega
  · rintro rfl
    exact absurd h (by decide)
  · rintro rfl
    exact absurd h (by decide)

lemma strtol_plain {s : List UInt8} (hs : ∀ c ∈ s.head?, isSpace c = false ∧ c ≠ 45 ∧ c ≠ 43) :
    strtol s = Int32.ofIntClamp (leadingDigits s) := by
  unfold strtol
  cases s with
  | nil => rfl
  | cons c s =>
      obtain ⟨hspace, hminus, hplus⟩ := hs c rfl
      rw [List.dropWhile_cons_of_neg (by simp [hspace])]
      split
      · next heq => exact absurd (List.cons.inj heq).1 hminus
      · next heq => exact absurd (List.cons.inj heq).1 hplus
      · rfl

lemma ofIntClamp_small {v : ℕ} (hv : v < 10 ^ 8) : Int32.ofIntClamp (v : ℤ) = Int32.ofNat v := by
  have hmin : Int32.minValue.toInt ≤ (v : ℤ) := Int.le_trans (by decide) (Int.natCast_nonneg v)
  have hmax : (v : ℤ) ≤ Int32.maxValue.toInt := by
    have hlt : v < 2147483647 := Nat.lt_trans hv (by decide)
    exact Int.ofNat_le.mpr (Nat.le_of_lt hlt)
  have hclamp : Int32.ofIntLE v hmin hmax = Int32.ofIntClamp v := Int32.ofIntLE_eq_ofIntClamp
  rw [← hclamp, ← Int32.toInt_inj, Int32.toInt_ofIntLE,
    Int32.toInt_ofNat_of_lt (Nat.lt_trans hv (by decide))]

/-- What `strtol` makes of a number and of what follows it. -/
lemma strtol_number (rest : List UInt8)
    (hrest : ∀ c ∈ rest.head?, isDigit c = false ∧ isSpace c = false ∧ c ≠ 45 ∧ c ≠ 43) :
    strtol (n.text ++ rest) = n.value := by
  have hdigits : leadingDigits (n.text ++ rest) = leadingDigits n.text := by
    have htake := takeWhile_number n [] fun c hc => absurd hc (Option.not_mem_none c)
    rw [List.append_nil] at htake
    unfold leadingDigits
    rw [takeWhile_number n rest fun c hc => (hrest c hc).1, htake]
  rw [strtol_plain, hdigits, ofIntClamp_small n.small, GsvNumber.value]
  intro c hc
  cases htext : n.text with
  | nil =>
      rw [htext, List.nil_append] at hc
      exact (hrest c hc).2
  | cons c' text =>
      rw [htext] at hc
      obtain rfl : c' = c := Option.some.inj hc
      exact digit_plain (n.digits c' (htext ▸ List.mem_cons_self))

/-- A number that stands by itself. -/
lemma atoi_number : nmeaAtoi n.text = n.value := by
  have hall := strtol_number n [] fun c hc => absurd hc (Option.not_mem_none c)
  rw [List.append_nil] at hall
  rw [nmeaAtoi, if_pos (Nat.lt_of_le_of_lt n.short (by decide)), hall]

/-- A number with an asterisk behind it, and bytes that do not belong to the message. -/
lemma atoi_last (rest : List UInt8) :
    nmeaAtoi (n.text ++ 42 :: rest) =
      if n.text.length + 1 + rest.length < 32 then n.value else 0 := by
  have hstrtol := strtol_number n (42 :: rest) fun c hc => by
    obtain rfl : 42 = c := Option.some.inj hc
    decide
  rw [nmeaAtoi, hstrtol, List.length_append, List.length_cons, Nat.add_assoc, Nat.add_comm 1]

end Numbers

/-! ## The function -/

lemma bmod_small {x : ℤ} (hlow : -2 ^ 31 ≤ x) (hhigh : x < 2 ^ 31) : x.bmod (2 ^ 32) = x :=
  Int.bmod_eq_of_le (by omega) (by omega)

/-- Two counts of a message. -/
def SmallCount (v : Int32) : Prop := 0 ≤ v.toInt ∧ v.toInt < 10 ^ 8

lemma GsvNumber.smallCount (n : GsvNumber) : SmallCount n.value := by
  have hsmall := n.small
  rw [SmallCount, n.value_toInt]
  omega

/-- Enough conversions. -/
lemma gsv_returns {packIndex satCount : Int32} (hindex : SmallCount packIndex)
    (hcount : SmallCount satCount) {nsen : ℕ} (hmax : nsen ≤ 19)
    (hdue : 4 * satsDue packIndex.toInt satCount.toInt + 3 ≤ nsen) :
    let nsat := (packIndex - 1) * nmeaSatinpack
    let nsat := if nsat + nmeaSatinpack > satCount then satCount - nsat else nmeaSatinpack
    let nsat := nsat * 4 + 3
    ¬ (Int32.ofNat nsen < nsat ∨ Int32.ofNat nsen > nmeaSatinpack * 4 + 3) := by
  obtain ⟨hindexLow, hindexHigh⟩ := hindex
  obtain ⟨hcountLow, hcountHigh⟩ := hcount
  have hfour : nmeaSatinpack.toInt = 4 := rfl
  have hfirst : ((packIndex - 1) * nmeaSatinpack).toInt = (packIndex.toInt - 1) * 4 := by
    rw [Int32.toInt_mul, Int32.toInt_sub, hfour, show (1 : Int32).toInt = 1 from rfl,
      bmod_small (x := packIndex.toInt - 1) (by omega) (by omega),
      bmod_small (by omega) (by omega)]
  have hsats : (if (packIndex - 1) * nmeaSatinpack + nmeaSatinpack > satCount then
      satCount - (packIndex - 1) * nmeaSatinpack else nmeaSatinpack).toInt =
      satsDue packIndex.toInt satCount.toInt := by
    have hcond : (packIndex - 1) * nmeaSatinpack + nmeaSatinpack > satCount ↔
        (packIndex.toInt - 1) * 4 + 4 > satCount.toInt := by
      rw [gt_iff_lt, Int32.lt_iff_toInt_lt, Int32.toInt_add, hfirst, hfour,
        bmod_small (by omega) (by omega)]
    unfold satsDue
    dsimp only
    by_cases h : (packIndex.toInt - 1) * 4 + 4 > satCount.toInt
    · rw [if_pos h, if_pos (hcond.mpr h), Int32.toInt_sub, hfirst, bmod_small (by omega) (by omega)]
    · rw [if_neg h, if_neg fun h' => h (hcond.mp h')]
      exact hfour
  have hrange : -5 * 10 ^ 8 ≤ satsDue packIndex.toInt satCount.toInt ∧
      satsDue packIndex.toInt satCount.toInt ≤ 4 := by
    unfold satsDue
    dsimp only
    split_ifs <;> omega
  dsimp only
  generalize (if (packIndex - 1) * nmeaSatinpack + nmeaSatinpack > satCount then
    satCount - (packIndex - 1) * nmeaSatinpack else nmeaSatinpack) = nsat at hsats ⊢
  have hneed : (nsat * 4 + 3).toInt = 4 * satsDue packIndex.toInt satCount.toInt + 3 := by
    rw [Int32.toInt_add, Int32.toInt_mul, hsats, show (4 : Int32).toInt = 4 from rfl,
      show (3 : Int32).toInt = 3 from rfl, bmod_small (x := _ * 4) (by omega) (by omega),
      bmod_small (by omega) (by omega), Int.mul_comm]
  have hnsen : (Int32.ofNat nsen).toInt = nsen := Int32.toInt_ofNat_of_lt (by omega)
  rintro (hless | hmore)
  · rw [Int32.lt_iff_toInt_lt, hneed, hnsen] at hless
    omega
  · rw [gt_iff_lt, Int32.lt_iff_toInt_lt, hnsen,
      show (nmeaSatinpack * 4 + 3).toInt = 19 from rfl] at hmore
    omega

/-- **The function on what the scan finds.** -/
lemma nmeaParseGpgsv_scanned {packCount packIndex satCount buff : List UInt8}
    (seen : List SatTexts) {more : List (UInt8 × List UInt8)} (hseen : seen.length ≤ 4)
    (htokens : nmeaScanf (gsvFormat 18) none buff =
      ([packCount, packIndex, satCount] ++ seen.flatMap SatTexts.fields).map (Prod.mk 100) ++ more)
    (hindex : SmallCount (nmeaAtoi packIndex)) (hcount : SmallCount (nmeaAtoi satCount))
    (hdue : satsDue (nmeaAtoi packIndex).toInt (nmeaAtoi satCount).toInt ≤ seen.length) :
    (nmeaParseGpgsv buff).1 = 1 ∧
      ∀ i (h : i < seen.length), (nmeaParseGpgsv buff).2.satData i = seen[i].sat := by
  obtain ⟨hpackIndex, hsatCount, hsats⟩ := fill_scanned packCount packIndex satCount hseen more
  have hmax := gsv_tokens_length buff
  have hlength : (nmeaScanf (gsvFormat 18) none buff).length = 3 + 4 * seen.length + more.length := by
    rw [htokens]
    simp [List.length_flatMap, SatTexts.fields, List.map_const']
    omega
  rw [← htokens] at hpackIndex hsatCount hsats
  have hreturns := gsv_returns hindex hcount hmax (by rw [hlength]; omega)
  unfold nmeaParseGpgsv
  rw [gsvFormat_eq]
  refine ⟨?_, hsats⟩
  dsimp only
  rw [hpackIndex, hsatCount]
  exact if_neg hreturns

/-! ## Messages and what the scan finds in them -/

section Messages

variable {body : GsvBody} {d : UInt8} {leftover : List UInt8}

/-- The numbers of a satellite, as a scan of the message alone would find them. -/
def SatGroup.texts (g : SatGroup) : SatTexts := ⟨g.id.text, g.elv.text, g.azimuth.text, g.sig.text⟩

lemma SatGroup.holds_texts (g : SatGroup) : HoldsSat g.texts.sat g :=
  ⟨atoi_number g.id, atoi_number g.elv, atoi_number g.azimuth, atoi_number g.sig⟩

/-- The last satellite, with another text for its last number. -/
lemma SatGroup.holds_last (g : SatGroup) (sig : List UInt8) :
    HoldsSat ({ g.texts with sig := sig } : SatTexts).sat g ↔ nmeaAtoi sig = g.sig.value :=
  ⟨fun h => h.2.2.2, fun h => ⟨atoi_number g.id, atoi_number g.elv, atoi_number g.azimuth, h⟩⟩

lemma GsvNumber.no_separator (n : GsvNumber) : 44 ∉ n.text ∧ 42 ∉ n.text :=
  ⟨fun h => absurd (n.digits 44 h) (by decide), fun h => absurd (n.digits 42 h) (by decide)⟩

lemma texts_fields (sats : List SatGroup) :
    (sats.map SatGroup.texts).flatMap SatTexts.fields = sats.flatMap GsvBody.groupFields := by
  rw [List.flatMap_map]
  rfl

lemma GsvBody.no_comma (body : GsvBody) : ∀ field ∈ body.fields, 44 ∉ field := by
  intro field hfield
  rcases List.mem_append.mp hfield with hcount | hsat
  · simp only [List.mem_cons, List.not_mem_nil, or_false] at hcount
    rcases hcount with rfl | rfl | rfl
    · exact body.packCount.no_separator.1
    · exact body.packIndex.no_separator.1
    · exact body.satCount.no_separator.1
  · obtain ⟨g, -, hg⟩ := List.mem_flatMap.mp hsat
    unfold GsvBody.groupFields at hg
    simp only [List.mem_cons, List.not_mem_nil, or_false] at hg
    rcases hg with rfl | rfl | rfl | rfl
    · exact g.id.no_separator.1
    · exact g.elv.no_separator.1
    · exact g.azimuth.no_separator.1
    · exact g.sig.no_separator.1

/-- What the scan finds in a message. -/
lemma GsvBody.tokens {fields : List (List UInt8)} {last : GsvNumber}
    (hfields : body.fields = fields ++ [last.text]) (hd : d ≠ 44) {n : ℕ}
    (hn : fields.length + n = 18) (leftover : List UInt8) :
    ∃ more, nmeaScanf (gsvFormat 18) none (body.bytes ++ 42 :: d :: leftover) =
      (fields ++ [lastToken n last.text d leftover]).map (Prod.mk 100) ++ more := by
  have hcommas := body.no_comma
  rw [GsvBody.bytes, hfields]
  rw [hfields] at hcommas
  exact gsv_tokens (fun field hfield => hcommas field (List.mem_append_left _ hfield))
    last.no_separator hd hn leftover

/-- The value of the last number, as it is converted. -/
lemma atoi_lastToken (n : ℕ) (last : GsvNumber) (d : UInt8) (leftover : List UInt8) :
    nmeaAtoi (lastToken n last.text d leftover) =
      if n = 0 ∨ last.text.length + 2 + (leftover.takeWhile (· ≠ 44)).length < 32 then last.value
      else 0 := by
  unfold lastToken
  split_ifs with hn hfits hfits
  · exact atoi_number last
  · exact absurd (Or.inl hn) hfits
  · have hlt := hfits.resolve_left hn
    rw [atoi_last, if_pos (by rw [List.length_cons]; omega)]
  · have hge := fun h => hfits (Or.inr h)
    rw [atoi_last, if_neg (by rw [List.length_cons]; omega)]

/-- A message without satellites. -/
lemma gsv_none (hd : d ≠ 44) (hnone : body.sats = [])
    (hdue : satsDue body.packIndex.value.toInt body.satCount.value.toInt = 0) :
    HoldsSats body (body.bytes ++ 42 :: d :: leftover) := by
  have hfields : body.fields =
      [body.packCount.text, body.packIndex.text] ++ [body.satCount.text] := by
    rw [GsvBody.fields, hnone]
    rfl
  obtain ⟨more, htokens⟩ := GsvBody.tokens hfields hd (n := 16) rfl leftover
  have hindex := atoi_number body.packIndex
  have hsmall := body.satCount.smallCount
  obtain ⟨hcount, hless⟩ : SmallCount (nmeaAtoi (lastToken 16 body.satCount.text d leftover)) ∧
      satsDue body.packIndex.value.toInt
        (nmeaAtoi (lastToken 16 body.satCount.text d leftover)).toInt ≤ 0 := by
    rw [atoi_lastToken]
    by_cases hfits : 16 = 0 ∨
        body.satCount.text.length + 2 + (leftover.takeWhile (· ≠ 44)).length < 32
    · rw [if_pos hfits]
      exact ⟨hsmall, Int.le_of_eq hdue⟩
    · rw [if_neg hfits]
      refine ⟨⟨Int.le_refl 0, show (0 : ℤ) < 10 ^ 8 by decide⟩, ?_⟩
      show satsDue _ 0 ≤ 0
      have hcountLow := hsmall.1
      unfold satsDue at hdue ⊢
      dsimp only at hdue ⊢
      split_ifs at hdue ⊢ <;> omega
  have hscanned := nmeaParseGpgsv_scanned [] (Nat.zero_le 4) htokens
    (by rw [hindex]; exact body.packIndex.smallCount) hcount (by rw [hindex]; exact hless)
  refine ⟨hscanned.1, fun i hi => ?_⟩
  rw [hnone] at hi
  exact absurd hi (Nat.not_lt_zero i)

/-- The satellites of a message, with another text for the last number. -/
def seenSats (sats : List SatGroup) (g : SatGroup) (sig : List UInt8) : List SatTexts :=
  sats.map SatGroup.texts ++ [{ g.texts with sig := sig }]

lemma seenSats_length (sats : List SatGroup) (g : SatGroup) (sig : List UInt8) :
    (seenSats sats g sig).length = (sats ++ [g]).length := by
  simp [seenSats]

lemma seenSats_fields (sats : List SatGroup) (g : SatGroup) (sig : List UInt8) :
    (seenSats sats g sig).flatMap SatTexts.fields =
      sats.flatMap GsvBody.groupFields ++ [g.id.text, g.elv.text, g.azimuth.text] ++ [sig] := by
  rw [seenSats, List.flatMap_append, texts_fields, List.append_assoc]
  rfl

/-- They are those of the message but for that number. -/
lemma seenSats_holds (sats : List SatGroup) (g : SatGroup) (sig : List UInt8) :
    List.Forall₂ (fun t g => HoldsSat t.sat g) (seenSats sats g sig) (sats ++ [g]) ↔
      nmeaAtoi sig = g.sig.value := by
  unfold seenSats
  induction sats with
  | nil =>
      rw [List.map_nil, List.nil_append, List.nil_append, List.forall₂_cons,
        and_iff_left List.Forall₂.nil]
      exact g.holds_last sig
  | cons first sats ih =>
      rw [List.map_cons, List.cons_append, List.cons_append, List.forall₂_cons,
        and_iff_right first.holds_texts, ih]

/-- A message of satellites. -/
lemma gsv_some (hd : d ≠ 44) {sats : List SatGroup} {g : SatGroup} (hsats : body.sats = sats ++ [g])
    (hdue : satsDue body.packIndex.value.toInt body.satCount.value.toInt = body.sats.length) :
    HoldsSats body (body.bytes ++ 42 :: d :: leftover) ↔
      nmeaAtoi (lastToken (16 - 4 * body.sats.length) g.sig.text d leftover) = g.sig.value := by
  have hlength : body.sats.length = sats.length + 1 := by
    rw [hsats, List.length_append, List.length_singleton]
  have hfour : body.sats.length ≤ 4 := by
    unfold satsDue at hdue
    dsimp only at hdue
    split_ifs at hdue <;> omega
  have hfields : body.fields = ([body.packCount.text, body.packIndex.text, body.satCount.text] ++
      sats.flatMap GsvBody.groupFields ++ [g.id.text, g.elv.text, g.azimuth.text]) ++
      [g.sig.text] := by
    rw [GsvBody.fields, hsats, List.flatMap_append, List.append_assoc, List.append_assoc]
    rfl
  obtain ⟨more, htokens⟩ := GsvBody.tokens hfields hd (n := 16 - 4 * body.sats.length)
    (by simp [List.length_flatMap, GsvBody.groupFields, List.map_const']; omega) leftover
  generalize lastToken (16 - 4 * body.sats.length) g.sig.text d leftover = sig at htokens ⊢
  have hseen : (seenSats sats g sig).length = body.sats.length := by
    rw [seenSats_length, hsats]
  have htokens' : nmeaScanf (gsvFormat 18) none (body.bytes ++ 42 :: d :: leftover) =
      ([body.packCount.text, body.packIndex.text, body.satCount.text] ++
        (seenSats sats g sig).flatMap SatTexts.fields).map (Prod.mk 100) ++ more := by
    rw [htokens, seenSats_fields]
    simp only [List.append_assoc]
  have hindex := atoi_number body.packIndex
  have hcount := atoi_number body.satCount
  obtain ⟨hreturns, hfound⟩ := nmeaParseGpgsv_scanned (seenSats sats g sig)
    (by rw [hseen]; exact hfour) htokens' (by rw [hindex]; exact body.packIndex.smallCount)
    (by rw [hcount]; exact body.satCount.smallCount)
    (Int.le_of_eq (by rw [hindex, hcount, hdue, hseen]))
  rw [← seenSats_holds sats g sig, ← hsats, List.forall₂_iff_get, and_iff_right hseen]
  constructor
  · rintro ⟨-, hholds⟩ i hi hi'
    have hsat := hholds i hi'
    rw [hfound i hi] at hsat
    exact hsat
  · intro hholds
    refine ⟨hreturns, fun i hi => ?_⟩
    have hi' : i < (seenSats sats g sig).length := by rwa [hseen]
    rw [hfound i hi']
    exact hholds i hi' hi

end Messages

/-- **The satellites are read exactly if the last number fits**: less than 32 characters are
converted for it, with those that the buffer still holds from another sentence. -/
theorem nmeaParseGpgsv_sats_iff (body : GsvBody) {d : UInt8} (hd : d ≠ 44) (leftover : List UInt8)
    (hdue : satsDue body.packIndex.value.toInt body.satCount.value.toInt = body.sats.length) :
    HoldsSats body (body.bytes ++ 42 :: d :: leftover) ↔ LastFits body leftover := by
  unfold LastFits
  rcases List.eq_nil_or_concat body.sats with hnone | ⟨sats, g, hsats⟩
  · rw [hnone] at hdue ⊢
    exact iff_of_true (gsv_none hd hnone hdue) fun g hg => absurd hg (Option.not_mem_none g)
  · rw [List.concat_eq_append] at hsats
    rw [gsv_some hd hsats hdue, atoi_lastToken]
    have hlast : body.sats.getLast? = some g := by
      rw [hsats, List.getLast?_concat]
    simp only [hlast, Option.mem_some_iff, forall_eq']
    split_ifs with hfits
    · refine iff_of_true rfl fun hless => Or.inr (hfits.resolve_left ?_)
      omega
    · obtain ⟨hmany, hlong⟩ := not_or.mp hfits
      constructor
      · exact fun hzero _ => Or.inl hzero.symm
      · exact fun h => (h (by omega)).elim Eq.symm fun hlt => absurd hlt hlong

/-- A number of one to three digits. -/
def gsvNumber (text : List UInt8) (h : text.all isDigit = true ∧ text.length ≤ 8) : GsvNumber :=
  ⟨text, List.all_eq_true.mp h.1, h.2⟩

/-- A message of one satellite. -/
def oneSatellite : GsvBody :=
  { packCount := gsvNumber (bytesOf "1") (by decide)
    packIndex := gsvNumber (bytesOf "1") (by decide)
    satCount := gsvNumber (bytesOf "01") (by decide)
    sats := [⟨gsvNumber (bytesOf "05") (by decide), gsvNumber (bytesOf "10") (by decide),
      gsvNumber (bytesOf "123") (by decide), gsvNumber (bytesOf "45") (by decide)⟩] }

/-- It is read with a comma of another sentence close behind it. -/
theorem nmeaParseGpgsv_after_comma :
    HoldsSats oneSatellite (oneSatellite.bytes ++ 42 :: 55 :: bytesOf ",07,33,201,40*4A") :=
  (nmeaParseGpgsv_sats_iff oneSatellite (by decide) _ (by decide +kernel)).mpr
    fun g hg _ => Or.inr (by
      obtain rfl := Option.some.inj hg
      decide +kernel)

/-- It is not read as the first sentence behind a reset, when the rest of the 80 bytes is zero. -/
theorem nmeaParseGpgsv_first :
    ¬ HoldsSats oneSatellite (oneSatellite.bytes ++ 42 :: 55 :: List.replicate 59 0) := by
  intro h
  have hsig := (h.2 0 (by decide)).2.2.2
  revert hsig
  decide +kernel

end Ampm

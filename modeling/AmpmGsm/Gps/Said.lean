import AmpmGsm.Gps.Fields
import AmpmGsm.Gps.Held
import AmpmGsm.Gps.Parser
import Mathlib.Tactic.IntervalCases

/-!
# What a sentence says

The bytes of a sentence, read field by field: which sentences can be read as a whole, and what there is
of one that cannot.  A field that is empty or missing reads as zero.

* `readAt` — a field; `gprmcTexts`, `gpggaTexts`, `gpgsaTexts`, `gpgsvTexts` — those of a sentence.
* `IsTime`, `timeSaid` — the time of day.
* `Readable` — the sentences that the functions parse.
* `gprmcSaid`, `gpggaSaid`, `gpgsaSaid`, `gpgsvSaid` — what there is of the others.
* `nmeaParseGprmc_said`, `nmeaParseGpgga_said`, `nmeaParseGpgsa_said`, `nmeaParseGpgsv_said` — the parse
  functions answer so.
-/

namespace Ampm

open Function

/-! ## Fields -/

/-- The text of a field; it is empty where the sentence has none. -/
def textAt (texts : List (List UInt8)) (k : ℕ) : List UInt8 := texts.getD k []

/-- What a field is read as. -/
def readAt {V : Type} (texts : List (List UInt8)) (k : ℕ) (zero : V) (val : List UInt8 → V) : V :=
  if textAt texts k = [] then zero else val (textAt texts k)

/-- A number. -/
def numberAt (texts : List (List UInt8)) (k : ℕ) : Int32 := readAt texts k 0 nmeaAtoi

/-- The letter of a field. -/
def firstLetter (text : List UInt8) : UInt8 := text.headD 0

/-- A letter. -/
def letterAt (texts : List (List UInt8)) (k : ℕ) : UInt8 := readAt texts k 0 firstLetter

/-- A fraction. -/
def realAt {D : Type} (ops : Doubles D) (texts : List (List UInt8)) (k : ℕ) : D :=
  readAt texts k ops.zero (nmeaAtof ops)

/-- The fields of an RMC sentence. -/
def gprmcTexts (text : List UInt8) : List (List UInt8) :=
  fieldTexts (gprmcFields ++ [.char]) .char text

/-- The fields of a GGA sentence. -/
def gpggaTexts (text : List UInt8) : List (List UInt8) := fieldTexts gpggaFields .decimal text

/-- The fields of a GSA sentence. -/
def gpgsaTexts (text : List UInt8) : List (List UInt8) := fieldTexts gpgsaFields .fraction text

/-- The fields of a GSV sentence. -/
def gpgsvTexts (text : List UInt8) : List (List UInt8) := fieldTexts gpgsvFields .decimal text

/-! ## The time of day -/

/-- The text of the time: the first field up to a NUL, or what `time_buff` held if the field is
empty. -/
def timeText (stack text : List UInt8) : List UInt8 :=
  if firstField text = [] then stack else (firstField text).takeWhile (· ≠ 0)

/-- `hhmmss`, or that with a point and one to three digits. -/
def IsTime (time : List UInt8) : Prop :=
  time.length = 6 ∨
    (time.length = 8 ∨ time.length = 9 ∨ time.length = 10) ∧ time.getD 6 0 = 46

instance (time : List UInt8) : Decidable (IsTime time) := inferInstanceAs (Decidable (_ ∨ _))

/-- The time of day with a date; a text that is too short or too long says none. -/
def timeSaid (time : List UInt8) (date : NmeaTime) : NmeaTime :=
  if time.length = 6 ∨ time.length = 8 ∨ time.length = 9 ∨ time.length = 10 then
    { date with
      hour := nmeaAtoi (time.take 2)
      min := nmeaAtoi ((time.drop 2).take 2)
      sec := nmeaAtoi ((time.drop 4).take 2)
      hsec := if time.length ≠ 6 ∧ time.getD 6 0 = 46 then nmeaAtoi (time.drop 7) else date.hsec }
  else date

/-! ## Sentences -/

/-- The number of satellites that a GSV sentence announces, by its index and the number in view. -/
def satsAnnounced (index count : Int32) : Int32 :=
  let before := (index - 1) * nmeaSatinpack
  if before + nmeaSatinpack > count then count - before else nmeaSatinpack

/-- A sentence that can be read: all its fields are there, and its time is one; a GSV sentence has the
numbers of as many satellites as it announces. -/
def Readable (cmd : GpsCmd) (stack text : List UInt8) : Prop :=
  match cmd with
  | .gprmc => complete gprmcFields text = true ∧ IsTime (timeText stack text)
  | .gpgga => complete gpggaFields text = true ∧ IsTime (timeText stack text)
  | .gpgsa => complete gpgsaFields text = true
  | .gpgsv =>
      satsAnnounced (numberAt (gpgsvTexts text) 1) (numberAt (gpgsvTexts text) 2) * 4 + 3 ≤
        Int32.ofNat (gpgsvTexts text).length

instance decidableReadable (cmd : GpsCmd) (stack text : List UInt8) :
    Decidable (Readable cmd stack text) :=
  match cmd with
  | .gprmc => inferInstanceAs (Decidable (_ ∧ _))
  | .gpgga => inferInstanceAs (Decidable (_ ∧ _))
  | .gpgsa => inferInstanceAs (Decidable (_ = _))
  | .gpgsv => inferInstanceAs (Decidable (_ ≤ _))

/-- `time_buff` has room for the first field and a NUL. -/
def TimeFits (cmd : GpsCmd) (text : List UInt8) : Prop :=
  cmd = .gprmc ∨ cmd = .gpgga → (firstField text).length ≤ 15

section Said

variable {D : Type} (ops : Doubles D)

/-- What there is of an RMC sentence; its time is read only if all fields are there. -/
def gprmcSaid (stack text : List UInt8) : NmeaGprmc D :=
  let t := gprmcTexts text
  let date := { nmeaTimeZero with
    year := numberAt t 10
    mon := numberAt t 9
    day := numberAt t 8 }
  { utc := if complete gprmcFields text then timeSaid (timeText stack text) date else date
    status := letterAt t 1
    lat := realAt ops t 2
    ns := letterAt t 3
    lon := realAt ops t 4
    ew := letterAt t 5
    speed := realAt ops t 6
    direction := realAt ops t 7
    declination := realAt ops t 11
    declinEw := letterAt t 12
    mode := letterAt t 13 }

/-- What there is of a GGA sentence. -/
def gpggaSaid (stack text : List UInt8) : NmeaGpgga D :=
  let t := gpggaTexts text
  { utc := if complete gpggaFields text then timeSaid (timeText stack text) nmeaTimeZero
      else nmeaTimeZero
    lat := realAt ops t 1
    ns := letterAt t 2
    lon := realAt ops t 3
    ew := letterAt t 4
    sig := numberAt t 5
    satinuse := numberAt t 6
    hdop := realAt ops t 7
    elv := realAt ops t 8
    elvUnits := letterAt t 9
    diff := realAt ops t 10
    diffUnits := letterAt t 11
    dgpsAge := realAt ops t 12
    dgpsSid := numberAt t 13 }

/-- What there is of a GSA sentence. -/
def gpgsaSaid (text : List UInt8) : NmeaGpgsa D :=
  let t := gpgsaTexts text
  { fixMode := letterAt t 0
    fixType := numberAt t 1
    satPrn := fun i => if i < 12 then numberAt t (2 + i) else 0
    pdop := realAt ops t 14
    hdop := realAt ops t 15
    vdop := realAt ops t 16 }

/-- What there is of a GSV sentence. -/
def gpgsvSaid (text : List UInt8) : NmeaGpgsv :=
  let t := gpgsvTexts text
  { packCount := numberAt t 0
    packIndex := numberAt t 1
    satCount := numberAt t 2
    satData := fun i =>
      if i < 4 then
        { id := numberAt t (3 + 4 * i)
          inUse := 0
          elv := numberAt t (4 + 4 * i)
          azimuth := numberAt t (5 + 4 * i)
          sig := numberAt t (6 + 4 * i) }
      else nmeaSatelliteZero }

end Said

/-! ## What is stored of a field -/

section Fill

variable {P V : Type} {targets : List (List UInt8 → P → P)}

lemma readAt_nil (k : ℕ) (zero : V) (val : List UInt8 → V) : readAt [] k zero val = zero := by
  rw [readAt, textAt, List.getD_nil, if_pos rfl]

/-- A value that only one argument stores is what its field is read as. -/
lemma fillTargets_get (get : P → V) {val : List UInt8 → V} {k : ℕ}
    (hval : ∀ text p, get (targets.getD k (fun _ p => p) text p) = val text)
    (hkeeps : ∀ other ∈ targets.eraseIdx k, ∀ text p, get (other text p) = get p)
    (tokens : List (UInt8 × List UInt8)) (p : P) :
    get (fillTargets targets tokens p) = readAt (tokens.map Prod.snd) k (get p) val := by
  induction k generalizing targets tokens p with
  | zero =>
      cases targets with
      | nil =>
          rw [fillTargets, List.zip_nil_right, List.foldl_nil, readAt]
          split_ifs
          · rfl
          · exact hval _ p
      | cons first targets =>
          have hrest : ∀ tokens p, get (fillTargets targets tokens p) = get p :=
            fillTargets_keeps (R := fun p q => get q = get p) (fun _ => rfl)
              (fun _ _ _ h h' => h'.trans h) hkeeps
          cases tokens with
          | nil =>
              rw [List.map_nil, readAt_nil]
              rfl
          | cons token tokens =>
              show get (fillTargets targets tokens (if token.2 = [] then p else first token.2 p)) =
                if token.2 = [] then get p else val token.2
              rw [hrest]
              split_ifs
              · rfl
              · exact hval token.2 p
  | succ k ih =>
      cases targets with
      | nil =>
          rw [fillTargets, List.zip_nil_right, List.foldl_nil, readAt]
          split_ifs
          · rfl
          · exact hval _ p
      | cons first targets =>
          cases tokens with
          | nil =>
              rw [List.map_nil, readAt_nil]
              rfl
          | cons token tokens =>
              have hrest := ih hval (fun other h => hkeeps other (List.mem_cons_of_mem _ h)) tokens
                (if token.2 = [] then p else first token.2 p)
              have hfirst : get (if token.2 = [] then p else first token.2 p) = get p := by
                split_ifs
                · rfl
                · exact hkeeps first List.mem_cons_self token.2 p
              rw [hfirst] at hrest
              exact hrest

/-- A value that no argument stores is kept. -/
lemma fillTargets_same (get : P → V)
    (hkeeps : ∀ other ∈ targets, ∀ text p, get (other text p) = get p)
    (tokens : List (UInt8 × List UInt8)) (p : P) : get (fillTargets targets tokens p) = get p :=
  fillTargets_keeps (R := fun p q => get q = get p) (fun _ => rfl) (fun _ _ _ h h' => h'.trans h)
    hkeeps tokens p

end Fill

/-! ## The parse functions -/

/-- The digits of hour, minute and second are stored. -/
lemma fill_time {hour min sec : List UInt8} (hhour : hour ≠ []) (hmin : min ≠ []) (hsec : sec ≠ [])
    (more : List (UInt8 × List UInt8)) (date : NmeaTime) :
    fillTargets timeTargets ((100, hour) :: (100, min) :: (100, sec) :: more) date =
      fillTargets [intTarget fun v t => { t with hsec := v }] more
        { date with hour := nmeaAtoi hour, min := nmeaAtoi min, sec := nmeaAtoi sec } := by
  have hthree : fillTargets timeTargets ((100, hour) :: (100, min) :: (100, sec) :: more) date =
      fillTargets [intTarget fun v t => { t with hsec := v }] more
        (fillTargets (timeTargets.take 3) [(100, hour), (100, min), (100, sec)] date) := rfl
  rw [hthree]
  simp [fillTargets, timeTargets, intTarget, hhour, hmin, hsec]

/-- What is found behind the seconds. -/
lemma scan_hsec {time : List UInt8} (hlong : 8 ≤ time.length) :
    nmeaScanf (bytesOf ".%d") none (time.drop 6) =
      if time.getD 6 0 = 46 then [(100, time.drop 7)] else [] := by
  obtain ⟨c, more, hdrop⟩ : ∃ c more, time.drop 6 = c :: more :=
    List.exists_cons_of_ne_nil (by simp only [ne_eq, List.drop_eq_nil_iff]; omega)
  have hmore : time.drop 7 = more := by
    rw [show 7 = 6 + 1 from rfl, ← List.drop_drop, hdrop]
    rfl
  have hc : time.getD 6 0 = c := by
    simp only [List.getD_eq_getElem?_getD, ← List.head?_drop, hdrop, List.head?_cons,
      Option.getD_some]
  obtain ⟨d, rest, rfl⟩ : ∃ d rest, more = d :: rest := by
    refine List.exists_cons_of_ne_nil fun hnone => ?_
    have hlength := congrArg List.length hmore
    rw [hnone, List.length_drop, List.length_nil] at hlength
    omega
  have hformat : bytesOf ".%d" = [46, 37, 100] := rfl
  rw [hdrop, hmore, hc, hformat, nmeaScanf, if_neg (by decide)]
  split_ifs
  · rfl
  · rfl

/-- The time of day. -/
lemma nmeaParseTime_eq (time : List UInt8) (date : NmeaTime) :
    nmeaParseTime time date = (if IsTime time then 0 else -1, timeSaid time date) := by
  have htake : ∀ k, k + 2 ≤ time.length → (time.drop k).take 2 ≠ [] := by
    intro k hk hnone
    have hlength := congrArg List.length hnone
    rw [List.length_take, List.length_drop, List.length_nil] at hlength
    omega
  have hpairs : ∀ format : List UInt8, 6 ≤ time.length →
      nmeaScanf (37 :: 50 :: 100 :: 37 :: 50 :: 100 :: 37 :: 50 :: 100 :: format) none time =
        (100, time.take 2) :: (100, (time.drop 2).take 2) :: (100, (time.drop 4).take 2) ::
          nmeaScanf format none (time.drop 6) := by
    intro format hlong
    simp only [nmeaScanf_pair, List.drop_drop, List.length_drop]
    rw [if_pos (by omega), if_pos (by omega), if_pos (by omega)]
  have hfill : ∀ more, 6 ≤ time.length → fillTargets timeTargets ((100, time.take 2) ::
      (100, (time.drop 2).take 2) :: (100, (time.drop 4).take 2) :: more) date = _ :=
    fun more hlong => fill_time (htake 0 (by omega)) (htake 2 (by omega)) (htake 4 (by omega)) more date
  unfold nmeaParseTime
  by_cases hsix : time.length = 6
  · have hempty : time.drop 6 = [] := List.drop_eq_nil_of_le (by omega)
    have hscan := hpairs [] (by omega)
    rw [hempty, nmeaScanf_empty] at hscan
    have hformat : bytesOf "%2d%2d%2d" = 37 :: 50 :: 100 :: 37 :: 50 :: 100 :: 37 :: 50 :: 100 :: [] :=
      rfl
    rw [if_pos hsix, hformat, hscan]
    dsimp only
    rw [hfill _ (by omega), if_pos (show [_, _, _].length = 3 from rfl),
      if_pos (show IsTime time from Or.inl hsix), timeSaid, if_pos (Or.inl hsix), if_neg (by omega)]
    rfl
  · rw [if_neg hsix]
    by_cases hlong : time.length = 8 ∨ time.length = 9 ∨ time.length = 10
    · have hscan := hpairs (bytesOf ".%d") (by omega)
      rw [scan_hsec (by omega)] at hscan
      have hformat : bytesOf "%2d%2d%2d.%d" =
          37 :: 50 :: 100 :: 37 :: 50 :: 100 :: 37 :: 50 :: 100 :: bytesOf ".%d" := rfl
      rw [if_pos hlong, hformat, hscan]
      dsimp only
      rw [hfill _ (by omega), timeSaid, if_pos (Or.inr hlong)]
      by_cases hpoint : time.getD 6 0 = 46
      · have hmore : time.drop 7 ≠ [] := by
          simp only [ne_eq, List.drop_eq_nil_iff]
          omega
        rw [if_pos hpoint, if_pos (show [_, _, _, _].length = 4 from rfl),
          if_pos (show IsTime time from Or.inr ⟨hlong, hpoint⟩), if_pos ⟨hsix, hpoint⟩]
        simp [fillTargets, intTarget, hmore]
      · have hnot : ¬ IsTime time := fun h => h.elim hsix fun h => hpoint h.2
        rw [if_neg hpoint, if_neg hnot, if_neg (show ¬ [_, _, _].length = 4 from Nat.succ_ne_self 3 ∘ Eq.symm),
          if_neg fun h => hpoint h.2]
        rfl
    · have hnot : ¬ IsTime time := fun h => h.elim hsix fun h => hlong h.1
      rw [if_neg hlong, if_neg hnot, timeSaid, if_neg (by omega)]

section Parse

/-- What a scan stores, if only the argument of the field `k` stores the value. -/
lemma scanned_get {P V : Type} {targets : List (List UInt8 → P → P)} {kinds : List FieldKind}
    {last : FieldKind} {text : List UInt8} {p : P} (hlast : last ≠ .date) (k : ℕ) (get : P → V)
    {val : List UInt8 → V} (hval : ∀ text p, get (targets.getD k (fun _ p => p) text p) = val text)
    (hkeeps : ∀ other ∈ targets.eraseIdx k, ∀ text p, get (other text p) = get p) :
    get (fillTargets targets (nmeaScanf (sentenceFormat kinds last) none text) p) =
      readAt (fieldTexts kinds last text) k (get p) val := by
  rw [fillTargets_get get hval hkeeps, scan_fieldTexts hlast]

variable {D : Type} (ops : Doubles D) (stack text : List UInt8)

/-- The time is the first field. -/
lemma readAt_time {kinds : List FieldKind} {last : FieldKind} :
    (readAt (fieldTexts (.string :: kinds) last text) 0 (some stack) fun time =>
      if time.length < nmeaTimeparseBuf then some (time.takeWhile (· ≠ 0)) else none) =
      if (firstField text).length ≤ 15 then some (timeText stack text) else none := by
  have hfirst : textAt (fieldTexts (.string :: kinds) last text) 0 = firstField text := by
    cases text <;> rfl
  have hbound : (firstField text).length < nmeaTimeparseBuf ↔ (firstField text).length ≤ 15 :=
    Nat.lt_succ_iff
  rw [readAt, hfirst, timeText, if_congr hbound rfl rfl]
  by_cases hempty : firstField text = []
  · rw [if_pos hempty, if_pos hempty, if_pos (by rw [hempty]; exact Nat.zero_le 15)]
  · rw [if_neg hempty, if_neg hempty]

lemma char_ne_date : FieldKind.char ≠ .date := nofun

lemma decimal_ne_date : FieldKind.decimal ≠ .date := nofun

lemma fraction_ne_date : FieldKind.fraction ≠ .date := nofun

/-- What the scan of an RMC sentence stores. -/
lemma gprmc_filled :
    fillTargets (gprmcTargets ops)
        (nmeaScanf (sentenceFormat (gprmcFields ++ [.char]) .char) none text)
        (nmeaGprmcZero ops, some stack) =
      ({ gprmcSaid ops stack text with
        utc := { nmeaTimeZero with
          year := numberAt (gprmcTexts text) 10
          mon := numberAt (gprmcTexts text) 9
          day := numberAt (gprmcTexts text) 8 } },
      if (firstField text).length ≤ 15 then some (timeText stack text) else none) := by
  refine Prod.ext (NmeaGprmc.ext (NmeaTime.ext
    (scanned_get char_ne_date 10 (NmeaTime.year ∘ NmeaGprmc.utc ∘ Prod.fst) ?_ ?_)
    (scanned_get char_ne_date 9 (NmeaTime.mon ∘ NmeaGprmc.utc ∘ Prod.fst) ?_ ?_)
    (scanned_get char_ne_date 8 (NmeaTime.day ∘ NmeaGprmc.utc ∘ Prod.fst) ?_ ?_)
    (fillTargets_same (NmeaTime.hour ∘ NmeaGprmc.utc ∘ Prod.fst) ?_ _ _)
    (fillTargets_same (NmeaTime.min ∘ NmeaGprmc.utc ∘ Prod.fst) ?_ _ _)
    (fillTargets_same (NmeaTime.sec ∘ NmeaGprmc.utc ∘ Prod.fst) ?_ _ _)
    (fillTargets_same (NmeaTime.hsec ∘ NmeaGprmc.utc ∘ Prod.fst) ?_ _ _))
    (scanned_get char_ne_date 1 (NmeaGprmc.status ∘ Prod.fst) ?_ ?_)
    (scanned_get char_ne_date 2 (NmeaGprmc.lat ∘ Prod.fst) ?_ ?_)
    (scanned_get char_ne_date 3 (NmeaGprmc.ns ∘ Prod.fst) ?_ ?_)
    (scanned_get char_ne_date 4 (NmeaGprmc.lon ∘ Prod.fst) ?_ ?_)
    (scanned_get char_ne_date 5 (NmeaGprmc.ew ∘ Prod.fst) ?_ ?_)
    (scanned_get char_ne_date 6 (NmeaGprmc.speed ∘ Prod.fst) ?_ ?_)
    (scanned_get char_ne_date 7 (NmeaGprmc.direction ∘ Prod.fst) ?_ ?_)
    (scanned_get char_ne_date 11 (NmeaGprmc.declination ∘ Prod.fst) ?_ ?_)
    (scanned_get char_ne_date 12 (NmeaGprmc.declinEw ∘ Prod.fst) ?_ ?_)
    (scanned_get char_ne_date 13 (NmeaGprmc.mode ∘ Prod.fst) ?_ ?_))
    ((scanned_get char_ne_date 0 Prod.snd ?_ ?_).trans (readAt_time stack text))
  -- the other arguments store elsewhere
  all_goals
    repeat' first
      | exact fun _ _ => rfl
      | exact List.forall_mem_nil _
      | refine List.forall_mem_cons.mpr ⟨fun _ _ => rfl, ?_⟩

/-- What the scan of a GGA sentence stores. -/
lemma gpgga_filled :
    fillTargets (gpggaTargets ops) (nmeaScanf (sentenceFormat gpggaFields .decimal) none text)
        (nmeaGpggaZero ops, some stack) =
      ({ gpggaSaid ops stack text with utc := nmeaTimeZero },
      if (firstField text).length ≤ 15 then some (timeText stack text) else none) := by
  refine Prod.ext (NmeaGpgga.ext
    (fillTargets_same (NmeaGpgga.utc ∘ Prod.fst) ?_ _ _)
    (scanned_get decimal_ne_date 1 (NmeaGpgga.lat ∘ Prod.fst) ?_ ?_)
    (scanned_get decimal_ne_date 2 (NmeaGpgga.ns ∘ Prod.fst) ?_ ?_)
    (scanned_get decimal_ne_date 3 (NmeaGpgga.lon ∘ Prod.fst) ?_ ?_)
    (scanned_get decimal_ne_date 4 (NmeaGpgga.ew ∘ Prod.fst) ?_ ?_)
    (scanned_get decimal_ne_date 5 (NmeaGpgga.sig ∘ Prod.fst) ?_ ?_)
    (scanned_get decimal_ne_date 6 (NmeaGpgga.satinuse ∘ Prod.fst) ?_ ?_)
    (scanned_get decimal_ne_date 7 (NmeaGpgga.hdop ∘ Prod.fst) ?_ ?_)
    (scanned_get decimal_ne_date 8 (NmeaGpgga.elv ∘ Prod.fst) ?_ ?_)
    (scanned_get decimal_ne_date 9 (NmeaGpgga.elvUnits ∘ Prod.fst) ?_ ?_)
    (scanned_get decimal_ne_date 10 (NmeaGpgga.diff ∘ Prod.fst) ?_ ?_)
    (scanned_get decimal_ne_date 11 (NmeaGpgga.diffUnits ∘ Prod.fst) ?_ ?_)
    (scanned_get decimal_ne_date 12 (NmeaGpgga.dgpsAge ∘ Prod.fst) ?_ ?_)
    (scanned_get decimal_ne_date 13 (NmeaGpgga.dgpsSid ∘ Prod.fst) ?_ ?_))
    ((scanned_get decimal_ne_date 0 Prod.snd ?_ ?_).trans (readAt_time stack text))
  all_goals
    repeat' first
      | exact fun _ _ => rfl
      | exact List.forall_mem_nil _
      | refine List.forall_mem_cons.mpr ⟨fun _ _ => rfl, ?_⟩

/-- What the scan of a GSA sentence stores. -/
lemma gpgsa_filled :
    fillTargets (gpgsaTargets ops) (nmeaScanf (sentenceFormat gpgsaFields .fraction) none text)
        (nmeaGpgsaZero ops) = gpgsaSaid ops text := by
  have hprn : ∀ i, (fillTargets (gpgsaTargets ops)
      (nmeaScanf (sentenceFormat gpgsaFields .fraction) none text) (nmeaGpgsaZero ops)).satPrn i =
        (gpgsaSaid ops text).satPrn i := by
    intro i
    by_cases hi : i < 12
    · interval_cases i <;>
        refine scanned_get fraction_ne_date _ (fun p => NmeaGpgsa.satPrn p _) ?_ ?_
      all_goals
        repeat' first
          | exact fun _ _ => rfl
          | exact List.forall_mem_nil _
          | refine List.forall_mem_cons.mpr ⟨fun _ _ => rfl, ?_⟩
    · have hsaid : (gpgsaSaid ops text).satPrn i = 0 := if_neg hi
      have hother : ∀ {j : ℕ}, j < 12 → ∀ {f : ℕ → Int32} (v : Int32), update f j v i = f i :=
        fun hj _ _ => update_of_ne (by omega) _ _
      rw [hsaid]
      refine fillTargets_same (fun p => NmeaGpgsa.satPrn p i) ?_ _ _
      repeat' first
        | exact List.forall_mem_nil _
        | refine List.forall_mem_cons.mpr ⟨fun _ _ => rfl, ?_⟩
        | refine List.forall_mem_cons.mpr ⟨fun _ _ => hother (by decide) _, ?_⟩
  refine NmeaGpgsa.ext (scanned_get fraction_ne_date 0 NmeaGpgsa.fixMode ?_ ?_)
    (scanned_get fraction_ne_date 1 NmeaGpgsa.fixType ?_ ?_) (funext hprn)
    (scanned_get fraction_ne_date 14 NmeaGpgsa.pdop ?_ ?_)
    (scanned_get fraction_ne_date 15 NmeaGpgsa.hdop ?_ ?_)
    (scanned_get fraction_ne_date 16 NmeaGpgsa.vdop ?_ ?_)
  all_goals
    repeat' first
      | exact fun _ _ => rfl
      | exact List.forall_mem_nil _
      | refine List.forall_mem_cons.mpr ⟨fun _ _ => rfl, ?_⟩

/-- What the scan of a GSV sentence stores. -/
lemma gpgsv_filled :
    fillTargets gpgsvTargets (nmeaScanf (sentenceFormat gpgsvFields .decimal) none text)
        nmeaGpgsvZero = gpgsvSaid text := by
  have hdata : ∀ i, (fillTargets gpgsvTargets
      (nmeaScanf (sentenceFormat gpgsvFields .decimal) none text) nmeaGpgsvZero).satData i =
        (gpgsvSaid text).satData i := by
    intro i
    by_cases hi : i < 4
    · have hsaid : (gpgsvSaid text).satData i = _ := if_pos hi
      rw [hsaid]
      interval_cases i <;> refine NmeaSatellite.ext
        (scanned_get decimal_ne_date _ (fun p => NmeaSatellite.id (NmeaGpgsv.satData p _)) ?_ ?_)
        (fillTargets_same (fun p => NmeaSatellite.inUse (NmeaGpgsv.satData p _)) ?_ _ _)
        (scanned_get decimal_ne_date _ (fun p => NmeaSatellite.elv (NmeaGpgsv.satData p _)) ?_ ?_)
        (scanned_get decimal_ne_date _ (fun p => NmeaSatellite.azimuth (NmeaGpgsv.satData p _)) ?_ ?_)
        (scanned_get decimal_ne_date _ (fun p => NmeaSatellite.sig (NmeaGpgsv.satData p _)) ?_ ?_)
      all_goals
        repeat' first
          | exact fun _ _ => rfl
          | exact List.forall_mem_nil _
          | refine List.forall_mem_cons.mpr ⟨fun _ _ => rfl, ?_⟩
    · have hsaid : (gpgsvSaid text).satData i = nmeaSatelliteZero := if_neg hi
      have hother : ∀ {j : ℕ}, j < 4 → ∀ {f : ℕ → NmeaSatellite} (v : NmeaSatellite),
          update f j v i = f i := fun hj _ _ => update_of_ne (by omega) _ _
      rw [hsaid]
      refine fillTargets_same (fun p => NmeaGpgsv.satData p i) ?_ _ _
      repeat' first
        | exact List.forall_mem_nil _
        | refine List.forall_mem_cons.mpr ⟨fun _ _ => rfl, ?_⟩
        | refine List.forall_mem_cons.mpr ⟨fun _ _ => hother (by decide) _, ?_⟩
  refine NmeaGpgsv.ext (scanned_get decimal_ne_date 0 NmeaGpgsv.packCount ?_ ?_)
    (scanned_get decimal_ne_date 1 NmeaGpgsv.packIndex ?_ ?_)
    (scanned_get decimal_ne_date 2 NmeaGpgsv.satCount ?_ ?_) (funext hdata)
  all_goals
    repeat' first
      | exact fun _ _ => rfl
      | exact List.forall_mem_nil _
      | refine List.forall_mem_cons.mpr ⟨fun _ _ => rfl, ?_⟩

/-! ### The return values -/

variable {text}

/-- **`nmea_parse_GPRMC`** answers 1 to the sentences that can be read; of the others it has stored
what there is. -/
lemma nmeaParseGprmc_said (hfits : (firstField text).length ≤ 15) :
    ∃ p, nmeaParseGprmc ops stack text = some (if Readable .gprmc stack text then 1 else 0, p) ∧
      (¬ Readable .gprmc stack text → p = gprmcSaid ops stack text) := by
  have haccepted := gprmc_accepted_iff text
  have hfilled := gprmc_filled ops stack text
  rw [gprmcTokens, gprmc_format] at haccepted
  rw [if_pos hfits] at hfilled
  unfold nmeaParseGprmc
  rw [gprmc_format]
  dsimp only
  rw [hfilled, Option.map_some]
  by_cases hcomplete : complete gprmcFields text = true
  · rw [if_neg (haccepted.mpr hcomplete), nmeaParseTime_eq]
    by_cases htime : IsTime (timeText stack text)
    · have hread : Readable .gprmc stack text := ⟨hcomplete, htime⟩
      rw [if_pos htime, if_neg (not_not.mpr rfl), if_pos hread]
      exact ⟨_, rfl, fun h => absurd hread h⟩
    · have hread : ¬ Readable .gprmc stack text := fun h => htime h.2
      rw [if_neg htime, if_neg hread]
      refine ⟨_, rfl, fun _ => ?_⟩
      rw [gprmcSaid, if_pos hcomplete]
  · have hread : ¬ Readable .gprmc stack text := fun h => hcomplete h.1
    rw [if_pos (not_not.mp fun h => hcomplete (haccepted.mp h)), if_neg hread]
    refine ⟨_, rfl, fun _ => ?_⟩
    rw [gprmcSaid, if_neg hcomplete]

/-- **`nmea_parse_GPGGA`**, likewise. -/
lemma nmeaParseGpgga_said (hfits : (firstField text).length ≤ 15) :
    ∃ p, nmeaParseGpgga ops stack text = some (if Readable .gpgga stack text then 1 else 0, p) ∧
      (¬ Readable .gpgga stack text → p = gpggaSaid ops stack text) := by
  have haccepted := gpgga_accepted_iff text
  have hfilled := gpgga_filled ops stack text
  rw [gpggaTokens, gpgga_format] at haccepted
  rw [if_pos hfits] at hfilled
  unfold nmeaParseGpgga
  rw [gpgga_format]
  dsimp only
  rw [hfilled, Option.map_some]
  by_cases hcomplete : complete gpggaFields text = true
  · rw [if_neg (haccepted.mpr hcomplete), nmeaParseTime_eq]
    by_cases htime : IsTime (timeText stack text)
    · have hread : Readable .gpgga stack text := ⟨hcomplete, htime⟩
      rw [if_pos htime, if_neg (not_not.mpr rfl), if_pos hread]
      exact ⟨_, rfl, fun h => absurd hread h⟩
    · have hread : ¬ Readable .gpgga stack text := fun h => htime h.2
      rw [if_neg htime, if_neg hread]
      refine ⟨_, rfl, fun _ => ?_⟩
      rw [gpggaSaid, if_pos hcomplete]
  · have hread : ¬ Readable .gpgga stack text := fun h => hcomplete h.1
    rw [if_pos (not_not.mp fun h => hcomplete (haccepted.mp h)), if_neg hread]
    refine ⟨_, rfl, fun _ => ?_⟩
    rw [gpggaSaid, if_neg hcomplete]

/-- A first field that is too long runs over the end of `time_buff`. -/
lemma nmeaParse_overrun (hlong : 15 < (firstField text).length) :
    nmeaParseGprmc ops stack text = none ∧ nmeaParseGpgga ops stack text = none := by
  have hrmc := gprmc_filled ops stack text
  have hgga := gpgga_filled ops stack text
  rw [if_neg (Nat.not_le_of_gt hlong)] at hrmc hgga
  unfold nmeaParseGprmc nmeaParseGpgga
  rw [gprmc_format, gpgga_format]
  dsimp only
  rw [hrmc, hgga]
  exact ⟨rfl, rfl⟩

/-- **`nmea_parse_GPGSA`**. -/
lemma nmeaParseGpgsa_said :
    nmeaParseGpgsa ops text = (if Readable .gpgsa stack text then 1 else 0, gpgsaSaid ops text) := by
  have haccepted := gpgsa_accepted_iff text
  rw [gpgsaTokens, gpgsa_format] at haccepted
  unfold nmeaParseGpgsa
  rw [gpgsa_format]
  dsimp only
  rw [gpgsa_filled]
  by_cases hcomplete : complete gpgsaFields text = true
  · rw [if_neg (haccepted.mpr hcomplete), if_pos (show Readable .gpgsa stack text from hcomplete)]
  · rw [if_pos (not_not.mp fun h => hcomplete (haccepted.mp h)),
      if_neg (show ¬ Readable .gpgsa stack text from hcomplete)]

/-- **`nmea_parse_GPGSV`**. -/
lemma nmeaParseGpgsv_said :
    nmeaParseGpgsv text = (if Readable .gpgsv stack text then 1 else 0, gpgsvSaid text) := by
  have hlength : (nmeaScanf (sentenceFormat gpgsvFields .decimal) none text).length =
      (gpgsvTexts text).length := length_scan decimal_ne_date _ text
  have hle : (nmeaScanf (sentenceFormat gpgsvFields .decimal) none text).length ≤ 19 :=
    nmeaScanf_length _ none text
  have hmany : ¬ Int32.ofNat (gpgsvTexts text).length > nmeaSatinpack * 4 + 3 := by
    rw [gt_iff_lt, Int32.not_lt, Int32.le_iff_toInt_le,
      Int32.toInt_ofNat_of_lt (by omega), ← hlength]
    exact Int.ofNat_le.mpr hle
  unfold nmeaParseGpgsv
  rw [gpgsv_format]
  dsimp only
  rw [hlength, gpgsv_filled]
  have hsats : satsAnnounced (gpgsvSaid text).packIndex (gpgsvSaid text).satCount =
      if ((gpgsvSaid text).packIndex - 1) * nmeaSatinpack + nmeaSatinpack >
          (gpgsvSaid text).satCount then
        (gpgsvSaid text).satCount - ((gpgsvSaid text).packIndex - 1) * nmeaSatinpack
      else nmeaSatinpack := rfl
  rw [← hsats]
  have hiff : Readable .gpgsv stack text ↔ ¬ (Int32.ofNat (gpgsvTexts text).length <
      satsAnnounced (gpgsvSaid text).packIndex (gpgsvSaid text).satCount * 4 + 3) :=
    Int32.not_lt.symm
  by_cases hread : Readable .gpgsv stack text
  · rw [if_pos hread, if_neg (not_or.mpr ⟨hiff.mp hread, hmany⟩)]
  · rw [if_neg hread, if_pos (Or.inl (not_not.mp fun h => hread (hiff.mpr h)))]

end Parse

end Ampm

import AmpmGsm.Gps.Scan
import Mathlib.Algebra.GroupWithZero.Nat

/-!
# The fields of a sentence

`gps/ampm_gps.c`: what `nmea_scanf` finds in a buffer with the formats of the four sentences, field by
field.

* `FieldKind` — the fields that the formats are made of.
* `fieldTexts` — the texts of the fields of a buffer, as far as it has them; `scan_fieldTexts`.
* `complete` — the buffers in which a scan finds all its fields; `scan_complete_iff`.
* `gprmcFields`, `gpggaFields`, `gpgsaFields`, `gpgsvFields` — the sentences.
-/

namespace Ampm

/-! ## Fields -/

/-- The fields that the formats are made of. -/
inductive FieldKind
  | string
  | decimal
  | fraction
  | char
  | date

namespace FieldKind

/-- Its part of a format, when it ends at a comma. -/
def format : FieldKind → List UInt8
  | string => bytesOf "%s,"
  | decimal => bytesOf "%d,"
  | fraction => bytesOf "%f,"
  | char => bytesOf "%C,"
  | date => bytesOf "%2d%2d%2d,"

/-- The number of its conversions. -/
def conversions : FieldKind → ℕ
  | date => 3
  | _ => 1

/-- What is left behind the bytes of a field: a character is one byte or none, a date has six, and
everything else goes up to the comma. -/
def skip : FieldKind → List UInt8 → List UInt8
  | char, buff => if buff.headD 0 = 44 then buff else buff.drop 1
  | date, buff => buff.drop 6
  | _, buff => buff.dropWhile (· ≠ 44)

/-- Its bytes, in front of `sep`; a date has as many pairs as there are bytes for. -/
def texts (sep : UInt8) : FieldKind → List UInt8 → List (List UInt8)
  | char, buff => [if buff.headD 0 = sep then [] else buff.take 1]
  | date, buff => (List.range (min 3 (buff.length / 2))).map fun k => (buff.drop (2 * k)).take 2
  | _, buff => [buff.takeWhile (· ≠ sep)]

end FieldKind

/-- All fields are there, each with a comma behind it, and they are not the end of the buffer. -/
def complete : List FieldKind → List UInt8 → Bool
  | [], buff => buff ≠ []
  | kind :: kinds, buff =>
      match kind.skip buff with
      | [] => false
      | c :: rest => c = 44 && complete kinds rest

/-- The texts of the fields of a buffer and of the last one, which ends at `'*'`: up to the first field
that has no comma behind it. -/
def fieldTexts : List FieldKind → FieldKind → List UInt8 → List (List UInt8)
  | _, _, [] => []
  | [], last, b :: buff => last.texts 42 (b :: buff)
  | kind :: kinds, last, b :: buff =>
      kind.texts 44 (b :: buff) ++
        match kind.skip (b :: buff) with
        | [] => []
        | c :: rest => if c = 44 then fieldTexts kinds last rest else []

/-- The first field of a buffer. -/
def firstField (buff : List UInt8) : List UInt8 := buff.takeWhile (· ≠ 44)

/-- The fields of an RMC sentence in front of the indicator of the declination. -/
def gprmcFields : List FieldKind :=
  [.string, .char, .fraction, .char, .fraction, .char, .fraction, .fraction, .date, .fraction]

/-- The fields of a GGA sentence in front of the last. -/
def gpggaFields : List FieldKind :=
  [.string, .fraction, .char, .fraction, .char, .decimal, .decimal, .fraction, .fraction, .char,
    .fraction, .char, .fraction]

/-- The fields of a GSA sentence in front of the last. -/
def gpgsaFields : List FieldKind :=
  .char :: List.replicate 13 .decimal ++ List.replicate 2 .fraction

/-- The fields of a GSV sentence in front of the last. -/
def gpgsvFields : List FieldKind := List.replicate 18 .decimal

/-! ## One field -/

lemma nmeaScanf_empty (format : List UInt8) (digits : Option (List UInt8)) :
    nmeaScanf format digits [] = [] := by
  cases format <;> rfl

/-- Behind the last conversion nothing is found. -/
lemma nmeaScanf_star (buff : List UInt8) : nmeaScanf [42] none buff = [] := by
  cases buff with
  | nil => rfl
  | cons c buff =>
      rw [nmeaScanf, if_neg (by decide)]
      split_ifs
      · cases buff <;> rfl
      · rfl

/-- A comma of the format. -/
lemma nmeaScanf_comma (format buff : List UInt8) :
    nmeaScanf (44 :: format) none buff =
      match buff with
      | [] => []
      | c :: rest => if c = 44 then nmeaScanf format none rest else [] := by
  cases buff with
  | nil => rfl
  | cons c rest => rw [nmeaScanf, if_neg (by decide)]

/-- A conversion without a width is found unless the buffer is at its end. -/
lemma scan_first (format buff : List UInt8) {f : UInt8} (hf : f ∈ scanTypes) :
    1 ≤ (nmeaScanf (37 :: f :: format) none buff).length ↔ buff ≠ [] := by
  cases buff with
  | nil => exact iff_of_false (Nat.not_succ_le_zero 0) fun h => h rfl
  | cons c buff =>
      refine iff_of_true ?_ (List.cons_ne_nil c buff)
      have hwidth : scanWidth f (format.headD 0) [] (c :: buff) ≤ 1 := by
        simp only [scanWidth, ↓reduceIte]
        split_ifs
        · exact Nat.le_refl 1
        · exact Nat.zero_le 1
      obtain ⟨t, ht⟩ : ∃ t, scanToken (format.headD 0) (scanWidth f (format.headD 0) [] (c :: buff))
          (c :: buff) = some t := by
        rw [scanToken, List.length_cons]
        split_ifs
        · exact ⟨_, rfl⟩
        · omega
        · exact ⟨_, rfl⟩
        · exact ⟨_, rfl⟩
      rw [nmeaScanf, if_pos rfl, nmeaScanf, if_neg (by simp [scanTypes_not_digit hf])]
      dsimp only
      rw [ht]
      dsimp only
      rw [if_neg fun h => h.2 hf, List.length_cons]
      exact Nat.le_add_left 1 _

/-- A character, in front of `sep`: one byte or none. -/
lemma nmeaScanf_char {sep : UInt8} (hsep : sep ≠ 0) (format : List UInt8) (c : UInt8)
    (buff : List UInt8) :
    nmeaScanf (37 :: 67 :: sep :: format) none (c :: buff) =
      (67, if c = sep then [] else [c]) ::
        nmeaScanf (sep :: format) none (if c = sep then c :: buff else buff) := by
  rw [nmeaScanf, if_pos rfl, nmeaScanf, if_neg (by decide)]
  dsimp only [List.headD_cons]
  by_cases hc : c = sep
  · subst hc
    have hwidth : scanWidth 67 c [] (c :: buff) = 0 := if_neg fun h => h.2.2 rfl
    rw [hwidth, if_pos rfl, if_pos rfl, scanToken, if_neg (not_not.mpr rfl), if_neg hsep]
    simp
  · have hwidth : scanWidth 67 sep [] (c :: buff) = 1 := if_pos ⟨rfl, Or.inr rfl, hc⟩
    rw [hwidth, if_neg hc, if_neg hc]
    rfl

/-- Two digits of a date. -/
lemma nmeaScanf_pair (format buff : List UInt8) :
    nmeaScanf (37 :: 50 :: 100 :: format) none buff =
      if 2 ≤ buff.length then (100, buff.take 2) :: nmeaScanf format none (buff.drop 2) else [] := by
  cases buff with
  | nil => rfl
  | cons c buff =>
      have hwidth : ∀ next, scanWidth 100 next [50] (c :: buff) = 2 := fun _ => rfl
      rw [nmeaScanf, if_pos rfl, nmeaScanf, if_pos (by decide), nmeaScanf, if_neg (by decide)]
      dsimp only [List.nil_append]
      rw [hwidth, scanToken, if_pos (by decide)]
      split_ifs with hlong
      · exact if_neg fun h => h.2 (by decide)
      · rfl

/-- The six digits: the pairs for which there are bytes. -/
lemma scan_date (format buff : List UInt8) :
    (nmeaScanf (bytesOf "%2d%2d%2d," ++ format) none buff).map Prod.snd =
      FieldKind.date.texts 44 buff ++
        (nmeaScanf (44 :: format) none (FieldKind.date.skip buff)).map Prod.snd := by
  have hformat : bytesOf "%2d%2d%2d," ++ format =
      37 :: 50 :: 100 :: 37 :: 50 :: 100 :: 37 :: 50 :: 100 :: 44 :: format := rfl
  rw [hformat, nmeaScanf_pair, nmeaScanf_pair, nmeaScanf_pair, FieldKind.texts, FieldKind.skip]
  simp only [List.drop_drop, List.length_drop]
  rcases Nat.lt_or_ge buff.length 6 with hshort | hlong
  · -- with less than six bytes nothing is left for the comma
    rw [List.drop_eq_nil_of_le (Nat.le_of_lt hshort), nmeaScanf_empty, List.map_nil, List.append_nil]
    have hpairs : buff.length / 2 = 0 ∨ buff.length / 2 = 1 ∨ buff.length / 2 = 2 := by omega
    rcases hpairs with hpairs | hpairs | hpairs
    · rw [if_neg (by omega), hpairs]
      rfl
    · rw [if_pos (by omega), if_neg (by omega), hpairs]
      rfl
    · rw [if_pos (by omega), if_pos (by omega), if_neg (by omega), hpairs]
      rfl
  · rw [if_pos (by omega), if_pos (by omega), if_pos (by omega), Nat.min_eq_left (by omega)]
    rfl

/-- One field, in front of a comma. -/
lemma scan_texts (kind : FieldKind) (format : List UInt8) {buff : List UInt8} (hbuff : buff ≠ []) :
    (nmeaScanf (kind.format ++ format) none buff).map Prod.snd =
      kind.texts 44 buff ++ (nmeaScanf (44 :: format) none (kind.skip buff)).map Prod.snd := by
  have htext : ∀ f : UInt8, f ∈ scanTypes → ¬ (f = 99 ∨ f = 67) →
      (nmeaScanf (37 :: f :: 44 :: format) none buff).map Prod.snd =
        [buff.takeWhile (· ≠ 44)] ++
          (nmeaScanf (44 :: format) none (buff.dropWhile (· ≠ 44))).map Prod.snd := by
    intro f hf hchar
    rw [nmeaScanf_field hf hchar (by decide) _ hbuff]
    rfl
  cases kind with
  | string => exact htext 115 (by decide) (by decide)
  | decimal => exact htext 100 (by decide) (by decide)
  | fraction => exact htext 102 (by decide) (by decide)
  | char =>
      obtain ⟨c, rest, rfl⟩ := List.exists_cons_of_ne_nil hbuff
      show (nmeaScanf (37 :: 67 :: 44 :: format) none (c :: rest)).map Prod.snd = _
      rw [nmeaScanf_char (by decide)]
      rfl
  | date => exact scan_date format buff

/-! ## All fields -/

/-- The format of a sentence, up to the `'*'`. -/
def sentenceFormat (kinds : List FieldKind) (last : FieldKind) : List UInt8 :=
  kinds.flatMap FieldKind.format ++ (last.format.dropLast ++ [42])

/-- **What a scan finds**: the texts of the fields, up to the first one that has no comma behind it. -/
lemma scan_fieldTexts {last : FieldKind} (hlast : last ≠ .date) (kinds : List FieldKind)
    (buff : List UInt8) :
    (nmeaScanf (sentenceFormat kinds last) none buff).map Prod.snd = fieldTexts kinds last buff := by
  induction kinds generalizing buff with
  | nil =>
      cases buff with
      | nil => 
          rw [nmeaScanf_empty]
          rfl
      | cons b buff =>
          have htext : ∀ f : UInt8, f ∈ scanTypes → ¬ (f = 99 ∨ f = 67) →
              (nmeaScanf [37, f, 42] none (b :: buff)).map Prod.snd =
                [(b :: buff).takeWhile (· ≠ 42)] := by
            intro f hf hchar
            rw [nmeaScanf_field hf hchar (by decide) _ (List.cons_ne_nil b buff), nmeaScanf_star]
            rfl
          cases last with
          | string => exact htext 115 (by decide) (by decide)
          | decimal => exact htext 100 (by decide) (by decide)
          | fraction => exact htext 102 (by decide) (by decide)
          | char =>
              show (nmeaScanf [37, 67, 42] none (b :: buff)).map Prod.snd = _
              rw [nmeaScanf_char (by decide), nmeaScanf_star]
              rfl
          | date => exact absurd rfl hlast
  | cons kind kinds ih =>
      cases buff with
      | nil =>
          rw [nmeaScanf_empty]
          rfl
      | cons b buff =>
          have hformat : sentenceFormat (kind :: kinds) last =
              kind.format ++ sentenceFormat kinds last := by
            rw [sentenceFormat, List.flatMap_cons, List.append_assoc]
            rfl
          rw [hformat, scan_texts kind _ (List.cons_ne_nil b buff), nmeaScanf_comma, fieldTexts]
          congr 1
          cases kind.skip (b :: buff) with
          | nil => rfl
          | cons c rest =>
              dsimp only
              split_ifs
              · exact ih rest
              · rfl

lemma length_scan {last : FieldKind} (hlast : last ≠ .date) (kinds : List FieldKind)
    (buff : List UInt8) :
    (nmeaScanf (sentenceFormat kinds last) none buff).length = (fieldTexts kinds last buff).length := by
  rw [← scan_fieldTexts hlast, List.length_map]

/-- One field, and at least `m` conversions behind it. -/
lemma scan_kind {m : ℕ} (kind : FieldKind) (format buff : List UInt8) (hm : 1 ≤ m) :
    kind.conversions + m ≤ (nmeaScanf (kind.format ++ format) none buff).length ↔
      m ≤ (nmeaScanf (44 :: format) none (kind.skip buff)).length := by
  by_cases hbuff : buff = []
  · have hskip : kind.skip buff = [] := by
      rw [hbuff]
      cases kind <;> rfl
    rw [hskip, hbuff, nmeaScanf_empty, nmeaScanf_empty, List.length_nil]
    omega
  · have htexts := congrArg List.length (scan_texts kind format hbuff)
    rw [List.length_append, List.length_map, List.length_map] at htexts
    cases kind with
    | date =>
        rw [htexts, FieldKind.texts, FieldKind.conversions, List.length_map, List.length_range]
        rcases Nat.lt_or_ge buff.length 6 with hshort | hlong
        · rw [FieldKind.skip, List.drop_eq_nil_of_le (Nat.le_of_lt hshort), nmeaScanf_empty,
            List.length_nil]
          omega
        · omega
    | _ =>
        rw [htexts]
        exact Nat.add_le_add_iff_left

/-- **Complete sentences**: all fields and the conversion behind them are found. -/
lemma scan_complete_iff (tail : List UInt8)
    (htail : ∀ buff, 1 ≤ (nmeaScanf tail none buff).length ↔ buff ≠ []) (kinds : List FieldKind)
    (buff : List UInt8) :
    (kinds.map FieldKind.conversions).sum + 1 ≤
        (nmeaScanf (kinds.flatMap FieldKind.format ++ tail) none buff).length ↔
      complete kinds buff = true := by
  induction kinds generalizing buff with
  | nil =>
      rw [complete, decide_eq_true_eq]
      exact htail buff
  | cons kind kinds ih =>
      rw [List.map_cons, List.sum_cons, Nat.add_assoc, List.flatMap_cons, List.append_assoc,
        scan_kind _ _ _ (Nat.le_add_left 1 _), complete, nmeaScanf_comma]
      cases kind.skip buff with
      | nil => exact iff_of_false (Nat.not_succ_le_zero _) Bool.false_ne_true
      | cons c rest =>
          by_cases hc : c = 44
          · simp [hc, ih]
          · simp [hc]

/-! ## The sentences that are accepted -/

lemma gprmc_format : bytesOf "%s,%C,%f,%C,%f,%C,%f,%f,%2d%2d%2d,%f,%C,%C*" =
    sentenceFormat (gprmcFields ++ [.char]) .char := by decide

lemma gpgga_format : bytesOf "%s,%f,%C,%f,%C,%d,%d,%f,%f,%C,%f,%C,%f,%d*" =
    sentenceFormat gpggaFields .decimal := by decide

lemma gpgsa_format : bytesOf "%C,%d,%d,%d,%d,%d,%d,%d,%d,%d,%d,%d,%d,%d,%f,%f,%f*" =
    sentenceFormat gpgsaFields .fraction := by decide

lemma gpgsv_format : bytesOf "%d,%d,%d,%d,%d,%d,%d,%d,%d,%d,%d,%d,%d,%d,%d,%d,%d,%d,%d*" =
    sentenceFormat gpgsvFields .decimal := by decide

/-- The scan of `nmea_parse_GPRMC`. -/
def gprmcTokens (buff : List UInt8) : List (UInt8 × List UInt8) :=
  nmeaScanf (bytesOf "%s,%C,%f,%C,%f,%C,%f,%f,%2d%2d%2d,%f,%C,%C*") none buff

/-- The scan of `nmea_parse_GPGGA`. -/
def gpggaTokens (buff : List UInt8) : List (UInt8 × List UInt8) :=
  nmeaScanf (bytesOf "%s,%f,%C,%f,%C,%d,%d,%f,%f,%C,%f,%C,%f,%d*") none buff

/-- The scan of `nmea_parse_GPGSA`. -/
def gpgsaTokens (buff : List UInt8) : List (UInt8 × List UInt8) :=
  nmeaScanf (bytesOf "%C,%d,%d,%d,%d,%d,%d,%d,%d,%d,%d,%d,%d,%d,%f,%f,%f*") none buff

lemma gprmc_accepted_iff (buff : List UInt8) :
    ¬ ((gprmcTokens buff).length ≠ 13 ∧ (gprmcTokens buff).length ≠ 14) ↔
      complete gprmcFields buff = true := by
  have hle : (gprmcTokens buff).length ≤ 14 := nmeaScanf_length _ none buff
  have hcount := scan_complete_iff (bytesOf "%C,%C*")
    (fun buff => scan_first _ buff (by decide)) gprmcFields buff
  rw [← hcount]
  show _ ↔ 13 ≤ (gprmcTokens buff).length
  omega

lemma gpgga_accepted_iff (buff : List UInt8) :
    ¬ (gpggaTokens buff).length ≠ 14 ↔ complete gpggaFields buff = true := by
  have hle : (gpggaTokens buff).length ≤ 14 := nmeaScanf_length _ none buff
  have hcount := scan_complete_iff (bytesOf "%d*")
    (fun buff => scan_first _ buff (by decide)) gpggaFields buff
  rw [← hcount]
  show _ ↔ 14 ≤ (gpggaTokens buff).length
  omega

lemma gpgsa_accepted_iff (buff : List UInt8) :
    ¬ (gpgsaTokens buff).length ≠ 17 ↔ complete gpgsaFields buff = true := by
  have hle : (gpgsaTokens buff).length ≤ 17 := nmeaScanf_length _ none buff
  have hcount := scan_complete_iff (bytesOf "%f*")
    (fun buff => scan_first _ buff (by decide)) gpgsaFields buff
  rw [← hcount]
  show _ ↔ 17 ≤ (gpgsaTokens buff).length
  omega

end Ampm

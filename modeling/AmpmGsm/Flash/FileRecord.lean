import AmpmGsm.Flash.Sst25
import Mathlib.Order.Basic

/-!
# File records

`AMPM_FIL` of `ampm_ff/ampm_ff.h`: the record that stands at the head of each sector of a file, in
the link to its next one, and behind both when the file is closed.  A handle is such a record too.

* `AmpmFil` — its fields; `AmpmFil.byte` and `AmpmFil.ofBytes` are its 68 bytes in memory.
* `ampmFfChecksum` — the sum over the bytes before `crc`.
* `formatCheck` — `_ampm_f_file_format_check`.
* `HoldsRecord.wellFormed` — a record that was written well-formed is well-formed when it is read.
-/

namespace Ampm

/-! ## The record -/

/-- `AMPM_FIL`, packed. -/
structure AmpmFil where
  fileName : ℕ → UInt8
  startSector : ℕ
  previousSector : ℕ
  currentSector : ℕ
  nextSector : ℕ
  fileStatus : ℕ
  fileOffset : ℕ
  permission : ℕ
  fileSize : ℕ
  crc : ℕ

/-- `DISK_SECTOR_MAX`. -/
def diskSectorMax : ℕ := (0x00100000 - 0x00092000) / 0x1000

/-- `DISK_SECTOR_SIZE`: what a sector has behind its header. -/
def diskSectorSize : ℕ := 0x1000 - 256

/-- `AMPM_FA_STATUS_OK`. -/
def ampmFaStatusOk : ℕ := 0xa5a5a5a5

/-- `AMPM_FA_STATUS_ERR`. -/
def ampmFaStatusErr : ℕ := 0x5a5a5a5a

/-- The words behind the name. -/
def AmpmFil.word (fil : AmpmFil) : ℕ → ℕ
  | 0 => fil.startSector
  | 1 => fil.previousSector
  | 2 => fil.currentSector
  | 3 => fil.nextSector
  | 4 => fil.fileStatus
  | 5 => fil.fileOffset
  | 6 => fil.permission
  | 7 => fil.fileSize
  | _ => fil.crc

/-- The byte `k` of the record, low bytes of a word first. -/
def AmpmFil.byte (fil : AmpmFil) (k : ℕ) : UInt8 :=
  if k < 32 then fil.fileName k
  else (fil.word ((k - 32) / 4) / 256 ^ ((k - 32) % 4)).toUInt8

/-- `sizeof(AMPM_FIL)`. -/
def sizeofAmpmFil : ℕ := 68

/-- The bytes of the record. -/
def AmpmFil.bytes (fil : AmpmFil) : List UInt8 := (List.range sizeofAmpmFil).map fil.byte

/-- The word at the offset `k`. -/
def wordAt (b : ℕ → UInt8) (k : ℕ) : ℕ :=
  (b k).toNat + 256 * (b (k + 1)).toNat + 256 ^ 2 * (b (k + 2)).toNat + 256 ^ 3 * (b (k + 3)).toNat

/-- The record with the given bytes. -/
def AmpmFil.ofBytes (b : ℕ → UInt8) : AmpmFil where
  fileName := b
  startSector := wordAt b 32
  previousSector := wordAt b 36
  currentSector := wordAt b 40
  nextSector := wordAt b 44
  fileStatus := wordAt b 48
  fileOffset := wordAt b 52
  permission := wordAt b 56
  fileSize := wordAt b 60
  crc := wordAt b 64

/-- `ampm_ff_checksum`. -/
def ampmFfChecksum (buff : ℕ → UInt8) (length : ℕ) : ℕ :=
  (List.range length).foldl (fun crc i => (crc + (buff i).toNat) % 2 ^ 32) 0

/-- The checksum that belongs to the record. -/
def AmpmFil.checksum (fil : AmpmFil) : ℕ := ampmFfChecksum fil.byte (sizeofAmpmFil - 4)

/-- `fil->crc = ampm_ff_checksum(…)`. -/
def AmpmFil.seal (fil : AmpmFil) : AmpmFil := { fil with crc := fil.checksum }

/-- `strlen` of the name after `buf[31] = 0`. -/
def AmpmFil.nameLength (fil : AmpmFil) : ℕ :=
  ((List.range 31).map fil.fileName |>.takeWhile (· ≠ 0)).length

/-- `_ampm_f_file_format_check`: whether it returns `FR_OK`. -/
def formatCheck (fil : AmpmFil) : Bool :=
  fil.fileName 0 ≠ 0 &&
  fil.startSector < diskSectorMax &&
  fil.currentSector < diskSectorMax &&
  fil.previousSector < diskSectorMax &&
  fil.crc = fil.checksum &&
  fil.fileStatus = ampmFaStatusOk &&
  fil.fileOffset ≤ fil.fileSize &&
  fil.fileSize < 100000 &&
  fil.permission ≤ 0xff &&
  fil.nameLength < 32 - 3

/-! ## Reading what was written -/

lemma ampmFfChecksum_congr {b b' : ℕ → UInt8} {n : ℕ} (h : ∀ k < n, b k = b' k) :
    ampmFfChecksum b n = ampmFfChecksum b' n := by
  induction n with
  | zero => rfl
  | succ n ih =>
      have hprev := ih fun k hk => h k (Nat.lt_succ_of_lt hk)
      unfold ampmFfChecksum at hprev ⊢
      rw [List.range_succ, List.foldl_append, List.foldl_append, hprev]
      simp only [List.foldl_cons, List.foldl_nil, h n (Nat.lt_succ_self n)]

lemma ampmFfChecksum_lt (b : ℕ → UInt8) (n : ℕ) : ampmFfChecksum b n < 2 ^ 32 := by
  cases n with
  | zero => exact Nat.two_pow_pos 32
  | succ n =>
      unfold ampmFfChecksum
      rw [List.range_succ, List.foldl_append]
      exact Nat.mod_lt _ (Nat.two_pow_pos 32)

lemma byte_of_name (fil : AmpmFil) {k : ℕ} (hk : k < 32) : fil.byte k = fil.fileName k := if_pos hk

lemma byte_of_word (fil : AmpmFil) (j : ℕ) {i : ℕ} (hi : i < 4) :
    (fil.byte (32 + 4 * j + i)).toNat = fil.word j / 256 ^ i % 256 := by
  have hword : (32 + 4 * j + i - 32) / 4 = j := by omega
  have hbyte : (32 + 4 * j + i - 32) % 4 = i := by omega
  rw [AmpmFil.byte, if_neg (by omega), hword, hbyte, Nat.toUInt8, UInt8.toNat_ofNat']

lemma wordAt_byte (fil : AmpmFil) (j : ℕ) : wordAt fil.byte (32 + 4 * j) = fil.word j % 2 ^ 32 := by
  have h0 := byte_of_word fil j (i := 0) (by decide)
  have h1 := byte_of_word fil j (i := 1) (by decide)
  have h2 := byte_of_word fil j (i := 2) (by decide)
  have h3 := byte_of_word fil j (i := 3) (by decide)
  rw [Nat.add_zero] at h0
  rw [wordAt, h0, h1, h2, h3]
  omega

lemma wordAt_congr {b b' : ℕ → UInt8} {k : ℕ} (h : ∀ i < 4, b (k + i) = b' (k + i)) :
    wordAt b k = wordAt b' k := by
  have h0 := h 0 (by decide)
  rw [Nat.add_zero] at h0
  rw [wordAt, wordAt, h0, h 1 (by decide), h 2 (by decide), h 3 (by decide)]

lemma wordAt_lt (b : ℕ → UInt8) (k : ℕ) : wordAt b k < 2 ^ 32 := by
  have h0 := (b k).toNat_lt
  have h1 := (b (k + 1)).toNat_lt
  have h2 := (b (k + 2)).toNat_lt
  have h3 := (b (k + 3)).toNat_lt
  rw [wordAt]
  omega

/-- The bytes are those of the record. -/
def HoldsRecord (b : ℕ → UInt8) (fil : AmpmFil) : Prop := ∀ k < sizeofAmpmFil, b k = fil.byte k

lemma HoldsRecord.wordAt_eq {b : ℕ → UInt8} {fil : AmpmFil} (h : HoldsRecord b fil) {j : ℕ}
    (hj : j < 9) : wordAt b (32 + 4 * j) = fil.word j % 2 ^ 32 := by
  rw [← wordAt_byte]
  refine wordAt_congr fun i hi => h _ ?_
  rw [sizeofAmpmFil]
  omega

lemma HoldsRecord.wordAt_eq_of_lt {b : ℕ → UInt8} {fil : AmpmFil} (h : HoldsRecord b fil) {j : ℕ}
    (hj : j < 9) (hlt : fil.word j < 2 ^ 32) : wordAt b (32 + 4 * j) = fil.word j :=
  (h.wordAt_eq hj).trans (Nat.mod_eq_of_lt hlt)

lemma word_ofBytes (b : ℕ → UInt8) {j : ℕ} (hj : j < 9) :
    (AmpmFil.ofBytes b).word j = wordAt b (32 + 4 * j) := by
  rcases (by omega : j = 0 ∨ j = 1 ∨ j = 2 ∨ j = 3 ∨ j = 4 ∨ j = 5 ∨ j = 6 ∨ j = 7 ∨ j = 8)
    with rfl | rfl | rfl | rfl | rfl | rfl | rfl | rfl | rfl <;> rfl

/-- The bytes of a record that was read. -/
lemma holdsRecord_ofBytes (b : ℕ → UInt8) : HoldsRecord b (AmpmFil.ofBytes b) := by
  intro k hk
  rw [sizeofAmpmFil] at hk
  rcases Nat.lt_or_ge k 32 with hname | hname
  · rw [byte_of_name _ hname]
    rfl
  · obtain ⟨j, i, hi, rfl⟩ : ∃ j i, i < 4 ∧ k = 32 + 4 * j + i :=
      ⟨(k - 32) / 4, (k - 32) % 4, by omega, by omega⟩
    have hj : j < 9 := by omega
    rw [← UInt8.toNat_inj, byte_of_word _ _ hi, word_ofBytes b hj, wordAt]
    have h0 := (b (32 + 4 * j)).toNat_lt
    have h1 := (b (32 + 4 * j + 1)).toNat_lt
    have h2 := (b (32 + 4 * j + 2)).toNat_lt
    have h3 := (b (32 + 4 * j + 3)).toNat_lt
    rcases (by omega : i = 0 ∨ i = 1 ∨ i = 2 ∨ i = 3) with rfl | rfl | rfl | rfl
    · rw [Nat.add_zero]
      omega
    · omega
    · omega
    · omega

/-- Two records with the same bytes look alike to `_ampm_f_file_format_check`. -/
lemma HoldsRecord.checksum_eq {b : ℕ → UInt8} {fil : AmpmFil} (h : HoldsRecord b fil) :
    (AmpmFil.ofBytes b).checksum = fil.checksum := by
  refine ampmFfChecksum_congr fun k hk => ?_
  have hk' : k < sizeofAmpmFil := Nat.lt_of_lt_of_le hk (Nat.sub_le _ _)
  exact ((holdsRecord_ofBytes b) k hk').symm.trans (h k hk')

lemma HoldsRecord.nameLength_eq {b : ℕ → UInt8} {fil : AmpmFil} (h : HoldsRecord b fil) :
    (AmpmFil.ofBytes b).nameLength = fil.nameLength := by
  have hname : (List.range 31).map (AmpmFil.ofBytes b).fileName =
      (List.range 31).map fil.fileName := by
    refine List.map_congr_left fun k hk => ?_
    have hlt := List.mem_range.mp hk
    have hbyte := h k (Nat.lt_of_lt_of_le hlt (by decide))
    rwa [byte_of_name fil (Nat.lt_of_lt_of_le hlt (by decide))] at hbyte
  rw [AmpmFil.nameLength, AmpmFil.nameLength, hname]

/-- What `_ampm_f_file_format_check` asks for. -/
structure WellFormed (fil : AmpmFil) : Prop where
  named : fil.fileName 0 ≠ 0
  start_lt : fil.startSector < diskSectorMax
  current_lt : fil.currentSector < diskSectorMax
  previous_lt : fil.previousSector < diskSectorMax
  crc_eq : fil.crc = fil.checksum
  status_eq : fil.fileStatus = ampmFaStatusOk
  offset_le : fil.fileOffset ≤ fil.fileSize
  size_lt : fil.fileSize < 100000
  permission_le : fil.permission ≤ 0xff
  nameLength_lt : fil.nameLength < 32 - 3

lemma formatCheck_iff (fil : AmpmFil) : formatCheck fil = true ↔ WellFormed fil := by
  simp only [formatCheck, Bool.and_eq_true, decide_eq_true_eq]
  constructor
  · rintro ⟨⟨⟨⟨⟨⟨⟨⟨⟨h0, h1⟩, h2⟩, h3⟩, h4⟩, h5⟩, h6⟩, h7⟩, h8⟩, h9⟩
    exact ⟨h0, h1, h2, h3, h4, h5, h6, h7, h8, h9⟩
  · rintro ⟨h0, h1, h2, h3, h4, h5, h6, h7, h8, h9⟩
    exact ⟨⟨⟨⟨⟨⟨⟨⟨⟨h0, h1⟩, h2⟩, h3⟩, h4⟩, h5⟩, h6⟩, h7⟩, h8⟩, h9⟩

lemma word_seal (fil : AmpmFil) {j : ℕ} (hj : j < 8) : fil.seal.word j = fil.word j := by
  rcases (by omega : j = 0 ∨ j = 1 ∨ j = 2 ∨ j = 3 ∨ j = 4 ∨ j = 5 ∨ j = 6 ∨ j = 7)
    with rfl | rfl | rfl | rfl | rfl | rfl | rfl | rfl <;> rfl

/-- The checksum is not part of what it is taken over. -/
lemma checksum_seal (fil : AmpmFil) : fil.seal.checksum = fil.checksum := by
  refine ampmFfChecksum_congr fun k hk => ?_
  rw [sizeofAmpmFil] at hk
  rcases Nat.lt_or_ge k 32 with hname | hname
  · rw [byte_of_name _ hname, byte_of_name _ hname]
    rfl
  · rw [AmpmFil.byte, AmpmFil.byte, if_neg (Nat.not_lt.mpr hname), if_neg (Nat.not_lt.mpr hname),
      word_seal fil (by omega)]

/-- A well-formed record is well-formed when it is read. -/
lemma HoldsRecord.wellFormed {b : ℕ → UInt8} {fil : AmpmFil} (h : HoldsRecord b fil)
    (hfil : WellFormed fil) : WellFormed (AmpmFil.ofBytes b) := by
  have hmax : diskSectorMax < 2 ^ 32 := by decide
  have hsizeLt := hfil.size_lt
  have hoffsetLe := hfil.offset_le
  have hpermissionLe := hfil.permission_le
  have hstart : wordAt b 32 = fil.startSector :=
    h.wordAt_eq_of_lt (j := 0) (by decide) (Nat.lt_trans hfil.start_lt hmax)
  have hprevious : wordAt b 36 = fil.previousSector :=
    h.wordAt_eq_of_lt (j := 1) (by decide) (Nat.lt_trans hfil.previous_lt hmax)
  have hcurrent : wordAt b 40 = fil.currentSector :=
    h.wordAt_eq_of_lt (j := 2) (by decide) (Nat.lt_trans hfil.current_lt hmax)
  have hstatus : wordAt b 48 = fil.fileStatus := by
    refine h.wordAt_eq_of_lt (j := 4) (by decide) ?_
    show fil.fileStatus < 2 ^ 32
    rw [hfil.status_eq]
    decide
  have hoffset : wordAt b 52 = fil.fileOffset :=
    h.wordAt_eq_of_lt (j := 5) (by decide) (show fil.fileOffset < 2 ^ 32 by omega)
  have hpermission : wordAt b 56 = fil.permission :=
    h.wordAt_eq_of_lt (j := 6) (by decide) (show fil.permission < 2 ^ 32 by omega)
  have hsize : wordAt b 60 = fil.fileSize :=
    h.wordAt_eq_of_lt (j := 7) (by decide) (show fil.fileSize < 2 ^ 32 by omega)
  have hcrc : wordAt b 64 = fil.crc := by
    refine h.wordAt_eq_of_lt (j := 8) (by decide) ?_
    show fil.crc < 2 ^ 32
    rw [hfil.crc_eq]
    exact ampmFfChecksum_lt _ _
  refine ⟨?_, ?_, ?_, ?_, ?_, ?_, ?_, ?_, ?_, ?_⟩
  · have hname := h 0 (by decide)
    rw [byte_of_name _ (by decide)] at hname
    exact fun hzero => hfil.named (hname.symm.trans hzero)
  · exact hstart.trans_lt hfil.start_lt
  · exact hcurrent.trans_lt hfil.current_lt
  · exact hprevious.trans_lt hfil.previous_lt
  · rw [h.checksum_eq, ← hfil.crc_eq]
    exact hcrc
  · exact hstatus.trans hfil.status_eq
  · show wordAt b 52 ≤ wordAt b 60
    rw [hoffset, hsize]
    exact hoffsetLe
  · exact hsize.trans_lt hsizeLt
  · exact hpermission.trans_le hpermissionLe
  · rw [h.nameLength_eq]
    exact hfil.nameLength_lt

end Ampm

import AmpmGsm.Gps.Parser
import AmpmGsm.Lib.Runs
import Mathlib.Tactic.IntervalCases

/-!
# A whole sentence

What `GPS_ComnandParser` does with `'$'`, a talker, a name, a body, `'*'` and the checksum.

* `checkSumOf`, `checkSumDigits`, `sentence` — the sentences.
* `Scanning`, `Filling`, `Closing` — the parser before the name, in the body and behind `'*'`.
* `gpsProcess_frame` — a byte touches the flag and the buffer of one sentence at most.
* `gpsComnandParser_complete` — every sentence of the listed talkers is accepted at its last byte.
-/

namespace Ampm

open Function Runs

/-! ## Sentences -/

/-- The exclusive or of some bytes. -/
def checkSumOf (bytes : List UInt8) : UInt8 := bytes.foldl (· ^^^ ·) 0

/-- An upper-case hexadecimal digit. -/
def upperHex (d : UInt8) : UInt8 := if d < 10 then 48 + d else 55 + d

/-- The two digits of a byte. -/
def checkSumDigits (x : UInt8) : List UInt8 := [upperHex (x >>> 4), upperHex (x &&& 15)]

/-- What the checksum is taken over. -/
def payload (talker : List UInt8) (cmd : GpsCmd) (body : List UInt8) : List UInt8 :=
  talker ++ cmd.cmdInfo ++ body

/-- A sentence. -/
def sentence (talker : List UInt8) (cmd : GpsCmd) (body : List UInt8) : List UInt8 :=
  36 :: payload talker cmd body ++ 42 :: checkSumDigits (checkSumOf (payload talker cmd body))

/-- The talkers. -/
def talkers : List (List UInt8) :=
  [bytesOf "GP", bytesOf "GN", bytesOf "GL", bytesOf "GA", bytesOf "GB", bytesOf "BD"]

@[simp] lemma checkSumOf_nil : checkSumOf [] = 0 := rfl

@[simp] lemma checkSumOf_concat (bytes : List UInt8) (c : UInt8) :
    checkSumOf (bytes ++ [c]) = checkSumOf bytes ^^^ c := by
  simp [checkSumOf]

/-- The parser reads the two digits of a byte as that byte. -/
lemma checkSumDigit_upperHex :
    ∀ x : UInt8, checkSumDigit (upperHex (x >>> 4)) <<< 4 ||| checkSumDigit (upperHex (x &&& 15)) = x ∧
      upperHex (x >>> 4) ≠ 36 ∧ upperHex (x >>> 4) ≠ 42 ∧
      upperHex (x &&& 15) ≠ 36 ∧ upperHex (x &&& 15) ≠ 42 := by
  have h : ∀ n : Fin 256, let x := UInt8.ofNat n
    checkSumDigit (upperHex (x >>> 4)) <<< 4 ||| checkSumDigit (upperHex (x &&& 15)) = x ∧
      upperHex (x >>> 4) ≠ 36 ∧ upperHex (x >>> 4) ≠ 42 ∧
      upperHex (x &&& 15) ≠ 36 ∧ upperHex (x &&& 15) ≠ 42 := by decide +kernel
  intro x
  have hx := h ⟨x.toNat, x.toNat_lt⟩
  simpa using hx

/-! ## The parser before a name -/

/-- The parser looks for a name; the counters are `cnt`, and the checksum so far is `x`. -/
structure Scanning (cnt : GpsCmd → ℕ) (x : UInt8) (gps : GpsParser) : Prop where
  state : gps.gpsCmdState = .finish
  cnt : gps.gpsCmdCnt = cnt
  tracks : gps.gpsCalcCheckSumFlag = true
  sum : gps.gpsCheckSum = x
  get : gps.gpsGetCheckSumFlag = 0

/-- The counters behind a byte. -/
def nextCnts (cnt : GpsCmd → ℕ) (c : UInt8) : GpsCmd → ℕ := fun cmd => cmd.nextCnt (cnt cmd) c

/-- No name is complete anywhere in the bytes. -/
def quiet : (GpsCmd → ℕ) → List UInt8 → Bool
  | _, [] => true
  | cnt, c :: cs =>
      GpsCmd.all.all (fun cmd => !decide (cmd.Completes (cnt cmd) c)) && quiet (nextCnts cnt c) cs

section Steps

variable {gps : GpsParser} {cmd : GpsCmd} {x : UInt8} {c : UInt8}

lemma GpsCmd.mem_all (cmd : GpsCmd) : cmd ∈ GpsCmd.all := by
  cases cmd <;> decide

/-- What the checksum machine does with the bytes that are neither `'$'` nor `'*'`. -/
lemma trackCheckSum_of_ne (hdollar : c ≠ 36) (hstar : c ≠ 42) :
    trackCheckSum gps c = if gps.gpsCalcCheckSumFlag
      then { gps with gpsCheckSum := gps.gpsCheckSum ^^^ c } else gps := by
  simp only [trackCheckSum, if_neg hdollar, if_neg hstar]

lemma trackCheckSum_dollar : trackCheckSum gps 36 = { gps with
    gpsCalcCheckSumFlag := true
    gpsCheckSum := 0
    gpsGetCheckSumFlag := 0 } := rfl

lemma trackCheckSum_star : trackCheckSum gps 42 = { gps with gpsCalcCheckSumFlag := false } := rfl

/-- A name cannot be complete before its last counter. -/
lemma GpsCmd.Completes.cnt_eq {cnt : ℕ} (h : cmd.Completes cnt c) (hcnt : cnt ≤ 3) :
    cnt = 3 ∧ c = 44 := by
  obtain ⟨hc, hnext⟩ := h
  subst hc
  interval_cases cnt <;> revert hnext <;> cases cmd <;> decide

lemma GpsCmd.nextCnt_le {cnt : ℕ} (h : ¬ cmd.Completes cnt c) (hcnt : cnt ≤ 3) :
    cmd.nextCnt cnt c ≤ 3 := by
  rw [GpsCmd.nextCnt]
  split_ifs with hc
  · by_contra hgt
    have hthree : cnt = 3 := by omega
    subst hthree
    exact h ⟨hc, by cases cmd <;> decide⟩
  · exact Nat.zero_le 3

lemma gpsComnandParser_finish (hstate : gps.gpsCmdState = .finish) :
    gpsComnandParser gps c = matchCmds c GpsCmd.all (trackCheckSum gps c) := by
  have hsame : (trackCheckSum gps c).gpsCmdState = .finish := by
    rw [← hstate, trackCheckSum]
    split_ifs <;> rfl
  rw [gpsComnandParser, hsame]

lemma gpsComnandParser_wait (hstate : gps.gpsCmdState = .waitFinish) :
    gpsComnandParser gps c = waitFinish (trackCheckSum gps c) c := by
  have hsame : (trackCheckSum gps c).gpsCmdState = .waitFinish := by
    rw [← hstate, trackCheckSum]
    split_ifs <;> rfl
  rw [gpsComnandParser, hsame]

/-- `'$'` is in no name. -/
lemma nextCnt_dollar {cnt : ℕ} (hcnt : cnt ≤ 3) :
    cmd.nextCnt cnt 36 = 0 ∧ ¬ cmd.Completes cnt 36 := by
  interval_cases cnt <;> cases cmd <;> decide

/-- `'$'` starts the checksum. -/
lemma scanning_dollar (hstate : gps.gpsCmdState = .finish)
    (hcnt : ∀ cmd, gps.gpsCmdCnt cmd ≤ 3) :
    Scanning (fun _ => 0) 0 (gpsComnandParser gps 36) ∧
      (gpsComnandParser gps 36).gotDataFlag = gps.gotDataFlag ∧
      (gpsComnandParser gps 36).buff = gps.buff := by
  have hnone : ∀ cmd : GpsCmd, ¬ cmd.Completes ((trackCheckSum gps 36).gpsCmdCnt cmd) 36 :=
    fun cmd => (nextCnt_dollar (hcnt cmd)).2
  rw [gpsComnandParser_finish hstate, matchCmds_of_none hnone, trackCheckSum_dollar]
  refine ⟨⟨hstate, ?_, rfl, rfl, rfl⟩, rfl, rfl⟩
  funext cmd
  exact (nextCnt_dollar (hcnt cmd)).1

/-- A byte that completes no name. -/
lemma Scanning.next {cnt : GpsCmd → ℕ} (h : Scanning cnt x gps) (hdollar : c ≠ 36) (hstar : c ≠ 42)
    (hnone : ∀ cmd : GpsCmd, ¬ cmd.Completes (cnt cmd) c) :
    Scanning (nextCnts cnt c) (x ^^^ c) (gpsComnandParser gps c) ∧
      (gpsComnandParser gps c).gotDataFlag = gps.gotDataFlag ∧
      (gpsComnandParser gps c).buff = gps.buff := by
  have htrack : trackCheckSum gps c = { gps with gpsCheckSum := gps.gpsCheckSum ^^^ c } := by
    rw [trackCheckSum_of_ne hdollar hstar, if_pos h.tracks]
  have hnone' : ∀ cmd : GpsCmd, ¬ cmd.Completes ((trackCheckSum gps c).gpsCmdCnt cmd) c := by
    intro cmd
    rw [htrack]
    show ¬ cmd.Completes (gps.gpsCmdCnt cmd) c
    rw [h.cnt]
    exact hnone cmd
  rw [gpsComnandParser_finish h.state, matchCmds_of_none hnone', htrack]
  refine ⟨⟨h.state, ?_, h.tracks, ?_, h.get⟩, rfl, rfl⟩
  · funext cmd
    show cmd.nextCnt (gps.gpsCmdCnt cmd) c = nextCnts cnt c cmd
    rw [h.cnt, nextCnts]
  · show gps.gpsCheckSum ^^^ c = x ^^^ c
    rw [h.sum]

/-- Some bytes that complete no name. -/
lemma Scanning.run {bytes : List UInt8} :
    ∀ {gps : GpsParser} {cnt : GpsCmd → ℕ} {x : UInt8}, Scanning cnt x gps → 36 ∉ bytes →
      42 ∉ bytes → quiet cnt bytes = true →
      Scanning (bytes.foldl nextCnts cnt) (bytes.foldl (· ^^^ ·) x)
          (Runs.run gpsComnandParser gps bytes) ∧
        Throughout gpsComnandParser
          (fun s => s.gotDataFlag = gps.gotDataFlag ∧ s.buff = gps.buff) gps bytes := by
  induction bytes with
  | nil =>
      intro gps cnt x h _ _ _
      exact ⟨h, rfl, rfl⟩
  | cons c cs ih =>
      intro gps cnt x h hdollar hstar hquiet
      rw [quiet, Bool.and_eq_true, List.all_eq_true] at hquiet
      have hnone : ∀ cmd : GpsCmd, ¬ cmd.Completes (cnt cmd) c := by
        intro cmd
        simpa using hquiet.1 cmd cmd.mem_all
      obtain ⟨hnext, hflag, hbuff⟩ := h.next (List.ne_of_not_mem_cons hdollar).symm
        (List.ne_of_not_mem_cons hstar).symm hnone
      obtain ⟨hlast, hthrough⟩ := ih hnext (List.not_mem_of_not_mem_cons hdollar)
        (List.not_mem_of_not_mem_cons hstar) hquiet.2
      refine ⟨hlast, ⟨rfl, rfl⟩, ?_⟩
      rw [hflag, hbuff] at hthrough
      exact hthrough

/-! ## The parser in a body -/

/-- The parser takes the bytes behind a name; the checksum so far is `x`. -/
structure Filling (cmd : GpsCmd) (x : UInt8) (taken : List UInt8) (gps : GpsParser) : Prop where
  state : gps.gpsCmdState = .waitFinish
  num : gps.gpsNumCmd = cmd
  stored : gps.gpsCmdRecvLength = taken.length
  tracks : gps.gpsCalcCheckSumFlag = true
  sum : gps.gpsCheckSum = x
  get : gps.gpsGetCheckSumFlag = 0
  buff : ∀ i, (h : i < taken.length) → gps.buff cmd i = taken[i]

/-- The last byte of a name. -/
lemma Scanning.named {cnt : GpsCmd → ℕ} (h : Scanning cnt x gps)
    (hdone : cmd.Completes (cnt cmd) c) (hdollar : c ≠ 36) (hstar : c ≠ 42) :
    ∃ found : GpsCmd, found.Completes (cnt found) c ∧
      Filling found (x ^^^ c) [] (gpsComnandParser gps c) ∧
      (gpsComnandParser gps c).gotDataFlag = gps.gotDataFlag ∧
      (gpsComnandParser gps c).buff = gps.buff := by
  have htrack : trackCheckSum gps c = { gps with gpsCheckSum := gps.gpsCheckSum ^^^ c } := by
    rw [trackCheckSum_of_ne hdollar hstar, if_pos h.tracks]
  have hdone' : cmd.Completes ((trackCheckSum gps c).gpsCmdCnt cmd) c := by
    rw [htrack]
    show cmd.Completes (gps.gpsCmdCnt cmd) c
    rw [h.cnt]
    exact hdone
  obtain ⟨found, hfound, cnt', heq⟩ := matchCmds_of_some hdone'
  rw [htrack] at hfound
  refine ⟨found, ?_, ?_⟩
  · rw [← h.cnt]
    exact hfound
  · rw [gpsComnandParser_finish h.state, heq, htrack]
    refine ⟨⟨rfl, rfl, rfl, h.tracks, ?_, h.get, fun i hi => absurd hi (Nat.not_lt_zero i)⟩,
      rfl, rfl⟩
    show gps.gpsCheckSum ^^^ c = x ^^^ c
    rw [h.sum]

/-! ### The process of a sentence -/

/-- A byte of the body. -/
lemma gpsProcess_body (hflag : gps.gotDataFlag cmd = false) (hget : gps.gpsGetCheckSumFlag = 0)
    (hstar : c ≠ 42) :
    ∃ y, gpsProcess cmd gps c = (0xff, { gps with gpsCheckSumX := y }.store cmd c) := by
  by_cases hlen : gps.gpsCmdRecvLength = 0
  · refine ⟨0, ?_⟩
    simp [gpsProcess, hflag, hstar, hlen, hget, GpsParser.store]
  · refine ⟨gps.gpsCheckSumX, ?_⟩
    have hget' : ¬ gps.gpsGetCheckSumFlag ≠ 0 := not_not.mpr hget
    simp only [gpsProcess, hflag, Bool.false_eq_true, if_false, if_neg hlen, if_neg hstar,
      if_neg hget']

/-- `'*'`. -/
lemma gpsProcess_star (hflag : gps.gotDataFlag cmd = false) :
    gpsProcess cmd gps 42
      = (0xff, { gps with gpsCheckSumX := 0, gpsGetCheckSumFlag := 1 }.store cmd 42) := by
  by_cases hlen : gps.gpsCmdRecvLength = 0 <;> simp [gpsProcess, hflag, hlen]

/-- The first character of the checksum. -/
lemma gpsProcess_first (hflag : gps.gotDataFlag cmd = false) (hlen : gps.gpsCmdRecvLength ≠ 0)
    (hget : gps.gpsGetCheckSumFlag = 1) (hstar : c ≠ 42) :
    gpsProcess cmd gps c = (0xff, { gps with
      gpsCheckSumX := (gps.gpsCheckSumX ||| checkSumDigit c) <<< 4
      gpsGetCheckSumFlag := 2 }.store cmd c) := by
  have htwo : (1 : UInt8) + 1 = 2 := by decide
  simp [gpsProcess, hflag, hstar, hlen, hget, htwo]

/-- The second character of the checksum. -/
lemma gpsProcess_second (hflag : gps.gotDataFlag cmd = false) (hlen : gps.gpsCmdRecvLength ≠ 0)
    (hget : gps.gpsGetCheckSumFlag = 2) (hstar : c ≠ 42) :
    gpsProcess cmd gps c = (0, { gps with
      gpsCheckSumX := gps.gpsCheckSumX ||| checkSumDigit c
      gpsGetCheckSumFlag := 3
      gotDataFlag := if gps.gpsCheckSumX ||| checkSumDigit c = gps.gpsCheckSum
        then update gps.gotDataFlag cmd true else gps.gotDataFlag }) := by
  have hthree : (2 : UInt8) + 1 = 3 := by decide
  by_cases heq : gps.gpsCheckSumX ||| checkSumDigit c = gps.gpsCheckSum <;>
    simp [gpsProcess, hflag, hstar, hlen, hget, hthree, heq]

/-- A process touches the flag and the buffer of its own sentence. -/
lemma gpsProcess_frame {other : GpsCmd} (hne : other ≠ cmd) :
    (gpsProcess cmd gps c).2.gotDataFlag other = gps.gotDataFlag other ∧
      (gpsProcess cmd gps c).2.buff other = gps.buff other := by
  by_cases hlen : gps.gpsCmdRecvLength = 0 <;> simp only [gpsProcess, hlen] <;>
    split_ifs <;> simp [GpsParser.store, hne]

lemma waitFinish_go {g : GpsParser} (hcmd : gps.gpsNumCmd = cmd)
    (h : gpsProcess cmd gps c = (0xff, g)) (hlen : g.gpsCmdRecvLength + 1 < 80) :
    waitFinish gps c = { g with gpsCmdRecvLength := g.gpsCmdRecvLength + 1 } := by
  have hmore : ¬ g.gpsCmdRecvLength + 1 ≥ gpsMsgMaxSize := by
    rw [gpsMsgMaxSize]
    omega
  have hne : ¬ (0xff : UInt8) = 0 := by decide
  subst hcmd
  simp only [waitFinish, GpsCmd.func_eq, h, if_neg hne, if_neg hmore]

lemma waitFinish_done {g : GpsParser} (hcmd : gps.gpsNumCmd = cmd)
    (h : gpsProcess cmd gps c = (0, g)) :
    waitFinish gps c = { g with gpsCmdRecvLength := g.gpsCmdRecvLength + 1 }.finished := by
  subst hcmd
  simp only [waitFinish, GpsCmd.func_eq, h]
  split_ifs <;> rfl

/-! ### The steps -/

/-- The buffer behind a store. -/
lemma store_taken {taken : List UInt8} (hlen : gps.gpsCmdRecvLength = taken.length)
    (h : ∀ i, (hi : i < taken.length) → gps.buff cmd i = taken[i]) :
    ∀ i, (hi : i < (taken ++ [c]).length) →
      (gps.store cmd c).buff cmd i = (taken ++ [c])[i] := by
  intro i hi
  rw [List.length_append, List.length_singleton] at hi
  show update gps.buff cmd (update (gps.buff cmd) gps.gpsCmdRecvLength c) cmd i = _
  rw [update_self, hlen]
  by_cases hlast : i = taken.length
  · subst hlast
    simp
  · rw [update_of_ne hlast, h i (by omega), List.getElem_append_left]

/-- A byte of the body is taken. -/
lemma Filling.next {taken : List UInt8} (h : Filling cmd x taken gps)
    (hflag : gps.gotDataFlag cmd = false) (hdollar : c ≠ 36) (hstar : c ≠ 42)
    (hlen : taken.length + 1 < 80) :
    Filling cmd (x ^^^ c) (taken ++ [c]) (gpsComnandParser gps c) ∧
      (gpsComnandParser gps c).gotDataFlag = gps.gotDataFlag ∧
      ∀ other, other ≠ cmd → (gpsComnandParser gps c).buff other = gps.buff other := by
  have htrack : trackCheckSum gps c = { gps with gpsCheckSum := gps.gpsCheckSum ^^^ c } := by
    rw [trackCheckSum_of_ne hdollar hstar, if_pos h.tracks]
  have hflag' : (trackCheckSum gps c).gotDataFlag cmd = false := by
    rw [htrack]
    exact hflag
  have hget' : (trackCheckSum gps c).gpsGetCheckSumFlag = 0 := by
    rw [htrack]
    exact h.get
  obtain ⟨y, hprocess⟩ := gpsProcess_body hflag' hget' hstar
  rw [gpsComnandParser_wait h.state, waitFinish_go (by rw [htrack]; exact h.num) hprocess
    (by rw [htrack]; show gps.gpsCmdRecvLength + 1 < 80; rw [h.stored]; exact hlen), htrack]
  refine ⟨⟨h.state, h.num, ?_, h.tracks, ?_, h.get, ?_⟩, rfl, fun other hne => ?_⟩
  · show gps.gpsCmdRecvLength + 1 = (taken ++ [c]).length
    rw [h.stored, List.length_append, List.length_singleton]
  · show gps.gpsCheckSum ^^^ c = x ^^^ c
    rw [h.sum]
  · exact store_taken h.stored h.buff
  · exact update_of_ne hne _ _

/-- Some bytes of the body are taken. -/
lemma Filling.run {bytes : List UInt8} :
    ∀ {gps : GpsParser} {taken : List UInt8} {x : UInt8}, Filling cmd x taken gps →
      gps.gotDataFlag cmd = false → 36 ∉ bytes → 42 ∉ bytes → taken.length + bytes.length < 80 →
      Filling cmd (bytes.foldl (· ^^^ ·) x) (taken ++ bytes)
          (Runs.run gpsComnandParser gps bytes) ∧
        Throughout gpsComnandParser (fun s => s.gotDataFlag = gps.gotDataFlag ∧
          ∀ other, other ≠ cmd → s.buff other = gps.buff other) gps bytes := by
  induction bytes with
  | nil =>
      intro gps taken x h _ _ _ _
      rw [List.append_nil]
      exact ⟨h, rfl, fun _ _ => rfl⟩
  | cons c cs ih =>
      intro gps taken x h hflag hdollar hstar hlen
      rw [List.length_cons] at hlen
      obtain ⟨hnext, hflags, hbuff⟩ := h.next hflag (List.ne_of_not_mem_cons hdollar).symm
        (List.ne_of_not_mem_cons hstar).symm (by omega)
      obtain ⟨hlast, hthrough⟩ := ih hnext (by rw [hflags]; exact hflag)
        (List.not_mem_of_not_mem_cons hdollar) (List.not_mem_of_not_mem_cons hstar)
        (by rw [List.length_append, List.length_singleton]; omega)
      rw [List.append_assoc] at hlast
      refine ⟨hlast, ⟨rfl, fun _ _ => rfl⟩, hthrough.mono ?_⟩
      rintro s ⟨hs, hothers⟩
      exact ⟨hs.trans hflags, fun other hne => (hothers other hne).trans (hbuff other hne)⟩

/-! ## The parser behind `'*'` -/

/-- The parser has taken a body and `'*'`; it has read `flag - 1` characters of the checksum, which
make `y`, and stored `len` bytes. -/
structure Closing (cmd : GpsCmd) (x : UInt8) (body : List UInt8) (flag y : UInt8) (len : ℕ)
    (gps : GpsParser) : Prop where
  state : gps.gpsCmdState = .waitFinish
  num : gps.gpsNumCmd = cmd
  stored : gps.gpsCmdRecvLength = len
  longer : body.length < len
  tracks : gps.gpsCalcCheckSumFlag = false
  sum : gps.gpsCheckSum = x
  get : gps.gpsGetCheckSumFlag = flag
  value : gps.gpsCheckSumX = y
  buff : ∀ i, (h : i < (body ++ [42]).length) → gps.buff cmd i = (body ++ [42])[i]

/-- `'*'` ends the body. -/
lemma Filling.star {body : List UInt8} (h : Filling cmd x body gps)
    (hflag : gps.gotDataFlag cmd = false) (hlen : body.length + 1 < 80) :
    Closing cmd x body 1 0 (body.length + 1) (gpsComnandParser gps 42) ∧
      (gpsComnandParser gps 42).gotDataFlag = gps.gotDataFlag ∧
      ∀ other, other ≠ cmd → (gpsComnandParser gps 42).buff other = gps.buff other := by
  have hflag' : (trackCheckSum gps 42).gotDataFlag cmd = false := hflag
  have hnum : (trackCheckSum gps 42).gpsNumCmd = cmd := h.num
  rw [gpsComnandParser_wait h.state, waitFinish_go hnum (gpsProcess_star hflag')
    (by show gps.gpsCmdRecvLength + 1 < 80; rw [h.stored]; exact hlen), trackCheckSum_star]
  refine ⟨⟨h.state, h.num, ?_, by omega, rfl, h.sum, rfl, rfl, ?_⟩, rfl, fun other hne => ?_⟩
  · show gps.gpsCmdRecvLength + 1 = body.length + 1
    rw [h.stored]
  · exact store_taken h.stored h.buff
  · exact update_of_ne hne _ _

variable {body : List UInt8} {y : UInt8} {len : ℕ}

lemma Closing.trackCheckSum_eq {flag : UInt8} (h : Closing cmd x body flag y len gps)
    (hdollar : c ≠ 36) (hstar : c ≠ 42) : trackCheckSum gps c = gps := by
  rw [trackCheckSum_of_ne hdollar hstar, if_neg (by rw [h.tracks]; decide)]

/-- The first character of the checksum. -/
lemma Closing.first (h : Closing cmd x body 1 y len gps) (hflag : gps.gotDataFlag cmd = false)
    (hdollar : c ≠ 36) (hstar : c ≠ 42) (hlen : len + 1 < 80) :
    Closing cmd x body 2 ((y ||| checkSumDigit c) <<< 4) (len + 1) (gpsComnandParser gps c) ∧
      (gpsComnandParser gps c).gotDataFlag = gps.gotDataFlag ∧
      ∀ other, other ≠ cmd → (gpsComnandParser gps c).buff other = gps.buff other := by
  have hpos : gps.gpsCmdRecvLength ≠ 0 := by
    rw [h.stored]
    have := h.longer
    omega
  have hprocess := gpsProcess_first hflag hpos h.get hstar
  rw [gpsComnandParser_wait h.state, h.trackCheckSum_eq hdollar hstar,
    waitFinish_go h.num hprocess (by show gps.gpsCmdRecvLength + 1 < 80; rw [h.stored]; exact hlen)]
  refine ⟨⟨h.state, h.num, ?_, ?_, h.tracks, h.sum, rfl, ?_, ?_⟩, rfl, fun other hne => ?_⟩
  · show gps.gpsCmdRecvLength + 1 = len + 1
    rw [h.stored]
  · have := h.longer
    omega
  · show (gps.gpsCheckSumX ||| checkSumDigit c) <<< 4 = (y ||| checkSumDigit c) <<< 4
    rw [h.value]
  · -- the character is stored behind `'*'`
    intro i hi
    have hi' : i < body.length + 1 := by simpa using hi
    have hne : i ≠ gps.gpsCmdRecvLength := by
      rw [h.stored]
      have := h.longer
      omega
    show update gps.buff cmd (update (gps.buff cmd) gps.gpsCmdRecvLength c) cmd i = _
    rw [update_self, update_of_ne hne]
    exact h.buff i hi
  · exact update_of_ne hne _ _

/-- The second character of the checksum ends the sentence. -/
lemma Closing.second (h : Closing cmd x body 2 y len gps) (hflag : gps.gotDataFlag cmd = false)
    (hdollar : c ≠ 36) (hstar : c ≠ 42) :
    (gpsComnandParser gps c).gpsCmdState = .finish ∧
      (∀ other, (gpsComnandParser gps c).gpsCmdCnt other = 0) ∧
      (gpsComnandParser gps c).buff = gps.buff ∧
      (gpsComnandParser gps c).gotDataFlag = if y ||| checkSumDigit c = x
        then update gps.gotDataFlag cmd true else gps.gotDataFlag := by
  have hpos : gps.gpsCmdRecvLength ≠ 0 := by
    rw [h.stored]
    have := h.longer
    omega
  have hprocess := gpsProcess_second hflag hpos h.get hstar
  rw [gpsComnandParser_wait h.state, h.trackCheckSum_eq hdollar hstar,
    waitFinish_done h.num hprocess, h.value, h.sum]
  exact ⟨rfl, fun _ => rfl, rfl, rfl⟩

end Steps

/-! ## Completeness -/

section Complete

variable {gps : GpsParser} {cmd : GpsCmd} {talker body : List UInt8}

/-- The listed talkers do not hide a name, and no other name ends where one does. -/
lemma talker_quiet (htalker : talker ∈ talkers) (cmd : GpsCmd) :
    36 ∉ talker ++ cmd.letters ∧ 42 ∉ talker ++ cmd.letters ∧
      quiet (fun _ => 0) (talker ++ cmd.letters) = true ∧
      ∀ found ∈ GpsCmd.all,
        found.Completes ((talker ++ cmd.letters).foldl nextCnts (fun _ => 0) found) 44
          ↔ found = cmd := by
  revert talker
  cases cmd <;> decide +kernel

/-- The bytes of a sentence in the order in which they matter. -/
lemma sentence_eq : sentence talker cmd body
    = 36 :: (talker ++ cmd.letters) ++ ([44] : List UInt8) ++ body
        ++ ([42] : List UInt8) ++ [upperHex (checkSumOf (payload talker cmd body) >>> 4)]
        ++ [upperHex (checkSumOf (payload talker cmd body) &&& 15)] := by
  have hcomma : bytesOf "," = [44] := by decide +kernel
  simp [sentence, payload, GpsCmd.cmdInfo, checkSumDigits, hcomma]

/-- The parser behind the name of a sentence. -/
lemma named_of_talker (cmd : GpsCmd) (hstate : gps.gpsCmdState = .finish)
    (hcnt : ∀ cmd, gps.gpsCmdCnt cmd = 0)
    (htalker : talker ∈ talkers) :
    Filling cmd (checkSumOf (talker ++ cmd.cmdInfo)) []
        (run gpsComnandParser gps (36 :: (talker ++ cmd.letters) ++ [44])) ∧
      Throughout gpsComnandParser (fun s => s.gotDataFlag = gps.gotDataFlag ∧ s.buff = gps.buff) gps
        (36 :: (talker ++ cmd.letters) ++ [44]) := by
  obtain ⟨hdollar, hstar, hquiet, hdone⟩ := talker_quiet htalker cmd
  obtain ⟨hstart, hflag, hbuff⟩ := scanning_dollar hstate (fun cmd => by rw [hcnt cmd]; decide)
  obtain ⟨hscan, hthrough⟩ := hstart.run hdollar hstar hquiet
  obtain ⟨found, hfound, hfilling, hflag', hbuff'⟩ := hscan.named
    ((hdone cmd cmd.mem_all).mpr rfl) (by decide) (by decide)
  rw [(hdone found found.mem_all).mp hfound] at hfilling
  have hlast := hthrough.last
  constructor
  · rw [run_append, run_cons]
    have hcomma : cmd.cmdInfo = cmd.letters ++ [44] := by cases cmd <;> decide +kernel
    rw [hcomma, ← List.append_assoc, checkSumOf_concat]
    exact hfilling
  · refine throughout_append ⟨⟨rfl, rfl⟩, hthrough.mono ?_⟩ ⟨?_, ?_⟩
    · rintro s ⟨hs, hs'⟩
      exact ⟨hs.trans hflag, hs'.trans hbuff⟩
    · exact ⟨hlast.1.trans hflag, hlast.2.trans hbuff⟩
    · exact ⟨hflag'.trans (hlast.1.trans hflag), hbuff'.trans (hlast.2.trans hbuff)⟩

/-- **Every sentence is accepted.**  From a parser that looks for a name with its counters at zero,
a sentence of a listed talker sets the flag of its type at the last byte and not before; its body
and `'*'` are at the start of the buffer, the other types are untouched, and the parser looks for a
name again. -/
theorem gpsComnandParser_complete (hstate : gps.gpsCmdState = .finish)
    (hcnt : ∀ cmd, gps.gpsCmdCnt cmd = 0) (hflag : gps.gotDataFlag cmd = false)
    (htalker : talker ∈ talkers) (hlen : body.length ≤ 77) (hdollar : 36 ∉ body)
    (hstar : 42 ∉ body) :
    Throughout gpsComnandParser (fun s => s.gotDataFlag cmd = false) gps
        (sentence talker cmd body).dropLast ∧
      (run gpsComnandParser gps (sentence talker cmd body)).gotDataFlag cmd = true ∧
      (∀ i, (h : i < (body ++ [42]).length) →
        (run gpsComnandParser gps (sentence talker cmd body)).buff cmd i = (body ++ [42])[i]) ∧
      (∀ other, other ≠ cmd →
        (run gpsComnandParser gps (sentence talker cmd body)).gotDataFlag other
            = gps.gotDataFlag other ∧
          (run gpsComnandParser gps (sentence talker cmd body)).buff other = gps.buff other) ∧
      (run gpsComnandParser gps (sentence talker cmd body)).gpsCmdState = .finish ∧
      ∀ other, (run gpsComnandParser gps (sentence talker cmd body)).gpsCmdCnt other = 0 := by
  have hsum : body.foldl (· ^^^ ·) (checkSumOf (talker ++ cmd.cmdInfo))
      = checkSumOf (payload talker cmd body) := by
    rw [payload, checkSumOf, checkSumOf, ← List.foldl_append]
  obtain ⟨hvalue, hd₁, hs₁, hd₂, hs₂⟩ := checkSumDigit_upperHex
    (checkSumOf (payload talker cmd body))
  -- the name, the body, and the three bytes behind it
  obtain ⟨hnamed, hthrough₀⟩ := named_of_talker cmd hstate hcnt htalker
  have hflag₀ := congrFun hthrough₀.last.1 cmd
  obtain ⟨hfilled, hthrough₁⟩ := hnamed.run (hflag₀.trans hflag) hdollar hstar
    (by rw [List.length_nil]; omega)
  have hflag₁ := (congrFun hthrough₁.last.1 cmd).trans hflag₀
  rw [hsum, List.nil_append] at hfilled
  obtain ⟨hclosing, hflags₂, hbuff₂⟩ := hfilled.star (hflag₁.trans hflag) (by omega)
  have hflag₂ := (congrFun hflags₂ cmd).trans hflag₁
  obtain ⟨hfirst, hflags₃, hbuff₃⟩ := hclosing.first (hflag₂.trans hflag) hd₁ hs₁ (by omega)
  have hflag₃ := (congrFun hflags₃ cmd).trans hflag₂
  obtain ⟨hfinish, hzero, hbuff₄, hflags₄⟩ := hfirst.second (hflag₃.trans hflag) hd₂ hs₂
  have hzero' : (0 : UInt8) ||| checkSumDigit (upperHex
      (checkSumOf (payload talker cmd body) >>> 4))
      = checkSumDigit (upperHex (checkSumOf (payload talker cmd body) >>> 4)) := UInt8.zero_or
  rw [hzero', hvalue, if_pos rfl] at hflags₄
  have hrun : run gpsComnandParser gps (sentence talker cmd body) = gpsComnandParser
      (gpsComnandParser (gpsComnandParser (run gpsComnandParser (run gpsComnandParser gps
        (36 :: (talker ++ cmd.letters) ++ [44])) body) 42)
        (upperHex (checkSumOf (payload talker cmd body) >>> 4)))
      (upperHex (checkSumOf (payload talker cmd body) &&& 15)) := by
    rw [sentence_eq]
    simp only [run_append]
    rfl
  rw [hrun]
  refine ⟨?_, ?_, ?_, fun other hne => ⟨?_, ?_⟩, hfinish, hzero⟩
  · rw [sentence_eq, List.dropLast_concat]
    refine throughout_append (throughout_append (throughout_append
      (hthrough₀.mono ?_) (hthrough₁.mono ?_)) ?_) ?_
    · rintro s ⟨hs, -⟩
      exact (congrFun hs cmd).trans hflag
    · rintro s ⟨hs, -⟩
      exact ((congrFun hs cmd).trans hflag₀).trans hflag
    · rw [run_append]
      exact ⟨hflag₁.trans hflag, hflag₂.trans hflag⟩
    · rw [run_append, run_append]
      exact ⟨hflag₂.trans hflag, hflag₃.trans hflag⟩
  · rw [hflags₄, update_self]
  · rw [hbuff₄]
    exact hfirst.buff
  · rw [hflags₄, update_of_ne hne, congrFun hflags₃ other, congrFun hflags₂ other,
      congrFun hthrough₁.last.1 other, congrFun hthrough₀.last.1 other]
  · rw [hbuff₄, hbuff₃ other hne, hbuff₂ other hne, hthrough₁.last.2 other hne,
      congrFun hthrough₀.last.2 other]

end Complete

/-- A parser before its first byte. -/
def gpsParserReset : GpsParser where
  gpsCalcCheckSumFlag := false
  gpsCheckSum := 0
  gpsCheckSumX := 0
  gpsGetCheckSumFlag := 0
  gotDataFlag := fun _ => false
  buff := fun _ _ => 0
  gpsCmdCnt := fun _ => 0
  gpsNumCmd := .gprmc
  gpsCmdRecvLength := 0
  gpsCmdState := .finish

/-- A sentence with a name of another type in its body. -/
theorem gpsComnandParser_complete_name :
    (run gpsComnandParser gpsParserReset
      (sentence (bytesOf "GP") .gpgga (bytesOf "1,GNRMC,2"))).gotDataFlag .gpgga = true :=
  (gpsComnandParser_complete rfl (fun _ => rfl) rfl (by decide +kernel) (by decide +kernel)
    (by decide +kernel) (by decide +kernel)).2.1

end Ampm

import AmpmGsm.Gps.Sentence

/-!
# Which sentences are accepted

`GPS_ComnandParser` from `GPSInit` on, with `GPS_Task` clearing the flags in between.

* `gpsStep`, `AcceptsSound` — the runs, and what is asked of a byte that sets a flag.
* `InOrder` — the condition at a byte: a name stands behind `'$'` and a talker, no `'$'` comes into
  a pending sentence, and behind `'*'` come upper-case hexadecimal digits.
* `Since` — the bytes behind the last `'$'`, as long as no `'*'` came.
* `gpsAccept_sound` — the runs in which every accepted sentence is one.
* `gpsAccept_mixed` — a sentence that is cut off by the next one.
-/

namespace Ampm

open Function Runs

/-! ## Runs -/

/-- What happens to the parser: a byte, or `GPS_Task` takes a sentence. -/
inductive GpsInput
  | byte (c : UInt8)
  | taken (cmd : GpsCmd)

/-- The parser, and the bytes it was given. -/
structure GpsRun where
  gps : GpsParser
  stream : List UInt8

/-- One step. -/
def gpsStep (r : GpsRun) : GpsInput → GpsRun
  | .byte c => ⟨gpsComnandParser r.gps c, r.stream ++ [c]⟩
  | .taken cmd =>
      { r with gps := { r.gps with gotDataFlag := update r.gps.gotDataFlag cmd false } }

/-- The stream ends with a sentence, whose body and `'*'` are in its buffer. -/
def EndsWithSentence (cmd : GpsCmd) (r : GpsRun) : Prop :=
  ∃ before talker body, talker.length = 2 ∧ 36 ∉ body ∧ 42 ∉ body ∧
    r.stream = before ++ sentence talker cmd body ∧
    ∀ i, (h : i < (body ++ [42]).length) → r.gps.buff cmd i = (body ++ [42])[i]

/-- A flag is set at the end of a sentence only. -/
def AcceptsSound (r : GpsRun) (i : GpsInput) : Prop :=
  ∀ cmd, r.gps.gotDataFlag cmd = false → (gpsStep r i).gps.gotDataFlag cmd = true →
    EndsWithSentence cmd (gpsStep r i)

/-- An upper-case hexadecimal digit. -/
def isUpperHex (c : UInt8) : Bool := (48 ≤ c && c ≤ 57) || (65 ≤ c && c ≤ 70)

/-- The bytes behind the last `'$'`, and no `'*'` among them. -/
def Since (stream mid : List UInt8) : Prop :=
  ∃ before, stream = before ++ 36 :: mid ∧ 36 ∉ mid ∧ 42 ∉ mid

/-- The byte does not take the machines apart. -/
def InOrder (r : GpsRun) : GpsInput → Prop
  | .byte c =>
      (r.gps.gpsCmdState = .finish → ∀ cmd : GpsCmd, cmd.Completes (r.gps.gpsCmdCnt cmd) c →
        ∃ talker, talker.length = 2 ∧ Since r.stream (talker ++ cmd.letters)) ∧
      (r.gps.gpsCmdState = .waitFinish → r.gps.gotDataFlag r.gps.gpsNumCmd = false →
        c ≠ 36 ∧ (r.gps.gpsGetCheckSumFlag ≠ 0 → isUpperHex c = true))
  | .taken _ => True

/-- `GPSInit` has run, the counters are zero, and no byte came yet. -/
structure GpsStart (r : GpsRun) : Prop where
  init : ∃ gps, r.gps = gpsInitParser gps
  cnt : ∀ cmd, r.gps.gpsCmdCnt cmd = 0
  stream : r.stream = []

/-! ## The bytes behind the last dollar sign -/

section Since

variable {stream mid : List UInt8} {c : UInt8}

lemma since_nil : ¬ Since [] mid := by
  rintro ⟨before, h, -⟩
  exact List.append_ne_nil_of_right_ne_nil before (List.cons_ne_nil 36 mid) h.symm

/-- One more byte. -/
lemma since_concat (h : Since (stream ++ [c]) mid) :
    (c = 36 ∧ mid = []) ∨
      (c ≠ 36 ∧ c ≠ 42 ∧ ∃ mid₀, mid = mid₀ ++ [c] ∧ Since stream mid₀) := by
  obtain ⟨before, heq, hdollar, hstar⟩ := h
  rcases List.eq_nil_or_concat mid with rfl | ⟨mid₀, d, rfl⟩
  · obtain ⟨-, hc⟩ := List.append_inj' heq rfl
    exact Or.inl ⟨by simpa using hc, rfl⟩
  · rw [List.concat_eq_append] at heq hdollar hstar ⊢
    rw [← List.cons_append, ← List.append_assoc] at heq
    obtain ⟨hstream, hc⟩ := List.append_inj' heq rfl
    have hcd : c = d := by simpa using hc
    subst hcd
    simp only [List.mem_append, List.mem_singleton, not_or] at hdollar hstar
    exact Or.inr ⟨Ne.symm hdollar.2, Ne.symm hstar.2, mid₀, rfl, before, hstream, hdollar.1,
      hstar.1⟩

lemma Since.concat (h : Since stream mid) (hdollar : c ≠ 36) (hstar : c ≠ 42) :
    Since (stream ++ [c]) (mid ++ [c]) := by
  obtain ⟨before, rfl, hmid, hmid'⟩ := h
  refine ⟨before, by simp, ?_, ?_⟩
  · simpa [hmid] using hdollar.symm
  · simpa [hmid'] using hstar.symm

end Since

/-! ## What a byte leaves alone -/

section Frames

variable {gps : GpsParser} {cmd : GpsCmd} {c : UInt8}

lemma gpsProcess_same (cmd : GpsCmd) (gps : GpsParser) (c : UInt8) :
    (gpsProcess cmd gps c).2.gpsCalcCheckSumFlag = gps.gpsCalcCheckSumFlag ∧
    (gpsProcess cmd gps c).2.gpsCheckSum = gps.gpsCheckSum ∧
    (gpsProcess cmd gps c).2.gpsNumCmd = gps.gpsNumCmd ∧
    (gpsProcess cmd gps c).2.gpsCmdState = gps.gpsCmdState ∧
    (gpsProcess cmd gps c).2.gpsCmdRecvLength = gps.gpsCmdRecvLength := by
  by_cases hlen : gps.gpsCmdRecvLength = 0 <;> simp only [gpsProcess, hlen] <;>
    split_ifs <;> simp [GpsParser.store, hlen]

/-- A flag is set by the second character of a checksum. -/
lemma gpsProcess_sets (hflag : gps.gotDataFlag cmd = false)
    (hset : (gpsProcess cmd gps c).2.gotDataFlag cmd = true) :
    gps.gpsGetCheckSumFlag ≠ 0 ∧ gps.gpsGetCheckSumFlag ≠ 1 ∧ c ≠ 42 := by
  refine ⟨fun hget => ?_, fun hget => ?_, fun hstar => ?_⟩
  · by_cases hlen : gps.gpsCmdRecvLength = 0 <;> by_cases hc : c = 42 <;>
      simp [gpsProcess, hflag, hlen, hget, hc, GpsParser.store] at hset
  · by_cases hlen : gps.gpsCmdRecvLength = 0 <;> by_cases hc : c = 42 <;>
      simp [gpsProcess, hflag, hlen, hget, hc, GpsParser.store] at hset
  · subst hstar
    rw [gpsProcess_star hflag] at hset
    exact absurd hset (by rw [GpsParser.store]; simp [hflag])

/-- A process that does not see `'*'` does not begin to read a checksum. -/
lemma gpsProcess_get (hget : gps.gpsGetCheckSumFlag = 0) (hstar : c ≠ 42) :
    (gpsProcess cmd gps c).2.gpsGetCheckSumFlag = 0 := by
  by_cases hflag : gps.gotDataFlag cmd = true <;> by_cases hlen : gps.gpsCmdRecvLength = 0 <;>
    simp [gpsProcess, hflag, hlen, hget, hstar, GpsParser.store]

/-- The parser goes on waiting, or has ended the sentence. -/
lemma waitFinish_cases (hstate : gps.gpsCmdState = .waitFinish) :
    (gpsProcess gps.gpsNumCmd gps c).1 ≠ 0 ∧ gps.gpsCmdRecvLength + 1 < 80 ∧
        (waitFinish gps c).gpsCmdState = .waitFinish ∨
      (waitFinish gps c).gpsCmdState = .finish ∧ ∀ cmd, (waitFinish gps c).gpsCmdCnt cmd = 0 := by
  obtain ⟨-, -, -, hsame, hlen⟩ := gpsProcess_same gps.gpsNumCmd gps c
  by_cases hret : (gpsProcess gps.gpsNumCmd gps c).1 = 0
  · refine Or.inr ?_
    simp only [waitFinish, GpsCmd.func_eq, if_pos hret]
    split_ifs <;> exact ⟨rfl, fun _ => rfl⟩
  · simp only [waitFinish, GpsCmd.func_eq, if_neg hret]
    split_ifs with hfull
    · exact Or.inr ⟨rfl, fun _ => rfl⟩
    · rw [hlen, gpsMsgMaxSize] at hfull
      exact Or.inl ⟨hret, by omega, hsame.trans hstate⟩

lemma waitFinish_same (gps : GpsParser) (c : UInt8) :
    (waitFinish gps c).gpsCalcCheckSumFlag = gps.gpsCalcCheckSumFlag ∧
    (waitFinish gps c).gpsCheckSum = gps.gpsCheckSum ∧
    (waitFinish gps c).gpsGetCheckSumFlag
      = (gpsProcess gps.gpsNumCmd gps c).2.gpsGetCheckSumFlag ∧
    (waitFinish gps c).gotDataFlag = (gpsProcess gps.gpsNumCmd gps c).2.gotDataFlag ∧
    (waitFinish gps c).buff = (gpsProcess gps.gpsNumCmd gps c).2.buff := by
  obtain ⟨hcalc, hsum, -⟩ := gpsProcess_same gps.gpsNumCmd gps c
  simp only [waitFinish, GpsCmd.func_eq]
  split_ifs <;> exact ⟨hcalc, hsum, rfl, rfl, rfl⟩

/-- The loop over the names leaves the checksum alone, and the flags. -/
lemma matchCmds_same (gps : GpsParser) (c : UInt8) :
    (matchCmds c GpsCmd.all gps).gpsCalcCheckSumFlag = gps.gpsCalcCheckSumFlag ∧
    (matchCmds c GpsCmd.all gps).gpsCheckSum = gps.gpsCheckSum ∧
    (matchCmds c GpsCmd.all gps).gpsGetCheckSumFlag = gps.gpsGetCheckSumFlag ∧
    (matchCmds c GpsCmd.all gps).gotDataFlag = gps.gotDataFlag := by
  rcases matchCmds_cases c (show GpsCmd.all.Nodup by decide) gps with
    ⟨-, heq⟩ | ⟨_, -, -, _, heq⟩ <;> rw [heq] <;> exact ⟨rfl, rfl, rfl, rfl⟩

end Frames

/-! ## The invariant -/

/-- A sentence that is being taken, up to the byte that came last. -/
inductive Taking (cmd : GpsCmd) (r : GpsRun) : Prop
  | body (talker body : List UInt8) (htalker : talker.length = 2)
      (hsince : Since r.stream (payload talker cmd body))
      (h : Filling cmd (checkSumOf (payload talker cmd body)) body r.gps)
  | star (talker body stream : List UInt8) (htalker : talker.length = 2)
      (hsince : Since stream (payload talker cmd body)) (hstream : r.stream = stream ++ [42])
      (len : ℕ) (h : Closing cmd (checkSumOf (payload talker cmd body)) body 1 0 len r.gps)
  | half (talker body stream : List UInt8) (htalker : talker.length = 2)
      (hsince : Since stream (payload talker cmd body)) (d : UInt8) (hd : isUpperHex d = true)
      (hstream : r.stream = stream ++ [42] ++ [d]) (len : ℕ)
      (h : Closing cmd (checkSumOf (payload talker cmd body)) body 2 (checkSumDigit d <<< 4) len
        r.gps)

/-- The three machines agree. -/
structure InStep (r : GpsRun) : Prop where
  valid : r.gps.gpsCmdState ≠ .newState
  sums : ∀ mid, Since r.stream mid →
    r.gps.gpsCalcCheckSumFlag = true ∧ r.gps.gpsCheckSum = checkSumOf mid
  fresh : ∀ mid, Since r.stream mid → r.gps.gpsGetCheckSumFlag = 0
  cnt : r.gps.gpsCmdState = .finish → ∀ cmd, r.gps.gpsCmdCnt cmd ≤ 3
  taking : r.gps.gpsCmdState = .waitFinish → ∃ cmd, Taking cmd r

section Invariant

variable {r : GpsRun} {c : UInt8}

lemma GpsStart.inStep (h : GpsStart r) : InStep r := by
  obtain ⟨gps, hgps⟩ := h.init
  have hstate : r.gps.gpsCmdState = .finish := by
    rw [hgps]
    rfl
  refine ⟨?_, ?_, ?_, ?_, ?_⟩
  · rw [hstate]
    decide
  · rw [h.stream]
    exact fun mid hmid => absurd hmid since_nil
  · rw [h.stream]
    exact fun mid hmid => absurd hmid since_nil
  · intro _ cmd
    rw [h.cnt cmd]
    exact Nat.zero_le 3
  · rw [hstate]
    exact fun hwait => absurd hwait (by decide)

/-- The checksum machine keeps its side of the invariant on its own. -/
lemma InStep.trackCheckSum_sums (h : InStep r) {mid : List UInt8}
    (hmid : Since (r.stream ++ [c]) mid) :
    (trackCheckSum r.gps c).gpsCalcCheckSumFlag = true ∧
      (trackCheckSum r.gps c).gpsCheckSum = checkSumOf mid := by
  rcases since_concat hmid with ⟨rfl, rfl⟩ | ⟨hdollar, hstar, mid₀, rfl, hmid₀⟩
  · exact ⟨rfl, rfl⟩
  · obtain ⟨hcalc, hsum⟩ := h.sums mid₀ hmid₀
    rw [trackCheckSum_of_ne hdollar hstar, if_pos hcalc, checkSumOf_concat]
    refine ⟨hcalc, ?_⟩
    show r.gps.gpsCheckSum ^^^ c = checkSumOf mid₀ ^^^ c
    rw [hsum]

/-- Nothing else of the parser touches the checksum. -/
lemma gpsComnandParser_sums (gps : GpsParser) (c : UInt8) :
    (gpsComnandParser gps c).gpsCalcCheckSumFlag = (trackCheckSum gps c).gpsCalcCheckSumFlag ∧
      (gpsComnandParser gps c).gpsCheckSum = (trackCheckSum gps c).gpsCheckSum := by
  rw [gpsComnandParser]
  rcases hstate : (trackCheckSum gps c).gpsCmdState with _ | _ | _
  · exact ⟨rfl, rfl⟩
  · obtain ⟨hcalc, hsum, -⟩ := waitFinish_same (trackCheckSum gps c) c
    exact ⟨hcalc, hsum⟩
  · obtain ⟨hcalc, hsum, -⟩ := matchCmds_same (trackCheckSum gps c) c
    exact ⟨hcalc, hsum⟩

lemma InStep.trackCheckSum_fresh (h : InStep r) {mid : List UInt8}
    (hmid : Since (r.stream ++ [c]) mid) : (trackCheckSum r.gps c).gpsGetCheckSumFlag = 0 ∧
      c ≠ 42 := by
  rcases since_concat hmid with ⟨rfl, -⟩ | ⟨hdollar, hstar, mid₀, -, hmid₀⟩
  · exact ⟨rfl, by decide⟩
  · refine ⟨?_, hstar⟩
    rw [trackCheckSum_of_ne hdollar hstar, ← h.fresh mid₀ hmid₀]
    split_ifs <;> rfl

lemma trackCheckSum_same (gps : GpsParser) (c : UInt8) :
    (trackCheckSum gps c).gpsNumCmd = gps.gpsNumCmd ∧
      (trackCheckSum gps c).gpsCmdRecvLength = gps.gpsCmdRecvLength ∧
      (trackCheckSum gps c).gpsCmdState = gps.gpsCmdState ∧
      (trackCheckSum gps c).gpsCmdCnt = gps.gpsCmdCnt ∧
      (trackCheckSum gps c).gotDataFlag = gps.gotDataFlag := by
  rw [trackCheckSum]
  split_ifs <;> exact ⟨rfl, rfl, rfl, rfl, rfl⟩

/-- A byte before a name, or its last one. -/
lemma InStep.byte_of_finish (h : InStep r) (hstate : r.gps.gpsCmdState = .finish)
    (hC : InOrder r (.byte c)) : InStep (gpsStep r (.byte c)) := by
  have hparser : gpsComnandParser r.gps c = matchCmds c GpsCmd.all (trackCheckSum r.gps c) :=
    gpsComnandParser_finish hstate
  obtain ⟨hcalc, hsum⟩ := gpsComnandParser_sums r.gps c
  obtain ⟨-, -, hget, -⟩ := matchCmds_same (trackCheckSum r.gps c) c
  obtain ⟨-, -, hstate', hcnt, -⟩ := trackCheckSum_same r.gps c
  have hsums : ∀ mid, Since (r.stream ++ [c]) mid →
      (gpsComnandParser r.gps c).gpsCalcCheckSumFlag = true ∧
        (gpsComnandParser r.gps c).gpsCheckSum = checkSumOf mid := by
    intro mid hmid
    rw [hcalc, hsum]
    exact h.trackCheckSum_sums hmid
  have hfresh : ∀ mid, Since (r.stream ++ [c]) mid →
      (gpsComnandParser r.gps c).gpsGetCheckSumFlag = 0 := by
    intro mid hmid
    rw [hparser, hget]
    exact (h.trackCheckSum_fresh hmid).1
  by_cases hdone : ∃ cmd : GpsCmd, cmd.Completes (r.gps.gpsCmdCnt cmd) c
  · obtain ⟨cmd, hcmd⟩ := hdone
    obtain ⟨talker₀, -, hsince₀⟩ := hC.1 hstate cmd hcmd
    obtain ⟨-, hcomma⟩ := hcmd.cnt_eq (h.cnt hstate cmd)
    subst hcomma
    have hscan : Scanning r.gps.gpsCmdCnt r.gps.gpsCheckSum r.gps :=
      ⟨hstate, rfl, (h.sums _ hsince₀).1, rfl, h.fresh _ hsince₀⟩
    obtain ⟨found, hfound, hfilling, -⟩ := hscan.named hcmd (by decide) (by decide)
    obtain ⟨talker, htalker, hsince⟩ := hC.1 hstate found hfound
    have hpayload : payload talker found [] = talker ++ found.letters ++ [44] := by
      cases found <;> simp [payload, GpsCmd.cmdInfo, bytesOf]
    refine ⟨?_, hsums, hfresh, ?_, fun _ => ⟨found, .body talker [] htalker ?_ ?_⟩⟩
    · rw [gpsStep, hfilling.state]
      decide
    · intro hfinish
      rw [gpsStep, hfilling.state] at hfinish
      exact absurd hfinish (by decide)
    · rw [hpayload]
      exact hsince.concat (by decide) (by decide)
    · rw [hpayload, checkSumOf_concat, ← (h.sums _ hsince).2]
      exact hfilling
  · have hnone : ∀ cmd : GpsCmd,
        ¬ cmd.Completes ((trackCheckSum r.gps c).gpsCmdCnt cmd) c := by
      rw [hcnt]
      exact fun cmd hcmd => hdone ⟨cmd, hcmd⟩
    have hnext := matchCmds_of_none hnone
    have hfinish : (gpsComnandParser r.gps c).gpsCmdState = .finish := by
      rw [hparser, hnext]
      exact hstate'.trans hstate
    refine ⟨?_, hsums, hfresh, ?_, ?_⟩
    · rw [gpsStep, hfinish]
      decide
    · intro _ cmd
      rw [gpsStep, hparser, hnext]
      refine GpsCmd.nextCnt_le (hnone cmd) ?_
      rw [hcnt]
      exact h.cnt hstate cmd
    · intro hwait
      rw [gpsStep, hfinish] at hwait
      exact absurd hwait (by decide)

lemma gpsProcess_pending {cmd : GpsCmd} {gps : GpsParser} (h : gps.gotDataFlag cmd = true) :
    gpsProcess cmd gps c = (0, gps) := by
  simp [gpsProcess, h]

lemma isUpperHex_ne (h : isUpperHex c = true) : c ≠ 36 ∧ c ≠ 42 := by
  constructor <;> rintro rfl <;> exact absurd h (by decide)

lemma payload_concat (talker : List UInt8) (cmd : GpsCmd) (body : List UInt8) (c : UInt8) :
    payload talker cmd (body ++ [c]) = payload talker cmd body ++ [c] := by
  simp [payload]

/-- A byte of a pending sentence, when the parser goes on waiting. -/
lemma Taking.next {cmd : GpsCmd} (h : Taking cmd r) (hflag : r.gps.gotDataFlag cmd = false)
    (hdollar : c ≠ 36) (hhex : r.gps.gpsGetCheckSumFlag ≠ 0 → isUpperHex c = true)
    (hlen : r.gps.gpsCmdRecvLength + 1 < 80)
    (hwait : (gpsComnandParser r.gps c).gpsCmdState = .waitFinish) :
    Taking cmd (gpsStep r (.byte c)) := by
  cases h with
  | body talker body htalker hsince hfilling =>
      rw [hfilling.stored] at hlen
      by_cases hstar : c = 42
      · subst hstar
        exact .star talker body r.stream htalker hsince rfl (body.length + 1)
          (hfilling.star hflag hlen).1
      · refine .body talker (body ++ [c]) htalker ?_ ?_
        · rw [payload_concat]
          exact hsince.concat hdollar hstar
        · rw [payload_concat, checkSumOf_concat]
          exact (hfilling.next hflag hdollar hstar hlen).1
  | star talker body stream htalker hsince hstream len hclosing =>
      have hc : isUpperHex c = true := hhex (by rw [hclosing.get]; decide)
      rw [hclosing.stored] at hlen
      have hnext := (hclosing.first hflag hdollar (isUpperHex_ne hc).2 hlen).1
      rw [UInt8.zero_or] at hnext
      exact .half talker body stream htalker hsince c hc (by rw [gpsStep, hstream]) (len + 1) hnext
  | half talker body stream htalker hsince d hd hstream len hclosing =>
      -- the second character ends the sentence
      have hc : isUpperHex c = true := hhex (by rw [hclosing.get]; decide)
      have hfinish := (hclosing.second hflag hdollar (isUpperHex_ne hc).2).1
      rw [hfinish] at hwait
      exact absurd hwait (by decide)

lemma Taking.num {cmd : GpsCmd} (h : Taking cmd r) : r.gps.gpsNumCmd = cmd := by
  cases h with
  | body _ _ _ _ h => exact h.num
  | star _ _ _ _ _ _ _ h => exact h.num
  | half _ _ _ _ _ _ _ _ _ h => exact h.num

/-- A byte of a pending sentence. -/
lemma InStep.byte_of_wait (h : InStep r) (hstate : r.gps.gpsCmdState = .waitFinish)
    (hC : InOrder r (.byte c)) : InStep (gpsStep r (.byte c)) := by
  have hparser : gpsComnandParser r.gps c = waitFinish (trackCheckSum r.gps c) c :=
    gpsComnandParser_wait hstate
  obtain ⟨hcalc, hsum⟩ := gpsComnandParser_sums r.gps c
  obtain ⟨-, -, hget, -⟩ := waitFinish_same (trackCheckSum r.gps c) c
  obtain ⟨hnum, hlen, hstate', -, hflags⟩ := trackCheckSum_same r.gps c
  obtain ⟨cmd, htaking⟩ := h.taking hstate
  have hcases := waitFinish_cases (c := c) (hstate'.trans hstate)
  rw [← hparser] at hcases
  refine ⟨?_, ?_, ?_, ?_, ?_⟩
  · rcases hcases with ⟨-, -, hwait⟩ | ⟨hfinish, -⟩
    · rw [gpsStep, hwait]
      decide
    · rw [gpsStep, hfinish]
      decide
  · intro mid hmid
    rw [gpsStep, hcalc, hsum]
    exact h.trackCheckSum_sums hmid
  · intro mid hmid
    obtain ⟨hzero, hstar⟩ := h.trackCheckSum_fresh hmid
    rw [gpsStep, hparser, hget]
    exact gpsProcess_get hzero hstar
  · intro hfinish cmd
    rcases hcases with ⟨-, -, hwait⟩ | ⟨-, hzero⟩
    · rw [gpsStep, hwait] at hfinish
      exact absurd hfinish (by decide)
    · rw [gpsStep, hzero cmd]
      exact Nat.zero_le 3
  · intro hwait
    rcases hcases with ⟨hret, hroom, -⟩ | ⟨hfinish, -⟩
    · have hflag : r.gps.gotDataFlag cmd = false := by
        by_contra hpending
        rw [Bool.not_eq_false, ← hflags] at hpending
        rw [hnum, htaking.num, gpsProcess_pending hpending] at hret
        exact hret rfl
      obtain ⟨hdollar, hhex⟩ := hC.2 hstate (by rw [htaking.num]; exact hflag)
      rw [hlen] at hroom
      exact ⟨cmd, htaking.next hflag hdollar hhex hroom hwait⟩
    · rw [gpsStep, hfinish] at hwait
      exact absurd hwait (by decide)

lemma InStep.step (h : InStep r) (i : GpsInput) (hC : InOrder r i) : InStep (gpsStep r i) := by
  cases i with
  | byte c =>
      rcases hstate : r.gps.gpsCmdState with _ | _ | _
      · exact absurd hstate h.valid
      · exact h.byte_of_wait hstate hC
      · exact h.byte_of_finish hstate hC
  | taken cmd =>
      refine ⟨h.valid, h.sums, h.fresh, h.cnt, fun hwait => ?_⟩
      obtain ⟨num, htaking⟩ := h.taking hwait
      refine ⟨num, ?_⟩
      cases htaking with
      | body talker body htalker hsince hf =>
          exact .body talker body htalker hsince
            ⟨hf.state, hf.num, hf.stored, hf.tracks, hf.sum, hf.get, hf.buff⟩
      | star talker body stream htalker hsince hstream len hc =>
          exact .star talker body stream htalker hsince hstream len
            ⟨hc.state, hc.num, hc.stored, hc.longer, hc.tracks, hc.sum, hc.get, hc.value, hc.buff⟩
      | half talker body stream htalker hsince d hd hstream len hc =>
          exact .half talker body stream htalker hsince d hd hstream len
            ⟨hc.state, hc.num, hc.stored, hc.longer, hc.tracks, hc.sum, hc.get, hc.value, hc.buff⟩

/-- The characters that make a byte are its digits. -/
lemma checkSumDigits_of_upperHex {c d x : UInt8} (hc : isUpperHex c = true)
    (hd : isUpperHex d = true) (h : checkSumDigit c <<< 4 ||| checkSumDigit d = x) :
    [c, d] = checkSumDigits x := by
  have hmem : ∀ n : Fin 256, isUpperHex (UInt8.ofNat n) = true →
      UInt8.ofNat n ∈ bytesOf "0123456789ABCDEF" := by decide +kernel
  have hall : ∀ c ∈ bytesOf "0123456789ABCDEF", ∀ d ∈ bytesOf "0123456789ABCDEF",
      [c, d] = checkSumDigits (checkSumDigit c <<< 4 ||| checkSumDigit d) := by decide +kernel
  have hmem' : ∀ c, isUpperHex c = true → c ∈ bytesOf "0123456789ABCDEF" := by
    intro c hc
    have hfin := hmem ⟨c.toNat, c.toNat_lt⟩
    simp only [UInt8.ofNat_toNat] at hfin
    exact hfin hc
  rw [← h]
  exact hall c (hmem' c hc) d (hmem' d hd)

/-- A flag that is set by a byte. -/
lemma InStep.accepts (h : InStep r) (hC : InOrder r (.byte c)) : AcceptsSound r (.byte c) := by
  intro cmd hflag hset
  have hset' : (gpsComnandParser r.gps c).gotDataFlag cmd = true := hset
  obtain ⟨hnum, hlen, hstate', -, hflags⟩ := trackCheckSum_same r.gps c
  rcases hstate : r.gps.gpsCmdState with _ | _ | _
  · exact absurd hstate h.valid
  · obtain ⟨-, -, -, hprocess, -⟩ := waitFinish_same (trackCheckSum r.gps c) c
    obtain ⟨num, htaking⟩ := h.taking hstate
    rw [gpsComnandParser_wait hstate, hprocess, hnum, htaking.num] at hset'
    -- only the flag of the pending sentence can be set
    have hsame : cmd = num := by
      by_contra hne
      rw [(gpsProcess_frame hne).1, hflags, hflag] at hset'
      exact absurd hset' (by decide)
    subst hsame
    obtain ⟨hdollar, hhex⟩ := hC.2 hstate (by rw [htaking.num]; exact hflag)
    obtain ⟨hzero, hone, hstar⟩ := gpsProcess_sets (by rw [hflags]; exact hflag) hset'
    have hget : (trackCheckSum r.gps c).gpsGetCheckSumFlag = r.gps.gpsGetCheckSumFlag := by
      rw [trackCheckSum_of_ne hdollar hstar]
      split_ifs <;> rfl
    rw [hget] at hzero hone
    cases htaking with
    | body talker body htalker hsince hfilling => exact absurd hfilling.get hzero
    | star talker body stream htalker hsince hstream len hclosing =>
        exact absurd hclosing.get hone
    | half talker body stream htalker hsince d hd hstream len hclosing =>
        obtain ⟨-, -, hbuff, hgot⟩ := hclosing.second hflag hdollar hstar
        have hagree : checkSumDigit d <<< 4 ||| checkSumDigit c
            = checkSumOf (payload talker cmd body) := by
          by_contra hne
          have hset'' : (gpsComnandParser r.gps c).gotDataFlag cmd = true := hset
          rw [hgot, if_neg hne, hflag] at hset''
          exact absurd hset'' (by decide)
        obtain ⟨before, hbefore, hnodollar, hnostar⟩ := hsince
        have hdigits := checkSumDigits_of_upperHex hd (hhex hzero) hagree
        refine ⟨before, talker, body, htalker, ?_, ?_, ?_, ?_⟩
        · exact fun hmem => hnodollar (List.mem_append_right _ hmem)
        · exact fun hmem => hnostar (List.mem_append_right _ hmem)
        · rw [gpsStep, hstream, hbefore, sentence, ← hdigits]
          simp
        · rw [gpsStep, hbuff]
          exact hclosing.buff
  · obtain ⟨-, -, -, hmatch⟩ := matchCmds_same (trackCheckSum r.gps c) c
    rw [gpsComnandParser_finish hstate, hmatch, hflags, hflag] at hset'
    exact absurd hset' (by decide)

end Invariant

/-! ## The main result -/

/-- **What is accepted is a sentence.**  In every run whose bytes are all in order, a flag becomes 1
only when the stream ends with a sentence of its type with the right checksum, and the buffer of
the type begins with its body and `'*'`. -/
theorem gpsAccept_sound {r : GpsRun} (hr : GpsStart r) {is : List GpsInput}
    (hC : StepsMeet gpsStep InOrder r is) : StepsMeet gpsStep AcceptsSound r is := by
  refine stepsMeet_of_invariant (I := InStep) (C := InOrder) (fun r i h hC => h.step i hC)
    (fun r i h hC => ?_) hr.inStep hC
  cases i with
  | byte c => exact h.accepts hC
  | taken cmd =>
      intro other hflag hset
      rw [gpsStep] at hset
      by_cases hsame : other = cmd
      · subst hsame
        simp at hset
      · simp [hsame, hflag] at hset

/-- `GPSInit` has run. -/
def gpsStart : GpsRun := ⟨gpsInitParser gpsParserReset, []⟩

lemma gpsStart_start : GpsStart gpsStart := ⟨⟨gpsParserReset, rfl⟩, fun _ => rfl, rfl⟩

/-- The stream ends with `'$'`, a talker and the letters of the sentence. -/
def namedCheck (stream : List UInt8) (cmd : GpsCmd) : Bool :=
  let mid := stream.drop (stream.length - 5)
  stream.drop (stream.length - 6) = 36 :: mid && mid.length = 5 && mid.drop 2 = cmd.letters &&
    36 ∉ mid && 42 ∉ mid

lemma since_of_check {stream : List UInt8} {cmd : GpsCmd} (h : namedCheck stream cmd = true) :
    ∃ talker, talker.length = 2 ∧ Since stream (talker ++ cmd.letters) := by
  simp only [namedCheck, Bool.and_eq_true, decide_eq_true_eq] at h
  obtain ⟨⟨⟨⟨hdollar, hlen⟩, hletters⟩, hnoDollar⟩, hnoStar⟩ := h
  refine ⟨(stream.drop (stream.length - 5)).take 2, ?_, stream.take (stream.length - 6), ?_⟩
  · rw [List.length_take, hlen]
    rfl
  · rw [← hletters, List.take_append_drop, ← hdollar, List.take_append_drop]
    exact ⟨rfl, hnoDollar, hnoStar⟩

/-- The byte is in order, whatever the flags are. -/
def inOrderCheck (r : GpsRun) : GpsInput → Bool
  | .byte c =>
      (r.gps.gpsCmdState ≠ .finish ||
          GpsCmd.all.all fun cmd =>
            ¬ cmd.Completes (r.gps.gpsCmdCnt cmd) c || namedCheck r.stream cmd) &&
        (r.gps.gpsCmdState ≠ .waitFinish ||
          (c ≠ 36 && (r.gps.gpsGetCheckSumFlag = 0 || isUpperHex c)))
  | .taken _ => true

lemma inOrder_of_check (r : GpsRun) (i : GpsInput) (h : inOrderCheck r i = true) : InOrder r i := by
  cases i with
  | taken cmd => exact trivial
  | byte c =>
      simp only [inOrderCheck, Bool.and_eq_true, Bool.or_eq_true, decide_eq_true_eq,
        List.all_eq_true] at h
      refine ⟨fun hstate cmd hcmd => ?_, fun hstate _ => ?_⟩
      · rcases h.1 with hne | hall
        · exact absurd hstate hne
        · exact since_of_check ((hall cmd cmd.mem_all).resolve_left (not_not.mpr hcmd))
      · rcases h.2 with hne | ⟨hdollar, hhex⟩
        · exact absurd hstate hne
        · exact ⟨hdollar, fun hget => hhex.resolve_left hget⟩

/-- Noise, a sentence that `GPS_Task` takes, and another one. -/
def twoSentences : List GpsInput :=
  (bytesOf "A,*4\r\n").map .byte ++ (sentence (bytesOf "GP") .gprmc (bytesOf "A")).map .byte ++
    [.taken .gprmc] ++ (sentence (bytesOf "GN") .gpgga (bytesOf "1,N")).map .byte

/-- Both are accepted. -/
theorem gpsAccept_sound_two :
    (run gpsStep gpsStart twoSentences).gps.gotDataFlag .gpgga = true ∧
      StepsMeet gpsStep AcceptsSound gpsStart twoSentences := by
  have hcheck : StepsMeet gpsStep (fun r i => inOrderCheck r i = true) gpsStart twoSentences := by
    decide +kernel
  exact ⟨by decide +kernel, gpsAccept_sound gpsStart_start (hcheck.mono inOrder_of_check)⟩

/-- A sentence is cut off by the next one: `$GPRMC,1$GPGGA,*7A`. -/
def mixedSentence : List UInt8 := bytesOf "$GPRMC,1$GPGGA,*7A"

lemma mixedSentence_accepted :
    (run gpsStep gpsStart (mixedSentence.dropLast.map .byte)).gps.gotDataFlag .gprmc = false ∧
      (run gpsStep gpsStart (mixedSentence.map .byte)).gps.gotDataFlag .gprmc = true := by
  decide +kernel

/-- The stream does not end with a sentence of the type. -/
lemma mixedSentence_not {before talker body : List UInt8} (htalker : talker.length = 2)
    (hbody : 36 ∉ body) : mixedSentence ≠ before ++ sentence talker .gprmc body := by
  intro heq
  obtain ⟨a, b, rfl⟩ := List.length_eq_two.mp htalker
  have hsentence : ∃ d e, sentence [a, b] .gprmc body
      = 36 :: a :: b :: 82 :: 77 :: 67 :: 44 :: (body ++ [42, d, e]) :=
    ⟨upperHex (checkSumOf (payload [a, b] .gprmc body) >>> 4),
      upperHex (checkSumOf (payload [a, b] .gprmc body) &&& 15),
      by simp [sentence, payload, GpsCmd.cmdInfo, GpsCmd.letters, bytesOf, checkSumDigits]⟩
  obtain ⟨d, e, hsentence⟩ := hsentence
  rw [hsentence] at heq
  have hlen : mixedSentence.length = before.length + (7 + (body.length + 3)) := by
    rw [heq]
    simp
    omega
  -- the only `'R'` of the stream stands behind the first talker
  have hletter : mixedSentence[before.length + 3]? = some 82 := by
    rw [heq, List.getElem?_append_right (by omega)]
    simp
  have honly : ∀ k < 18, mixedSentence[k + 3]? = some 82 → k = 0 := by decide +kernel
  have heighteen : mixedSentence.length = 18 := by decide +kernel
  have hnil : before = [] := List.eq_nil_of_length_eq_zero (honly _ (by omega) hletter)
  subst hnil
  have hbody' : (mixedSentence.drop 7).take 8 = body := by
    rw [heq]
    have height : body.length = 8 := by simp at hlen; omega
    simp [← height]
  rw [← hbody'] at hbody
  exact hbody (by decide +kernel)

/-- A fix that was never sent is accepted. -/
theorem gpsAccept_mixed : ¬ ∀ (r : GpsRun) (bytes : List UInt8), GpsStart r →
    StepsMeet gpsStep AcceptsSound r (bytes.map .byte) := by
  intro h
  have hsplit : mixedSentence.map GpsInput.byte
      = mixedSentence.dropLast.map .byte ++ [.byte 65] := by
    have hlast : mixedSentence = mixedSentence.dropLast ++ [65] := by decide +kernel
    rw [← List.map_singleton, ← List.map_append, ← hlast]
  have hmeet := h gpsStart mixedSentence gpsStart_start
  obtain ⟨hbefore, hafter⟩ := mixedSentence_accepted
  rw [hsplit] at hmeet hafter
  have hlast : AcceptsSound (run gpsStep gpsStart (mixedSentence.dropLast.map .byte))
      (.byte 65) := (stepsMeet_append.mp hmeet).2.1
  obtain ⟨before, talker, body, htalker, hbody, -, hstream, -⟩ :=
    hlast .gprmc hbefore (by rw [run_append] at hafter; exact hafter)
  refine mixedSentence_not htalker hbody (Eq.trans ?_ hstream)
  decide +kernel

end Ampm

import AmpmGsm.Gps.Cells

/-!
# The buffers are never overrun

On its arrays `GPS_ComnandParser` has a result for every byte, and it is the one of the parser by
name: no index is ever out of range.

* `Bounded` — the invariant of the parser by name: the length while it waits, the counters while it
  looks for a name.
* `GpsCells.InRange` — the invariant on the arrays, which also bounds the row.
* `GpsCells.process_refines`, `GpsCells.matchNames_refines`, `GpsCells.comnandParser_refines` — a
  handler, the loop over the names and the parser do on the arrays what they do by name.
* `gpsCells_inRange` — every run, and every call of a handler in it.
-/

namespace Ampm

open Checked Function Runs

/-! ## The invariant by name -/

/-- The buffers have room for one more byte, and the counters point into the names. -/
structure Bounded (gps : GpsParser) : Prop where
  len : gps.gpsCmdState = .waitFinish → gps.gpsCmdRecvLength < gpsMsgMaxSize
  cnt : gps.gpsCmdState = .finish → ∀ cmd : GpsCmd, gps.gpsCmdCnt cmd < cmd.cmdInfo.length

@[simp] lemma GpsCmd.cmdInfo_length (cmd : GpsCmd) : cmd.cmdInfo.length = 4 := by
  cases cmd <;> rfl

lemma finish_ne_waitFinish : GpsCmdState.finish ≠ .waitFinish := by decide

section ByName

variable {gps : GpsParser} {c : UInt8}

lemma bounded_finished (gps : GpsParser) : Bounded gps.finished := by
  refine ⟨fun h => absurd h finish_ne_waitFinish, fun _ cmd => ?_⟩
  rw [cmd.cmdInfo_length]
  exact Nat.zero_lt_succ 3

/-- The length is tested after the handler, and before the next one. -/
lemma bounded_waitFinish (gps : GpsParser) (c : UInt8)
    (hfinish : (waitFinish gps c).gpsCmdState = .finish →
      ∀ cmd, (waitFinish gps c).gpsCmdCnt cmd = 0) :
    Bounded (waitFinish gps c) := by
  refine ⟨fun hwait => ?_, fun h cmd => ?_⟩
  · simp only [waitFinish] at hwait ⊢
    split_ifs at hwait ⊢ with hret hfull hfull
    · exact absurd hwait finish_ne_waitFinish
    · exact absurd hwait finish_ne_waitFinish
    · exact absurd hwait finish_ne_waitFinish
    · exact Nat.lt_of_not_le hfull
  · rw [hfinish h cmd, cmd.cmdInfo_length]
    exact Nat.zero_lt_succ 3

/-- **A byte keeps the invariant.** -/
lemma Bounded.comnandParser (h : Bounded gps) (c : UInt8) : Bounded (gpsComnandParser gps c) := by
  obtain ⟨-, -, hstate', hcnt, -⟩ := trackCheckSum_same gps c
  rcases hstate : gps.gpsCmdState with _ | _ | _
  · rw [gpsComnandParser, hstate'.trans hstate]
    exact bounded_finished _
  · rw [gpsComnandParser_wait hstate]
    refine bounded_waitFinish _ c fun hfinish => ?_
    rcases waitFinish_cases (c := c) (hstate'.trans hstate) with ⟨-, -, hwait⟩ | ⟨-, hzero⟩
    · exact absurd (hfinish.symm.trans hwait) finish_ne_waitFinish
    · exact hzero
  · rw [gpsComnandParser_finish hstate]
    by_cases hdone : ∃ cmd : GpsCmd, cmd.Completes ((trackCheckSum gps c).gpsCmdCnt cmd) c
    · obtain ⟨cmd, hcmd⟩ := hdone
      obtain ⟨found, -, cnt, heq⟩ := matchCmds_of_some hcmd
      rw [heq]
      exact ⟨fun _ => Nat.zero_lt_succ 79, fun h => absurd h.symm finish_ne_waitFinish⟩
    · rw [not_exists] at hdone
      rw [matchCmds_of_none hdone]
      refine ⟨fun hwait => absurd ((hstate'.trans hstate).symm.trans hwait) finish_ne_waitFinish,
        fun _ cmd => ?_⟩
      have hsmall := h.cnt hstate cmd
      rw [cmd.cmdInfo_length] at hsmall ⊢
      refine Nat.lt_succ_of_le (GpsCmd.nextCnt_le (hdone cmd) ?_)
      rw [hcnt]
      exact Nat.le_of_lt_succ hsmall

end ByName

namespace GpsCells

/-! ## The state by name -/

section Steps

variable {gps : GpsCells} {cmd : GpsCmd} {c : UInt8}

lemma parser_trackCheckSum (gps : GpsCells) (c : UInt8) :
    (gps.trackCheckSum c).parser = Ampm.trackCheckSum gps.parser c ∧
      (gps.trackCheckSum c).gpsNumCmd = gps.gpsNumCmd := by
  by_cases hstar : c = 42
  · subst hstar
    exact ⟨rfl, rfl⟩
  · by_cases hdollar : c = 36
    · subst hdollar
      exact ⟨rfl, rfl⟩
    · by_cases hcalc : gps.gpsCalcCheckSumFlag = 0 <;>
        simp [trackCheckSum, Ampm.trackCheckSum, parser, cnt, hstar, hdollar, hcalc]

lemma parser_finished (gps : GpsCells) : gps.finished.parser = gps.parser.finished := by
  have hcnt : (fun cmd => (gps.finished.cnt cmd).toNat) = fun _ => 0 := by
    funext cmd
    cases cmd <;> rfl
  rw [parser, hcnt]
  rfl

lemma store_refines (cmd : GpsCmd) (c : UInt8)
    (hlen : gps.gpsCmdRecvLength.toNat < gpsMsgMaxSize) :
    ∃ next, gps.store cmd c = some (0xff, next) ∧ next.parser = gps.parser.store cmd c ∧
      next.gpsNumCmd = gps.gpsNumCmd := by
  refine ⟨{ gps with
    buff := update gps.buff cmd ((gps.buff cmd).set gps.gpsCmdRecvLength.toNat c hlen) },
    ?_, ?_, rfl⟩
  · rw [store, store?_of_lt _ hlen, Option.map_some]
  · have hbuff : (fun other i => (update gps.buff cmd
        ((gps.buff cmd).set gps.gpsCmdRecvLength.toNat c hlen) other)[i]?.getD 0)
        = (gps.parser.store cmd c).buff := by
      funext other i
      show _ = update gps.parser.buff cmd
        (update (gps.parser.buff cmd) gps.gpsCmdRecvLength.toNat c) other i
      by_cases hother : other = cmd
      · subst hother
        rw [update_self, update_self, Vector.getElem?_set, update_apply]
        by_cases hi : gps.gpsCmdRecvLength.toNat = i
        · rw [if_pos hi, if_pos hi.symm, Option.getD_some]
        · rw [if_neg hi, if_neg (Ne.symm hi)]
          rfl
      · rw [update_of_ne hother, update_of_ne hother]
        rfl
    rw [parser, hbuff]
    rfl

/-- The result on the arrays is the one by name, and the row is left alone. -/
def Refined (num : UInt8) (r : Option (UInt8 × GpsCells)) (r' : UInt8 × GpsParser) : Prop :=
  ∃ s, r = some s ∧ s.1 = r'.1 ∧ s.2.parser = r'.2 ∧ s.2.gpsNumCmd = num

lemma Refined.ite {num : UInt8} {P Q : Prop} [Decidable P] [Decidable Q] (hiff : P ↔ Q)
    {a b : Option (UInt8 × GpsCells)} {a' b' : UInt8 × GpsParser} (hpos : P → Refined num a a')
    (hneg : ¬ P → Refined num b b') :
    Refined num (if P then a else b) (if Q then a' else b') := by
  by_cases h : P
  · rw [if_pos h, if_pos (hiff.mp h)]
    exact hpos h
  · rw [if_neg h, if_neg fun hq => h (hiff.mpr hq)]
    exact hneg h

lemma refined_store {num : UInt8} {gps' : GpsParser}
    (hlen : gps.gpsCmdRecvLength.toNat < gpsMsgMaxSize) (hnum : gps.gpsNumCmd = num)
    (hparser : gps.parser = gps') :
    Refined num (gps.store cmd c) (0xff, gps'.store cmd c) := by
  obtain ⟨next, hstore, hnext, hsame⟩ := store_refines cmd c hlen
  exact ⟨_, hstore, rfl, by rw [hnext, hparser], hsame.trans hnum⟩

lemma parser_setFlag (gps : GpsCells) (cmd : GpsCmd) (flag : UInt8) :
    { gps with gotDataFlag := update gps.gotDataFlag cmd flag }.parser
      = { gps.parser with gotDataFlag := update gps.parser.gotDataFlag cmd (flag ≠ 0) } := by
  have hflags : (fun other => decide (update gps.gotDataFlag cmd flag other ≠ 0))
      = update gps.parser.gotDataFlag cmd (decide (flag ≠ 0)) :=
    comp_update (fun flag : UInt8 => decide (flag ≠ 0)) gps.gotDataFlag cmd flag
  rw [parser, hflags]
  rfl

/-- The comparison of the checksums. -/
lemma refined_accept {num : UInt8} (gps : GpsCells) (hnum : gps.gpsNumCmd = num) :
    Refined num
      (some (0, if gps.gpsCheckSumX = gps.gpsCheckSum then
        { gps with gotDataFlag := update gps.gotDataFlag cmd 1 } else gps))
      (0, if gps.parser.gpsCheckSumX = gps.parser.gpsCheckSum then
        { gps.parser with gotDataFlag := update gps.parser.gotDataFlag cmd true }
        else gps.parser) := by
  refine ⟨_, rfl, rfl, ?_, ?_⟩
  · by_cases hagree : gps.gpsCheckSumX = gps.gpsCheckSum
    · have hagree' : gps.parser.gpsCheckSumX = gps.parser.gpsCheckSum := hagree
      simp only [if_pos hagree, if_pos hagree', parser_setFlag]
      rfl
    · have hagree' : ¬ gps.parser.gpsCheckSumX = gps.parser.gpsCheckSum := hagree
      simp only [if_neg hagree, if_neg hagree']
  · split_ifs <;> exact hnum

/-- The first byte of a sentence clears what is known of the checksum. -/
lemma fresh_refines (gps : GpsCells) : ∃ fresh,
    fresh = (if gps.gpsCmdRecvLength = 0 then
      { gps with gpsGetCheckSumFlag := 0, gpsCheckSumX := 0 } else gps) ∧
    fresh.gpsCmdRecvLength = gps.gpsCmdRecvLength ∧ fresh.gpsNumCmd = gps.gpsNumCmd ∧
    fresh.parser = if gps.parser.gpsCmdRecvLength = 0 then
      { gps.parser with gpsGetCheckSumFlag := 0, gpsCheckSumX := 0 } else gps.parser := by
  by_cases hzero : gps.gpsCmdRecvLength = 0
  · have hzero' : gps.parser.gpsCmdRecvLength = 0 := congrArg UInt32.toNat hzero
    rw [if_pos hzero, if_pos hzero']
    exact ⟨_, rfl, rfl, rfl, rfl⟩
  · have hzero' : ¬ gps.parser.gpsCmdRecvLength = 0 := fun h => hzero (UInt32.toNat_inj.mp h)
    rw [if_neg hzero, if_neg hzero']
    exact ⟨_, rfl, rfl, rfl, rfl⟩

/-- **A handler** does on the arrays what it does by name. -/
lemma process_refines (cmd : GpsCmd) (c : UInt8)
    (hlen : gps.gpsCmdRecvLength.toNat < gpsMsgMaxSize) :
    Refined gps.gpsNumCmd (gps.process cmd c) (gpsProcess cmd gps.parser c) := by
  obtain ⟨fresh, hfresh, hsame, hnum, hparser⟩ := fresh_refines gps
  rw [← hsame] at hlen
  rw [process, gpsProcess]
  refine Refined.ite (by simp [parser]) (fun _ => ⟨_, rfl, rfl, rfl, rfl⟩) fun _ => ?_
  simp only [← hparser, ← hfresh]
  -- `'*'`, then a byte of the body, then the first character of the checksum: all of them stored
  refine Refined.ite Iff.rfl (fun _ => refined_store hlen hnum rfl) fun _ => ?_
  refine Refined.ite Iff.rfl (fun _ => ?_) fun _ => refined_store hlen hnum rfl
  refine Refined.ite Iff.rfl (fun _ => ?_) fun _ => refined_store hlen hnum rfl
  exact refined_accept { fresh with
    gpsCheckSumX := if fresh.gpsGetCheckSumFlag = 1 then
      (fresh.gpsCheckSumX ||| checkSumDigit c) <<< 4 else fresh.gpsCheckSumX ||| checkSumDigit c
    gpsGetCheckSumFlag := fresh.gpsGetCheckSumFlag + 1 } hnum

end Steps

/-! ## The table and the counters -/

section Names

variable {gps : GpsCells} {cmd : GpsCmd} {c : UInt8}

lemma all_row (cmd : GpsCmd) : GpsCmd.all[(cmd.row : ℕ)]? = some cmd := by
  cases cmd <;> rfl

lemma row_inj {other : GpsCmd} : other.row = cmd.row ↔ other = cmd := by
  cases other <;> cases cmd <;> decide

/-- The table is read inside `cmdInfo`. -/
lemma cmdInfoAt_row (cmd : GpsCmd) {j : ℕ} (hj : j < gpsCmdParserSize) :
    cmdInfoAt cmd.row j = some (cmd.cmdInfo.getD j 0) := by
  rw [cmdInfoAt, all_row, Option.bind_some, GpsCmd.cmdInfoCells, Vector.getElem?_ofFn, dif_pos hj]

/-- Every name has four characters. -/
lemma nameEnd_row (cmd : GpsCmd) : nameEnd cmd.row (gpsCmdParserSize + 1) 0 = some 4 := by
  cases cmd <;> decide +kernel

lemma cnt_eq (gps : GpsCells) (cmd : GpsCmd) : gps.gpsCmdCnt[(cmd.row : ℕ)]? = some (gps.cnt cmd) :=
  Vector.getElem?_eq_getElem cmd.row_lt

/-- The counters behind an assignment. -/
def setCnt (gps : GpsCells) (cmd : GpsCmd) (x : UInt32) : GpsCells :=
  { gps with gpsCmdCnt := gps.gpsCmdCnt.set cmd.row x cmd.row_lt }

lemma cnt_setCnt (gps : GpsCells) (cmd : GpsCmd) (x : UInt32) :
    (gps.setCnt cmd x).cnt = update gps.cnt cmd x := by
  funext other
  by_cases hother : other = cmd
  · subst hother
    rw [update_self]
    exact Vector.getElem_set_self other.row_lt
  · rw [update_of_ne hother]
    exact Vector.getElem_set_ne cmd.row_lt other.row_lt fun h =>
      hother (row_inj.mp (Fin.ext h.symm))

lemma parser_setCnt (gps : GpsCells) (cmd : GpsCmd) (x : UInt32) :
    (gps.setCnt cmd x).parser
      = { gps.parser with gpsCmdCnt := update gps.parser.gpsCmdCnt cmd x.toNat } := by
  have hcnt : (fun other => ((gps.setCnt cmd x).cnt other).toNat)
      = update gps.parser.gpsCmdCnt cmd x.toNat := by
    rw [cnt_setCnt]
    exact comp_update UInt32.toNat gps.cnt cmd x
  rw [parser, hcnt]
  rfl

lemma row_toNat (cmd : GpsCmd) : (UInt8.ofNat cmd.row).toNat = cmd.row := by
  cases cmd <;> rfl

/-- A complete name. -/
lemma parser_named (gps : GpsCells) (cmd : GpsCmd) :
    { gps with
      gpsNumCmd := UInt8.ofNat cmd.row
      gpsCmdState := .waitFinish
      gpsCmdRecvLength := 0 }.parser
      = { gps.parser with
        gpsNumCmd := cmd
        gpsCmdState := .waitFinish
        gpsCmdRecvLength := 0 } := by
  have hrow : GpsCmd.all[(UInt8.ofNat cmd.row).toNat]?.getD .gprmc = cmd := by
    rw [row_toNat, all_row, Option.getD_some]
  simp only [parser, hrow]
  rfl

/-- The row where the loop stands. -/
lemma row_of_drop {i : ℕ} {cmds : List GpsCmd} (h : GpsCmd.all.drop i = cmd :: cmds) :
    i = cmd.row ∧ GpsCmd.all.drop (i + 1) = cmds := by
  have hget : GpsCmd.all[i]? = some cmd := by
    rw [← Nat.add_zero i, ← List.getElem?_drop, h]
    rfl
  refine ⟨?_, ?_⟩
  · have hi : i < GpsCmd.all.length := by
      by_contra hge
      rw [List.getElem?_eq_none (Nat.le_of_not_lt hge)] at hget
      exact absurd hget.symm (Option.some_ne_none cmd)
    have hlen : GpsCmd.all.length = 4 := rfl
    rw [hlen] at hi
    interval_cases i <;> cases Option.some.inj hget <;> rfl
  · rw [← List.drop_drop, h, List.drop_one, List.tail_cons]

/-- **The loop over the names** stays inside its arrays, and does what it does by name. -/
lemma matchNames_refines (c : UInt8) {cmds : List GpsCmd} :
    ∀ {i fuel : ℕ} {gps : GpsCells}, GpsCmd.all.drop i = cmds → cmds.length < fuel →
      (∀ cmd : GpsCmd, i ≤ cmd.row → (gps.cnt cmd).toNat < 4) →
      (gps.gpsCmdState = .waitFinish → gps.gpsNumCmd.toNat < gpsCmdCount) →
      ∃ next, matchNames c fuel i gps = some next ∧ next.parser = matchCmds c cmds gps.parser ∧
        (next.gpsCmdState = .waitFinish → next.gpsNumCmd.toNat < gpsCmdCount) := by
  induction cmds with
  | nil =>
      intro i fuel gps hdrop hfuel _ hnum
      obtain ⟨fuel, rfl⟩ := Nat.exists_eq_succ_of_ne_zero (Nat.ne_of_gt hfuel)
      have hend : ¬ i < gpsCmdCount := by
        have hle := List.drop_eq_nil_iff.mp hdrop
        exact Nat.not_lt_of_le hle
      rw [matchNames, if_neg hend]
      exact ⟨gps, rfl, rfl, hnum⟩
  | cons cmd cmds ih =>
      intro i fuel gps hdrop hfuel hcnt hnum
      obtain ⟨rfl, hrest⟩ := row_of_drop hdrop
      obtain ⟨fuel, rfl⟩ := Nat.exists_eq_succ_of_ne_zero (Nat.ne_of_gt (Nat.zero_lt_of_lt hfuel))
      have hfuel' : cmds.length < fuel := Nat.lt_of_succ_lt_succ hfuel
      have hsmall : (gps.cnt cmd).toNat < 4 := hcnt cmd (Nat.le_refl _)
      have hnext : (gps.cnt cmd + 1).toNat = (gps.cnt cmd).toNat + 1 := by
        rw [UInt32.toNat_add]
        exact Nat.mod_eq_of_lt (by show (gps.cnt cmd).toNat + 1 < _; omega)
      -- what is left of the loop does not look at this counter
      have hothers : ∀ x, ∀ other : GpsCmd, (cmd.row : ℕ) + 1 ≤ other.row →
          ((gps.setCnt cmd x).cnt other).toNat < 4 := by
        intro x other hrow
        have hne : other ≠ cmd := by
          rintro rfl
          exact absurd hrow (Nat.not_succ_le_self _)
        rw [cnt_setCnt, update_of_ne hne]
        exact hcnt other (Nat.le_of_succ_le hrow)
      rw [matchNames, if_pos cmd.row_lt, cnt_eq, Option.bind_some,
        cmdInfoAt_row cmd (by rw [gpsCmdParserSize]; omega), Option.bind_some, matchCmds]
      by_cases hc : c = cmd.cmdInfo.getD (gps.cnt cmd).toNat 0
      · have hc' : c = cmd.cmdInfo.getD (gps.parser.gpsCmdCnt cmd) 0 := hc
        rw [if_pos hc, if_pos hc', store?_of_lt _ cmd.row_lt, Option.bind_some, hnext,
          cmdInfoAt_row cmd (by rw [gpsCmdParserSize]; omega), Option.bind_some]
        by_cases hdone : cmd.cmdInfo.getD ((gps.cnt cmd).toNat + 1) 0 = 0
        · -- the inner loop leaves `i` behind the last row
          obtain ⟨fuel, rfl⟩ := Nat.exists_eq_succ_of_ne_zero
            (Nat.ne_of_gt (Nat.zero_lt_of_lt hfuel'))
          have hend : ¬ 4 + 1 < gpsCmdCount := by decide
          rw [if_pos hdone, nameEnd_row, Option.bind_some, matchNames, if_neg hend]
          refine ⟨_, rfl, ?_, fun _ =>
            Nat.lt_of_le_of_lt (Nat.le_of_eq (row_toNat cmd)) cmd.row_lt⟩
          have hdone' : cmd.cmdInfo.getD
              (update gps.parser.gpsCmdCnt cmd (gps.parser.gpsCmdCnt cmd + 1) cmd) 0 = 0 := by
            rw [update_self]
            exact hdone
          rw [if_pos hdone']
          exact (parser_named (gps.setCnt cmd (gps.cnt cmd + 1)) cmd).trans (by
            rw [parser_setCnt, hnext]
            rfl)
        · rw [if_neg hdone]
          obtain ⟨next, hloop, hparser, hnum'⟩ :=
            ih hrest hfuel' (hothers (gps.cnt cmd + 1)) hnum
          refine ⟨next, hloop, ?_, hnum'⟩
          rw [hparser, parser_setCnt, hnext]
          simp only [update_self]
          rw [if_neg]
          · rfl
          · exact hdone
      · have hc' : ¬ c = cmd.cmdInfo.getD (gps.parser.gpsCmdCnt cmd) 0 := hc
        rw [if_neg hc, if_neg hc', store?_of_lt _ cmd.row_lt, Option.bind_some]
        obtain ⟨next, hloop, hparser, hnum'⟩ := ih hrest hfuel' (hothers 0) hnum
        refine ⟨next, hloop, ?_, hnum'⟩
        rw [hparser, parser_setCnt]
        rfl

end Names

/-! ## The parser -/

/-- The invariant on the arrays. -/
structure InRange (gps : GpsCells) : Prop where
  bounded : Bounded gps.parser
  num : gps.gpsCmdState = .waitFinish → gps.gpsNumCmd.toNat < gpsCmdCount

section Parser

variable {gps : GpsCells} {c : UInt8}

@[simp] lemma func_eq (cmd : GpsCmd) : func cmd = process cmd := by
  cases cmd <;> rfl

lemma all_numCmd (hnum : gps.gpsNumCmd.toNat < gpsCmdCount) :
    GpsCmd.all[gps.gpsNumCmd.toNat]? = some gps.parser.gpsNumCmd := by
  have hget : GpsCmd.all[gps.gpsNumCmd.toNat]? = some GpsCmd.all[gps.gpsNumCmd.toNat] :=
    List.getElem?_eq_getElem hnum
  rw [parser, hget, Option.getD_some]

lemma parser_count (hlen : gps.gpsCmdRecvLength.toNat < gpsMsgMaxSize) :
    { gps with gpsCmdRecvLength := gps.gpsCmdRecvLength + 1 }.parser
      = { gps.parser with gpsCmdRecvLength := gps.parser.gpsCmdRecvLength + 1 } := by
  have hnext : (gps.gpsCmdRecvLength + 1).toNat = gps.gpsCmdRecvLength.toNat + 1 := by
    rw [gpsMsgMaxSize] at hlen
    rw [UInt32.toNat_add]
    exact Nat.mod_eq_of_lt (by show gps.gpsCmdRecvLength.toNat + 1 < _; omega)
  simp only [parser, hnext]
  rfl

/-- **The end of a byte of a sentence**, which the handler has seen in range. -/
lemma waitFinish_refines (hlen : gps.gpsCmdRecvLength.toNat < gpsMsgMaxSize)
    (hnum : gps.gpsNumCmd.toNat < gpsCmdCount) :
    ∃ next, gps.waitFinish c
        = some ([⟨gps.gpsNumCmd.toNat, gps.gpsCmdRecvLength.toNat⟩], next) ∧
      next.parser = Ampm.waitFinish gps.parser c ∧ next.gpsNumCmd = gps.gpsNumCmd := by
  obtain ⟨⟨ret, behind⟩, hprocess, hret, hbehind, hrow⟩ :=
    process_refines gps.parser.gpsNumCmd c hlen
  have hlen' : behind.gpsCmdRecvLength.toNat < gpsMsgMaxSize := by
    have hsame : behind.parser.gpsCmdRecvLength = gps.parser.gpsCmdRecvLength := by
      rw [hbehind]
      exact (gpsProcess_same _ _ c).2.2.2.2
    exact Nat.lt_of_le_of_lt (Nat.le_of_eq hsame) hlen
  obtain ⟨ended, hended, hparser, hlen'', hrow'⟩ : ∃ ended,
      ended = (if ret = 0 then behind.finished else behind) ∧
      ended.parser = (if ret = 0 then behind.parser.finished else behind.parser) ∧
      ended.gpsCmdRecvLength.toNat < gpsMsgMaxSize ∧ ended.gpsNumCmd = behind.gpsNumCmd := by
    by_cases hzero : ret = 0
    · rw [if_pos hzero, if_pos hzero]
      exact ⟨_, rfl, parser_finished behind, hlen', rfl⟩
    · rw [if_neg hzero, if_neg hzero]
      exact ⟨_, rfl, rfl, hlen', rfl⟩
  have hcount := parser_count hlen''
  have hlong : (ended.gpsCmdRecvLength + 1).toNat = ended.parser.gpsCmdRecvLength + 1 :=
    congrArg GpsParser.gpsCmdRecvLength hcount
  rw [GpsCells.waitFinish, all_numCmd hnum, Option.bind_some, func_eq, hprocess, Option.map_some]
  simp only [← hended]
  refine ⟨_, rfl, ?_, ?_⟩
  · simp only at hret hbehind
    simp only [Ampm.waitFinish, GpsCmd.func_eq, ← hret, ← hbehind, ← hparser, ← hcount]
    by_cases hfull : gpsMsgMaxSize ≤ (ended.gpsCmdRecvLength + 1).toNat
    · have hfull' : ended.parser.gpsCmdRecvLength + 1 ≥ gpsMsgMaxSize := by rwa [← hlong]
      rw [if_pos hfull, if_pos hfull']
      exact parser_finished _
    · have hfull' : ¬ ended.parser.gpsCmdRecvLength + 1 ≥ gpsMsgMaxSize := by rwa [← hlong]
      rw [if_neg hfull, if_neg hfull']
  · split_ifs <;> exact hrow'.trans hrow

/-- A handler is called with a row of the table and with room in its buffer. -/
def CallInRange (call : HandlerCall) : Prop :=
  call.recvLength < gpsMsgMaxSize ∧ call.numCmd < gpsCmdCount

/-- **The parser** does on the arrays what it does by name, and keeps the invariant. -/
theorem comnandParser_refines (h : gps.InRange) (c : UInt8) :
    ∃ calls next, gps.comnandParser c = some (calls, next) ∧ (∀ call ∈ calls, CallInRange call) ∧
      next.InRange ∧ next.parser = gpsComnandParser gps.parser c := by
  suffices hres : ∃ calls next, gps.comnandParser c = some (calls, next) ∧
      (∀ call ∈ calls, CallInRange call) ∧ next.parser = gpsComnandParser gps.parser c ∧
      (next.gpsCmdState = .waitFinish → next.gpsNumCmd.toNat < gpsCmdCount) by
    obtain ⟨calls, next, hrun, hcalls, hparser, hnum⟩ := hres
    refine ⟨calls, next, hrun, hcalls, ⟨?_, hnum⟩, hparser⟩
    rw [hparser]
    exact h.bounded.comnandParser c
  obtain ⟨htrack, hrow⟩ := parser_trackCheckSum gps c
  obtain ⟨-, hlen, hsame, hcnt, -⟩ := trackCheckSum_same gps.parser c
  rw [← htrack] at hlen hsame hcnt
  have hstate' : (gps.trackCheckSum c).gpsCmdState = gps.gpsCmdState := hsame
  rcases hstate : gps.gpsCmdState with _ | _ | _
  · refine ⟨[], (gps.trackCheckSum c).finished, ?_, fun _ h => absurd h List.not_mem_nil, ?_,
      fun h => absurd h finish_ne_waitFinish⟩
    · rw [comnandParser, hstate'.trans hstate]
    · rw [parser_finished, gpsComnandParser, ← htrack, hsame.trans hstate]
  · -- the length and the row are in range, whatever the flag of the sentence is
    have hsmall : (gps.trackCheckSum c).gpsCmdRecvLength.toNat < gpsMsgMaxSize :=
      Nat.lt_of_le_of_lt (Nat.le_of_eq hlen) (h.bounded.len hstate)
    have hnum : (gps.trackCheckSum c).gpsNumCmd.toNat < gpsCmdCount := by
      rw [hrow]
      exact h.num hstate
    obtain ⟨next, hwait, hparser, hrow'⟩ := waitFinish_refines (c := c) hsmall hnum
    refine ⟨[⟨(gps.trackCheckSum c).gpsNumCmd.toNat,
      (gps.trackCheckSum c).gpsCmdRecvLength.toNat⟩], next, ?_, ?_, ?_, fun _ => ?_⟩
    · rw [comnandParser, hstate'.trans hstate]
      exact hwait
    · intro call hcall
      rw [List.mem_singleton.mp hcall]
      exact ⟨hsmall, hnum⟩
    · rw [hparser, htrack, gpsComnandParser_wait hstate]
    · rw [hrow']
      exact hnum
  · have hsmall : ∀ cmd : GpsCmd, 0 ≤ (cmd.row : ℕ) →
        ((gps.trackCheckSum c).cnt cmd).toNat < 4 := by
      intro cmd _
      have hcmd := h.bounded.cnt hstate cmd
      rw [cmd.cmdInfo_length, ← hcnt] at hcmd
      exact hcmd
    obtain ⟨next, hloop, hparser, hnum⟩ :=
      matchNames_refines c (show GpsCmd.all.drop 0 = GpsCmd.all from rfl)
        (show GpsCmd.all.length < gpsCmdCount + 1 by decide) hsmall
        fun hwait => absurd ((hstate'.trans hstate).symm.trans hwait) finish_ne_waitFinish
    refine ⟨[], next, ?_, fun _ h => absurd h List.not_mem_nil, ?_, hnum⟩
    · rw [comnandParser, hstate'.trans hstate]
      simp only [hloop, Option.map_some]
    · rw [hparser, htrack, gpsComnandParser_finish hstate]

/-- The parser and the tasks that clear the flags, on the arrays and by name. -/
lemma step_refines : Refines step gpsStep CallInRange
    fun gps r => gps.InRange ∧ gps.parser = r.gps := by
  rintro gps r ⟨h, hparser⟩ (c | cmd)
  · obtain ⟨calls, next, hrun, hcalls, hnext, hsame⟩ := comnandParser_refines h c
    refine ⟨calls, next, hrun, hcalls, hnext, ?_⟩
    rw [hsame, hparser, gpsStep]
  · have hclear := parser_setFlag gps cmd 0
    refine ⟨[], _, rfl, fun _ h => absurd h List.not_mem_nil, ⟨⟨?_, ?_⟩, h.num⟩, ?_⟩
    · rw [hclear]
      exact h.bounded.len
    · rw [hclear]
      exact h.bounded.cnt
    · rw [hclear, hparser, gpsStep]
      rfl

/-- `GPSInit` makes the invariant true, if the counters are zero. -/
lemma inRange_init (hcnt : ∀ cmd, gps.cnt cmd = 0) : gps.init.InRange := by
  refine ⟨⟨fun h => absurd h finish_ne_waitFinish, fun _ cmd => ?_⟩,
    fun h => absurd h finish_ne_waitFinish⟩
  have hzero : gps.init.parser.gpsCmdCnt cmd = 0 := congrArg UInt32.toNat (hcnt cmd)
  rw [hzero, cmd.cmdInfo_length]
  exact Nat.zero_lt_succ 3

end Parser

end GpsCells

/-! ## Every run -/

/-- **The buffers are never overrun.**  Behind `GPSInit`, with the counters at zero, every stream of
bytes and of flags that are cleared has a result: no access is out of range.  Each handler is called
with a row of the table and with room in its buffer, and while the parser looks for a name every
counter points into its name. -/
theorem gpsCells_inRange {gps : GpsCells} (hcnt : ∀ cmd, gps.cnt cmd = 0)
    (inputs : List GpsInput) :
    ∃ calls last, runLog GpsCells.step gps.init inputs = some (calls, last) ∧
      (∀ call ∈ calls, call.recvLength < gpsMsgMaxSize ∧ call.numCmd < gpsCmdCount) ∧
      (last.gpsCmdState = .finish →
        ∀ cmd : GpsCmd, (last.cnt cmd).toNat < cmd.cmdInfo.length) := by
  obtain ⟨calls, last, hrun, hcalls, hlast, -⟩ :=
    runLog_refines GpsCells.step_refines (t := (⟨gps.init.parser, []⟩ : GpsRun)) inputs
      ⟨GpsCells.inRange_init hcnt, rfl⟩
  exact ⟨calls, last, hrun, hcalls, hlast.bounded.cnt⟩

/-- The memory before `GPSInit`. -/
def gpsCellsReset : GpsCells where
  gpsCalcCheckSumFlag := 0
  gpsCheckSum := 0
  gpsCheckSumX := 0
  gpsGetCheckSumFlag := 0
  gotDataFlag := fun _ => 0
  buff := fun _ => Vector.replicate gpsMsgMaxSize 0
  gpsCmdCnt := Vector.replicate gpsCmdCount 0
  gpsNumCmd := 0
  gpsCmdRecvLength := 0
  gpsCmdState := .newState

lemma gpsCellsReset_cnt (cmd : GpsCmd) : gpsCellsReset.cnt cmd = 0 := by
  cases cmd <;> rfl

/-- `$GPRMC,A*26`. -/
theorem gpsCells_inRange_one :
    ∃ calls last, runLog GpsCells.step gpsCellsReset.init
        ((sentence (bytesOf "GP") .gprmc (bytesOf "A")).map .byte) = some (calls, last) ∧
      (∀ call ∈ calls, call.recvLength < gpsMsgMaxSize ∧ call.numCmd < gpsCmdCount) ∧
      (last.gpsCmdState = .finish →
        ∀ cmd : GpsCmd, (last.cnt cmd).toNat < cmd.cmdInfo.length) :=
  gpsCells_inRange gpsCellsReset_cnt _

/-- Its handler is called for `'A'`, for `'*'` and for both characters of the checksum. -/
example : (runLog GpsCells.step gpsCellsReset.init
    ((sentence (bytesOf "GP") .gprmc (bytesOf "A")).map .byte)).map (·.1)
      = some [⟨0, 0⟩, ⟨0, 1⟩, ⟨0, 2⟩, ⟨0, 3⟩] := by
  decide +kernel

end Ampm

import AmpmGsm.Gsm.StrSearch
import AmpmGsm.Lib.Runs
import Mathlib.Algebra.Group.Nat.Defs
import Mathlib.Algebra.GroupWithZero.Nat

/-!
# The counters of the string parser

`StrComnandParser` over whole runs: for every table of commands, every stream with its timestamps,
and every behaviour of the callbacks.  `lastChar` is shared by all parsers of the firmware, so that
a call may find any value in it.

* `StrTable` — a table of commands of at least two characters.
* `StrRun`, `strStep` — a parser with a record of the calls that each byte has led to.
* `CountersSound` — the counters stay inside their commands, and the callback is called with
  0, 1, 2 and so on.
* `strStep_keepsCounters` — what one byte keeps.
* `strParser_countersSound` — it holds throughout every run.
-/

namespace Ampm

open Runs

/-- The table of a parser: C strings, as many as the 8-bit counter admits. -/
structure StrTable where
  commands : List (List UInt8)
  few : commands.length < 2 ^ 8
  long : ∀ command ∈ commands, 2 ≤ command.length
  short : ∀ command ∈ commands, command.length < 2 ^ 8
  text : ∀ command ∈ commands, (0 : UInt8) ∉ command

/-- The callbacks, with a record of the command and the count of each call. -/
def recordCall {σ : Type*} (callback : ℕ → UInt16 → UInt8 → σ → UInt32 × σ) (i : ℕ) (cnt : UInt16)
    (c : UInt8) (w : σ × List (ℕ × ℕ)) : UInt32 × σ × List (ℕ × ℕ) :=
  let r := callback i cnt c w.1
  (r.1, r.2, w.2 ++ [(i, cnt.toNat)])

/-- A byte, the time at which it is handed to the parser, and the `lastChar` of that time. -/
structure StrCall where
  sysTimeMs : UInt32
  lastChar : UInt8
  c : UInt8

/-- A parser, the state its callbacks work on, and for each byte the calls that it led to, newest
first. -/
structure StrRun (σ : Type*) where
  inst : StrInstance
  world : σ
  calls : List (List (ℕ × ℕ))

section

variable {σ : Type*} (table : StrTable) (callback : ℕ → UInt16 → UInt8 → σ → UInt32 × σ)

/-- A parser after `StrParserInit`. -/
def strStart (s : StrInstance) (dataLengthMax : UInt16) (w : σ) : StrRun σ :=
  ⟨strParserInit s table.commands.length.toUInt8 dataLengthMax, w, []⟩

/-- One call of `StrComnandParser`. -/
def strStep (st : StrRun σ) (e : StrCall) : StrRun σ :=
  let r := strComnandParser e.sysTimeMs table.commands (recordCall callback) st.inst e.lastChar e.c
    (st.world, [])
  ⟨r.1, r.2.2.1, r.2.2.2 :: st.calls⟩

/-! ## What is expected of a run -/

/-- The calls of one byte after those of the byte before: none, the first call, or the next one for
the same command. -/
def CallFollows (before now : List (ℕ × ℕ)) : Prop :=
  now = [] ∨ (∃ i, now = [(i, 0)] ∧ before = []) ∨ ∃ i k, now = [(i, k + 1)] ∧ before = [(i, k)]

/-- The calls of all bytes, newest first, are made with the counts 0, 1, 2 and so on. -/
def Consecutive : List (List (ℕ × ℕ)) → Prop
  | [] => True
  | now :: before => CallFollows (before.headD []) now ∧ Consecutive before

/-- In `STR_FINISH` the counters are inside their commands. -/
def CountersInside (s : StrInstance) : Prop :=
  s.process.state = .finish → ∀ i < table.commands.length,
    (s.numCharParsed i).toNat < (table.commands.getD i []).length

/-- What is expected of every state, where `bound` is a bound for the counts.  The counters are
inside their commands also where the search reads them, which is after `StrParserCtl`. -/
structure CountersSound (bound : ℕ) (st : StrRun σ) : Prop where
  inside : CountersInside table st.inst
  insideAt : ∀ sysTimeMs, CountersInside table (strParserCtl sysTimeMs st.inst)
  valid : st.inst.process.state = .waitFinish →
    st.inst.process.strInProcess.toNat < table.commands.length
  consecutive : Consecutive st.calls
  below : ∀ calls ∈ st.calls, ∀ call ∈ calls, call.1 < table.commands.length ∧ call.2 < bound

/-! ## One byte -/

/-- What the parser keeps: besides, its size and bound are those it was set up with, and the length
of the data that it has recorded is tied to the last call. -/
structure KeepsCounters (dataLengthMax : UInt16) (st : StrRun σ) : Prop where
  cntMax : st.inst.process.strParserCntMax.toNat = table.commands.length
  maxLength : st.inst.process.dataRecvMaxLength = dataLengthMax
  inside : CountersInside table st.inst
  valid : st.inst.process.state = .waitFinish →
    st.inst.process.strInProcess.toNat < table.commands.length
  last : st.inst.process.state = .waitFinish →
    st.calls.headD [] = [] ∧ st.inst.process.dataRecvLength.toNat = 0 ∨
      ∃ k, st.calls.headD [] = [(st.inst.process.strInProcess.toNat, k)] ∧
        st.inst.process.dataRecvLength.toNat = k + 1 ∧ k + 1 < dataLengthMax.toNat
  consecutive : Consecutive st.calls
  below : ∀ calls ∈ st.calls, ∀ call ∈ calls,
    call.1 < table.commands.length ∧ call.2 < max dataLengthMax.toNat 1

variable {table callback}

lemma StrTable.two_le {i : ℕ} (hi : i < table.commands.length) :
    2 ≤ (table.commands.getD i []).length := by
  rw [List.getD_eq_getElem?_getD, List.getElem?_eq_getElem hi]
  exact table.long _ (List.getElem_mem hi)

/-- Counters that were cleared are inside their commands. -/
lemma countersInside_clearCounters {s : StrInstance}
    (hcnt : s.process.strParserCntMax.toNat = table.commands.length) :
    CountersInside table s.clearCounters := by
  intro _ i hi
  have htwo := table.two_le hi
  have hzero : s.clearCounters.numCharParsed i = 0 := if_pos (hcnt ▸ hi)
  rw [hzero]
  show 0 < _
  omega

/-- What `StrParserCtl` leaves: a parser that waits for data is as it was, and one that searches has
its counters inside the commands. -/
lemma strParserCtl_inside {s : StrInstance} (sysTimeMs : UInt32)
    (hcnt : s.process.strParserCntMax.toNat = table.commands.length)
    (hinside : CountersInside table s) :
    let s' := strParserCtl sysTimeMs s
    s'.process.strParserCntMax = s.process.strParserCntMax ∧
      s'.process.dataRecvMaxLength = s.process.dataRecvMaxLength ∧
      CountersInside table s' ∧ (s'.process.state ≠ .finish → s' = s) := by
  intro s'
  by_cases hfinish : s.process.state = .finish
  · have hs' : s' = { s with process := { s.process with timeout := sysTimeMs } } :=
      if_pos hfinish
    rw [hs']
    exact ⟨rfl, rfl, hinside, fun hne => absurd hfinish hne⟩
  · by_cases hover : sysTimeMs - s.process.timeout ≥ s.process.timeoutSet
    · have hs' : s' = StrInstance.clearCounters
          { s with process := { s.process with timeout := sysTimeMs, state := .finish } } := by
        simp only [s', strParserCtl, if_neg hfinish, if_pos hover]
      rw [hs']
      exact ⟨rfl, rfl, countersInside_clearCounters hcnt, fun hne => absurd rfl hne⟩
    · have hs' : s' = s := by
        simp only [s', strParserCtl, if_neg hfinish, if_neg hover]
      rw [hs']
      exact ⟨rfl, rfl, hinside, fun _ => rfl⟩

/-- What is expected of a state is part of what the parser keeps. -/
lemma KeepsCounters.sound {dataLengthMax : UInt16} {st : StrRun σ}
    (h : KeepsCounters table dataLengthMax st) :
    CountersSound table (max dataLengthMax.toNat 1) st where
  inside := h.inside
  insideAt sysTimeMs := (strParserCtl_inside sysTimeMs h.cntMax h.inside).2.2.1
  valid := h.valid
  consecutive := h.consecutive
  below := h.below

lemma strStart_keepsCounters (s : StrInstance) (dataLengthMax : UInt16) (w : σ) :
    KeepsCounters table dataLengthMax (strStart table s dataLengthMax w) := by
  have hcnt : (table.commands.length.toUInt8).toNat = table.commands.length :=
    UInt8.toNat_ofNat_of_lt' table.few
  exact {
    cntMax := hcnt
    maxLength := rfl
    inside := countersInside_clearCounters hcnt
    valid := nofun
    last := nofun
    consecutive := trivial
    below := nofun }

/-- The counter of a command that is not complete stays inside it. -/
lemma StrTable.count_lt {q : SearchByte} (hq : q.commands = table.commands) {i : ℕ}
    (hi : i < table.commands.length)
    (hinside : (q.num i).toNat < (table.commands.getD i []).length)
    (hcompletes : q.completes i = false) :
    (q.count i).toNat < (table.commands.getD i []).length := by
  have htwo := table.two_le hi
  have hshort : (table.commands.getD i []).length < 2 ^ 8 := by
    rw [List.getD_eq_getElem?_getD, List.getElem?_eq_getElem hi]
    exact table.short _ (List.getElem_mem hi)
  rw [SearchByte.count]
  split
  case isTrue hnext =>
    rw [SearchByte.completes, hnext, Bool.true_and, decide_eq_false_iff_not, hq] at hcompletes
    have hsucc : (q.num i + 1).toNat = (q.num i).toNat + 1 := by
      rw [UInt8.toNat_add]
      exact Nat.mod_eq_of_lt (Nat.lt_of_le_of_lt hinside hshort)
    by_contra hge
    refine hcompletes ?_
    rw [List.getD_eq_getElem?_getD, List.getElem?_eq_none (Nat.le_of_not_lt hge)]
    rfl
  case isFalse hnext =>
    split
    · exact htwo
    · exact Nat.lt_of_lt_of_le (Nat.zero_lt_succ 1) htwo

/-- What the search makes of a byte: a command is complete afterwards, or all counters are inside
their commands. -/
lemma strSearch_inside {s : StrInstance} (lastChar c : UInt8)
    (hcnt : s.process.strParserCntMax.toNat = table.commands.length)
    (hfinish : s.process.state = .finish) (hinside : CountersInside table s) :
    let r := (List.range s.process.strParserCntMax.toNat).foldl (strSearch table.commands c)
      (s, lastChar)
    r.1.process.strParserCntMax = s.process.strParserCntMax ∧
      r.1.process.dataRecvMaxLength = s.process.dataRecvMaxLength ∧
      CountersInside table r.1 ∧
      (r.1.process.state = .waitFinish → r.1.process.strInProcess.toNat < table.commands.length ∧
        r.1.process.dataRecvLength = 0) := by
  intro r
  obtain ⟨-, hnum, hprocess⟩ :=
    strSearch_fold table.commands c s lastChar s.process.strParserCntMax.toNat
  change ∀ i, r.1.numCharParsed i = _ at hnum
  change r.1.process = _ at hprocess
  rw [hcnt] at hnum hprocess
  cases hlast : lastIndex (SearchByte.completes ⟨table.commands, s.numCharParsed, lastChar, c⟩)
      table.commands.length with
  | none =>
      rw [hlast] at hprocess
      change r.1.process = s.process at hprocess
      rw [CountersInside, hprocess]
      refine ⟨rfl, rfl, fun _ i hi => ?_, fun hwait => absurd (hfinish.symm.trans hwait) (by decide)⟩
      rw [hnum, if_pos hi]
      exact StrTable.count_lt rfl hi (hinside hfinish i hi) (lastIndex_eq_none_iff.mp hlast i hi)
  | some i =>
      have hi := lastIndex_lt hlast
      have hvalid : (i.toUInt8).toNat = i :=
        UInt8.toNat_ofNat_of_lt' (Nat.lt_trans hi table.few)
      rw [hlast] at hprocess
      rw [CountersInside, hprocess]
      exact ⟨rfl, rfl, nofun, fun _ => ⟨hvalid.symm ▸ hi, rfl⟩⟩

/-- The parser after a call that returned `r`. -/
def StrInstance.called (s : StrInstance) (r : UInt32) : StrInstance :=
  let s := if r = 0 then (s.setState .finish).clearCounters else s
  let s := { s with
    process := { s.process with dataRecvLength := s.process.dataRecvLength + 1 } }
  if s.process.dataRecvLength ≥ s.process.dataRecvMaxLength then
    (s.setState .finish).clearCounters
  else s

/-- A call ends the data, or the parser waits for more and has counted the byte. -/
lemma called_cases (s : StrInstance) (r : UInt32)
    (hcnt : s.process.strParserCntMax.toNat = table.commands.length)
    (hwait : s.process.state = .waitFinish) :
    let s' := s.called r
    s'.process.strParserCntMax = s.process.strParserCntMax ∧
      s'.process.dataRecvMaxLength = s.process.dataRecvMaxLength ∧
      CountersInside table s' ∧
      (s'.process.state = .waitFinish →
        s'.process.strInProcess = s.process.strInProcess ∧
        s'.process.dataRecvLength = s.process.dataRecvLength + 1 ∧
        s.process.dataRecvLength + 1 < s.process.dataRecvMaxLength) := by
  intro s'
  by_cases hlong : s.process.dataRecvLength + 1 ≥ s.process.dataRecvMaxLength
  · by_cases hr : r = 0
    · have hs' : s' = ({ (s.setState .finish).clearCounters with
          process := { (s.setState .finish).clearCounters.process with
            dataRecvLength := s.process.dataRecvLength + 1 } }.setState .finish).clearCounters := by
        simp only [s', StrInstance.called, if_pos hr]
        exact if_pos hlong
      rw [hs']
      exact ⟨rfl, rfl, countersInside_clearCounters hcnt, nofun⟩
    · have hs' : s' = ({ s with
          process := { s.process with
            dataRecvLength := s.process.dataRecvLength + 1 } }.setState .finish).clearCounters := by
        simp only [s', StrInstance.called, if_neg hr]
        exact if_pos hlong
      rw [hs']
      exact ⟨rfl, rfl, countersInside_clearCounters hcnt, nofun⟩
  · by_cases hr : r = 0
    · have hs' : s' = { (s.setState .finish).clearCounters with
          process := { (s.setState .finish).clearCounters.process with
            dataRecvLength := s.process.dataRecvLength + 1 } } := by
        simp only [s', StrInstance.called, if_pos hr]
        exact if_neg hlong
      have hclear : CountersInside table (s.setState .finish).clearCounters :=
        countersInside_clearCounters hcnt
      rw [hs']
      exact ⟨rfl, rfl, hclear, nofun⟩
    · have hs' : s' = { s with
          process := { s.process with dataRecvLength := s.process.dataRecvLength + 1 } } := by
        simp only [s', StrInstance.called, if_neg hr]
        exact if_neg hlong
      rw [hs']
      exact ⟨rfl, rfl, fun hfinish => absurd (hwait.symm.trans hfinish) (by decide),
        fun _ => ⟨rfl, rfl, UInt16.not_le.mp hlong⟩⟩

section Byte

variable {dataLengthMax : UInt16} {st : StrRun σ}

/-- A byte that leads to no call. -/
lemma KeepsCounters.quiet (h : KeepsCounters table dataLengthMax st) {inst : StrInstance}
    (hcnt : inst.process.strParserCntMax.toNat = table.commands.length)
    (hmax : inst.process.dataRecvMaxLength = dataLengthMax) (hinside : CountersInside table inst)
    (hwait : inst.process.state = .waitFinish →
      inst.process.strInProcess.toNat < table.commands.length ∧ inst.process.dataRecvLength = 0) :
    KeepsCounters table dataLengthMax ⟨inst, st.world, [] :: st.calls⟩ where
  cntMax := hcnt
  maxLength := hmax
  inside := hinside
  valid hw := (hwait hw).1
  last hw := Or.inl ⟨rfl, congrArg UInt16.toNat (hwait hw).2⟩
  consecutive := ⟨Or.inl rfl, h.consecutive⟩
  below := by
    intro calls hcalls
    rcases List.mem_cons.mp hcalls with rfl | hcalls
    · exact nofun
    · exact h.below calls hcalls

/-- The length of the data that was recorded does not overflow with the next byte. -/
lemma KeepsCounters.length_succ (h : KeepsCounters table dataLengthMax st)
    (hstate : st.inst.process.state = .waitFinish) :
    (st.inst.process.dataRecvLength + 1).toNat = st.inst.process.dataRecvLength.toNat + 1 := by
  have hmax := dataLengthMax.toNat_lt
  rw [UInt16.toNat_add]
  refine Nat.mod_eq_of_lt ?_
  show st.inst.process.dataRecvLength.toNat + 1 < 2 ^ 16
  rcases h.last hstate with ⟨-, hzero⟩ | ⟨k, -, hsucc, hk⟩ <;> omega

/-- The call for a byte follows those for the byte before. -/
lemma KeepsCounters.callFollows (h : KeepsCounters table dataLengthMax st)
    (hstate : st.inst.process.state = .waitFinish) :
    CallFollows (st.calls.headD [])
      [(st.inst.process.strInProcess.toNat, st.inst.process.dataRecvLength.toNat)] := by
  rcases h.last hstate with ⟨hnone, hzero⟩ | ⟨k, hsome, hsucc, -⟩
  · exact Or.inr (Or.inl ⟨_, by rw [hzero], hnone⟩)
  · exact Or.inr (Or.inr ⟨_, k, by rw [hsucc], hsome⟩)

/-- A byte that is handed to the callback of the command, which returns `r`. -/
lemma KeepsCounters.called (h : KeepsCounters table dataLengthMax st)
    (hstate : st.inst.process.state = .waitFinish) (r : UInt32) (w : σ) :
    KeepsCounters table dataLengthMax ⟨st.inst.called r, w,
      [(st.inst.process.strInProcess.toNat, st.inst.process.dataRecvLength.toNat)] ::
        st.calls⟩ := by
  obtain ⟨hcnt, hmax, hinside, hwait⟩ := called_cases st.inst r h.cntMax hstate
  rw [h.maxLength] at hmax hwait
  have hvalid := h.valid hstate
  have hsucc := h.length_succ hstate
  exact {
    cntMax := (congrArg UInt8.toNat hcnt).trans h.cntMax
    maxLength := hmax
    inside := hinside
    valid := fun hw => (hwait hw).1 ▸ hvalid
    last := fun hw => by
      obtain ⟨hi, hlen, hlt⟩ := hwait hw
      rw [UInt16.lt_iff_toNat_lt, hsucc] at hlt
      exact Or.inr ⟨_, by rw [hi]; rfl, by rw [hlen, hsucc], hlt⟩
    consecutive := ⟨h.callFollows hstate, h.consecutive⟩
    below := by
      intro calls hcalls
      rcases List.mem_cons.mp hcalls with rfl | hcalls
      · intro call hcall
        rw [List.mem_singleton.mp hcall]
        refine ⟨hvalid, ?_⟩
        rcases h.last hstate with ⟨-, hzero⟩ | ⟨k, -, hsucc, hlt⟩ <;> omega
      · exact h.below calls hcalls }

/-- **What one byte keeps.** -/
theorem strStep_keepsCounters (h : KeepsCounters table dataLengthMax st) (e : StrCall) :
    KeepsCounters table dataLengthMax (strStep table callback st e) := by
  obtain ⟨hcnt, hmax, hinside, hsame⟩ := strParserCtl_inside e.sysTimeMs h.cntMax h.inside
  rw [h.maxLength] at hmax
  have hcnt' := (congrArg UInt8.toNat hcnt).trans h.cntMax
  cases hstate : (strParserCtl e.sysTimeMs st.inst).process.state with
  | finish =>
      obtain ⟨hcnt'', hmax', hinside', hwait⟩ :=
        strSearch_inside e.lastChar e.c hcnt' hstate hinside
      have hstep : strStep table callback st e =
          ⟨((List.range (strParserCtl e.sysTimeMs st.inst).process.strParserCntMax.toNat).foldl
            (strSearch table.commands e.c) (strParserCtl e.sysTimeMs st.inst, e.lastChar)).1,
            st.world, [] :: st.calls⟩ := by
        simp only [strStep, strComnandParser, hstate]
      rw [hstep]
      exact h.quiet ((congrArg UInt8.toNat hcnt'').trans hcnt') (hmax'.trans hmax) hinside' hwait
  | waitFinish =>
      have hinst := hsame (by rw [hstate]; decide)
      rw [hinst] at hstate
      let answer := callback st.inst.process.strInProcess.toNat st.inst.process.dataRecvLength e.c
        st.world
      have hstep : strStep table callback st e = ⟨st.inst.called answer.1, answer.2,
          [(st.inst.process.strInProcess.toNat, st.inst.process.dataRecvLength.toNat)] ::
            st.calls⟩ := by
        simp only [strStep, strComnandParser, hinst, hstate, recordCall, List.nil_append]
        rfl
      rw [hstep]
      exact h.called hstate answer.1 answer.2
  | newState =>
      have hstep : strStep table callback st e =
          ⟨((strParserCtl e.sysTimeMs st.inst).setState .finish).clearCounters, st.world,
            [] :: st.calls⟩ := by
        simp only [strStep, strComnandParser, hstate]
      rw [hstep]
      exact h.quiet hcnt' hmax (countersInside_clearCounters hcnt') nofun

end Byte

/-- **The counters of the string parser.**  For every table of commands of at least two characters,
every stream, every sequence of timestamps and every behaviour of the callbacks, in every state
after `StrParserInit`: a parser that searches has its counters inside the commands, one that waits
has a valid command, and the callback is called with 0, 1, 2 and so on, below `dataRecvMaxLength`, or
with 0 only if that is 0. -/
theorem strParser_countersSound (table : StrTable)
    (callback : ℕ → UInt16 → UInt8 → σ → UInt32 × σ) (s : StrInstance) (dataLengthMax : UInt16)
    (w : σ) (calls : List StrCall) :
    Throughout (strStep table callback) (CountersSound table (max dataLengthMax.toNat 1))
      (strStart table s dataLengthMax w) calls := by
  have hkeeps : Throughout (strStep table callback) (KeepsCounters table dataLengthMax)
      (strStart table s dataLengthMax w) calls :=
    throughout_of_stepsMeet (C := fun _ _ => True) (fun _ e h _ => strStep_keepsCounters h e)
      (strStart_keepsCounters s dataLengthMax w) (stepsMeet_of_mem fun _ _ _ => trivial)
  exact hkeeps.mono fun _ h => h.sound

/-! ### A parser set up for no data -/

/-- A table of one command. -/
def oneCommand : StrTable where
  commands := [[0x41, 0x42]]
  few := by decide
  long := by decide
  short := by decide
  text := by decide

/-- A parser set up for no data at all calls its callback all the same. -/
theorem strParser_calls_at_bound :
    ¬∀ (table : StrTable) (callback : ℕ → UInt16 → UInt8 → Unit → UInt32 × Unit) (s : StrInstance)
      (dataLengthMax : UInt16) (calls : List StrCall),
      Throughout (strStep table callback) (CountersSound table dataLengthMax.toNat)
        (strStart table s dataLengthMax ()) calls := by
  intro h
  have hlast := (h oneCommand (fun _ _ _ _ => (1, ())) ⟨⟨.finish, 0, 0, 0, 0, 0, 0⟩, fun _ => 0⟩ 0
    [⟨0, 0, 0x41⟩, ⟨0, 0x41, 0x42⟩, ⟨0, 0x42, 0x43⟩]).last
  have hcalls : (run (strStep oneCommand fun _ _ _ _ => (1, ()))
      (strStart oneCommand ⟨⟨.finish, 0, 0, 0, 0, 0, 0⟩, fun _ => 0⟩ 0 ())
      [⟨0, 0, 0x41⟩, ⟨0, 0x41, 0x42⟩, ⟨0, 0x42, 0x43⟩]).calls = [[(0, 0)], [], []] := by
    decide
  have hbelow := hlast.below
  rw [hcalls] at hbelow
  exact absurd (hbelow [(0, 0)] List.mem_cons_self (0, 0) List.mem_cons_self).2 (Nat.lt_irrefl 0)

end

end Ampm

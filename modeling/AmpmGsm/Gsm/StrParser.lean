import Mathlib.Logic.Function.Basic
import Mathlib.Data.Nat.Notation

/-!
# The string parser

`lib/sparser.c`: looks for several commands in a stream at once, and hands the bytes that follow
the one it found to the command's callback.

* `StrInstance` — one parser with its counters.
* `strParserInit`, `strParserCtl`, `strComnandParser` — the functions.
-/

namespace Ampm

/-- `STR_STATE_Type`. -/
inductive StrState
  | newState
  | waitFinish
  | finish
  deriving DecidableEq

/-- `STR_PARSER_Type`. -/
structure StrParser where
  state : StrState
  dataRecvLength : UInt16
  dataRecvMaxLength : UInt16
  strParserCntMax : UInt8
  strInProcess : UInt8
  timeout : UInt32
  timeoutSet : UInt32

/-- A parser and its array `numCharParsed`. -/
structure StrInstance where
  process : StrParser
  numCharParsed : ℕ → UInt8

/-- The loops that clear the counters. -/
def StrInstance.clearCounters (s : StrInstance) : StrInstance :=
  { s with
    numCharParsed := fun i => if i < s.process.strParserCntMax.toNat then 0 else s.numCharParsed i }

def StrInstance.setState (s : StrInstance) (state : StrState) : StrInstance :=
  { s with process := { s.process with state := state } }

/-- `StrParserInit`. -/
def strParserInit (s : StrInstance) (strParserCntMax : UInt8) (dataLengthMax : UInt16) :
    StrInstance :=
  StrInstance.clearCounters
    { s with
      process := { s.process with
        state := .finish
        dataRecvLength := 0
        strParserCntMax := strParserCntMax
        timeout := 0
        timeoutSet := 10000
        dataRecvMaxLength := dataLengthMax } }

/-- `StrParserCtl`. -/
def strParserCtl (sysTimeMs : UInt32) (s : StrInstance) : StrInstance :=
  if s.process.state = .finish then { s with process := { s.process with timeout := sysTimeMs } }
  else if sysTimeMs - s.process.timeout ≥ s.process.timeoutSet then
    StrInstance.clearCounters
      { s with process := { s.process with timeout := sysTimeMs, state := .finish } }
  else s

/-- The body of the search loop for the command `i`; `lastChar` is the function's static. -/
def strSearch (commands : List (List UInt8)) (c : UInt8) (s : StrInstance × UInt8) (i : ℕ) :
    StrInstance × UInt8 :=
  let command := commands.getD i []
  let cnt := s.1.numCharParsed i
  if c = command.getD cnt.toNat 0 ∨ command.getD cnt.toNat 0 = 9 then
    let num := Function.update s.1.numCharParsed i (cnt + 1)
    if command.getD (cnt + 1).toNat 0 = 0 then
      ({ numCharParsed := num
         process := { s.1.process with
           strInProcess := i.toUInt8, state := .waitFinish, dataRecvLength := 0 } }, c)
    else ({ s.1 with numCharParsed := num }, c)
  else if s.2 = command.getD 0 0 then
    ({ s.1 with numCharParsed := Function.update s.1.numCharParsed i 1 }, s.2)
  else ({ s.1 with numCharParsed := Function.update s.1.numCharParsed i 0 }, s.2)

/-- `StrComnandParser`, with the static `lastChar` and the state `w` that the callbacks work on.
`callback i cnt c` is the callback of the command `i`. -/
def strComnandParser {σ : Type*} (sysTimeMs : UInt32) (commands : List (List UInt8))
    (callback : ℕ → UInt16 → UInt8 → σ → UInt32 × σ) (s : StrInstance) (lastChar c : UInt8)
    (w : σ) : StrInstance × UInt8 × σ :=
  let s := strParserCtl sysTimeMs s
  match s.process.state with
  | .finish =>
      let r := (List.range s.process.strParserCntMax.toNat).foldl (strSearch commands c)
        (s, lastChar)
      (r.1, r.2, w)
  | .waitFinish =>
      let r := callback s.process.strInProcess.toNat s.process.dataRecvLength c w
      let s := if r.1 = 0 then (s.setState .finish).clearCounters else s
      let s := { s with
        process := { s.process with dataRecvLength := s.process.dataRecvLength + 1 } }
      let s :=
        if s.process.dataRecvLength ≥ s.process.dataRecvMaxLength then
          (s.setState .finish).clearCounters
        else s
      (s, lastChar, r.2)
  | .newState => ((s.setState .finish).clearCounters, lastChar, w)

/-- The callbacks' state is handed to one callback at most. -/
lemma strComnandParser_state {σ : Type*} (sysTimeMs : UInt32) (commands : List (List UInt8))
    (callback : ℕ → UInt16 → UInt8 → σ → UInt32 × σ) (s : StrInstance) (lastChar c : UInt8)
    (w : σ) :
    (strComnandParser sysTimeMs commands callback s lastChar c w).2.2 = w ∨
    ∃ i cnt, (strComnandParser sysTimeMs commands callback s lastChar c w).2.2 =
      (callback i cnt c w).2 := by
  unfold strComnandParser
  dsimp only
  cases (strParserCtl sysTimeMs s).process.state with
  | newState => exact Or.inl rfl
  | finish => exact Or.inl rfl
  | waitFinish => exact Or.inr ⟨_, _, rfl⟩

end Ampm

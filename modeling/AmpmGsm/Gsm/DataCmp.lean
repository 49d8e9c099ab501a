import Mathlib.Data.Nat.Notation
import Mathlib.Tactic.SplitIfs

/-!
# The response matcher

`lib/data_cmp.c`: looks for a string in a stream, a byte at a time.

* `bytesOf`, `cString` — the strings of the source as bytes.
* `initFindData`, `findData` — the two functions.
-/

namespace Ampm

/-- The bytes of a string literal. -/
def bytesOf (s : String) : List UInt8 := s.toList.map fun c => c.toNat.toUInt8

/-- A decimal digit. -/
def isDigit (c : UInt8) : Bool := 48 ≤ c && c ≤ 57

/-- `isspace`. -/
def isSpace (c : UInt8) : Bool := c = 32 || (9 ≤ c && c ≤ 13)

/-- The digits at the start of a string. -/
def leadingDigits (str : List UInt8) : ℕ :=
  (str.takeWhile isDigit).foldl (fun v c => 10 * v + (c.toNat - 48)) 0

/-- `%d` of a number that is not negative. -/
def decimal (n : ℕ) : List UInt8 := (Nat.toDigits 10 n).map fun c => c.toNat.toUInt8

/-- The string at the start of a buffer of `n` bytes. -/
def cString (buf : ℕ → UInt8) (n : ℕ) : List UInt8 :=
  ((List.range n).map buf).takeWhile fun c => c ≠ 0

/-- `COMPARE_TYPE`. -/
structure Compare where
  c : UInt8
  buff : List UInt8
  index : UInt8
  len : UInt8

/-- `InitFindData`. -/
def initFindData (data : List UInt8) : Compare :=
  { c := 0, buff := data, index := 0, len := data.length.toUInt8 }

/-- `FindData`: the return value, `0` for a match, and the matcher. -/
def findData (cmpData : Compare) (c : UInt8) : UInt8 × Compare :=
  let cmpData :=
    if cmpData.buff.getD cmpData.index.toNat 0 = c then
      { cmpData with c := c, index := cmpData.index + 1 }
    else if cmpData.c = cmpData.buff.getD 0 0 then { cmpData with index := 1 }
    else { cmpData with index := 0 }
  if cmpData.index ≥ cmpData.len then (0, { cmpData with c := 0 }) else (0xff, cmpData)

end Ampm

import AmpmGsm.Gps.Fields
import Mathlib.Algebra.GroupWithZero.Nat
import Mathlib.Order.Nat
import Mathlib.Data.Nat.Find

/-!
# The time of a sentence

`gps/ampm_gps.c`: `nmea_parse_GPRMC` and `nmea_parse_GPGGA` let `nmea_scanf` copy the first field of
a sentence into 16 bytes of the stack.  The scan does not know the size, and it copies nothing if
the field is empty.

* `timeBuffBehind` — the bytes of `time_buff` that a scan writes.
* `TimeHandled` — what is asked of a sentence.
* **`timeHandled_iff`** — the exact condition for both functions.
* `nmeaParseGprmc_stack`, `nmeaParseGpgga_stack` — only then is the result independent of what the
  stack holds.
-/

namespace Ampm

/-! ## The property -/

/-- The bytes of `time_buff` that were written, by their index; it has 16. -/
abbrev TimeBuff := ℕ → Option UInt8

/-- `memcpy` of a field, and the NUL behind it; nothing is done with an empty one. -/
def timeBuffStore (field : List UInt8) : TimeBuff := fun k =>
  if field = [] then none
  else if k < field.length then field[k]?
  else if k = field.length then some 0
  else none

/-- What a scan writes: `time_buff` is the argument of its first conversion. -/
def timeBuffBehind (tokens : List (UInt8 × List UInt8)) : TimeBuff :=
  match tokens.head? with
  | some token => timeBuffStore token.2
  | none => fun _ => none

/-- Nothing is written behind the 16 bytes. -/
def WrittenWithin (cells : TimeBuff) : Prop := ∀ k, cells k ≠ none → k < 16

/-- The bytes up to a NUL, the NUL included, were written. -/
def WrittenString (cells : TimeBuff) : Prop :=
  ∃ n, cells n = some 0 ∧ ∀ k < n, ∃ c, cells k = some c ∧ c ≠ 0

/-- What is asked of a scan: it writes at most 16 bytes, and if its number of conversions is
accepted then `strlen` and `_nmea_parse_time` find a string that it has written. -/
def TimeHandled (accepted : ℕ → Prop) (tokens : List (UInt8 × List UInt8)) : Prop :=
  WrittenWithin (timeBuffBehind tokens) ∧
    (accepted tokens.length → WrittenString (timeBuffBehind tokens))

/-! ## What is written -/

lemma writtenWithin_iff (field : List UInt8) :
    WrittenWithin (timeBuffStore field) ↔ field.length ≤ 15 := by
  constructor
  · intro h
    by_cases hnone : field = []
    · rw [hnone]
      exact Nat.zero_le 15
    · have hlast : timeBuffStore field field.length ≠ none := by
        unfold timeBuffStore
        rw [if_neg hnone, if_neg (Nat.lt_irrefl _), if_pos rfl]
        exact Option.some_ne_none 0
      exact Nat.le_of_lt_succ (h _ hlast)
  · intro h k hk
    unfold timeBuffStore at hk
    split_ifs at hk
    · exact absurd rfl hk
    · omega
    · omega
    · exact absurd rfl hk

lemma writtenString_iff (field : List UInt8) :
    WrittenString (timeBuffStore field) ↔ field ≠ [] := by
  constructor
  · rintro ⟨n, hn, -⟩ hnone
    rw [timeBuffStore, if_pos hnone] at hn
    exact Option.some_ne_none 0 hn.symm
  · intro hfield
    have hex : ∃ n, timeBuffStore field n = some 0 := by
      refine ⟨field.length, ?_⟩
      rw [timeBuffStore, if_neg hfield, if_neg (Nat.lt_irrefl _), if_pos rfl]
    refine ⟨Nat.find hex, Nat.find_spec hex, fun k hk => ?_⟩
    have hle : Nat.find hex ≤ field.length := Nat.find_min' hex (by
      rw [timeBuffStore, if_neg hfield, if_neg (Nat.lt_irrefl _), if_pos rfl])
    have hlt : k < field.length := Nat.lt_of_lt_of_le hk hle
    have hcell : timeBuffStore field k = some field[k] := by
      rw [timeBuffStore, if_neg hfield, if_pos hlt, List.getElem?_eq_getElem hlt]
    exact ⟨field[k], hcell, fun hzero => Nat.find_min hex hk (hzero ▸ hcell)⟩

/-! ## The main result -/

/-- The first conversion of a scan. -/
lemma timeBuffBehind_eq (format buff : List UInt8) :
    timeBuffBehind (nmeaScanf (37 :: 115 :: 44 :: format) none buff) =
      timeBuffStore (firstField buff) := by
  by_cases hbuff : buff = []
  · rw [hbuff]
    rfl
  · rw [nmeaScanf_field (by decide) (by decide) (by decide) _ hbuff]
    rfl

lemma timeHandled_of_accepted {accepted : ℕ → Prop} {tokens : List (UInt8 × List UInt8)}
    {buff : List UInt8} {kinds : List FieldKind}
    (hbehind : timeBuffBehind tokens = timeBuffStore (firstField buff))
    (haccepted : accepted tokens.length ↔ complete kinds buff = true) :
    TimeHandled accepted tokens ↔
      (firstField buff).length ≤ 15 ∧ (firstField buff = [] → complete kinds buff = false) := by
  rw [TimeHandled, hbehind, writtenWithin_iff, writtenString_iff, haccepted, Ne, imp_not_comm,
    Bool.not_eq_true]

/-- **The time of a sentence**: at most 16 bytes of `time_buff` are written, and only what was
written is read, exactly if the first field has 15 bytes at most, and one at least where the
sentence is complete. -/
theorem timeHandled_iff (buff : List UInt8) :
    (TimeHandled (fun nsen => ¬ (nsen ≠ 13 ∧ nsen ≠ 14)) (gprmcTokens buff) ↔
      (firstField buff).length ≤ 15 ∧
        (firstField buff = [] → complete gprmcFields buff = false)) ∧
    (TimeHandled (fun nsen => ¬ nsen ≠ 14) (gpggaTokens buff) ↔
      (firstField buff).length ≤ 15 ∧
        (firstField buff = [] → complete gpggaFields buff = false)) :=
  ⟨timeHandled_of_accepted (timeBuffBehind_eq _ buff) (gprmc_accepted_iff buff),
    timeHandled_of_accepted (timeBuffBehind_eq _ buff) (gpgga_accepted_iff buff)⟩

/-- Before the first fix a receiver leaves the time empty, and the sentence is complete. -/
theorem timeHandled_noFix : ¬ ∀ buff : List UInt8, buff.length = 80 →
    TimeHandled (fun nsen => ¬ (nsen ≠ 13 ∧ nsen ≠ 14)) (gprmcTokens buff) ∧
      TimeHandled (fun nsen => ¬ nsen ≠ 14) (gpggaTokens buff) := by
  intro h
  obtain ⟨-, -, hread⟩ := h (bytesOf ",,,,,0,00,99.99,,,,,,*48" ++ List.replicate 56 0)
    (by decide +kernel)
  obtain ⟨n, hn, -⟩ := hread (by decide +kernel)
  exact Option.some_ne_none 0 hn.symm

/-! ## The stack -/

section Stack

variable {P : Type}

/-- If a string is written, then what the stack held in front of it is of no account. -/
lemma fillTargets_stack {tokens : List (UInt8 × List UInt8)}
    (hstring : WrittenString (timeBuffBehind tokens))
    (targets : List (List UInt8 → P × Option (List UInt8) → P × Option (List UInt8))) (p : P)
    (stack stack' : Option (List UInt8)) :
    fillTargets (timeTarget :: targets) tokens (p, stack) =
      fillTargets (timeTarget :: targets) tokens (p, stack') := by
  cases tokens with
  | nil =>
      obtain ⟨n, hn, -⟩ := hstring
      exact absurd hn.symm (Option.some_ne_none 0)
  | cons token tokens =>
      have hfield : token.2 ≠ [] := (writtenString_iff token.2).mp hstring
      have hfirst : ∀ stack, fillTargets (timeTarget :: targets) (token :: tokens) (p, stack) =
          fillTargets targets tokens (if token.2 = [] then (p, stack)
            else timeTarget token.2 (p, stack)) := fun _ => rfl
      rw [hfirst, hfirst, if_neg hfield, if_neg hfield]
      rfl

variable {D : Type} (ops : Doubles D) {buff : List UInt8}

/-- The packet of an accepted RMC sentence does not depend on the stack. -/
theorem nmeaParseGprmc_stack (hstring : WrittenString (timeBuffBehind (gprmcTokens buff)))
    (stack stack' : List UInt8) :
    nmeaParseGprmc ops stack buff = nmeaParseGprmc ops stack' buff := by
  have hfill := fillTargets_stack hstring (gprmcTargets ops).tail (nmeaGprmcZero ops) (some stack)
    (some stack')
  unfold nmeaParseGprmc
  dsimp only
  rw [show fillTargets (gprmcTargets ops) (nmeaScanf _ none buff) (nmeaGprmcZero ops, some stack) = _
    from hfill]
  rfl

/-- The packet of an accepted GGA sentence does not depend on the stack. -/
theorem nmeaParseGpgga_stack (hstring : WrittenString (timeBuffBehind (gpggaTokens buff)))
    (stack stack' : List UInt8) :
    nmeaParseGpgga ops stack buff = nmeaParseGpgga ops stack' buff := by
  have hfill := fillTargets_stack hstring (gpggaTargets ops).tail (nmeaGpggaZero ops) (some stack)
    (some stack')
  unfold nmeaParseGpgga
  dsimp only
  rw [show fillTargets (gpggaTargets ops) (nmeaScanf _ none buff) (nmeaGpggaZero ops, some stack) = _
    from hfill]
  rfl

end Stack

end Ampm

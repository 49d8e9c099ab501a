import AmpmGsm.Gsm.StrParser
import Mathlib.Data.List.Basic
import Mathlib.Tactic.SplitIfs

/-!
# One byte of the string parser's search

`StrComnandParser` in `STR_FINISH`: the loop over the commands, each with its own counter, and all
of them with one `lastChar`.

* `SearchByte` — what the loop starts from.
* `SearchByte.isNext`, `SearchByte.last`, `SearchByte.count`, `SearchByte.completes` — what it makes
  of one command.
* `lastIndex` — the last of several commands.
* `strSearch_fold` — what it makes of them all.
-/

namespace Ampm

/-- The last index below `n` with the property. -/
def lastIndex (p : ℕ → Bool) : ℕ → Option ℕ
  | 0 => none
  | n + 1 => if p n then some n else lastIndex p n

lemma lastIndex_congr {p q : ℕ → Bool} :
    ∀ {n : ℕ}, (∀ i < n, p i = q i) → lastIndex p n = lastIndex q n
  | 0, _ => rfl
  | n + 1, h => by
      rw [lastIndex, lastIndex, h n (Nat.lt_succ_self n),
        lastIndex_congr fun i hi => h i (Nat.lt_succ_of_lt hi)]

lemma lastIndex_eq_none_iff {p : ℕ → Bool} :
    ∀ {n : ℕ}, lastIndex p n = none ↔ ∀ i < n, p i = false
  | 0 => by simp [lastIndex]
  | n + 1 => by
      rw [lastIndex]
      split_ifs with h
      · simp only [false_iff, not_forall]
        exact ⟨n, Nat.lt_succ_self n, by simp [h]⟩
      · rw [lastIndex_eq_none_iff]
        constructor
        · intro hall i hi
          rcases Nat.lt_succ_iff_lt_or_eq.mp hi with hlt | rfl
          · exact hall i hlt
          · exact Bool.not_eq_true _ ▸ h
        · exact fun hall i hi => hall i (Nat.lt_succ_of_lt hi)

lemma lastIndex_lt {p : ℕ → Bool} : ∀ {n i : ℕ}, lastIndex p n = some i → i < n
  | 0, _, h => absurd h (Option.some_ne_none _).symm
  | n + 1, i, h => by
      rw [lastIndex] at h
      split_ifs at h
      · rw [← Option.some.inj h]
        exact Nat.lt_succ_self n
      · exact Nat.lt_succ_of_lt (lastIndex_lt h)

/-- What the search starts from at a byte. -/
structure SearchByte where
  commands : List (List UInt8)
  num : ℕ → UInt8
  lastChar : UInt8
  c : UInt8

namespace SearchByte

variable (q : SearchByte)

/-- The byte is the next one of the command `i`. -/
def isNext (i : ℕ) : Bool :=
  q.c = (q.commands.getD i []).getD (q.num i).toNat 0 ||
    (q.commands.getD i []).getD (q.num i).toNat 0 = 9

/-- `lastChar` when the loop comes to the command `n`. -/
def last : ℕ → UInt8
  | 0 => q.lastChar
  | n + 1 => if q.isNext n then q.c else last n

/-- The counter of the command `i` afterwards. -/
def count (i : ℕ) : UInt8 :=
  if q.isNext i then q.num i + 1
  else if q.last i = (q.commands.getD i []).getD 0 0 then 1 else 0

/-- The byte is the last one of the command `i`. -/
def completes (i : ℕ) : Bool :=
  q.isNext i && (q.commands.getD i []).getD (q.num i + 1).toNat 0 = 0

end SearchByte

/-- The loop over the first `n` commands. -/
lemma strSearch_fold (commands : List (List UInt8)) (c : UInt8) (s : StrInstance)
    (lastChar : UInt8) (n : ℕ) :
    let q : SearchByte := ⟨commands, s.numCharParsed, lastChar, c⟩
    let r := (List.range n).foldl (strSearch commands c) (s, lastChar)
    r.2 = q.last n ∧
      (∀ i, r.1.numCharParsed i = if i < n then q.count i else s.numCharParsed i) ∧
      r.1.process = match lastIndex q.completes n with
        | some i => { s.process with
            strInProcess := i.toUInt8, state := .waitFinish, dataRecvLength := 0 }
        | none => s.process := by
  intro q
  induction n with
  | zero => exact ⟨rfl, fun i => rfl, rfl⟩
  | succ n ih =>
      rw [List.range_succ, List.foldl_append, List.foldl_cons, List.foldl_nil]
      generalize (List.range n).foldl (strSearch commands c) (s, lastChar) = r at ih
      obtain ⟨hlast, hnum, hprocess⟩ := ih
      have hown : r.1.numCharParsed n = q.num n := by
        rw [hnum, if_neg (Nat.lt_irrefl n)]
      have hisNext : (c = (commands.getD n []).getD (r.1.numCharParsed n).toNat 0 ∨
          (commands.getD n []).getD (r.1.numCharParsed n).toNat 0 = 9) ↔ q.isNext n = true := by
        rw [hown, SearchByte.isNext, Bool.or_eq_true, decide_eq_true_iff, decide_eq_true_iff]
      have hcount : ∀ (x : UInt8), q.count n = x → ∀ i,
          Function.update r.1.numCharParsed n x i =
            if i < n + 1 then q.count i else s.numCharParsed i := by
        rintro _ rfl i
        rcases Nat.lt_trichotomy i n with hlt | rfl | hgt
        · rw [Function.update_of_ne (Nat.ne_of_lt hlt), hnum, if_pos hlt,
            if_pos (Nat.lt_succ_of_lt hlt)]
        · rw [Function.update_self, if_pos (Nat.lt_succ_self i)]
        · rw [Function.update_of_ne (Nat.ne_of_gt hgt), hnum, if_neg (Nat.lt_asymm hgt),
            if_neg (Nat.not_lt.mpr hgt)]
      simp only [strSearch, hisNext]
      by_cases hnext : q.isNext n = true
      · have hlast' : q.last (n + 1) = c := by rw [SearchByte.last, if_pos hnext]
        have hcnt : q.count n = r.1.numCharParsed n + 1 := by
          rw [SearchByte.count, if_pos hnext, hown]
        rw [if_pos hnext, lastIndex]
        by_cases hend : (commands.getD n []).getD (r.1.numCharParsed n + 1).toNat 0 = 0
        · have hcompletes : q.completes n = true := by
            rw [SearchByte.completes, hnext, Bool.true_and, decide_eq_true_iff, ← hown]
            exact hend
          rw [if_pos hend, if_pos hcompletes]
          refine ⟨hlast'.symm, hcount _ hcnt, ?_⟩
          simp only [hprocess]
          cases lastIndex q.completes n <;> rfl
        · have hcompletes : ¬ q.completes n = true := by
            rw [SearchByte.completes, hnext, Bool.true_and, decide_eq_true_iff, ← hown]
            exact hend
          rw [if_neg hend, if_neg hcompletes]
          exact ⟨hlast'.symm, hcount _ hcnt, hprocess⟩
      · have hlast' : q.last (n + 1) = r.2 := by rw [SearchByte.last, if_neg hnext, hlast]
        have hcompletes : ¬ q.completes n = true := by
          rw [SearchByte.completes, Bool.and_eq_true_iff]
          exact fun h => hnext h.1
        rw [if_neg hnext, lastIndex, if_neg hcompletes]
        by_cases hfirst : r.2 = (commands.getD n []).getD 0 0
        · rw [if_pos hfirst]
          refine ⟨hlast'.symm, hcount 1 ?_, hprocess⟩
          rw [SearchByte.count, if_neg hnext, if_pos (hlast ▸ hfirst)]
        · rw [if_neg hfirst]
          refine ⟨hlast'.symm, hcount 0 ?_, hprocess⟩
          rw [SearchByte.count, if_neg hnext, if_neg (hlast ▸ hfirst)]

end Ampm

import AmpmGsm.Gsm.StrParser
import Mathlib.Tactic.SplitIfs

/-!
# Which callback a byte goes to

`lib/sparser.c`: between the byte that completes a command and the one at which its callback
returns 0, every byte goes to that callback, with counts from 0 on.

* `strDispatch` — the callback that a byte goes to, and its count.
* `strComnandParser_dispatch` — what the byte does to the callbacks' state.
* **`strComnandParser_waits`** — how the parser comes to wait for bytes.
-/

namespace Ampm

/-- The command whose callback gets the next byte, and the count that it gets with it. -/
def strDispatch (sysTimeMs : UInt32) (s : StrInstance) : Option (ℕ × UInt16) :=
  if (strParserCtl sysTimeMs s).process.state = .waitFinish then
    some (s.process.strInProcess.toNat, s.process.dataRecvLength)
  else none

section Dispatch

variable {σ : Type*} (sysTimeMs : UInt32) (commands : List (List UInt8))
  (callback : ℕ → UInt16 → UInt8 → σ → UInt32 × σ) (s : StrInstance) (lastChar c : UInt8) (w : σ)

/-- A time-out changes the state at most. -/
lemma strParserCtl_eq : (strParserCtl sysTimeMs s).process.strInProcess = s.process.strInProcess ∧
    (strParserCtl sysTimeMs s).process.dataRecvLength = s.process.dataRecvLength ∧
    ((strParserCtl sysTimeMs s).process.state = .waitFinish → s.process.state = .waitFinish) := by
  unfold strParserCtl
  split_ifs
  · exact ⟨rfl, rfl, id⟩
  · exact ⟨rfl, rfl, nofun⟩
  · exact ⟨rfl, rfl, id⟩

/-- Only the callback that the byte goes to works on the state. -/
lemma strComnandParser_dispatch :
    (strComnandParser sysTimeMs commands callback s lastChar c w).2.2 =
      match strDispatch sysTimeMs s with
      | none => w
      | some (i, cnt) => (callback i cnt c w).2 := by
  obtain ⟨hprocess, hlength, -⟩ := strParserCtl_eq sysTimeMs s
  unfold strComnandParser strDispatch
  dsimp only
  cases hstate : (strParserCtl sysTimeMs s).process.state with
  | newState => rfl
  | finish => rfl
  | waitFinish =>
      rw [if_pos rfl, hprocess, hlength]

/-- A search that finds something begins to wait with the count 0. -/
lemma strSearch_waits {q : StrInstance × UInt8} (i : ℕ)
    (h : q.1.process.state = .waitFinish → q.1.process.dataRecvLength = 0) :
    (strSearch commands c q i).1.process.state = .waitFinish →
      (strSearch commands c q i).1.process.dataRecvLength = 0 := by
  unfold strSearch
  dsimp only
  split_ifs
  · exact fun _ => rfl
  · exact h
  · exact h
  · exact h

lemma strSearch_foldl_waits (is : List ℕ) {q : StrInstance × UInt8}
    (h : q.1.process.state = .waitFinish → q.1.process.dataRecvLength = 0) :
    (is.foldl (strSearch commands c) q).1.process.state = .waitFinish →
      (is.foldl (strSearch commands c) q).1.process.dataRecvLength = 0 := by
  induction is generalizing q with
  | nil => exact h
  | cons i is ih => exact ih (strSearch_waits commands c i h)

/-- **The parser waits** because it has just found a command, or because it was waiting and the
callback has asked for more. -/
theorem strComnandParser_waits
    (h : (strComnandParser sysTimeMs commands callback s lastChar c w).1.process.state =
      .waitFinish) :
    (strComnandParser sysTimeMs commands callback s lastChar c w).1.process.dataRecvLength = 0 ∨
      ∃ i cnt, strDispatch sysTimeMs s = some (i, cnt) ∧ (callback i cnt c w).1 ≠ 0 ∧
        (strComnandParser sysTimeMs commands callback s lastChar c
          w).1.process.strInProcess.toNat = i ∧
        (strComnandParser sysTimeMs commands callback s lastChar c w).1.process.dataRecvLength =
          cnt + 1 := by
  obtain ⟨hprocess, hlength, -⟩ := strParserCtl_eq sysTimeMs s
  unfold strComnandParser strDispatch at *
  dsimp only at *
  generalize strParserCtl sysTimeMs s = s' at hprocess hlength h ⊢
  cases hstate : s'.process.state with
  | newState =>
      rw [hstate] at h
      cases h
  | finish =>
      rw [hstate] at h
      refine Or.inl (strSearch_foldl_waits commands c _ (fun hwait => ?_) h)
      rw [hstate] at hwait
      cases hwait
  | waitFinish =>
      rw [hstate] at h
      dsimp only at h ⊢
      rw [hprocess, hlength] at h ⊢
      rw [if_pos rfl]
      refine Or.inr ⟨_, _, rfl, ?_⟩
      by_cases hzero : (callback s.process.strInProcess.toNat s.process.dataRecvLength c w).1 = 0
      · rw [if_pos hzero] at h
        split_ifs at h
        · cases h
        · cases h
      · rw [if_neg hzero] at h ⊢
        split_ifs at h ⊢ with hmax
        · cases h
        · refine ⟨hzero, ?_, ?_⟩
          · exact congrArg UInt8.toNat hprocess
          · exact congrArg (· + 1) hlength

end Dispatch

end Ampm

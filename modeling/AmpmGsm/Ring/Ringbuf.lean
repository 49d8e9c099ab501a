import AmpmGsm.Lib.BoundedFifo
import AmpmGsm.Lib.CircularWindow
import Mathlib.Data.Int.Notation

/-!
# The byte ring buffer

`lib/ringbuf.c`: the queue under every serial port and under the SMS index and packet queues.  One
cell of the buffer stays free, so a ring of `size` cells holds at most `size - 1` bytes.

* `ringbufInit`, `ringbufPut`, `ringbufGet`, `ringbufGetFill` — the four functions as the code
  computes them, on raw head and tail indices.
* `ValidRingbuf` — rings whose indices are in range; every function keeps them so.
* `ValidRingbuf.toFifo` — the abstraction: the bytes between tail and head.
* `ringbuf_refines_boundedFifo` — the ring *is* a FIFO queue of capacity `size - 1`.
-/

namespace Ampm

open CircularWindow

/-! ## The code -/

/-- `RINGBUF`.  `pt` is the caller's buffer, as the map from an index to the byte stored there. -/
structure Ringbuf where
  head : ℕ
  tail : ℕ
  size : ℕ
  pt : ℕ → UInt8

/-- A `uint32_t` value returned as `int32_t`. -/
def toInt32 (n : ℕ) : ℤ := (BitVec.ofNat 32 n).toInt

/-- `RINGBUF_Init`.  `none` is the buffer pointer `NULL`; a refused call leaves `r` as it was. -/
def ringbufInit (r : Ringbuf) (buf : Option (ℕ → UInt8)) (size : ℕ) : ℤ × Ringbuf :=
  match buf with
  | none => (-1, r)
  | some pt => if size < 2 then (-1, r) else (0, ⟨0, 0, size, pt⟩)

/-- `RINGBUF_Put`. -/
def ringbufPut (r : Ringbuf) (c : UInt8) : ℤ × Ringbuf :=
  let temp := (r.head + 1) % 2 ^ 32
  let temp := if temp ≥ r.size then 0 else temp
  if temp = r.tail then (-1, r)
  else (0, { r with pt := Function.update r.pt r.head c, head := temp })

/-- `RINGBUF_Get`: the return code, the byte stored through `c` if one was, and the ring. -/
def ringbufGet (r : Ringbuf) : ℤ × Option UInt8 × Ringbuf :=
  if r.tail = r.head then (-1, none, r)
  else
    let c := r.pt r.tail
    let tail := (r.tail + 1) % 2 ^ 32
    let tail := if tail ≥ r.size then 0 else tail
    (0, some c, { r with tail := tail })

/-- `RINGBUF_GetFill`. -/
def ringbufGetFill (r : Ringbuf) : ℤ :=
  if r.head ≥ r.tail then toInt32 (r.head - r.tail)
  else toInt32 (r.size - r.tail + r.head)

lemma toInt32_eq {n : ℕ} (h : n < 2 ^ 31) : toInt32 n = n := by
  have hmod : n % 2 ^ 32 = n := Nat.mod_eq_of_lt (by omega)
  rw [toInt32, BitVec.toInt_eq_toNat_of_lt (by rw [BitVec.toNat_ofNat, hmod]; omega),
    BitVec.toNat_ofNat, hmod]

/-! ## Rings whose indices are in range -/

/-- The bytes between tail and head, oldest first. -/
def Ringbuf.contents (r : Ringbuf) : List UInt8 :=
  window r.pt r.size r.tail (distance r.size r.tail r.head)

/-- A ring as `RINGBUF_Init` leaves it and the other functions keep it. -/
structure ValidRingbuf extends Ringbuf where
  two_le_size : 2 ≤ size
  size_lt : size < 2 ^ 32
  head_lt : head < size
  tail_lt : tail < size

namespace ValidRingbuf

/-- The ring a successful `RINGBUF_Init` makes. -/
def init (buf : ℕ → UInt8) (n : ℕ) (hn : 2 ≤ n) (hn' : n < 2 ^ 32) : ValidRingbuf where
  head := 0
  tail := 0
  size := n
  pt := buf
  two_le_size := hn
  size_lt := hn'
  head_lt := by omega
  tail_lt := by omega

lemma ringbufInit_eq (r : Ringbuf) (buf : ℕ → UInt8) (n : ℕ) (hn : 2 ≤ n) (hn' : n < 2 ^ 32) :
    ringbufInit r (some buf) n = (0, (init buf n hn hn').toRingbuf) := by
  simp only [ringbufInit, if_neg (show ¬ n < 2 by omega), init]

variable (r : ValidRingbuf)

lemma contents_length_lt : r.contents.length < r.size := by
  rw [Ringbuf.contents, length_window]
  exact distance_lt r.tail_lt r.head_lt

/-- The queue a ring stands for. -/
def toFifo : BoundedFifo UInt8 where
  cap := r.size - 1
  items := r.contents
  fits := by
    have := r.contents_length_lt
    omega

/-- The index the code computes by counting up and testing against `size` is the next cell. -/
lemma wrap_eq_next {i : ℕ} (hi : i < r.size) :
    (if (i + 1) % 2 ^ 32 ≥ r.size then 0 else (i + 1) % 2 ^ 32) = next r.size i := by
  have hlt := r.size_lt
  rw [Nat.mod_eq_of_lt (by omega : i + 1 < 2 ^ 32), next]
  split_ifs <;> omega

/-- The ring after a byte was stored at the head. -/
def stored (c : UInt8) : ValidRingbuf where
  head := next r.size r.head
  tail := r.tail
  size := r.size
  pt := Function.update r.pt r.head c
  two_le_size := r.two_le_size
  size_lt := r.size_lt
  head_lt := next_lt (by have := r.two_le_size; omega)
  tail_lt := r.tail_lt

/-- The ring after the byte at the tail was taken. -/
def taken : ValidRingbuf where
  head := r.head
  tail := next r.size r.tail
  size := r.size
  pt := r.pt
  two_le_size := r.two_le_size
  size_lt := r.size_lt
  head_lt := r.head_lt
  tail_lt := next_lt (by have := r.two_le_size; omega)

/-! ### What the code does on them -/

lemma next_head_eq_tail_iff : next r.size r.head = r.tail ↔ r.contents.length = r.size - 1 := by
  rw [Ringbuf.contents, length_window]
  exact next_eq_iff_distance r.tail_lt r.head_lt

lemma contents_eq_nil_iff : r.contents = [] ↔ r.tail = r.head := by
  rw [← List.length_eq_zero_iff, Ringbuf.contents, length_window]
  exact distance_eq_zero_iff r.tail_lt

lemma ringbufPut_of_full (c : UInt8) (h : r.contents.length = r.size - 1) :
    ringbufPut r.toRingbuf c = (-1, r.toRingbuf) := by
  simp only [ringbufPut, r.wrap_eq_next r.head_lt, if_pos (r.next_head_eq_tail_iff.mpr h)]

lemma ringbufPut_of_room (c : UInt8) (h : r.contents.length ≠ r.size - 1) :
    ringbufPut r.toRingbuf c = (0, (r.stored c).toRingbuf) := by
  have hne : ¬ next r.size r.head = r.tail := fun heq => h (r.next_head_eq_tail_iff.mp heq)
  simp only [ringbufPut, r.wrap_eq_next r.head_lt, if_neg hne, stored]

lemma ringbufGet_of_empty (h : r.contents = []) :
    ringbufGet r.toRingbuf = (-1, none, r.toRingbuf) := by
  rw [ringbufGet, if_pos (r.contents_eq_nil_iff.mp h)]

lemma ringbufGet_of_nonempty (h : r.contents ≠ []) :
    ringbufGet r.toRingbuf = (0, some (r.pt r.tail), r.taken.toRingbuf) := by
  have hne : ¬ r.tail = r.head := fun heq => h (r.contents_eq_nil_iff.mpr heq)
  simp only [ringbufGet, if_neg hne, r.wrap_eq_next r.tail_lt, taken]

lemma contents_stored (c : UInt8) (h : r.contents.length ≠ r.size - 1) :
    (r.stored c).contents = r.contents ++ [c] := by
  have hne : next r.size r.head ≠ r.tail := fun heq => h (r.next_head_eq_tail_iff.mp heq)
  have hcell : (r.tail + distance r.size r.tail r.head) % r.size = r.head :=
    add_distance_mod r.tail_lt r.head_lt
  have hkey : window (Function.update r.pt _ c) r.size r.tail (_ + 1) = _ :=
    window_update_succ r.pt (distance_lt r.tail_lt r.head_lt) c
  rw [hcell] at hkey
  simp only [Ringbuf.contents, stored, distance_next_stop r.tail_lt r.head_lt hne]
  exact hkey

lemma contents_eq_cons_taken (h : r.contents ≠ []) :
    r.contents = r.pt r.tail :: r.taken.contents := by
  have hne : r.tail ≠ r.head := fun heq => h (r.contents_eq_nil_iff.mpr heq)
  simp only [Ringbuf.contents, taken, distance_next_start r.tail_lt r.head_lt hne]
  exact window_succ_first r.pt _ r.tail_lt

lemma ringbufGetFill_eq (h : r.size < 2 ^ 31) : ringbufGetFill r.toRingbuf = r.contents.length := by
  have hlt := distance_lt r.tail_lt r.head_lt
  have hsmall : toInt32 (distance r.size r.tail r.head) = distance r.size r.tail r.head :=
    toInt32_eq (by omega)
  rw [Ringbuf.contents, length_window, ← hsmall]
  unfold ringbufGetFill distance
  split_ifs <;> rfl

end ValidRingbuf

/-! ## The refinement -/

/-- What a client of the ring sees: the return code, and for a `RINGBUF_Get` the byte stored. -/
inductive RingAnswer
  | put (ret : ℤ)
  | get (ret : ℤ) (c : Option UInt8)
  | fill (n : ℤ)
  deriving DecidableEq

/-- One call of a ring function. -/
def ringStep (r : Ringbuf) : BoundedFifo.Op UInt8 → Ringbuf × RingAnswer
  | .put c => ((ringbufPut r c).2, .put (ringbufPut r c).1)
  | .get => ((ringbufGet r).2.2, .get (ringbufGet r).1 (ringbufGet r).2.1)
  | .fill => (r, .fill (ringbufGetFill r))

/-- The answers of the abstract queue, in the return codes of the ring. -/
def RingAnswer.ofFifo : BoundedFifo.Answer UInt8 → RingAnswer
  | .put accepted => .put (if accepted then 0 else -1)
  | .get none => .get (-1) none
  | .get (some c) => .get 0 (some c)
  | .fill n => .fill n

/-- The abstract queue answering in the return codes of the ring. -/
def fifoStep (q : BoundedFifo UInt8) (op : BoundedFifo.Op UInt8) :
    BoundedFifo UInt8 × RingAnswer :=
  ((q.step op).1, .ofFifo (q.step op).2)

/-- A ring stands for a queue: its indices are in range and its bytes are the queue's. -/
def Represents (n : ℕ) (r : Ringbuf) (q : BoundedFifo UInt8) : Prop :=
  ∃ v : ValidRingbuf, v.toRingbuf = r ∧ v.toFifo = q ∧ v.size = n

/-- One call keeps a ring and the queue it stands for in step, and answers alike. -/
theorem ringStep_represents {n : ℕ} (hn : n < 2 ^ 31) (v : ValidRingbuf) (hv : v.size = n)
    (op : BoundedFifo.Op UInt8) :
    (ringStep v.toRingbuf op).2 = (fifoStep v.toFifo op).2 ∧
      Represents n (ringStep v.toRingbuf op).1 (fifoStep v.toFifo op).1 := by
  have hlen := v.contents_length_lt
  cases op with
  | put c =>
      by_cases hfull : v.contents.length = v.size - 1
      · have hspec : v.toFifo.step (.put c) = (v.toFifo, .put false) :=
          BoundedFifo.step_put_of_not_lt (by show ¬ v.contents.length < v.size - 1; omega) c
        simp only [ringStep, fifoStep, v.ringbufPut_of_full c hfull, hspec]
        exact ⟨rfl, v, rfl, rfl, hv⟩
      · obtain ⟨q', hspec, hcap, hitems⟩ := BoundedFifo.step_put_of_lt (q := v.toFifo)
          (by show v.contents.length < v.size - 1; omega) c
        simp only [ringStep, fifoStep, v.ringbufPut_of_room c hfull, hspec]
        refine ⟨rfl, v.stored c, rfl, BoundedFifo.ext hcap.symm ?_, hv⟩
        rw [hitems]
        exact v.contents_stored c hfull
  | get =>
      by_cases hempty : v.contents = []
      · have hspec : v.toFifo.step .get = (v.toFifo, .get none) :=
          BoundedFifo.step_get_of_nil hempty
        simp only [ringStep, fifoStep, v.ringbufGet_of_empty hempty, hspec]
        exact ⟨rfl, v, rfl, rfl, hv⟩
      · obtain ⟨q', hspec, hcap, hitems⟩ :=
          BoundedFifo.step_get_of_cons (q := v.toFifo) (v.contents_eq_cons_taken hempty)
        simp only [ringStep, fifoStep, v.ringbufGet_of_nonempty hempty, hspec]
        exact ⟨rfl, v.taken, rfl, BoundedFifo.ext hcap.symm hitems.symm, hv⟩
  | fill =>
      simp only [ringStep, fifoStep, BoundedFifo.step_fill, RingAnswer.ofFifo,
        v.ringbufGetFill_eq (hv ▸ hn)]
      exact ⟨rfl, v, rfl, rfl, hv⟩

theorem ring_simulation {n : ℕ} (hn : n < 2 ^ 31) :
    Runs.Simulation ringStep fifoStep (Represents n) where
  answer := by
    rintro _ _ ⟨v, rfl, rfl, hv⟩ op
    exact (ringStep_represents hn v hv op).1
  next := by
    rintro _ _ ⟨v, rfl, rfl, hv⟩ op
    exact (ringStep_represents hn v hv op).2

/-- **The ring buffer is a bounded FIFO.**  After `RINGBUF_Init` on a buffer of `n` bytes and any
calls, the ring has answered as a queue of capacity `n - 1` does; and in the state reached `Put`
appends exactly if fewer than `n - 1` bytes are queued and otherwise changes nothing, `Get` hands
out the oldest byte exactly if there is one and otherwise changes nothing, `GetFill` is the number
of queued bytes, and both indices are below `n`. -/
theorem ringbuf_refines_boundedFifo (r₀ : Ringbuf) (buf : ℕ → UInt8) (n : ℕ) (hn : 2 ≤ n)
    (hn' : n < 2 ^ 31) (ops : List (BoundedFifo.Op UInt8)) :
    let r₁ := (ringbufInit r₀ (some buf) n).2
    let r := Runs.run (fun r op => (ringStep r op).1) r₁ ops
    let q := Runs.run (fun q op => (fifoStep q op).1) (BoundedFifo.empty (n - 1)) ops
    (ringbufInit r₀ (some buf) n).1 = 0 ∧
    Runs.outputs ringStep r₁ ops = Runs.outputs fifoStep (BoundedFifo.empty (n - 1)) ops ∧
    r.contents = q.items ∧
    (∀ c, if q.items.length < n - 1
      then (ringbufPut r c).1 = 0 ∧ (ringbufPut r c).2.contents = q.items ++ [c]
      else ringbufPut r c = (-1, r)) ∧
    (match q.items with
      | [] => ringbufGet r = (-1, none, r)
      | c :: rest => (ringbufGet r).1 = 0 ∧ (ringbufGet r).2.1 = some c ∧
          (ringbufGet r).2.2.contents = rest) ∧
    ringbufGetFill r = q.items.length ∧
    r.head < n ∧ r.tail < n := by
  intro r₁ r q
  have hinit := ValidRingbuf.ringbufInit_eq r₀ buf n hn (by omega)
  have hstart : Represents n r₁ (BoundedFifo.empty (n - 1)) := by
    refine ⟨ValidRingbuf.init buf n hn (by omega), ?_, ?_, rfl⟩
    · show _ = (ringbufInit r₀ (some buf) n).2
      rw [hinit]
    · refine BoundedFifo.ext rfl ?_
      show (ValidRingbuf.init buf n hn (by omega)).contents = []
      exact (ValidRingbuf.contents_eq_nil_iff _).mpr rfl
  obtain ⟨v, hr, hq, hv⟩ : Represents n r q := (ring_simulation hn').run_related ops hstart
  refine ⟨by rw [hinit], (ring_simulation hn').outputs_eq ops hstart, ?_⟩
  rw [← hr, ← hq]
  have hlen := v.contents_length_lt
  refine ⟨rfl, fun c => ?_, ?_, v.ringbufGetFill_eq (by omega), hv ▸ v.head_lt, hv ▸ v.tail_lt⟩
  · show if v.contents.length < n - 1 then _ else _
    split_ifs with hroom
    · have hne : v.contents.length ≠ v.size - 1 := by omega
      rw [v.ringbufPut_of_room c hne]
      exact ⟨rfl, v.contents_stored c hne⟩
    · exact v.ringbufPut_of_full c (by omega)
  · show match v.contents with | [] => _ | _ :: _ => _
    by_cases hempty : v.contents = []
    · rw [hempty]
      exact v.ringbufGet_of_empty hempty
    · rw [v.contents_eq_cons_taken hempty, v.ringbufGet_of_nonempty hempty]
      exact ⟨rfl, rfl, rfl⟩

/-- The hypotheses are met by the ring of the SMS indices, 32 bytes. -/
theorem ringbuf_refines_boundedFifo_smsUnread :
    ringbufGetFill (Runs.run (fun r op => (ringStep r op).1)
      (ringbufInit ⟨7, 9, 1, fun _ => 1⟩ (some fun _ => 0) 32).2 [.put 5, .put 6, .get]) = 1 :=
  (ringbuf_refines_boundedFifo ⟨7, 9, 1, fun _ => 1⟩ (fun _ => 0) 32 (by decide) (by decide)
    [.put 5, .put 6, .get]).2.2.2.2.2.1

end Ampm

import AmpmGsm.Ring.Ringbuf

/-!
# The ring buffer between an interrupt and a task

The receive interrupt (`gsmPort_RxIrq`) puts bytes; the task gets them.  A `RINGBUF_Put` runs to
completion, but it may fall between any two accesses that a `RINGBUF_Get` makes to the volatile
fields: the compare, the cell read, the tail increment, the wrap test, the wrap store.

* `SharedRing`, `sharedStep` — the ring with the position of the interrupted `Get`, one access at
  a time.
* `getAccesses_eq_ringbufGet` — undisturbed, the accesses make up `ringbufGet`.
* `SharedRing.held` — the bytes still owed to the consumer.
* `sharedRing_safe_iff` — nothing is lost exactly if no `Put` falls into the window in which the
  tail has been counted up to `size` but not yet wrapped while the head stands on the last cell.
-/

namespace Ampm

open CircularWindow

/-! ## The accesses of `RINGBUF_Get` -/

/-- How far the running `RINGBUF_Get` has come. -/
inductive GetPc
  /-- No call is running. -/
  | idle
  /-- `tail == head` was false. -/
  | compared
  /-- `*c` was read from `pt[tail]`. -/
  | cellRead (c : UInt8)
  /-- `tail++` was stored. -/
  | incremented (c : UInt8)
  /-- `tail >= size` was true. -/
  | wrapTested (c : UInt8)
  deriving DecidableEq

/-- The ring, the running `Get`, and what was accepted and returned so far. -/
structure SharedRing where
  ring : Ringbuf
  pc : GetPc
  accepted : List UInt8
  got : List UInt8

/-- A ring just initialised, no call running. -/
def SharedRing.start (r₀ : Ringbuf) (buf : ℕ → UInt8) (n : ℕ) : SharedRing :=
  ⟨(ringbufInit r₀ (some buf) n).2, .idle, [], []⟩

/-- The next access of the consumer. -/
def getAccess (s : SharedRing) : SharedRing :=
  match s.pc with
  | .idle => if s.ring.tail = s.ring.head then s else { s with pc := .compared }
  | .compared => { s with pc := .cellRead (s.ring.pt s.ring.tail) }
  | .cellRead c =>
      { s with ring := { s.ring with tail := (s.ring.tail + 1) % 2 ^ 32 }, pc := .incremented c }
  | .incremented c =>
      if s.ring.tail ≥ s.ring.size then { s with pc := .wrapTested c }
      else { s with pc := .idle, got := s.got ++ [c] }
  | .wrapTested c =>
      { s with ring := { s.ring with tail := 0 }, pc := .idle, got := s.got ++ [c] }

/-- A whole `RINGBUF_Put`, from the interrupt. -/
def putFromIrq (s : SharedRing) (c : UInt8) : SharedRing :=
  { s with
    ring := (ringbufPut s.ring c).2
    accepted := if (ringbufPut s.ring c).1 = 0 then s.accepted ++ [c] else s.accepted }

/-- Either the interrupt puts a byte or the consumer makes its next access. -/
inductive SharedStep
  | put (c : UInt8)
  | access

def sharedStep (s : SharedRing) : SharedStep → SharedRing
  | .put c => putFromIrq s c
  | .access => getAccess s

/-- With no interrupt in between, the accesses of one call are `ringbufGet`: four, or five if the
tail wraps, and they return the byte `ringbufGet` stores. -/
theorem getAccesses_eq_ringbufGet (v : ValidRingbuf) (acc got : List UInt8)
    (h : v.contents ≠ []) :
    ∃ k c, (k = 4 ∨ k = 5) ∧ ringbufGet v.toRingbuf = (0, some c, v.taken.toRingbuf) ∧
      Runs.run sharedStep ⟨v.toRingbuf, .idle, acc, got⟩ (List.replicate k .access)
        = ⟨v.taken.toRingbuf, .idle, acc, got ++ [c]⟩ := by
  have hne : ¬ v.tail = v.head := fun heq => h (v.contents_eq_nil_iff.mpr heq)
  have hmod : (v.tail + 1) % 4294967296 = v.tail + 1 :=
    Nat.mod_eq_of_lt (by have := v.tail_lt; have := v.size_lt; omega)
  by_cases hwrap : v.size ≤ v.tail + 1
  · refine ⟨5, v.pt v.tail, Or.inr rfl, v.ringbufGet_of_nonempty h, ?_⟩
    have hnext : next v.size v.tail = 0 := if_neg (by omega)
    simp [List.replicate, sharedStep, getAccess, hne, hmod, hwrap, ValidRingbuf.taken, hnext]
  · refine ⟨4, v.pt v.tail, Or.inl rfl, v.ringbufGet_of_nonempty h, ?_⟩
    have hnext : next v.size v.tail = v.tail + 1 := if_pos (by omega)
    simp [List.replicate, sharedStep, getAccess, hne, hmod, hwrap, ValidRingbuf.taken, hnext]

/-! ## What is still owed to the consumer -/

/-- The tail the consumer is about to publish: `size` stands for `0`. -/
def Ringbuf.wrapped (r : Ringbuf) : Ringbuf :=
  { r with tail := if r.tail ≥ r.size then 0 else r.tail }

/-- The byte already released from its cell but not yet returned. -/
def GetPc.pending : GetPc → List UInt8
  | .incremented c => [c]
  | .wrapTested c => [c]
  | _ => []

/-- The bytes accepted and not yet returned, as far as the ring still has them. -/
def SharedRing.held (s : SharedRing) : List UInt8 :=
  s.pc.pending ++ s.ring.wrapped.contents

/-- Nothing lost, duplicated or overwritten: the bytes returned are the first of those accepted,
and the ring still holds all the others, in order. -/
def SharedRing.Safe (s : SharedRing) : Prop :=
  s.got <+: s.accepted ∧ s.accepted = s.got ++ s.held

/-- The `Put` does not fall between the tail increment and the wrap store with the head on the
last cell. -/
def PutOutsideWrap (s : SharedRing) : SharedStep → Prop
  | .put _ => ¬ (s.ring.tail = s.ring.size ∧ s.ring.head = s.ring.size - 1)
  | .access => True

/-- Where the running call has come to agrees with the indices. -/
def GetPc.Agrees (r : Ringbuf) : GetPc → Prop
  | .idle => r.tail < r.size
  | .compared => r.tail < r.size ∧ r.tail ≠ r.head
  | .cellRead c => r.tail < r.size ∧ r.tail ≠ r.head ∧ c = r.pt r.tail
  | .incremented _ => r.tail ≤ r.size
  | .wrapTested _ => r.tail = r.size

/-- The invariant: up to the wrap of the tail the ring is valid, the running call is where its
indices say, and the accepted bytes are the returned ones and the held ones. -/
structure SharedRing.Inv (s : SharedRing) (v : ValidRingbuf) : Prop where
  wrapped_eq : s.ring.wrapped = v.toRingbuf
  agrees : s.pc.Agrees s.ring
  accounts : s.accepted = s.got ++ s.held

lemma SharedRing.Inv.safe {s : SharedRing} {v : ValidRingbuf} (h : s.Inv v) : s.Safe :=
  ⟨h.accounts ▸ List.prefix_append _ _, h.accounts⟩

lemma Ringbuf.wrapped_of_lt {r : Ringbuf} (h : r.tail < r.size) : r.wrapped = r := by
  rw [Ringbuf.wrapped, if_neg (by omega)]

lemma SharedRing.Inv.fields {s : SharedRing} {v : ValidRingbuf} (h : s.Inv v) :
    s.ring.head = v.head ∧ s.ring.size = v.size ∧ s.ring.pt = v.pt := by
  have hw := h.wrapped_eq
  have hhead := congrArg Ringbuf.head hw
  have hsize := congrArg Ringbuf.size hw
  have hpt := congrArg Ringbuf.pt hw
  exact ⟨hhead, hsize, hpt⟩

/-- Counted up to `size`, the tail stands for index zero. -/
lemma SharedRing.Inv.tail_eq_zero {s : SharedRing} {v : ValidRingbuf} (h : s.Inv v)
    (htail : s.ring.tail = s.ring.size) : v.tail = 0 := by
  have hw := congrArg Ringbuf.tail h.wrapped_eq
  rw [Ringbuf.wrapped, if_pos htail.ge] at hw
  exact hw.symm

/-! ### The step lemmas -/

/-- A `Put` while the tail is below `size` sees the ring as it is. -/
lemma putFromIrq_inv_of_lt {s : SharedRing} {v : ValidRingbuf} (hinv : s.Inv v) (c : UInt8)
    (hlt : s.ring.tail < s.ring.size) : ∃ v', (putFromIrq s c).Inv v' := by
  have hring : s.ring = v.toRingbuf := by rw [← hinv.wrapped_eq, Ringbuf.wrapped_of_lt hlt]
  have hacc := hinv.accounts
  rw [SharedRing.held, hinv.wrapped_eq] at hacc
  by_cases hfull : v.contents.length = v.size - 1
  · have hput : putFromIrq s c = s := by
      rw [putFromIrq, hring, v.ringbufPut_of_full c hfull, ← hring]
      rfl
    exact ⟨v, by rw [hput]; exact hinv⟩
  · have hput : putFromIrq s c =
        { s with ring := (v.stored c).toRingbuf, accepted := s.accepted ++ [c] } := by
      rw [putFromIrq, hring, v.ringbufPut_of_room c hfull]
      rfl
    have hne : next v.size v.head ≠ v.tail := fun heq => hfull (v.next_head_eq_tail_iff.mp heq)
    have hwrap : (v.stored c).wrapped = (v.stored c).toRingbuf :=
      Ringbuf.wrapped_of_lt (v.stored c).tail_lt
    rw [hput]
    refine ⟨v.stored c, hwrap, ?_, ?_⟩
    · have hag := hinv.agrees
      rw [hring] at hag
      cases hpc : s.pc with
      | idle => exact (v.stored c).tail_lt
      | compared => exact ⟨(v.stored c).tail_lt, Ne.symm hne⟩
      | cellRead d =>
          rw [hpc] at hag
          refine ⟨(v.stored c).tail_lt, Ne.symm hne, ?_⟩
          rw [hag.2.2]
          exact (Function.update_of_ne hag.2.1 _ _).symm
      | incremented d => exact (v.stored c).tail_lt.le
      | wrapTested d =>
          rw [hpc] at hag
          exact absurd hag v.tail_lt.ne
    · show s.accepted ++ [c] = s.got ++ (s.pc.pending ++ Ringbuf.contents (v.stored c).wrapped)
      rw [hwrap, v.contents_stored c hfull, hacc]
      simp only [List.append_assoc]

/-- A `Put` inside the window never takes the ring for full; with the head before the last cell
there is room for it. -/
lemma putFromIrq_of_unwrapped {s : SharedRing} {v : ValidRingbuf} (hinv : s.Inv v) (c : UInt8)
    (htail : s.ring.tail = s.ring.size) :
    (putFromIrq s c).pc = s.pc ∧ (putFromIrq s c).got = s.got ∧
    (putFromIrq s c).accepted = s.accepted ++ [c] ∧
    (putFromIrq s c).ring.wrapped = (v.stored c).toRingbuf := by
  obtain ⟨hhead, hsize, hpt⟩ := hinv.fields
  have hzero := hinv.tail_eq_zero htail
  have hnext : (if (s.ring.head + 1) % 2 ^ 32 ≥ s.ring.size then 0
      else (s.ring.head + 1) % 2 ^ 32) = next v.size v.head := by
    rw [hhead, hsize, v.wrap_eq_next v.head_lt]
  have hne : ¬ next v.size v.head = s.ring.tail := by
    have : next v.size v.head < v.size :=
      next_lt (show 0 < v.size by have := v.two_le_size; omega)
    omega
  have hput : ringbufPut s.ring c =
      (0, { s.ring with pt := Function.update s.ring.pt s.ring.head c,
                        head := next v.size v.head }) := by
    rw [ringbufPut, hnext, if_neg hne]
  refine ⟨rfl, rfl, ?_, ?_⟩
  · rw [putFromIrq, hput]
    rfl
  · rw [putFromIrq, hput]
    have hge : s.ring.tail ≥ v.size := by omega
    simp only [Ringbuf.wrapped, ValidRingbuf.stored, hhead, hsize, hpt, hzero, if_pos hge]

/-- One access of the consumer keeps the invariant. -/
lemma getAccess_inv {s : SharedRing} {v : ValidRingbuf} (hinv : s.Inv v) :
    ∃ v', (getAccess s).Inv v' := by
  obtain ⟨ring, pc, acc, got⟩ := s
  have hag := hinv.agrees
  have hacc := hinv.accounts
  cases pc with
  | idle =>
      by_cases hempty : ring.tail = ring.head
      · exact ⟨v, by simpa only [getAccess, if_pos hempty] using hinv⟩
      · refine ⟨v, ?_⟩
        simp only [getAccess, if_neg hempty]
        exact ⟨hinv.wrapped_eq, ⟨hag, hempty⟩, hacc⟩
  | compared => exact ⟨v, hinv.wrapped_eq, ⟨hag.1, hag.2, rfl⟩, hacc⟩
  | cellRead c =>
      obtain ⟨hlt, hne, hc⟩ := hag
      have hring : ring = v.toRingbuf := by
        rw [← hinv.wrapped_eq]
        exact (Ringbuf.wrapped_of_lt hlt).symm
      subst hring
      change c = v.pt v.tail at hc
      subst hc
      have hcontents : v.contents ≠ [] := fun hnil => hne (v.contents_eq_nil_iff.mp hnil)
      have hmod : (v.tail + 1) % 2 ^ 32 = v.tail + 1 :=
        Nat.mod_eq_of_lt (by have := v.tail_lt; have := v.size_lt; omega)
      have hwrap : Ringbuf.wrapped { v.toRingbuf with tail := (v.tail + 1) % 2 ^ 32 }
          = v.taken.toRingbuf := by
        rw [Ringbuf.wrapped, hmod]
        simp only [ValidRingbuf.taken, next]
        split_ifs <;> first | rfl | omega
      refine ⟨v.taken, hwrap, ?_, ?_⟩
      · show (v.tail + 1) % 2 ^ 32 ≤ v.size
        rw [hmod]
        exact v.tail_lt
      · rw [SharedRing.held, hinv.wrapped_eq] at hacc
        have hfirst : ([] : List UInt8) ++ v.contents = [v.pt v.tail] ++ v.taken.contents :=
          v.contents_eq_cons_taken hcontents
        have hheld := congrArg (fun r => got ++ ([v.pt v.tail] ++ Ringbuf.contents r)) hwrap
        exact (hacc.trans (congrArg (got ++ ·) hfirst)).trans hheld.symm
  | incremented c =>
      by_cases hwrap : ring.tail ≥ ring.size
      · refine ⟨v, ?_⟩
        simp only [getAccess, if_pos hwrap]
        exact ⟨hinv.wrapped_eq, le_antisymm hag hwrap, hacc⟩
      · refine ⟨v, ?_⟩
        simp only [getAccess, if_neg hwrap]
        refine ⟨hinv.wrapped_eq, by simpa [GetPc.Agrees] using hwrap, ?_⟩
        simpa [SharedRing.held, GetPc.pending] using hacc
  | wrapTested c =>
      have hpos : ¬ (0 : ℕ) ≥ ring.size := by
        have hsize : ring.size = v.size := hinv.fields.2.1
        have := v.two_le_size
        omega
      have htail : ring.tail = ring.size := hag
      have hstored : Ringbuf.wrapped { ring with tail := 0 } = ring.wrapped := by
        simp only [Ringbuf.wrapped, if_pos htail.ge, if_neg hpos]
      refine ⟨v, hstored.trans hinv.wrapped_eq, ?_, ?_⟩
      · show 0 < ring.size
        omega
      · show acc = (got ++ [c]) ++ ([] ++ Ringbuf.contents (Ringbuf.wrapped { ring with tail := 0 }))
        rw [hstored]
        simpa [SharedRing.held, GetPc.pending] using hacc

/-- A step outside the window keeps the invariant. -/
theorem sharedStep_inv {s : SharedRing} (hinv : ∃ v, s.Inv v) (i : SharedStep)
    (hC : PutOutsideWrap s i) : ∃ v, (sharedStep s i).Inv v := by
  obtain ⟨v, hinv⟩ := hinv
  cases i with
  | access => exact getAccess_inv hinv
  | put c =>
      by_cases hlt : s.ring.tail < s.ring.size
      · exact putFromIrq_inv_of_lt hinv c hlt
      have hle : s.ring.tail = s.ring.size := by
        have hag := hinv.agrees
        cases hpc : s.pc with
        | incremented d => rw [hpc] at hag; exact le_antisymm hag (by omega)
        | wrapTested d => rw [hpc] at hag; exact hag
        | idle => rw [hpc] at hag; exact absurd hag hlt
        | compared => rw [hpc] at hag; exact absurd hag.1 hlt
        | cellRead d => rw [hpc] at hag; exact absurd hag.1 hlt
      obtain ⟨hpc, hgot, hacc, hwrap⟩ := putFromIrq_of_unwrapped hinv c hle
      have hroom : v.contents.length ≠ v.size - 1 := by
        obtain ⟨hhead, hsize, -⟩ := hinv.fields
        have hlast : ¬ s.ring.head = s.ring.size - 1 := fun h => hC ⟨hle, h⟩
        have := v.head_lt
        rw [Ne, ← v.next_head_eq_tail_iff, hinv.tail_eq_zero hle, next, if_pos (by omega)]
        omega
      refine ⟨v.stored c, hwrap, ?_, ?_⟩
      · rw [sharedStep, hpc]
        have hag := hinv.agrees
        have hsize : (putFromIrq s c).ring.size = s.ring.size := by
          simp only [putFromIrq, ringbufPut]
          split_ifs <;> rfl
        have htail : (putFromIrq s c).ring.tail = s.ring.tail := by
          simp only [putFromIrq, ringbufPut]
          split_ifs <;> rfl
        cases hcase : s.pc <;> rw [hcase] at hag <;>
          simp only [GetPc.Agrees] at hag ⊢ <;> omega
      · rw [sharedStep, SharedRing.held, hacc, hgot, hpc, hwrap, v.contents_stored c hroom,
          hinv.accounts, SharedRing.held, hinv.wrapped_eq]
        simp only [List.append_assoc]

/-- A `Put` inside the window with the head on the last cell is accepted and moves the head onto
the tail to come: the ring then looks empty and every byte it held is lost. -/
theorem sharedStep_unsafe {s : SharedRing} (hinv : ∃ v, s.Inv v) (i : SharedStep)
    (hC : ¬ PutOutsideWrap s i) : ¬ (sharedStep s i).Safe := by
  obtain ⟨v, hinv⟩ := hinv
  cases i with
  | access => exact absurd trivial hC
  | put c =>
      obtain ⟨htail, hhead⟩ := not_not.mp hC
      obtain ⟨hpc, hgot, hacc, hwrap⟩ := putFromIrq_of_unwrapped hinv c htail
      obtain ⟨hvhead, hvsize, -⟩ := hinv.fields
      have hnil : (v.stored c).contents = [] := by
        rw [(v.stored c).contents_eq_nil_iff]
        show v.tail = next v.size v.head
        rw [hinv.tail_eq_zero htail, next, if_neg (by have := v.two_le_size; omega)]
      rintro ⟨-, hsafe⟩
      rw [sharedStep, SharedRing.held, hacc, hgot, hpc, hwrap, hnil, hinv.accounts] at hsafe
      have hlen := congrArg List.length hsafe
      simp only [SharedRing.held, List.length_append, List.length_singleton,
        List.length_nil] at hlen
      omega

/-! ## The exact condition -/

lemma SharedRing.start_inv (r₀ : Ringbuf) (buf : ℕ → UInt8) (n : ℕ) (hn : 2 ≤ n)
    (hn' : n < 2 ^ 32) : (SharedRing.start r₀ buf n).Inv (ValidRingbuf.init buf n hn hn') := by
  have hring : (SharedRing.start r₀ buf n).ring = (ValidRingbuf.init buf n hn hn').toRingbuf := by
    rw [SharedRing.start, ValidRingbuf.ringbufInit_eq r₀ buf n hn hn']
  have hwrap : (SharedRing.start r₀ buf n).ring.wrapped
      = (ValidRingbuf.init buf n hn hn').toRingbuf := by
    rw [hring]
    exact Ringbuf.wrapped_of_lt (ValidRingbuf.init buf n hn hn').tail_lt
  refine ⟨hwrap, ?_, ?_⟩
  · rw [hring]
    exact (ValidRingbuf.init buf n hn hn').tail_lt
  · rw [SharedRing.held, hwrap, (ValidRingbuf.contents_eq_nil_iff _).mpr rfl]
    rfl

/-- **The ring is safe between interrupt and task exactly outside the wrap window.**  For every
ring of `n ≥ 2` bytes and every interleaving, the bytes returned are throughout a prefix of the
bytes accepted, with the ring still holding the rest, if and only if no `Put` falls between the
tail increment and the wrap store while the head is on the last cell. -/
theorem sharedRing_safe_iff (r₀ : Ringbuf) (buf : ℕ → UInt8) (n : ℕ) (hn : 2 ≤ n)
    (hn' : n < 2 ^ 32) (steps : List SharedStep) :
    Runs.Throughout sharedStep SharedRing.Safe (SharedRing.start r₀ buf n) steps ↔
      Runs.StepsMeet sharedStep PutOutsideWrap (SharedRing.start r₀ buf n) steps :=
  Runs.throughout_iff_stepsMeet (I := fun s => ∃ v, s.Inv v)
    (fun _ ⟨_, h⟩ => h.safe)
    (fun _ i hinv hC => sharedStep_inv hinv i hC)
    (fun _ i hinv hC => sharedStep_unsafe hinv i hC)
    ⟨_, SharedRing.start_inv r₀ buf n hn hn'⟩

/-- The two hypotheses are met by a ring of two bytes. -/
theorem sharedRing_safe_iff_two :
    Runs.Throughout sharedStep SharedRing.Safe
        (SharedRing.start ⟨0, 0, 0, fun _ => 0⟩ (fun _ => 0) 2) [.put 1, .access, .access] ↔
      Runs.StepsMeet sharedStep PutOutsideWrap
        (SharedRing.start ⟨0, 0, 0, fun _ => 0⟩ (fun _ => 0) 2) [.put 1, .access, .access] :=
  sharedRing_safe_iff ⟨0, 0, 0, fun _ => 0⟩ (fun _ => 0) 2 (by decide) (by decide) _

/-- The interleaving that loses bytes on a ring of two cells: the second `Get` has counted the tail
up to 2 when the interrupt puts `c` and `d`; the wrap store then makes the ring look empty. -/
def lossySteps : List SharedStep :=
  [.put 10, .access, .access, .access, .access,
   .put 11, .access, .access, .access,
   .put 12, .put 13,
   .access, .access,
   .put 14, .access, .access, .access, .access]

/-- The bytes returned are not always a prefix of the bytes accepted: here `10, 11, 14` against
`10, 11, 12, 13, 14`. -/
theorem sharedRing_loses_bytes :
    ¬ ∀ (r₀ : Ringbuf) (buf : ℕ → UInt8) (n : ℕ) (steps : List SharedStep), 2 ≤ n → n < 2 ^ 32 →
      Runs.Throughout sharedStep (fun s => s.got <+: s.accepted)
        (SharedRing.start r₀ buf n) steps := by
  intro h
  have hlast := (h ⟨0, 0, 0, fun _ => 0⟩ (fun _ => 0) 2 lossySteps (by decide) (by decide)).last
  have hgot : (Runs.run sharedStep (SharedRing.start ⟨0, 0, 0, fun _ => 0⟩ (fun _ => 0) 2)
      lossySteps).got = [10, 11, 14] := by decide
  have hacc : (Runs.run sharedStep (SharedRing.start ⟨0, 0, 0, fun _ => 0⟩ (fun _ => 0) 2)
      lossySteps).accepted = [10, 11, 12, 13, 14] := by decide
  rw [hgot, hacc] at hlast
  exact absurd hlast (by decide)

end Ampm

import AmpmGsm.Dtmf.Level

/-!
# Runs of the tone detector

Samples, calls of the task, starts and stops in any order.  The detector is compared with a
`Listener` that keeps every sample and every decision.  Two things that the code does not say stand
there in the open: a window is the newest 127 samples followed by the one of 256 samples ago, since
copying starts at the cell that the interrupt writes next; and a digit is only accepted in a window
that decides on it when two of the four windows before did.

* `DtmfEvent`, `dtmfEvent`, `dtmfRun` — what can happen to the code.
* `Listener`, `Listener.next`, `Listener.run` — the same with unbounded numbers.
* `Hears` — the code has the newest samples and decisions.
* **`dtmfRun_refines`** — every run answers as the listener does.
* **`dtmfRun_key`**, `dtmfRun_votes` — a digit in three windows in a row is one key; no key comes
  from fewer.
-/

namespace Ampm

/-! ## Events -/

/-- What can happen: a sample, a call of the task, a start, a stop, and a key that the call takes
out of `DTMF_ringBuff`. -/
inductive DtmfEvent
  | sample (v : UInt16)
  | task
  | init (buf : ℕ → UInt8)
  | deInit
  | take

/-- An event, and the character that it hands out, 0 if there is none. -/
def dtmfEvent (s : DtmfApp) : DtmfEvent → UInt8 × DtmfApp
  | .sample v => (0, tim3IrqHandler s v)
  | .task => dtmfTask s
  | .init buf => (0, dtmfInit s buf)
  | .deInit => (0, dtmfDeInit s)
  | .take => ((ringbufGet s.ringBuff).2.1.getD 0, { s with ringBuff := (ringbufGet s.ringBuff).2.2 })

/-- Events one after the other. -/
def dtmfRun (s : DtmfApp) : List DtmfEvent → List UInt8 × DtmfApp
  | [] => ([], s)
  | e :: es =>
      let r := dtmfEvent s e
      let q := dtmfRun r.2 es
      (r.1 :: q.1, q.2)

/-- The variables as they are initialised. -/
def dtmfStart : DtmfApp where
  dail1 := ⟨0, 128, 0, 0, false, fun _ => 0, 0, fun _ => 0⟩
  enable := false
  ringBuff := ⟨0, 0, 0, fun _ => 0⟩

/-! ## The listener -/

/-- The window that is decided on, of the samples, newest first. -/
def heard (samples : List UInt16) (k : ℕ) : ℕ :=
  (if k < 127 then samples.getD (126 - k) 0 else samples.getD 255 0).toNat

/-- The digit that is decided on. -/
def heardDigit (samples : List UInt16) : UInt8 :=
  dtmfDigit (goertzel fun k => Int16.ofInt (levelled (heard samples) k))

/-- The key of a digit. -/
def digitKey (d : UInt8) : UInt8 := dtmfChar (d &&& 0x0F).toNat

/-- The keys for the digits that the windows decided on, newest window first. -/
def keysOf (digits : List UInt8) : List UInt8 := ((Voting.reports 4 2 0 digits).map digitKey).reverse

/-- All samples and all decisions, newest first; the number of samples at which the next window is
due, and the number of samples since the task looked. -/
structure Listener where
  on : Bool
  samples : List UInt16
  due : ℕ
  waiting : ℕ
  digits : List UInt8
  queue : BoundedFifo UInt8

namespace Listener

/-- Power on. -/
def start : Listener := ⟨false, [], 128, 0, [], BoundedFifo.empty 31⟩

/-- A window that is due. -/
def window (l : Listener) : UInt8 × Listener :=
  let d := heardDigit l.samples
  let l' := { l with digits := d :: l.digits, due := l.samples.length + 85, waiting := 0 }
  if Voting.accepted 4 2 0 (d :: l.digits) ≠ Voting.accepted 4 2 0 l.digits ∧ d ≠ 0 then
    (digitKey d, { l' with queue := (l.queue.step (.put (digitKey d))).1 })
  else (0, l')

/-- The task. -/
def task (l : Listener) : UInt8 × Listener :=
  if !l.on then (0, l)
  else if l.due ≤ l.samples.length then l.window
  else (0, { l with waiting := 0 })

/-- An event.  Samples only come while the timer runs and have fifteen bits at most, and the task
looks before four billion of them came. -/
def next (l : Listener) : DtmfEvent → Option (UInt8 × Listener)
  | .sample v =>
      if l.on ∧ v.toNat < 2 ^ 15 ∧ l.waiting < 2 ^ 32 - 512 then
        some (0, { l with samples := v :: l.samples, waiting := l.waiting + 1 })
      else none
  | .task => some l.task
  | .init _ => some (0, { l with on := true, queue := BoundedFifo.empty 31 })
  | .deInit => some (0, { l with on := false })
  | .take => some (l.queue.items.headD 0, { l with queue := (l.queue.step .get).1 })

/-- Events one after the other. -/
def run (l : Listener) : List DtmfEvent → Option (List UInt8 × Listener)
  | [] => some ([], l)
  | e :: es => (l.next e).bind fun r => (r.2.run es).map fun q => (r.1 :: q.1, q.2)

end Listener

/-! ## What the code remembers -/

/-- The queue of the keys: none was started yet, or the ring is one. -/
def HoldsKeys (ringBuff : Ringbuf) (queue : BoundedFifo UInt8) (on : Bool) : Prop :=
  Represents 32 ringBuff queue ∨
    ringBuff.tail = ringBuff.head ∧ queue = BoundedFifo.empty 31 ∧ on = false

/-- The code has the newest 256 samples and the newest four decisions of the listener. -/
structure Hears (s : DtmfApp) (l : Listener) : Prop where
  enable : s.enable = l.on
  fifteen : ∀ v ∈ l.samples, v.toNat < 2 ^ 15
  stored : ∀ i < 256, s.dail1.aInput ((s.dail1.aiIndex.toNat + 255 - i) % 256) = l.samples.getD i 0
  due : s.dail1.aiIndex.toNat + l.due = s.dail1.aiCheck.toNat + l.samples.length
  index : s.dail1.aiIndex.toNat < 341 + l.waiting
  waiting : l.waiting ≤ 2 ^ 32 - 512
  check : s.dail1.aiCheck.toNat < 341
  digit : s.dail1.digit = Voting.accepted 4 2 0 l.digits
  decided : ∀ i < 4, s.dail1.d ((s.dail1.dI.toNat + 3 - i) % 4) = l.digits.getD i 0
  new : s.dail1.new = false
  queue : HoldsKeys s.ringBuff l.queue l.on

lemma hears_start : Hears dtmfStart Listener.start := by
  refine ⟨rfl, by simp [Listener.start], fun i _ => ?_, rfl, by decide, by decide, by decide, rfl,
    fun i _ => ?_, rfl, Or.inr ⟨rfl, rfl, rfl⟩⟩
  · simp [dtmfStart, Listener.start]
  · simp [dtmfStart, Listener.start]

variable {s : DtmfApp} {l : Listener}

/-- A sample. -/
lemma hears_sample (h : Hears s l) {v : UInt16} (hon : l.on = true) (hv : v.toNat < 2 ^ 15)
    (hw : l.waiting < 2 ^ 32 - 512) :
    Hears (tim3IrqHandler s v) { l with samples := v :: l.samples, waiting := l.waiting + 1 } := by
  have hindex := h.index
  have hnext : (s.dail1.aiIndex + 1).toNat = s.dail1.aiIndex.toNat + 1 := by
    rw [UInt32.toNat_add, UInt32.toNat_one]
    exact Nat.mod_eq_of_lt (by omega)
  have hcell : (s.dail1.aiIndex % 256).toNat = s.dail1.aiIndex.toNat % 256 := UInt32.toNat_mod ..
  refine ⟨h.enable, ?_, fun i hi => ?_, ?_, ?_, by simp only; omega, h.check, h.digit, h.decided,
    h.new, ?_⟩
  · simpa using ⟨hv, h.fifteen⟩
  · simp only [tim3IrqHandler, hnext, hcell]
    cases i with
    | zero => rw [show (s.dail1.aiIndex.toNat + 1 + 255 - 0) % 256 = s.dail1.aiIndex.toNat % 256 by omega,
        Function.update_self, List.getD_cons_zero]
    | succ i =>
        rw [Function.update_of_ne (by omega), List.getD_cons_succ, ← h.stored i (by omega)]
        congr 1
        omega
  · have hdue := h.due
    simp only [tim3IrqHandler, hnext, List.length_cons]
    omega
  · simp only [tim3IrqHandler, hnext]
    omega
  · exact Or.inl (h.queue.resolve_right fun hq => by simp [hon] at hq)

lemma heard_lt {samples : List UInt16} (h : ∀ v ∈ samples, v.toNat < 2 ^ 15) (k : ℕ) :
    heard samples k < 2 ^ 15 := by
  have hentry : ∀ i, (samples.getD i 0).toNat < 2 ^ 15 := by
    intro i
    rcases lt_or_ge i samples.length with hi | hi
    · rw [List.getD_eq_getElem _ _ hi]
      exact h _ (List.getElem_mem hi)
    · rw [List.getD_eq_default _ _ hi]
      norm_num
  rw [heard]
  split_ifs
  · exact hentry _
  · exact hentry _

/-- The window that is due. -/
lemma heardDigit_eq (h : Hears s l) :
    dtmfDigit (goertzel (gainControl s.dail1)) = heardDigit l.samples := by
  have hsample : ∀ k < 128, (gainSample s.dail1 (127 - k)).toNat = heard l.samples k := by
    intro k hk
    have hcell : ((s.dail1.aiIndex - (127 - k).toUInt32) % 256).toNat =
        (s.dail1.aiIndex.toNat + 129 + k) % 256 := by
      have hround : (127 - k).toUInt32.toNat = 127 - k := Nat.mod_eq_of_lt (by omega)
      rw [UInt32.toNat_mod, UInt32.toNat_sub, hround, show (256 : UInt32).toNat = 256 from rfl]
      omega
    rw [gainSample, hcell, heard]
    split_ifs with hlast
    · rw [← h.stored (126 - k) (by omega), show s.dail1.aiIndex.toNat + 255 - (126 - k) =
        s.dail1.aiIndex.toNat + 129 + k by omega]
    · rw [← h.stored 255 (by omega), show (s.dail1.aiIndex.toNat + 255 - 255) % 256 =
        (s.dail1.aiIndex.toNat + 129 + k) % 256 by omega]
  rw [heardDigit, goertzel_congr fun k hk => gainControl_eq hsample (fun k _ => heard_lt h.fifteen k) hk]

lemma take_four (xs : List UInt8) :
    (xs ++ List.replicate 4 0).take 4 = [xs.getD 0 0, xs.getD 1 0, xs.getD 2 0, xs.getD 3 0] := by
  rcases xs with _ | ⟨a, _ | ⟨b, _ | ⟨c, _ | ⟨d, xs⟩⟩⟩⟩ <;> rfl

lemma earlier_eq (h : Hears s l) (d : UInt8) :
    earlier s.dail1 d = Voting.votes 4 0 l.digits d := by
  have hcells : ∀ i < 4, s.dail1.d ((s.dail1.dI.toNat % 4 + 3 - i) % 4) = l.digits.getD i 0 := by
    intro i hi
    rw [← h.decided i hi]
    congr 1
    omega
  have hlt : s.dail1.dI.toNat % 4 < 4 := Nat.mod_lt _ (by norm_num)
  rw [Voting.votes, take_four, ← hcells 0 (by norm_num), ← hcells 1 (by norm_num),
    ← hcells 2 (by norm_num), ← hcells 3 (by norm_num), earlier]
  generalize s.dail1.dI.toNat % 4 = r at hlt
  -- the cells are the last four decisions, from wherever `d_i` stands
  interval_cases r <;> 
    simp only [List.count_cons, List.count_nil, beq_iff_eq, Nat.reduceAdd, Nat.reduceSub,
      Nat.reduceMod] <;> omega

/-! ## A window -/

section

variable (t : Dtmf) (d : UInt8)

lemma dtmfVote_digit : (dtmfVote t d).digit = if 2 ≤ earlier t d then d else t.digit := by
  simp only [dtmfVote]
  split_ifs with hvotes hsame <;> simp_all

lemma dtmfVote_new :
    (dtmfVote t d).new = if 2 ≤ earlier t d ∧ t.digit ≠ d ∧ d ≠ 0 then true else t.new := by
  simp only [dtmfVote]
  split_ifs with hvotes hsame <;> simp_all

/-- What is the same however the votes are. -/
lemma dtmfVote_rest : (dtmfVote t d).aInput = t.aInput ∧ (dtmfVote t d).aiIndex = t.aiIndex ∧
    (dtmfVote t d).aiCheck = t.aiCheck ∧ (dtmfVote t d).dI = t.dI + 1 ∧
      (dtmfVote t d).d = Function.update t.d (t.dI % 4).toNat d := by
  simp only [dtmfVote]
  split_ifs <;> exact ⟨rfl, rfl, rfl, rfl, rfl⟩

end

/-- What is left after a window that is due. -/
structure Windowed (t t' : Dtmf) (d : UInt8) : Prop where
  aInput : t'.aInput = t.aInput
  aiIndex : t'.aiIndex.toNat = t.aiIndex.toNat % 256
  aiCheck : t'.aiCheck.toNat = t.aiIndex.toNat % 256 + 85
  cells : t'.d = Function.update t.d (t.dI.toNat % 4) d
  dI : t'.dI = t.dI + 1
  digit : t'.digit = if 2 ≤ earlier t d then d else t.digit
  new : t'.new = if 2 ≤ earlier t d ∧ t.digit ≠ d ∧ d ≠ 0 then true else t.new

lemma dtmfWindow_windowed (t : Dtmf) :
    Windowed t (dtmfWindow t) (dtmfDigit (goertzel (gainControl t))) := by
  rw [dtmfWindow]
  generalize dtmfDigit (goertzel (gainControl t)) = d
  have hindex : (t.aiIndex % 256).toNat = t.aiIndex.toNat % 256 := UInt32.toNat_mod ..
  have hcheck : (t.aiIndex % 256 + 128 * 2 / 3).toNat = t.aiIndex.toNat % 256 + 85 := by
    rw [UInt32.toNat_add, hindex, show (128 * 2 / 3 : UInt32).toNat = 85 from rfl]
    omega
  obtain ⟨haInput, haiIndex, haiCheck, hdI, hd⟩ := dtmfVote_rest { t with
    aiIndex := t.aiIndex % 256, aiCheck := t.aiIndex % 256 + 128 * 2 / 3 } d
  exact ⟨haInput, by rw [haiIndex, hindex], by rw [haiCheck, hcheck],
    by rw [hd, UInt32.toNat_mod]; rfl, hdI, dtmfVote_digit _ d, dtmfVote_new _ d⟩

lemma Windowed.digit_eq {t : Dtmf} {d : UInt8} (hw : Windowed s.dail1 t d) (h : Hears s l) :
    t.digit = Voting.accepted 4 2 0 (d :: l.digits) := by
  rw [hw.digit, Voting.accepted, earlier_eq h, h.digit]

lemma Windowed.new_iff {t : Dtmf} {d : UInt8} (hw : Windowed s.dail1 t d) (h : Hears s l) :
    t.new = true ↔ Voting.accepted 4 2 0 (d :: l.digits) ≠ Voting.accepted 4 2 0 l.digits ∧ d ≠ 0 := by
  rw [hw.new, Voting.accepted, earlier_eq h, h.digit, h.new]
  split_ifs with hnew hvotes hvotes
  · exact ⟨fun _ => ⟨hnew.2.1.symm, hnew.2.2⟩, fun _ => rfl⟩
  · exact absurd hnew.1 hvotes
  · exact ⟨fun hfalse => absurd hfalse (by simp), fun hne => absurd ⟨hvotes, hne.1.symm, hne.2⟩ hnew⟩
  · exact ⟨fun hfalse => absurd hfalse (by simp), fun hne => absurd rfl hne.1⟩

/-- A window that is due, whatever becomes of the queue. -/
lemma Windowed.hears {t : Dtmf} {d : UInt8} (hw : Windowed s.dail1 t d) (h : Hears s l)
    {ringBuff : Ringbuf} {queue : BoundedFifo UInt8}
    (hqueue : HoldsKeys ringBuff queue l.on) :
    Hears { s with dail1 := { t with new := false }, ringBuff := ringBuff }
      { l with
        digits := d :: l.digits
        due := l.samples.length + 85
        waiting := 0
        queue := queue } := by
  refine ⟨h.enable, h.fifteen, fun i hi => ?_, ?_, ?_, Nat.zero_le _, ?_, hw.digit_eq h,
    fun i hi => ?_, rfl, hqueue⟩
  · rw [← h.stored i hi, ← hw.aInput]
    simp only [hw.aiIndex]
    congr 1
    omega
  · simp only [hw.aiIndex, hw.aiCheck]
    omega
  · simp only [hw.aiIndex]
    omega
  · simp only [hw.aiCheck]
    omega
  · have hnext : t.dI.toNat % 4 = (s.dail1.dI.toNat + 1) % 4 := by
      rw [hw.dI, UInt32.toNat_add, UInt32.toNat_one]
      omega
    simp only [hw.cells]
    cases i with
    | zero =>
        rw [List.getD_cons_zero, show (t.dI.toNat + 3 - 0) % 4 = s.dail1.dI.toNat % 4 by omega,
          Function.update_self]
    | succ i =>
        rw [List.getD_cons_succ, Function.update_of_ne (by omega), ← h.decided i (by omega)]
        congr 1
        omega

/-! ## An event -/

lemma holdsKeys_put {ringBuff : Ringbuf} {queue : BoundedFifo UInt8} {on : Bool}
    (h : Represents 32 ringBuff queue) (c : UInt8) :
    HoldsKeys (ringbufPut ringBuff c).2 (queue.step (.put c)).1 on :=
  Or.inl ((ring_simulation (n := 32) (by norm_num)).next h (.put c))

lemma holdsKeys_get {ringBuff : Ringbuf} {queue : BoundedFifo UInt8} {on : Bool}
    (h : HoldsKeys ringBuff queue on) :
    (ringbufGet ringBuff).2.1.getD 0 = queue.items.headD 0 ∧
      HoldsKeys (ringbufGet ringBuff).2.2 (queue.step .get).1 on := by
  rcases h with h | ⟨htail, rfl, rfl⟩
  · refine ⟨?_, Or.inl ((ring_simulation (n := 32) (by norm_num)).next h .get)⟩
    have hanswer := (ring_simulation (n := 32) (by norm_num)).answer h .get
    cases hitems : queue.items with
    | nil =>
        rw [ringStep, fifoStep, BoundedFifo.step_get_of_nil hitems] at hanswer
        rw [(RingAnswer.get.inj hanswer).2]
        rfl
    | cons c rest =>
        obtain ⟨q', hstep, -, -⟩ := BoundedFifo.step_get_of_cons hitems
        rw [ringStep, fifoStep, hstep] at hanswer
        rw [(RingAnswer.get.inj hanswer).2]
        rfl
  · rw [ringbufGet, if_pos htail]
    exact ⟨rfl, Or.inr ⟨htail, rfl, rfl⟩⟩

lemma holdsKeys_init (r : Ringbuf) (buf : ℕ → UInt8) (on : Bool) :
    HoldsKeys (ringbufInit r (some buf) 32).2 (BoundedFifo.empty 31) on := by
  refine Or.inl ⟨ValidRingbuf.init buf 32 (by norm_num) (by norm_num), ?_, ?_, rfl⟩
  · rw [ValidRingbuf.ringbufInit_eq]
  · exact BoundedFifo.ext rfl ((ValidRingbuf.contents_eq_nil_iff _).mpr rfl)

lemma dtmfTask_off (hoff : s.enable = false) : dtmfTask s = (0, s) := by
  rw [dtmfTask, hoff]
  rfl

lemma dtmfTask_due (hon : s.enable = true) (hdue : s.dail1.aiIndex ≥ s.dail1.aiCheck) :
    dtmfTask s =
      if (dtmfWindow s.dail1).new then
        (dtmfChar ((dtmfWindow s.dail1).digit &&& 0x0F).toNat,
          { s with
            ringBuff := (ringbufPut s.ringBuff
              (dtmfChar ((dtmfWindow s.dail1).digit &&& 0x0F).toNat)).2
            dail1 := { dtmfWindow s.dail1 with new := false } })
      else (0, { s with dail1 := dtmfWindow s.dail1 }) := by
  rw [dtmfTask, if_pos hon, if_pos hdue, dtmfDetect, if_pos hdue]

lemma dtmfTask_early (hon : s.enable = true) (hdue : ¬s.dail1.aiIndex ≥ s.dail1.aiCheck)
    (hnew : s.dail1.new = false) : dtmfTask s = (0, s) := by
  rw [dtmfTask, if_pos hon, if_neg hdue]
  simp only [hnew, Bool.false_eq_true, if_false]

/-- The task. -/
lemma hears_task (h : Hears s l) :
    (dtmfTask s).1 = l.task.1 ∧ Hears (dtmfTask s).2 l.task.2 := by
  rw [Listener.task]
  split_ifs with hoff hwait
  · rw [dtmfTask_off (by simpa [h.enable] using hoff)]
    exact ⟨rfl, h⟩
  · have hon : l.on = true := by simpa using hoff
    have hring := h.queue.resolve_right fun hq => by simp [hon] at hq
    have hoffset := h.due
    rw [dtmfTask_due (h.enable.trans hon) (UInt32.le_iff_toNat_le.mpr (by omega)), Listener.window]
    have hwindow := dtmfWindow_windowed s.dail1
    rw [heardDigit_eq h] at hwindow
    have hnew := hwindow.new_iff h
    have hdigit := hwindow.digit_eq h
    generalize dtmfWindow s.dail1 = t at *
    generalize heardDigit l.samples = d at *
    split_ifs with hset hreport hreport
    · rw [hdigit, (Voting.votes_of_accepted_ne hreport.1).1]
      exact ⟨rfl, hwindow.hears h (holdsKeys_put hring _)⟩
    · exact absurd (hnew.mp hset) hreport
    · exact absurd (hnew.mpr hreport) hset
    · have hrest := hwindow.hears h h.queue
      rw [Bool.not_eq_true] at hset
      cases t
      cases hset
      exact ⟨rfl, hrest⟩
  · have hon : l.on = true := by simpa using hoff
    have hoffset := h.due
    have hcheck := h.check
    rw [dtmfTask_early (h.enable.trans hon) (by rw [ge_iff_le, UInt32.le_iff_toNat_le]; omega) h.new]
    exact ⟨rfl, h.enable, h.fifteen, h.stored, h.due, by simp only; omega, Nat.zero_le _, h.check,
      h.digit, h.decided, h.new, h.queue⟩

/-- **What can happen, happens alike.** -/
lemma hears_next (h : Hears s l) {e : DtmfEvent} {r : UInt8 × Listener} (hr : l.next e = some r) :
    (dtmfEvent s e).1 = r.1 ∧ Hears (dtmfEvent s e).2 r.2 := by
  cases e with
  | sample v =>
      rw [Listener.next] at hr
      split_ifs at hr with hok
      obtain rfl := Option.some.inj hr
      exact ⟨rfl, hears_sample h hok.1 hok.2.1 hok.2.2⟩
  | task =>
      obtain rfl := Option.some.inj hr
      exact hears_task h
  | init buf =>
      obtain rfl := Option.some.inj hr
      exact ⟨rfl, rfl, h.fifteen, h.stored, h.due, h.index, h.waiting, h.check, h.digit, h.decided,
        h.new, holdsKeys_init s.ringBuff buf true⟩
  | deInit =>
      obtain rfl := Option.some.inj hr
      exact ⟨rfl, rfl, h.fifteen, h.stored, h.due, h.index, h.waiting, h.check, h.digit, h.decided,
        h.new, h.queue.imp_right fun hq => ⟨hq.1, hq.2.1, rfl⟩⟩
  | take =>
      obtain rfl := Option.some.inj hr
      obtain ⟨hanswer, hqueue⟩ := holdsKeys_get h.queue
      exact ⟨hanswer, h.enable, h.fifteen, h.stored, h.due, h.index, h.waiting, h.check, h.digit,
        h.decided, h.new, hqueue⟩

lemma hears_run (h : Hears s l) {events : List DtmfEvent} {r : List UInt8 × Listener}
    (hr : l.run events = some r) :
    (dtmfRun s events).1 = r.1 ∧ Hears (dtmfRun s events).2 r.2 := by
  induction events generalizing s l r with
  | nil =>
      obtain rfl := Option.some.inj hr
      exact ⟨rfl, h⟩
  | cons e es ih =>
      rw [Listener.run, Option.bind_eq_some_iff] at hr
      obtain ⟨r', hnext, hmap⟩ := hr
      obtain ⟨q, hrun, rfl⟩ := Option.map_eq_some_iff.mp hmap
      obtain ⟨hanswer, hstep⟩ := hears_next h hnext
      obtain ⟨hanswers, hrest⟩ := ih hstep hrun
      exact ⟨by rw [dtmfRun, hanswer, hanswers], hrest⟩

/-! ## Whole runs -/

/-- The keys that the task hands out in a run, of what every event hands out. -/
def taskKeys : List DtmfEvent → List UInt8 → List UInt8
  | .task :: es, c :: cs => if c = 0 then taskKeys es cs else c :: taskKeys es cs
  | _ :: es, _ :: cs => taskKeys es cs
  | _, _ => []

lemma digitKey_ne_zero (d : UInt8) : digitKey d ≠ 0 := by
  have hlt : (d &&& 0x0F).toNat < 16 := by
    rw [UInt8.toNat_and]
    exact Nat.lt_of_le_of_lt Nat.and_le_right (by decide)
  rw [digitKey]
  generalize (d &&& 0x0F).toNat = k at hlt
  interval_cases k <;> decide

lemma keysOf_cons (d : UInt8) (ds : List UInt8) :
    keysOf (d :: ds) = keysOf ds ++
      if Voting.accepted 4 2 0 (d :: ds) ≠ Voting.accepted 4 2 0 ds ∧ d ≠ 0 then [digitKey d]
      else [] := by
  rw [keysOf, Voting.reports]
  split_ifs with hreport
  · rw [List.map_cons, List.reverse_cons, keysOf]
  · rw [List.append_nil, keysOf]

lemma Listener.window_keys (l : Listener) :
    keysOf l.window.2.digits = keysOf l.digits ++ if l.window.1 = 0 then [] else [l.window.1] := by
  simp only [Listener.window]
  split_ifs with hreport hkey hkey
  · exact absurd hkey (digitKey_ne_zero _)
  · exact (keysOf_cons ..).trans (by rw [if_pos hreport])
  · exact (keysOf_cons ..).trans (by rw [if_neg hreport])
  · exact absurd rfl hkey

lemma Listener.task_keys (l : Listener) :
    keysOf l.task.2.digits = keysOf l.digits ++ if l.task.1 = 0 then [] else [l.task.1] := by
  rcases Bool.eq_false_or_eq_true l.on with hon | hoff
  · by_cases hdue : l.due ≤ l.samples.length
    · simpa [Listener.task, hon, hdue] using l.window_keys
    · simp [Listener.task, hon, hdue]
  · simp [Listener.task, hoff]

/-- What the listener hands out are the keys for its decisions. -/
lemma Listener.run_keys {events : List DtmfEvent} {r : List UInt8 × Listener}
    (hr : l.run events = some r) :
    keysOf l.digits ++ taskKeys events r.1 = keysOf r.2.digits := by
  induction events generalizing l r with
  | nil =>
      obtain rfl := Option.some.inj hr
      exact List.append_nil _
  | cons e es ih =>
      rw [Listener.run, Option.bind_eq_some_iff] at hr
      obtain ⟨r', hnext, hmap⟩ := hr
      obtain ⟨q, hrun, rfl⟩ := Option.map_eq_some_iff.mp hmap
      rw [← ih hrun]
      cases e with
      | sample v =>
          rw [Listener.next] at hnext
          split_ifs at hnext
          obtain rfl := Option.some.inj hnext
          rfl
      | task =>
          obtain rfl := Option.some.inj hnext
          rw [taskKeys, Listener.task_keys]
          split_ifs <;> simp
      | init buf =>
          obtain rfl := Option.some.inj hnext
          rfl
      | deInit =>
          obtain rfl := Option.some.inj hnext
          rfl
      | take =>
          obtain rfl := Option.some.inj hnext
          rfl

variable {events : List DtmfEvent} {r : List UInt8 × Listener}

/-- The keys that the code hands out. -/
lemma dtmfRun_taskKeys (h : Listener.start.run events = some r) :
    taskKeys events (dtmfRun dtmfStart events).1 = keysOf r.2.digits := by
  rw [(hears_run hears_start h).1]
  exact Listener.run_keys h

/-- **The detector is the listener.**  From power on, with samples, calls of the task, starts, stops
and keys taken in any order, every call hands out what it does for the listener, whose decisions are
on windows of the newest 127 samples and the one of 256 samples ago; and the task hands out a key
exactly when another digit than before is accepted. -/
theorem dtmfRun_refines (h : Listener.start.run events = some r) :
    (dtmfRun dtmfStart events).1 = r.1 ∧ Hears (dtmfRun dtmfStart events).2 r.2 ∧
      taskKeys events (dtmfRun dtmfStart events).1 = keysOf r.2.digits :=
  ⟨(hears_run hears_start h).1, (hears_run hears_start h).2, dtmfRun_taskKeys h⟩

/-- **No key from fewer.**  Every key that is handed out is that of a digit that a window decided on
when two of the four windows before had. -/
theorem dtmfRun_votes {k : UInt8} (h : Listener.start.run events = some r)
    (hk : k ∈ taskKeys events (dtmfRun dtmfStart events).1) :
    ∃ as c bs, r.2.digits = as ++ c :: bs ∧ c ≠ 0 ∧ digitKey c = k ∧
      2 ≤ Voting.votes 4 0 bs c := by
  rw [dtmfRun_taskKeys h, keysOf, List.mem_reverse, List.mem_map] at hk
  obtain ⟨c, hc, rfl⟩ := hk
  obtain ⟨as, bs, hdigits, hne, hvotes⟩ := Voting.votes_of_mem_reports hc
  exact ⟨as, c, bs, hdigits, hne, rfl, hvotes⟩

/-- **A key is one key.**  A digit that three windows in a row decide on, and that was not the
accepted one, is handed out once, however often it is decided on and whatever else is decided on
afterwards, as long as nothing else has two votes of the four windows before. -/
theorem dtmfRun_key {c : UInt8} {es ds : List UInt8} (h : Listener.start.run events = some r)
    (hdigits : r.2.digits = es ++ (List.replicate 3 c ++ ds)) (hc : c ≠ 0)
    (hds : Voting.accepted 4 2 0 ds ≠ c)
    (hes : ∀ as x bs, es = as ++ x :: bs → x ≠ c →
      Voting.votes 4 0 (bs ++ (List.replicate 3 c ++ ds)) x < 2) :
    taskKeys events (dtmfRun dtmfStart events).1 = keysOf ds ++ [digitKey c] := by
  have haccepted : Voting.accepted 4 2 0 (List.replicate 3 c ++ ds) = c :=
    Voting.accepted_replicate (by norm_num)
  have hfew : ∀ as x bs, es = as ++ x :: bs →
      x ≠ Voting.accepted 4 2 0 (List.replicate 3 c ++ ds) →
      Voting.votes 4 0 (bs ++ (List.replicate 3 c ++ ds)) x < 2 :=
    fun as x bs heq hx => hes as x bs heq (haccepted ▸ hx)
  have hhold := Voting.hold es hfew
  calc taskKeys events (dtmfRun dtmfStart events).1 = keysOf r.2.digits := dtmfRun_taskKeys h
    _ = ((Voting.reports 4 2 0 (List.replicate 3 c ++ ds)).map digitKey).reverse := by
        rw [hdigits, keysOf, hhold.2]
    _ = keysOf ds ++ [digitKey c] := by
        rw [Voting.reports_replicate (by norm_num) hc hds, List.map_cons, List.reverse_cons, keysOf]

/-- Samples in a row. -/
lemma Listener.run_samples {vs : List UInt16} {es : List DtmfEvent} (hon : l.on = true)
    (hvs : ∀ v ∈ vs, v.toNat < 2 ^ 15) (hwait : l.waiting + vs.length ≤ 2 ^ 32 - 512) :
    l.run (vs.map .sample ++ es) =
      (Listener.run { l with samples := vs.reverse ++ l.samples, waiting := l.waiting + vs.length }
        es).map fun q => (List.replicate vs.length 0 ++ q.1, q.2) := by
  induction vs generalizing l with
  | nil => simp
  | cons v vs ih =>
      rw [List.length_cons] at hwait
      have hnext : l.next (.sample v) =
          some (0, { l with samples := v :: l.samples, waiting := l.waiting + 1 }) :=
        if_pos ⟨hon, hvs v List.mem_cons_self, by omega⟩
      have hrest := ih (l := { l with samples := v :: l.samples, waiting := l.waiting + 1 }) hon
        (fun w hw => hvs w (List.mem_cons_of_mem _ hw)) (by simp only; omega)
      rw [List.map_cons, List.cons_append, Listener.run, hnext, Option.bind_some, hrest]
      simp [List.replicate_succ, Function.comp_def, ← Nat.add_assoc, Nat.add_right_comm]

/-- A period of the tones of `0`, 85 samples long. -/
def zeroTone : List UInt16 :=
  [250, 419, 456, 342, 178, 94, 136, 242, 310, 302, 261, 254, 292, 315, 266, 161, 93, 145, 300,
    439, 444, 298, 115, 37, 119, 284, 397, 384, 285, 199, 190, 230, 250, 219, 185, 215, 312, 399,
    380, 243, 86, 42, 156, 344, 458, 414, 257, 120, 101, 188, 285, 315, 281, 250, 270, 310, 301,
    215, 116, 103, 216, 381, 463, 385, 202, 56, 61, 200, 355, 407, 339, 234, 185, 208, 246, 239,
    198, 190, 258, 364, 406, 322, 158, 44, 81]

/-- The samples after `n` periods. -/
def zeroSamples : ℕ → List UInt16
  | 0 => []
  | n + 1 => zeroTone ++ zeroSamples n

lemma zeroSamples_lt (n : ℕ) : ∀ v ∈ zeroSamples n, v.toNat < 2 ^ 15 := by
  have hall : zeroTone.all (·.toNat < 2 ^ 15) = true := by decide +kernel
  induction n with
  | zero => simp [zeroSamples]
  | succ n ih =>
      intro v hv
      rcases List.mem_append.mp hv with hv | hv
      · exact of_decide_eq_true (List.all_eq_true.mp hall v hv)
      · exact ih v hv

/-- A start, the tones of `0` for three periods, and one more before each of three calls of the
task. -/
def zeroEvents : List DtmfEvent :=
  .init (fun _ => 0) :: ((zeroSamples 3).reverse.map .sample ++
    (zeroTone.reverse.map .sample ++ .task :: (zeroTone.reverse.map .sample ++ .task ::
      (zeroTone.reverse.map .sample ++ [.task]))))

lemma heard_zeroTone : heard (zeroSamples 5) = heard (zeroSamples 4) ∧
    heard (zeroSamples 6) = heard (zeroSamples 4) := by
  have hcells : ∀ k < 127, (zeroSamples 5).getD (126 - k) 0 = (zeroSamples 4).getD (126 - k) 0 ∧
      (zeroSamples 6).getD (126 - k) 0 = (zeroSamples 4).getD (126 - k) 0 := by
    decide +kernel
  refine ⟨?_, ?_⟩ <;> funext k <;> rw [heard, heard] <;> split_ifs with hk
  · rw [(hcells k hk).1]
  · rfl
  · rw [(hcells k hk).2]
  · rfl

lemma meanOf_zeroTone : meanOf (heard (zeroSamples 4)) = 250 := by decide +kernel

lemma heard_zeroTone_bounds : ∀ k < 128, 37 ≤ heard (zeroSamples 4) k ∧ heard (zeroSamples 4) k ≤ 463 := by
  decide +kernel

lemma spanOf_zeroTone : spanOf (heard (zeroSamples 4)) = 426 := by
  apply le_antisymm
  · refine spanOn_le fun i hi j hj => ?_
    have hmax := (heard_zeroTone_bounds i hi).2
    have hmin := (heard_zeroTone_bounds j hj).1
    omega
  · have hwide : heard (zeroSamples 4) 64 - heard (zeroSamples 4) 18 = 426 := by decide +kernel
    rw [← hwide]
    exact sub_le_spanOn (by norm_num) (by norm_num)

lemma levelled_zeroTone (k : ℕ) : levelled (heard (zeroSamples 4)) k = (heard (zeroSamples 4) k : ℤ) - 250 := by
  have hlog : Nat.log 2 426 = 8 := (Nat.log_eq_iff (by norm_num)).mpr (by norm_num)
  rw [levelled, meanOf_zeroTone, spanOf_zeroTone, hlog]
  exact Int.mul_ediv_cancel _ (by norm_num)

lemma heardDigit_zeroTone : heardDigit (zeroSamples 4) = 0x1D := by
  simp only [heardDigit, levelled_zeroTone]
  decide +kernel

lemma Listener.window_rest (l : Listener) : l.window.2.on = l.on ∧ l.window.2.samples = l.samples ∧
    l.window.2.waiting = 0 ∧ l.window.2.due = l.samples.length + 85 ∧
      l.window.2.digits = heardDigit l.samples :: l.digits := by
  simp only [Listener.window]
  split_ifs <;> exact ⟨rfl, rfl, rfl, rfl, rfl⟩

lemma Listener.task_due (hon : l.on = true) (hdue : l.due ≤ l.samples.length) :
    l.task = l.window := by
  simp [Listener.task, hon, hdue]

/-- One more period, and a call of the task. -/
lemma run_zeroTone {n : ℕ} {es : List DtmfEvent} (hon : l.on = true)
    (hsamples : l.samples = zeroSamples n) (hwait : l.waiting ≤ 255)
    (hdue : l.due ≤ (zeroSamples (n + 1)).length) (hdigit : heardDigit (zeroSamples (n + 1)) = 0x1D) :
    ∃ l' : Listener, l'.on = true ∧ l'.samples = zeroSamples (n + 1) ∧ l'.waiting = 0 ∧
      l'.due = (zeroSamples (n + 1)).length + 85 ∧ l'.digits = 0x1D :: l.digits ∧
      ∀ r, l'.run es = some r → ∃ answers,
        l.run (zeroTone.reverse.map .sample ++ .task :: es) = some (answers, r.2) := by
  have hlt : ∀ v ∈ zeroTone.reverse, v.toNat < 2 ^ 15 := fun v hv =>
    zeroSamples_lt 1 v (List.mem_append_left _ (List.mem_reverse.mp hv))
  have hlength : zeroTone.reverse.length = 85 := rfl
  have hrun : l.run (zeroTone.reverse.map .sample ++ .task :: es) = _ :=
    Listener.run_samples hon hlt (by omega)
  rw [List.reverse_reverse, hsamples, hlength, ← zeroSamples] at hrun
  let l' : Listener := { l with samples := zeroSamples (n + 1), waiting := l.waiting + 85 }
  have htask : l'.task = l'.window := Listener.task_due hon hdue
  obtain ⟨hon', hsamples', hwait', hdue', hdigits'⟩ := l'.window_rest
  refine ⟨l'.window.2, hon'.trans hon, hsamples', hwait', hdue', ?_, fun r hr => ?_⟩
  · rw [hdigits', show l'.samples = zeroSamples (n + 1) from rfl, hdigit]
  · refine ⟨List.replicate 85 0 ++ l'.window.1 :: r.1, ?_⟩
    rw [hrun, Listener.run, Listener.next, htask, Option.bind_some, hr]
    rfl

lemma zeroEvents_run : ∃ r, Listener.start.run zeroEvents = some r ∧
    r.2.digits = List.replicate 3 0x1D := by
  have hlt : ∀ v ∈ (zeroSamples 3).reverse, v.toNat < 2 ^ 15 := fun v hv =>
    zeroSamples_lt 3 v (List.mem_reverse.mp hv)
  have h5 : heardDigit (zeroSamples 5) = 0x1D := by
    rw [heardDigit, heard_zeroTone.1, ← heardDigit, heardDigit_zeroTone]
  have h6 : heardDigit (zeroSamples 6) = 0x1D := by
    rw [heardDigit, heard_zeroTone.2, ← heardDigit, heardDigit_zeroTone]
  let l₃ : Listener := ⟨true, zeroSamples 3, 128, 255, [], BoundedFifo.empty 31⟩
  obtain ⟨l₄, hon₄, hsamples₄, hwait₄, hdue₄, hdigits₄, hrun₄⟩ :=
    run_zeroTone (l := l₃) rfl rfl le_rfl (by decide +kernel) heardDigit_zeroTone
  obtain ⟨l₅, hon₅, hsamples₅, hwait₅, hdue₅, hdigits₅, hrun₅⟩ :=
    run_zeroTone hon₄ hsamples₄ (by omega) (by rw [hdue₄]; decide +kernel) h5
  obtain ⟨l₆, hon₆, hsamples₆, hwait₆, hdue₆, hdigits₆, hrun₆⟩ :=
    run_zeroTone hon₅ hsamples₅ (by omega) (by rw [hdue₅]; decide +kernel) h6
  obtain ⟨answers₆, hrest₆⟩ := hrun₆ _ (rfl : l₆.run [] = some ([], l₆))
  obtain ⟨answers₅, hrest₅⟩ := hrun₅ _ hrest₆
  obtain ⟨answers₄, hrest₄⟩ := hrun₄ _ hrest₅
  refine ⟨(0 :: (List.replicate 255 0 ++ answers₄), l₆), ?_, ?_⟩
  · have hlength : (zeroSamples 3).reverse.length = 255 := by decide +kernel
    rw [zeroEvents, Listener.run, Listener.next, Option.bind_some, Listener.start,
      Listener.run_samples rfl hlt (by decide +kernel), List.reverse_reverse, List.append_nil, hlength,
      hrest₄]
    rfl
  · rw [hdigits₆, hdigits₅, hdigits₄]
    rfl

/-- A run of the tones of `0`: three windows decide on it, and the detector is the listener. -/
theorem dtmfRun_refines_zero : ∃ r, Listener.start.run zeroEvents = some r ∧
    r.2.digits = List.replicate 3 0x1D ∧ (dtmfRun dtmfStart zeroEvents).1 = r.1 ∧
    Hears (dtmfRun dtmfStart zeroEvents).2 r.2 ∧
    taskKeys zeroEvents (dtmfRun dtmfStart zeroEvents).1 = keysOf r.2.digits := by
  obtain ⟨r, hrun, hthree⟩ := zeroEvents_run
  exact ⟨r, hrun, hthree, dtmfRun_refines hrun⟩

/-- A run of the tones of `0`: the key, once. -/
theorem dtmfRun_key_zero : taskKeys zeroEvents (dtmfRun dtmfStart zeroEvents).1 = [48] := by
  obtain ⟨r, hrun, hthree⟩ := zeroEvents_run
  have hdigits : r.2.digits = [] ++ (List.replicate 3 0x1D ++ []) := by
    rw [hthree]
    rfl
  exact dtmfRun_key hrun hdigits (by decide) (by decide) (by simp)

end Ampm

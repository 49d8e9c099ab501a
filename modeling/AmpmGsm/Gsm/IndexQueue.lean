import AmpmGsm.Gsm.SmsRecv

/-!
# The queue of SMS indices

`ampm_gsm_sms.c`: a notification of a new message puts two bytes into `smsUnreadRingBuff`, of which
31 can be used, and the receive chain takes them out in pairs.  Nobody looks at what `RINGBUF_Put`
returns: when there is room for one byte only, the low byte of an index is queued without the high
one.

* `Notification`, `notify` — what the modem says, and what the URC callbacks make of it.
* `indexStep`, `IndexSound` — the runs, and what is asked of them.
* `HasRoom` — the condition at a notification.
* `indexQueue_sound` — the runs in which only indices are taken out that were notified.
* `indexQueue_misaligned` — 17 notifications, and an index that nobody has notified.
-/

namespace Ampm

open Runs

/-! ## Notifications -/

/-- The result codes that carry an index. -/
inductive IndexUrc
  | cmti
  | cmgl

/-- The callbacks. -/
def IndexUrc.process : IndexUrc → UInt16 → UInt8 → GsmWorld → UInt32 × GsmWorld
  | .cmti => smsProcess
  | .cmgl => smsUrcIncomming

/-- A complete notification: the digits of the index, and the byte behind them. -/
structure Notification where
  digits : List UInt8
  stop : UInt8
  nonempty : digits ≠ []
  length_le : digits.length ≤ 3
  digit : ∀ c ∈ digits, isDigit c = true
  stops : isDigit stop = false

/-- The index. -/
def Notification.index (n : Notification) : ℕ :=
  n.digits.foldl (fun v c => 10 * v + (c.toNat - 48)) 0

/-- The bytes of a notification go to the callback, with their numbers. -/
def notify (urc : IndexUrc) (n : Notification) (w : GsmWorld) : GsmWorld :=
  (n.digits ++ [n.stop]).zipIdx.foldl (fun w c => (urc.process c.2.toUInt16 c.1 w).2) w

/-! ## Runs -/

/-- A notification, or a call of an end callback that takes an index out. -/
inductive IndexEvent
  | notify (urc : IndexUrc) (n : Notification)
  | recv0
  | recv1

/-- The library, and the indices that were notified and taken out. -/
structure IndexRun where
  w : GsmWorld
  notified : List ℕ
  popped : List ℕ

/-- What the callbacks take out of the ring. -/
def poppedIndex (w w' : GsmWorld) : List ℕ :=
  if ringbufGetFill w.app.smsUnreadRingBuff ≥ 2 then [w'.app.smsIndex.toNat] else []

/-- One event. -/
def indexStep (s : IndexRun) : IndexEvent → IndexRun
  | .notify urc n => { s with w := notify urc n s.w, notified := s.notified ++ [n.index] }
  | .recv0 =>
      let w := (gsmSmsRecv0 s.w).2
      { s with w := w, popped := s.popped ++ poppedIndex s.w w }
  | .recv1 =>
      let w := (gsmSmsRecv1 s.w).2
      { s with w := w, popped := s.popped ++ poppedIndex s.w w }

/-- Only indices that were notified are taken out, in their order. -/
def IndexSound (s : IndexRun) : Prop := s.popped.Sublist s.notified

/-- A notification does not come when there is room for one byte only. -/
def HasRoom (s : IndexRun) : IndexEvent → Prop
  | .notify _ _ => ringbufGetFill s.w.app.smsUnreadRingBuff ≠ 30
  | _ => True

/-- `Ampm_SmsTask_Init` has run, and nothing was notified yet. -/
structure IndexStart (s : IndexRun) : Prop where
  ring : ∃ r buf, s.w.app.smsUnreadRingBuff = (ringbufInit r (some buf) 32).2
  notified : s.notified = []
  popped : s.popped = []

/-! ## The bytes of an index -/

/-- The two bytes that are queued. -/
def indexBytes (i : ℕ) : List UInt8 := [i.toUInt8, (i / 256).toUInt8]

section Bytes

/-- What `Ampm_GsmSmsRecv0` makes of them. -/
lemma join_indexBytes {i : ℕ} (h : i < 2 ^ 16) :
    (i.toUInt8.toUInt16 ||| (((i / 256).toUInt8.toUInt16) <<< 8)).toNat = i := by
  have hlow : i.toUInt8.toUInt16.toNat = i % 256 := by simp
  have hhigh : ((i / 256).toUInt8.toUInt16 <<< 8).toNat = (i / 256) <<< 8 := by
    simp [Nat.shiftLeft_eq]
    omega
  rw [UInt16.toNat_or, hlow, hhigh, Nat.or_comm,
    ← Nat.shiftLeft_add_eq_or_of_lt (show i % 256 < 2 ^ 8 from Nat.mod_lt _ (by decide)),
    Nat.shiftLeft_eq]
  omega

/-- What the callbacks count up to. -/
def Notification.length (n : Notification) : UInt32 :=
  n.digits.foldl (fun length c => length * 10 + (c.toUInt32 - 48)) 0

/-- The digits are one, two or three. -/
lemma Notification.digits_cases (n : Notification) :
    (∃ a, n.digits = [a]) ∨ (∃ a b, n.digits = [a, b]) ∨ ∃ a b c, n.digits = [a, b, c] := by
  have hne := n.nonempty
  have hle := n.length_le
  rcases hd : n.digits with _ | ⟨a, _ | ⟨b, _ | ⟨c, _ | ⟨d, ds⟩⟩⟩⟩
  · exact absurd hd hne
  · exact Or.inl ⟨a, rfl⟩
  · exact Or.inr (Or.inl ⟨a, b, rfl⟩)
  · exact Or.inr (Or.inr ⟨a, b, c, rfl⟩)
  · rw [hd] at hle
    exact absurd hle (by simp)

lemma digit_bounds {c : UInt8} (h : isDigit c = true) : 48 ≤ c.toNat ∧ c.toNat ≤ 57 := by
  simp only [isDigit, Bool.and_eq_true, decide_eq_true_eq, UInt8.le_iff_toNat_le] at h
  exact h

lemma digit_toNat {c : UInt8} (h : isDigit c = true) :
    (c.toUInt32 - 48).toNat = c.toNat - 48 := by
  obtain ⟨hlow, -⟩ := digit_bounds h
  rw [UInt32.toNat_sub_of_le, UInt8.toNat_toUInt32]
  · rfl
  · rw [UInt32.le_iff_toNat_le, UInt8.toNat_toUInt32]
    exact hlow

/-- One more digit does not overflow. -/
lemma next_digit {v : UInt32} {m : ℕ} {c : UInt8} (hv : v.toNat = m) (hm : m < 100)
    (hc : isDigit c = true) :
    (v * 10 + (c.toUInt32 - 48)).toNat = 10 * m + (c.toNat - 48) ∧
      10 * m + (c.toNat - 48) < 10 * m + 10 := by
  obtain ⟨hlow, hhigh⟩ := digit_bounds hc
  have hdigit : (c.toUInt32 - 48).toNat = c.toNat - 48 := digit_toNat hc
  have hten : (10 : UInt32).toNat = 10 := rfl
  rw [UInt32.toNat_add, UInt32.toNat_mul, hdigit, hv, hten]
  constructor <;> omega

lemma Notification.length_toNat (n : Notification) : n.length.toNat = n.index ∧ n.index < 1000 := by
  have hdigit := n.digit
  rw [Notification.length, Notification.index]
  rcases n.digits_cases with ⟨a, hd⟩ | ⟨a, b, hd⟩ | ⟨a, b, c, hd⟩ <;> rw [hd] at hdigit ⊢ <;>
    simp only [List.forall_mem_cons, List.foldl_cons, List.foldl_nil] at hdigit ⊢
  · obtain ⟨h1, hb1⟩ := next_digit (show (0 : UInt32).toNat = 0 from rfl) (by decide) hdigit.1
    exact ⟨h1, by omega⟩
  · obtain ⟨h1, hb1⟩ := next_digit (show (0 : UInt32).toNat = 0 from rfl) (by decide) hdigit.1
    obtain ⟨h2, hb2⟩ := next_digit h1 (by omega) hdigit.2.1
    exact ⟨h2, by omega⟩
  · obtain ⟨h1, hb1⟩ := next_digit (show (0 : UInt32).toNat = 0 from rfl) (by decide) hdigit.1
    obtain ⟨h2, hb2⟩ := next_digit h1 (by omega) hdigit.2.1
    obtain ⟨h3, hb3⟩ := next_digit h2 (by omega) hdigit.2.2.1
    exact ⟨h3, by omega⟩

/-- The bytes that the callback puts are the index's. -/
lemma Notification.bytes_eq (n : Notification) :
    [n.length.toUInt8, (n.length >>> 8).toUInt8] = indexBytes n.index := by
  obtain ⟨hvalue, hlt⟩ := n.length_toNat
  have hshift : (n.length >>> 8).toNat = n.length.toNat / 2 ^ 8 := by
    rw [UInt32.toNat_shiftRight]
    exact Nat.shiftRight_eq_div_pow n.length.toNat 8
  have hlow : n.length.toUInt8 = n.index.toUInt8 := by
    apply UInt8.toNat_inj.mp
    rw [UInt32.toNat_toUInt8, hvalue, UInt8.toNat_ofNat']
  have hhigh : (n.length >>> 8).toUInt8 = (n.index / 256).toUInt8 := by
    apply UInt8.toNat_inj.mp
    have hbyte : (2 : ℕ) ^ 8 = 256 := rfl
    rw [UInt32.toNat_toUInt8, hshift, hvalue, UInt8.toNat_ofNat', hbyte]
  rw [indexBytes, hlow, hhigh]

end Bytes

section Notify

/-- The static variable of the callback. -/
def IndexUrc.length : IndexUrc → GsmState → UInt32
  | .cmti, s => s.smsProcessLength
  | .cmgl, s => s.urcIncommingLength

/-- What one byte of a notification does to the static variable and to the ring. -/
lemma IndexUrc.process_eq (urc : IndexUrc) (cnt : UInt16) (c : UInt8) (w : GsmWorld) :
    urc.length (urc.process cnt c w).2.app
        = (smsIndexDigit cnt c (urc.length w.app) w.app.smsUnreadRingBuff).2.1 ∧
      (urc.process cnt c w).2.app.smsUnreadRingBuff
        = (smsIndexDigit cnt c (urc.length w.app) w.app.smsUnreadRingBuff).2.2 := by
  cases urc with
  | cmti =>
      by_cases hcnt : cnt = 0
      · subst hcnt
        exact ⟨rfl, rfl⟩
      · simp only [IndexUrc.process, IndexUrc.length, smsProcess, if_neg hcnt]
        exact ⟨rfl, rfl⟩
  | cmgl => exact ⟨rfl, rfl⟩

/-- The digits are counted up, and the byte behind them queues what they make. -/
lemma IndexUrc.first_digit (urc : IndexUrc) {c : UInt8} (hc : isDigit c = true) (w : GsmWorld) :
    urc.length (urc.process 0 c w).2.app = 0 * 10 + (c.toUInt32 - 48) ∧
      (urc.process 0 c w).2.app.smsUnreadRingBuff = w.app.smsUnreadRingBuff := by
  obtain ⟨hlength, hring⟩ := urc.process_eq 0 c w
  rw [hlength, hring]
  simp [smsIndexDigit, hc]

lemma IndexUrc.later_digit (urc : IndexUrc) {cnt : UInt16} {c : UInt8} (hcnt : cnt ≠ 0)
    (hle : cnt ≤ 3) (hc : isDigit c = true) (w : GsmWorld) :
    urc.length (urc.process cnt c w).2.app = urc.length w.app * 10 + (c.toUInt32 - 48) ∧
      (urc.process cnt c w).2.app.smsUnreadRingBuff = w.app.smsUnreadRingBuff := by
  obtain ⟨hlength, hring⟩ := urc.process_eq cnt c w
  rw [hlength, hring]
  simp [smsIndexDigit, hcnt, hle, hc]

lemma IndexUrc.stop_byte (urc : IndexUrc) {cnt : UInt16} {c : UInt8} (hcnt : cnt ≠ 0)
    (hle : cnt ≤ 3) (hc : isDigit c = false) (w : GsmWorld) :
    (urc.process cnt c w).2.app.smsUnreadRingBuff
      = putSmsIndex w.app.smsUnreadRingBuff (urc.length w.app) := by
  rw [(urc.process_eq cnt c w).2]
  simp [smsIndexDigit, hcnt, hle, hc]

/-- A notification queues its index. -/
lemma notify_ring (urc : IndexUrc) (n : Notification) (w : GsmWorld) :
    (notify urc n w).app.smsUnreadRingBuff = putSmsIndex w.app.smsUnreadRingBuff n.length := by
  have hdigit := n.digit
  have hstop := n.stops
  rw [notify, Notification.length]
  rcases n.digits_cases with ⟨a, hd⟩ | ⟨a, b, hd⟩ | ⟨a, b, c, hd⟩ <;> rw [hd] at hdigit ⊢ <;>
    simp only [List.forall_mem_cons, List.foldl_cons, List.foldl_nil, List.cons_append,
      List.nil_append, List.zipIdx_cons, List.zipIdx_nil] at hdigit ⊢
  · obtain ⟨hlength, hring⟩ := urc.first_digit hdigit.1 w
    have hput := urc.stop_byte (show (1 : UInt16) ≠ 0 by decide) (by decide) hstop
      (urc.process 0 a w).2
    rw [hlength, hring] at hput
    exact hput
  · obtain ⟨hlength, hring⟩ := urc.first_digit hdigit.1 w
    obtain ⟨hlength', hring'⟩ := urc.later_digit (show (1 : UInt16) ≠ 0 by decide) (by decide)
      hdigit.2.1 (urc.process 0 a w).2
    have hput := urc.stop_byte (show (2 : UInt16) ≠ 0 by decide) (by decide) hstop
      (urc.process 1 b (urc.process 0 a w).2).2
    rw [hlength', hring', hlength, hring] at hput
    exact hput
  · obtain ⟨hlength, hring⟩ := urc.first_digit hdigit.1 w
    obtain ⟨hlength₁, hring₁⟩ := urc.later_digit (show (1 : UInt16) ≠ 0 by decide) (by decide)
      hdigit.2.1 (urc.process 0 a w).2
    obtain ⟨hlength₂, hring₂⟩ := urc.later_digit (show (2 : UInt16) ≠ 0 by decide) (by decide)
      hdigit.2.2.1 (urc.process 1 b (urc.process 0 a w).2).2
    have hput := urc.stop_byte (show (3 : UInt16) ≠ 0 by decide) (by decide) hstop
      (urc.process 2 c (urc.process 1 b (urc.process 0 a w).2).2).2
    rw [hlength₂, hring₂, hlength₁, hring₁, hlength, hring] at hput
    exact hput

end Notify

/-! ## The invariant -/

/-- The ring holds the bytes of indices that were notified and not taken out. -/
structure Aligned (s : IndexRun) (v : ValidRingbuf) (queued : List ℕ) : Prop where
  ring : v.toRingbuf = s.w.app.smsUnreadRingBuff
  size : v.size = 32
  contents : v.contents = queued.flatMap indexBytes
  small : ∀ i ∈ queued, i < 1000
  sublist : (s.popped ++ queued).Sublist s.notified

/-- Some indices are queued. -/
def IndexAligned (s : IndexRun) : Prop := ∃ v queued, Aligned s v queued

section Invariant

variable {s : IndexRun} {v : ValidRingbuf} {queued : List ℕ}

lemma length_flatMap_indexBytes (is : List ℕ) : (is.flatMap indexBytes).length = 2 * is.length := by
  induction is with
  | nil => rfl
  | cons i is ih =>
      rw [List.flatMap_cons, List.length_append, ih, indexBytes, List.length_cons,
        List.length_cons, List.length_nil, List.length_cons]
      omega

lemma IndexStart.aligned (h : IndexStart s) : IndexAligned s := by
  obtain ⟨r, buf, hring⟩ := h.ring
  refine ⟨ValidRingbuf.init buf 32 (by decide) (by decide), [], ?_, rfl, ?_, by simp, ?_⟩
  · rw [hring, ValidRingbuf.ringbufInit_eq r buf 32 (by decide) (by decide)]
  · exact (ValidRingbuf.contents_eq_nil_iff _).mpr rfl
  · rw [h.popped, h.notified]
    exact List.Sublist.refl []

lemma Aligned.fill (h : Aligned s v queued) :
    ringbufGetFill s.w.app.smsUnreadRingBuff = 2 * queued.length := by
  rw [← h.ring, v.ringbufGetFill_eq (by rw [h.size]; decide), h.contents,
    length_flatMap_indexBytes]
  push_cast
  rfl

lemma Aligned.sound (h : Aligned s v queued) : IndexSound s :=
  (List.sublist_append_left s.popped queued).trans h.sublist

/-- A notification that finds room queues its index. -/
lemma Aligned.put (h : Aligned s v queued)
    (hroom : ringbufGetFill s.w.app.smsUnreadRingBuff ≠ 30) (n : Notification) :
    ∃ v' : ValidRingbuf, v'.toRingbuf = putSmsIndex s.w.app.smsUnreadRingBuff n.length ∧
      v'.size = 32 ∧ v'.contents = (queued ++ [n.index]).flatMap indexBytes := by
  have hlt : v.contents.length < v.size := v.contents_length_lt
  have hlen : v.contents.length = 2 * queued.length := by
    rw [h.contents, length_flatMap_indexBytes]
  have hne : 2 * queued.length ≠ 30 := by
    intro heq
    apply hroom
    rw [h.fill]
    exact_mod_cast heq
  have hsize := h.size
  -- an even number of bytes below 30 leaves room for both
  have hlow : v.contents.length ≠ v.size - 1 := by omega
  have hhigh : (v.stored n.length.toUInt8).contents.length
      ≠ (v.stored n.length.toUInt8).size - 1 := by
    rw [v.contents_stored _ hlow, List.length_append, List.length_singleton]
    show v.contents.length + 1 ≠ v.size - 1
    omega
  refine ⟨(v.stored n.length.toUInt8).stored (n.length >>> 8).toUInt8, ?_, hsize, ?_⟩
  · rw [putSmsIndex, ← h.ring, v.ringbufPut_of_room _ hlow,
      (v.stored n.length.toUInt8).ringbufPut_of_room _ hhigh]
  · rw [(v.stored n.length.toUInt8).contents_stored _ hhigh, v.contents_stored _ hlow,
      h.contents, List.flatMap_append, List.flatMap_singleton, ← n.bytes_eq, List.append_assoc]
    rfl

lemma Aligned.notified (h : Aligned s v queued) {urc : IndexUrc} {n : Notification}
    (hroom : ringbufGetFill s.w.app.smsUnreadRingBuff ≠ 30) :
    IndexAligned (indexStep s (.notify urc n)) := by
  obtain ⟨v', hring, hsize, hcontents⟩ := h.put hroom n
  refine ⟨v', queued ++ [n.index], ?_, hsize, hcontents, ?_, ?_⟩
  · rw [hring]
    exact (notify_ring urc n s.w).symm
  · intro i hi
    rcases List.mem_append.mp hi with hi | hi
    · exact h.small i hi
    · rw [List.mem_singleton.mp hi]
      exact n.length_toNat.2
  · show (s.popped ++ (queued ++ [n.index])).Sublist (s.notified ++ [n.index])
    rw [← List.append_assoc]
    exact h.sublist.append (List.Sublist.refl _)

lemma getSmsIndex_smsIndex (a : GsmState) :
    (getSmsIndex a).smsIndex = ((ringbufGet a.smsUnreadRingBuff).2.1.getD 0).toUInt16 |||
      (((ringbufGet (ringbufGet a.smsUnreadRingBuff).2.2).2.1.getD
        ((ringbufGet a.smsUnreadRingBuff).2.1.getD 0)).toUInt16 <<< 8) := rfl

lemma getSmsIndex_ring (a : GsmState) :
    (getSmsIndex a).smsUnreadRingBuff
      = (ringbufGet (ringbufGet a.smsUnreadRingBuff).2.2).2.2 := rfl

/-- Two bytes come out, and make the oldest index. -/
lemma Aligned.get {i : ℕ} {rest : List ℕ} (h : Aligned s v (i :: rest)) :
    (getSmsIndex s.w.app).smsIndex.toNat = i ∧
      ∃ v' : ValidRingbuf, v'.toRingbuf = (getSmsIndex s.w.app).smsUnreadRingBuff ∧
        v'.size = 32 ∧ v'.contents = rest.flatMap indexBytes := by
  have hsmall : i < 1000 := h.small i List.mem_cons_self
  have hbytes : v.contents
      = i.toUInt8 :: (i / 256).toUInt8 :: rest.flatMap indexBytes := by
    rw [h.contents]
    rfl
  have hne : v.contents ≠ [] := by
    rw [hbytes]
    exact List.cons_ne_nil _ _
  have hfirst := v.contents_eq_cons_taken hne
  rw [hbytes] at hfirst
  obtain ⟨hlow, hrest⟩ := List.cons.inj hfirst
  have hne' : v.taken.contents ≠ [] := by
    rw [← hrest]
    exact List.cons_ne_nil _ _
  have hsecond := v.taken.contents_eq_cons_taken hne'
  rw [← hrest] at hsecond
  obtain ⟨hhigh, hlast⟩ := List.cons.inj hsecond
  have hget := v.ringbufGet_of_nonempty hne
  have hget' := v.taken.ringbufGet_of_nonempty hne'
  have hstart : s.w.app.smsUnreadRingBuff = v.toRingbuf := h.ring.symm
  constructor
  · rw [getSmsIndex_smsIndex, hstart, hget, hget']
    show ((v.pt v.tail).toUInt16 ||| ((v.taken.pt v.taken.tail).toUInt16 <<< 8)).toNat = i
    rw [← hlow, ← hhigh]
    exact join_indexBytes (by omega)
  · refine ⟨v.taken.taken, ?_, h.size, hlast.symm⟩
    rw [getSmsIndex_ring, hstart, hget, hget']

/-- What a call of `Ampm_GsmSmsRecv0` or `Ampm_GsmSmsRecv1` does to the index and to the ring. -/
lemma gsmSmsRecvNext_ring (whenEmpty : GsmCmd) (w : GsmWorld) :
    (ringbufGetFill w.app.smsUnreadRingBuff ≥ 2 →
      (gsmSmsRecvNext whenEmpty w).2.app.smsIndex = (getSmsIndex w.app).smsIndex ∧
        (gsmSmsRecvNext whenEmpty w).2.app.smsUnreadRingBuff
          = (getSmsIndex w.app).smsUnreadRingBuff) ∧
    (¬ ringbufGetFill w.app.smsUnreadRingBuff ≥ 2 →
      (gsmSmsRecvNext whenEmpty w).2.app.smsUnreadRingBuff = w.app.smsUnreadRingBuff) := by
  constructor
  · intro hfill
    simp only [gsmSmsRecvNext, if_pos hfill]
    split
    · exact ⟨rfl, rfl⟩
    · exact ⟨rfl, rfl⟩
  · intro hfill
    rw [gsmSmsRecvNext, if_neg hfill]
    rfl

/-- A call takes out the oldest index, or finds none. -/
lemma Aligned.popped (h : Aligned s v queued) (whenEmpty : GsmCmd) :
    IndexAligned { s with
      w := (gsmSmsRecvNext whenEmpty s.w).2
      popped := s.popped ++ poppedIndex s.w (gsmSmsRecvNext whenEmpty s.w).2 } := by
  obtain ⟨hsome, hnone⟩ := gsmSmsRecvNext_ring whenEmpty s.w
  have hfill := h.fill
  cases queued with
  | nil =>
      have hempty : ¬ ringbufGetFill s.w.app.smsUnreadRingBuff ≥ 2 := by
        rw [hfill]
        decide
      refine ⟨v, [], ?_, h.size, h.contents, h.small, ?_⟩
      · rw [hnone hempty]
        exact h.ring
      · rw [poppedIndex, if_neg hempty, List.append_nil]
        exact h.sublist
  | cons i rest =>
      have htwo : ringbufGetFill s.w.app.smsUnreadRingBuff ≥ 2 := by
        rw [hfill, List.length_cons]
        push_cast
        omega
      obtain ⟨hindex, hring⟩ := hsome htwo
      obtain ⟨hi, v', hv', hsize, hcontents⟩ := h.get
      refine ⟨v', rest, ?_, hsize, hcontents, fun j hj => ?_, ?_⟩
      · rw [hring]
        exact hv'
      · exact h.small j (List.mem_cons_of_mem i hj)
      · rw [poppedIndex, if_pos htwo, hindex, hi, List.append_assoc]
        exact h.sublist

lemma indexStep_aligned (e : IndexEvent) (h : IndexAligned s) (hroom : HasRoom s e) :
    IndexAligned (indexStep s e) := by
  obtain ⟨v, queued, h⟩ := h
  cases e with
  | notify urc n => exact h.notified hroom
  | recv0 => exact h.popped .smsRecvCmdProcess3
  | recv1 => exact h.popped .smsRecvCmdProcessEnd

end Invariant

/-! ## The main result -/

/-- **Only notified indices are read.**  In every run in which no notification finds exactly 30
bytes queued, the indices taken out are, in order, among those notified. -/
theorem indexQueue_sound {s : IndexRun} (hs : IndexStart s) {es : List IndexEvent}
    (hroom : StepsMeet indexStep HasRoom s es) : Throughout indexStep IndexSound s es :=
  (throughout_of_stepsMeet (fun _ e h hC => indexStep_aligned e h hC) hs.aligned hroom).mono
    fun _ ⟨_, _, h⟩ => h.sound

/-! ## Seventeen notifications -/

/-- `Ampm_SmsTask_Init` has run. -/
def indexStart : IndexRun where
  w :=
    let w := engineAt .smsSendCmdProcessEnd .ok gsmReset
    w.setApp { w.app with
      smsUnreadRingBuff := (ringbufInit gsmReset.smsUnreadRingBuff (some fun _ => 0) 32).2 }
  notified := []
  popped := []

lemma indexStart_start : IndexStart indexStart :=
  ⟨⟨gsmReset.smsUnreadRingBuff, fun _ => 0, rfl⟩, rfl, rfl⟩

/-- Index 16. -/
def sixteen : Notification where
  digits := [49, 54]
  stop := 13
  nonempty := List.cons_ne_nil _ _
  length_le := Nat.le_succ 2
  digit := by decide +kernel
  stops := rfl

/-- Message 16 is notified, and its index taken out. -/
theorem indexQueue_sound_one :
    Throughout indexStep IndexSound indexStart [.notify .cmti sixteen, .recv0, .recv1] :=
  have hroom : ringbufGetFill indexStart.w.app.smsUnreadRingBuff ≠ 30 := by decide +kernel
  indexQueue_sound indexStart_start ⟨hroom, trivial, trivial, trivial⟩

/-- Message 16 is notified 16 times, 15 indices are taken out, and message 16 is notified again. -/
def seventeenNotified : List IndexEvent :=
  List.replicate 16 (.notify .cmti sixteen) ++ List.replicate 15 .recv1
    ++ [.notify .cmti sixteen, .recv1]

/-- The sixteenth notification leaves a low byte alone in the ring. -/
theorem indexQueue_misaligned :
    ¬ ∀ s es, IndexStart s → Throughout indexStep IndexSound s es := by
  intro h
  have hlast : IndexSound (run indexStep indexStart seventeenNotified) :=
    (h indexStart seventeenNotified indexStart_start).last
  have hpopped : 4112 ∈ (run indexStep indexStart seventeenNotified).popped := by
    decide +kernel
  have hnotified : 4112 ∉ (run indexStep indexStart seventeenNotified).notified := by
    decide +kernel
  exact hnotified (hlast.subset hpopped)

end Ampm

import AmpmGsm.Proto.Protocol
import AmpmGsm.Ring.Ringbuf
import Mathlib.Tactic.SplitIfs

/-!
# Packets in a ring buffer

`lib/packet_queue.c`: binary packets, escaped and between flags, or strings that start with `$`,
in one ring of bytes.  The functions that put them ignore what `RINGBUF_Put` returns.

* `pqueuePut`, `pqueueGet`, `apqueuePut`, `apqueueGet` — the four functions.
* `ringbufPutAll_spec` — a part of the bytes is queued if there is no room for all of them.
* `ValidRingbuf.Copies`, `ValidRingbuf.Fails` — what the loops of the get functions come to.
-/

namespace Ampm

/-! ## The code -/

/-- A count returned as `int16_t`. -/
def toInt16 (n : ℕ) : ℤ := (BitVec.ofNat 16 n).toInt

/-- The `switch(c)` of `PQUEUE_Put`, with its counter `i`. -/
def pqueuePutByte (packet : ℕ → UInt8) (s : Ringbuf × ℕ) (k : ℕ) : Ringbuf × ℕ :=
  let c := packet k
  if c = 0x7D ∨ c = 0x7E ∨ c = 0x7F then
    ((ringbufPut (ringbufPut s.1 0x7D).2 (c ^^^ 0x20)).2, (s.2 + 2) % 2 ^ 16)
  else ((ringbufPut s.1 c).2, (s.2 + 1) % 2 ^ 16)

/-- The length in the first two bytes of a packet. -/
def packetLen (packet : ℕ → UInt8) : ℕ := (packet 0).toNat + 256 * (packet 1).toNat

/-- `PQUEUE_Put`, with the memory from `packet` on. -/
def pqueuePut (r : Ringbuf) (packet : ℕ → UInt8) : ℤ × Ringbuf :=
  let r := (ringbufPut r 0x7E).2
  let s := (List.range (packetLen packet)).foldl (pqueuePutByte packet) (r, 2)
  (toInt16 s.2, (ringbufPut s.1 0x7F).2)

/-- `APQUEUE_Put`, with a string without its terminator. -/
def apqueuePut (r : Ringbuf) (packet : List UInt8) : ℤ × Ringbuf :=
  let len := packet.length % 2 ^ 16
  let r := (packet.take len).foldl (fun r c => (ringbufPut r c).2) r
  (toInt16 len, (ringbufPut r 0).2)

/-- What a get function leaves: its return value, the count that it was converted from, the bytes
written to the buffer, and the ring. -/
structure PacketGet where
  ret : ℤ
  count : ℕ
  written : List UInt8
  ring : Ringbuf

/-- The first loop of the get functions: read up to a mark.  A ring of `fuel` cells is empty before
the fuel is. -/
def skipTo (mark : UInt8) : ℕ → Ringbuf → Bool × Ringbuf
  | 0, r => (false, r)
  | fuel + 1, r =>
      let g := ringbufGet r
      if g.1 ≠ 0 then (false, g.2.2)
      else if g.2.1 = some mark then (true, g.2.2)
      else skipTo mark fuel g.2.2

/-- The second loop of `PQUEUE_Get`; `buf` says whether the pointer is not `NULL`. -/
def pqueueCopy (buf : Bool) : ℕ → Int16 → ℕ → List UInt8 → Ringbuf → PacketGet
  | 0, _, i, written, r => ⟨-1, i, written, r⟩
  | fuel + 1, bufSize, i, written, r =>
      let g := ringbufGet r
      if g.1 ≠ 0 then ⟨-1, i, written, g.2.2⟩
      else
        let c := g.2.1.getD 0
        let room := bufSize ≠ 0 ∧ buf = true
        let written := if room then written ++ [c] else written
        let bufSize := if room then bufSize - 1 else bufSize
        if c = 0x7F then ⟨toInt16 (i + 1), i + 1, written, g.2.2⟩
        else pqueueCopy buf fuel bufSize (i + 1) written g.2.2

/-- `PQUEUE_Get`. -/
def pqueueGet (r : Ringbuf) (buf : Bool) (bufSize : Int16) : PacketGet :=
  let s := skipTo 0x7E r.size r
  if s.1 then
    let written := if bufSize > 0 ∧ buf = true then [0x7E] else []
    pqueueCopy buf r.size bufSize 1 written s.2
  else ⟨-1, 1, [], s.2⟩

/-- The second loop of `APQUEUE_Get`. -/
def apqueueCopy (buf : Bool) : ℕ → Int16 → ℕ → List UInt8 → Ringbuf → PacketGet
  | 0, _, i, written, r => ⟨-1, i, written, r⟩
  | fuel + 1, bufSize, i, written, r =>
      let g := ringbufGet r
      if g.1 ≠ 0 then ⟨-1, i, written, g.2.2⟩
      else
        let c := g.2.1.getD 0
        if c = 0 then ⟨toInt16 (i + 1), i + 1, written, g.2.2⟩
        else
          let room := bufSize > 0 ∧ buf = true
          let written := if room then written ++ [c] else written
          let bufSize := if room then bufSize - 1 else bufSize
          apqueueCopy buf fuel bufSize (i + 1) written g.2.2

/-- `APQUEUE_Get`.  The `$` is written without a look at the buffer. -/
def apqueueGet (r : Ringbuf) (buf : Bool) (bufSize : Int16) : PacketGet :=
  let s := skipTo 0x24 r.size r
  if s.1 then apqueueCopy buf r.size bufSize 0 [0x24] s.2 else ⟨-1, 0, [], s.2⟩

/-! ## What the loops do to the queued bytes -/

/-- `RINGBUF_Put` of one byte after another. -/
def ringbufPutAll (r : Ringbuf) (bytes : List UInt8) : Ringbuf :=
  bytes.foldl (fun r c => (ringbufPut r c).2) r

lemma ringbufPutAll_append (r : Ringbuf) (as bs : List UInt8) :
    ringbufPutAll r (as ++ bs) = ringbufPutAll (ringbufPutAll r as) bs := List.foldl_append

namespace ValidRingbuf

/-- How many more bytes the ring takes. -/
def room (v : ValidRingbuf) : ℕ := v.size - 1 - v.contents.length

/-- The bytes are queued as far as there is room. -/
lemma ringbufPutAll_spec (bytes : List UInt8) :
    ∀ v : ValidRingbuf, ∃ v' : ValidRingbuf, ringbufPutAll v.toRingbuf bytes = v'.toRingbuf ∧
      v'.size = v.size ∧ v'.contents = v.contents ++ bytes.take v.room := by
  induction bytes with
  | nil => exact fun v => ⟨v, rfl, rfl, by simp⟩
  | cons c bytes ih =>
      intro v
      have hlen := v.contents_length_lt
      by_cases hfull : v.contents.length = v.size - 1
      · obtain ⟨v', hring, hsize, hcontents⟩ := ih v
        have hroom : v.room = 0 := by
          rw [room, hfull, Nat.sub_self]
        rw [hroom] at hcontents ⊢
        refine ⟨v', ?_, hsize, hcontents⟩
        rw [← hring, ringbufPutAll, List.foldl_cons, v.ringbufPut_of_full c hfull]
        rfl
      · obtain ⟨v', hring, hsize, hcontents⟩ := ih (v.stored c)
        have hroom : v.room = (v.stored c).room + 1 := by
          have hsize : (v.stored c).size = v.size := rfl
          rw [room, room, v.contents_stored c hfull, List.length_append, List.length_singleton,
            hsize]
          omega
        refine ⟨v', ?_, hsize, ?_⟩
        · rw [← hring, ringbufPutAll, List.foldl_cons, v.ringbufPut_of_room c hfull]
          rfl
        · rw [hcontents, hroom, v.contents_stored c hfull, List.append_assoc]
          rfl

/-- The ring after a `RINGBUF_Get` that hands out `c`. -/
lemma ringbufGet_of_cons {v : ValidRingbuf} {c : UInt8} {rest : List UInt8}
    (h : v.contents = c :: rest) :
    ringbufGet v.toRingbuf = (0, some c, v.taken.toRingbuf) ∧ v.taken.contents = rest := by
  have hne : v.contents ≠ [] := by
    rw [h]
    exact List.cons_ne_nil c rest
  have hcons := v.contents_eq_cons_taken hne
  rw [h, List.cons.injEq] at hcons
  rw [v.ringbufGet_of_nonempty hne, hcons.1]
  exact ⟨rfl, hcons.2.symm⟩

/-- What a loop that reads up to a mark leaves. -/
structure Reads (v v' : ValidRingbuf) (rest : List UInt8) : Prop where
  size_eq : v'.size = v.size
  contents_eq : v'.contents = rest

lemma skipTo_of_mem {mark : UInt8} {rest : List UInt8} :
    ∀ {fuel : ℕ} {pre : List UInt8} {v : ValidRingbuf}, v.contents = pre ++ mark :: rest →
      mark ∉ pre → pre.length < fuel →
      ∃ v', skipTo mark fuel v.toRingbuf = (true, v'.toRingbuf) ∧ v.Reads v' rest
  | 0, _, _, _, _, hfuel => absurd hfuel (Nat.not_lt_zero _)
  | fuel + 1, [], v, hcontents, _, _ => by
      obtain ⟨hget, hrest⟩ := ringbufGet_of_cons hcontents
      refine ⟨v.taken, ?_, rfl, hrest⟩
      simp [skipTo, hget]
  | fuel + 1, c :: pre, v, hcontents, hmark, hfuel => by
      obtain ⟨hget, hrest⟩ := ringbufGet_of_cons hcontents
      rw [List.mem_cons, not_or] at hmark
      obtain ⟨v', hskip, hreads⟩ :=
        skipTo_of_mem hrest hmark.2 (Nat.lt_of_succ_lt_succ hfuel)
      refine ⟨v', ?_, hreads.size_eq, hreads.contents_eq⟩
      rw [skipTo, hget]
      simp [Ne.symm hmark.1, hskip]

lemma skipTo_of_not_mem {mark : UInt8} :
    ∀ {fuel : ℕ} {v : ValidRingbuf}, mark ∉ v.contents → v.contents.length < fuel →
      ∃ v', skipTo mark fuel v.toRingbuf = (false, v'.toRingbuf) ∧ v.Reads v' []
  | 0, _, _, hfuel => absurd hfuel (Nat.not_lt_zero _)
  | fuel + 1, v, hmark, hfuel => by
      cases hcontents : v.contents with
      | nil =>
          refine ⟨v, ?_, rfl, hcontents⟩
          simp [skipTo, v.ringbufGet_of_empty hcontents]
      | cons c rest =>
          obtain ⟨hget, hrest⟩ := ringbufGet_of_cons hcontents
          rw [hcontents, List.mem_cons, not_or] at hmark
          rw [hcontents, List.length_cons] at hfuel
          obtain ⟨v', hskip, hreads⟩ := skipTo_of_not_mem (v := v.taken)
            (hrest ▸ hmark.2) (hrest ▸ Nat.lt_of_succ_lt_succ hfuel)
          refine ⟨v', ?_, hreads.size_eq, hreads.contents_eq⟩
          rw [skipTo, hget]
          simp [Ne.symm hmark.1, hskip]

/-- What a copying loop that finds the end of its packet has done: `out` is in the buffer if that
has room for `count` bytes more. -/
structure Copies (v : ValidRingbuf) (buf : Bool) (bufSize : Int16) (count : ℕ) (out rest : List UInt8)
    (start : ℕ) (g : PacketGet) : Prop where
  ring : ∃ v', g.ring = v'.toRingbuf ∧ v.Reads v' rest
  count_eq : g.count = start + count
  written_eq : buf = true → (count : ℤ) ≤ bufSize.toInt → g.written = out

/-- The mark in front of the ring, and a body that is shorter than the ring. -/
lemma skipTo_front {mark : UInt8} {body rest : List UInt8} (v : ValidRingbuf)
    (hcontents : v.contents = mark :: (body ++ rest)) :
    ∃ v', skipTo mark v.size v.toRingbuf = (true, v'.toRingbuf) ∧ v.Reads v' (body ++ rest) ∧
      body.length < v.size := by
  have hlen := v.contents_length_lt
  rw [hcontents, List.length_cons, List.length_append] at hlen
  have hfront : v.contents = [] ++ mark :: (body ++ rest) := hcontents
  obtain ⟨v', hskip, hreads⟩ := skipTo_of_mem hfront List.not_mem_nil
    (show 0 < v.size by omega)
  exact ⟨v', hskip, hreads, by omega⟩

lemma toInt_pred {n : Int16} (h : 1 ≤ n.toInt) : (n - 1).toInt = n.toInt - 1 := by
  have hlt := n.toInt_lt
  have hone : (1 : Int16).toInt = 1 := rfl
  rw [Int16.toInt_sub, hone]
  exact Int.bmod_eq_of_le (by omega) (by omega)

lemma pos_iff {n : Int16} : n > 0 ↔ 1 ≤ n.toInt := by
  rw [gt_iff_lt, Int16.lt_iff_toInt_lt]
  exact Int.add_one_le_iff.symm

lemma ne_zero_of_pos {n : Int16} (h : 1 ≤ n.toInt) : n ≠ 0 := by
  rintro rfl
  exact absurd h (by decide)

lemma pqueueCopy_of_mem (buf : Bool) {rest : List UInt8} :
    ∀ {fuel : ℕ} {body : List UInt8} {v : ValidRingbuf} (bufSize : Int16) (i : ℕ)
      (written : List UInt8), v.contents = body ++ 0x7F :: rest → 0x7F ∉ body →
      body.length < fuel →
      v.Copies buf bufSize (body.length + 1) (written ++ body ++ [0x7F]) rest i
        (pqueueCopy buf fuel bufSize i written v.toRingbuf)
  | 0, _, _, _, _, _, _, _, hfuel => absurd hfuel (Nat.not_lt_zero _)
  | fuel + 1, [], v, bufSize, i, written, hcontents, _, _ => by
      obtain ⟨hget, hrest⟩ := ringbufGet_of_cons hcontents
      refine ⟨⟨v.taken, ?_, rfl, hrest⟩, ?_, fun hbuf hroom => ?_⟩
      · simp [pqueueCopy, hget]
      · simp [pqueueCopy, hget]
      · have hne : bufSize ≠ 0 := ne_zero_of_pos hroom
        simp [pqueueCopy, hget, hne, hbuf]
  | fuel + 1, c :: body, v, bufSize, i, written, hcontents, hstop, hfuel => by
      obtain ⟨hget, hrest⟩ := ringbufGet_of_cons hcontents
      rw [List.mem_cons, not_or] at hstop
      have hcopy : pqueueCopy buf (fuel + 1) bufSize i written v.toRingbuf =
          pqueueCopy buf fuel (if bufSize ≠ 0 ∧ buf = true then bufSize - 1 else bufSize) (i + 1)
            (if bufSize ≠ 0 ∧ buf = true then written ++ [c] else written) v.taken.toRingbuf := by
        rw [pqueueCopy, hget]
        simp [Ne.symm hstop.1]
      obtain ⟨⟨v', hring, hreads⟩, hcount, hwritten⟩ :=
        pqueueCopy_of_mem buf (if bufSize ≠ 0 ∧ buf = true then bufSize - 1 else bufSize) (i + 1)
          (if bufSize ≠ 0 ∧ buf = true then written ++ [c] else written) hrest hstop.2
          (Nat.lt_of_succ_lt_succ hfuel)
      rw [hcopy]
      refine ⟨⟨v', hring, hreads.size_eq, hreads.contents_eq⟩, ?_, fun hbuf hroom => ?_⟩
      · rw [hcount, List.length_cons]
        omega
      · rw [List.length_cons] at hroom
        push_cast at hroom
        have hne : bufSize ≠ 0 := ne_zero_of_pos (by omega)
        rw [if_pos ⟨hne, hbuf⟩, if_pos ⟨hne, hbuf⟩, toInt_pred (by omega)] at hwritten
        rw [if_pos ⟨hne, hbuf⟩, if_pos ⟨hne, hbuf⟩, hwritten hbuf (by push_cast; omega)]
        simp

lemma apqueueCopy_of_mem (buf : Bool) {rest : List UInt8} :
    ∀ {fuel : ℕ} {body : List UInt8} {v : ValidRingbuf} (bufSize : Int16) (i : ℕ)
      (written : List UInt8), v.contents = body ++ 0 :: rest → 0 ∉ body → body.length < fuel →
      v.Copies buf bufSize (body.length + 1) (written ++ body) rest i
        (apqueueCopy buf fuel bufSize i written v.toRingbuf)
  | 0, _, _, _, _, _, _, _, hfuel => absurd hfuel (Nat.not_lt_zero _)
  | fuel + 1, [], v, bufSize, i, written, hcontents, _, _ => by
      obtain ⟨hget, hrest⟩ := ringbufGet_of_cons hcontents
      refine ⟨⟨v.taken, ?_, rfl, hrest⟩, ?_, fun _ _ => ?_⟩
      · simp [apqueueCopy, hget]
      · simp [apqueueCopy, hget]
      · simp [apqueueCopy, hget]
  | fuel + 1, c :: body, v, bufSize, i, written, hcontents, hstop, hfuel => by
      obtain ⟨hget, hrest⟩ := ringbufGet_of_cons hcontents
      rw [List.mem_cons, not_or] at hstop
      have hcopy : apqueueCopy buf (fuel + 1) bufSize i written v.toRingbuf =
          apqueueCopy buf fuel (if bufSize > 0 ∧ buf = true then bufSize - 1 else bufSize) (i + 1)
            (if bufSize > 0 ∧ buf = true then written ++ [c] else written) v.taken.toRingbuf := by
        rw [apqueueCopy, hget]
        simp [Ne.symm hstop.1]
      obtain ⟨⟨v', hring, hreads⟩, hcount, hwritten⟩ :=
        apqueueCopy_of_mem buf (if bufSize > 0 ∧ buf = true then bufSize - 1 else bufSize) (i + 1)
          (if bufSize > 0 ∧ buf = true then written ++ [c] else written) hrest hstop.2
          (Nat.lt_of_succ_lt_succ hfuel)
      rw [hcopy]
      refine ⟨⟨v', hring, hreads.size_eq, hreads.contents_eq⟩, ?_, fun hbuf hroom => ?_⟩
      · rw [hcount, List.length_cons]
        omega
      · rw [List.length_cons] at hroom
        push_cast at hroom
        have hpos : bufSize > 0 := pos_iff.mpr (by omega)
        rw [if_pos ⟨hpos, hbuf⟩, if_pos ⟨hpos, hbuf⟩, toInt_pred (by omega)] at hwritten
        rw [if_pos ⟨hpos, hbuf⟩, if_pos ⟨hpos, hbuf⟩, hwritten hbuf (by push_cast; omega)]
        simp

/-- A copying loop that does not find an end has emptied the ring and fails. -/
structure Fails (v : ValidRingbuf) (g : PacketGet) : Prop where
  ring : ∃ v', g.ring = v'.toRingbuf ∧ v.Reads v' []
  ret_eq : g.ret = -1

/-- A ring in which a packet has no end: whether its mark is there or not, the get fails. -/
lemma skipTo_fails (v : ValidRingbuf) {mark stop : UInt8} {i : ℕ} {written : List UInt8}
    {copy : Ringbuf → PacketGet} (hstop : stop ∉ v.contents)
    (hcopy : ∀ v' : ValidRingbuf, stop ∉ v'.contents → v'.contents.length < v.size →
      v'.Fails (copy v'.toRingbuf)) :
    v.Fails (if (skipTo mark v.size v.toRingbuf).1 then copy (skipTo mark v.size v.toRingbuf).2
      else ⟨-1, i, written, (skipTo mark v.size v.toRingbuf).2⟩) := by
  have hlen := v.contents_length_lt
  by_cases hmem : mark ∈ v.contents
  · obtain ⟨pre, rest, hcontents, hpre⟩ := List.eq_append_cons_of_mem hmem
    have hshort := hlen
    rw [hcontents, List.length_append, List.length_cons] at hshort
    obtain ⟨v', hskip, hreads⟩ := skipTo_of_mem hcontents hpre (show pre.length < v.size by omega)
    have hno : stop ∉ v'.contents := by
      rw [hreads.contents_eq]
      intro hrest
      rw [hcontents] at hstop
      exact hstop (List.mem_append_right _ (List.mem_cons_of_mem _ hrest))
    obtain ⟨⟨v'', hring, hreads'⟩, hret⟩ := hcopy v' hno (by rw [hreads.contents_eq]; omega)
    rw [hskip]
    exact ⟨⟨v'', hring, hreads'.size_eq.trans hreads.size_eq, hreads'.contents_eq⟩, hret⟩
  · obtain ⟨v', hskip, hreads⟩ := skipTo_of_not_mem hmem hlen
    rw [hskip]
    exact ⟨⟨v', rfl, hreads.size_eq, hreads.contents_eq⟩, rfl⟩

lemma pqueueCopy_of_not_mem (buf : Bool) :
    ∀ {fuel : ℕ} {v : ValidRingbuf} (bufSize : Int16) (i : ℕ) (written : List UInt8),
      0x7F ∉ v.contents → v.contents.length < fuel →
      v.Fails (pqueueCopy buf fuel bufSize i written v.toRingbuf)
  | 0, _, _, _, _, _, hfuel => absurd hfuel (Nat.not_lt_zero _)
  | fuel + 1, v, bufSize, i, written, hstop, hfuel => by
      cases hcontents : v.contents with
      | nil =>
          rw [pqueueCopy, v.ringbufGet_of_empty hcontents]
          exact ⟨⟨v, rfl, rfl, hcontents⟩, rfl⟩
      | cons c rest =>
          obtain ⟨hget, hrest⟩ := ringbufGet_of_cons hcontents
          rw [hcontents, List.mem_cons, not_or] at hstop
          rw [hcontents, List.length_cons] at hfuel
          obtain ⟨⟨v', hring, hreads⟩, hret⟩ := pqueueCopy_of_not_mem buf (v := v.taken)
            (if bufSize ≠ 0 ∧ buf = true then bufSize - 1 else bufSize) (i + 1)
            (if bufSize ≠ 0 ∧ buf = true then written ++ [c] else written)
            (hrest ▸ hstop.2) (hrest ▸ Nat.lt_of_succ_lt_succ hfuel)
          rw [pqueueCopy, hget]
          simp only [ne_eq, not_true_eq_false, if_false, Option.getD_some, Ne.symm hstop.1]
          exact ⟨⟨v', hring, hreads.size_eq, hreads.contents_eq⟩, hret⟩

lemma apqueueCopy_of_not_mem (buf : Bool) :
    ∀ {fuel : ℕ} {v : ValidRingbuf} (bufSize : Int16) (i : ℕ) (written : List UInt8),
      0 ∉ v.contents → v.contents.length < fuel →
      v.Fails (apqueueCopy buf fuel bufSize i written v.toRingbuf)
  | 0, _, _, _, _, _, hfuel => absurd hfuel (Nat.not_lt_zero _)
  | fuel + 1, v, bufSize, i, written, hstop, hfuel => by
      cases hcontents : v.contents with
      | nil =>
          rw [apqueueCopy, v.ringbufGet_of_empty hcontents]
          exact ⟨⟨v, rfl, rfl, hcontents⟩, rfl⟩
      | cons c rest =>
          obtain ⟨hget, hrest⟩ := ringbufGet_of_cons hcontents
          rw [hcontents, List.mem_cons, not_or] at hstop
          rw [hcontents, List.length_cons] at hfuel
          obtain ⟨⟨v', hring, hreads⟩, hret⟩ := apqueueCopy_of_not_mem buf (v := v.taken)
            (if bufSize > 0 ∧ buf = true then bufSize - 1 else bufSize) (i + 1)
            (if bufSize > 0 ∧ buf = true then written ++ [c] else written)
            (hrest ▸ hstop.2) (hrest ▸ Nat.lt_of_succ_lt_succ hfuel)
          rw [apqueueCopy, hget]
          simp only [ne_eq, not_true_eq_false, if_false, Option.getD_some, Ne.symm hstop.1]
          exact ⟨⟨v', hring, hreads.size_eq, hreads.contents_eq⟩, hret⟩

end ValidRingbuf

end Ampm

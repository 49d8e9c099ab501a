import AmpmGsm.Lib.Framing
import AmpmGsm.Ring.PacketQueue

/-!
# When packets stay whole

A packet that finds some room but not enough leaves its beginning in the ring, and the packet after
it is taken together with that fragment.

* `PacketFormat` — what the two queues of `lib/packet_queue.c` differ in.
* `packetStep`, `Whole` — a queue with its history, and what is asked of it.
* `FindsBoundary` — the condition at one call.
* `packetQueue_whole` — the runs in which packets stay whole.
-/

namespace Ampm

open Framing Runs

/-! ## The two queues -/

/-- A queue of packets `π`: its functions, what a get is to yield for a packet, and how that is
written in the ring. -/
structure PacketFormat (π : Type*) where
  put : Ringbuf → π → Ringbuf
  get : Ringbuf → Bool → Int16 → PacketGet
  yield : π → List UInt8
  tail : List UInt8
  start : UInt8
  stop : UInt8
  storable : π → Prop

/-- `PQUEUE_Put` and `PQUEUE_Get`. -/
def pqueueFormat : PacketFormat (ℕ → UInt8) where
  put r packet := (pqueuePut r packet).2
  get := pqueueGet
  yield packet := frameOf ((List.range (packetLen packet)).map packet)
  tail := []
  start := 0x7E
  stop := 0x7F
  storable _ := True

/-- A string that starts with `$`, without its terminator. -/
structure DollarString where
  chars : List UInt8
  starts : chars.head? = some 0x24
  nul_not_mem : 0 ∉ chars

/-- `APQUEUE_Put` and `APQUEUE_Get`.  The length of a string is counted in a `uint16_t`. -/
def apqueueFormat : PacketFormat DollarString where
  put r packet := (apqueuePut r packet.chars).2
  get := apqueueGet
  yield packet := packet.chars
  tail := [0]
  start := 0x24
  stop := 0
  storable packet := packet.chars.length < 2 ^ 16

/-! ## The property -/

/-- A ring, what its packets should yield in the order in which they were put, and what was
written by the gets that returned a size and had a buffer large enough. -/
structure PacketQueue where
  ring : Ringbuf
  put : List (List UInt8)
  got : List (List UInt8)

/-- One call. -/
inductive PacketOp (π : Type*)
  | put (packet : π)
  | get (buf : Bool) (bufSize : Int16)

section Steps

variable {π : Type*} (F : PacketFormat π)

def packetStep (st : PacketQueue) : PacketOp π → PacketQueue
  | .put packet =>
      { st with ring := F.put st.ring packet, put := st.put ++ [F.yield packet] }
  | .get buf bufSize =>
      let g := F.get st.ring buf bufSize
      { st with
        ring := g.ring
        got := if 0 ≤ g.ret ∧ buf = true ∧ (g.count : ℤ) ≤ bufSize.toInt then st.got ++ [g.written]
          else st.got }

/-- Every get has yielded a packet that was put, each packet once, in the order of the puts. -/
def Whole (st : PacketQueue) : Prop := st.got.Sublist st.put

/-- A put that has room for the whole packet finds the ring empty or at the end of a packet. -/
def FindsBoundary (st : PacketQueue) : PacketOp π → Prop
  | .put packet =>
      F.storable packet ∧
        (st.ring.contents = [] ∨ st.ring.contents.getLast? = some F.stop ∨
          st.ring.size - 1 < st.ring.contents.length + (F.yield packet ++ F.tail).length)
  | .get _ _ => True

/-- The queue before its first call. -/
def packetStart (r : Ringbuf) : PacketQueue := ⟨r, [], []⟩

/-! ## What the functions of a queue do -/

/-- What a get does that finds a packet in front. -/
structure GetsWhole (v : ValidRingbuf) (buf : Bool) (bufSize : Int16) (out rest : List UInt8)
    (g : PacketGet) : Prop where
  ring : ∃ v', g.ring = v'.toRingbuf ∧ v.Reads v' rest
  written_eq : buf = true → (g.count : ℤ) ≤ bufSize.toInt → g.written = out

/-- Packets are written as frames, and taken as such. -/
structure PacketFormat.Sound : Prop where
  frame : ∀ packet, IsFrame F.start F.stop (F.yield packet ++ F.tail)
  put_eq : ∀ r packet, F.storable packet →
    F.put r packet = ringbufPutAll r (F.yield packet ++ F.tail)
  get_whole : ∀ (v : ValidRingbuf) (out rest : List UInt8) (buf : Bool) (bufSize : Int16),
    IsFrame F.start F.stop (out ++ F.tail) → v.contents = out ++ F.tail ++ rest →
    GetsWhole v buf bufSize out rest (F.get v.toRingbuf buf bufSize)
  get_fails : ∀ (v : ValidRingbuf) (buf : Bool) (bufSize : Int16), F.stop ∉ v.contents →
    v.Fails (F.get v.toRingbuf buf bufSize)

/-! ## Runs -/

/-- A queue that holds whole packets and at most a fragment behind them. -/
def HoldsFrames (st : PacketQueue) : Prop :=
  ∃ v : ValidRingbuf, st.ring = v.toRingbuf ∧
    Nonempty (WholeFrames F.start F.stop (· ++ F.tail) v.contents st.put st.got)

variable {F}

lemma HoldsFrames.whole {st : PacketQueue} (h : HoldsFrames F st) : Whole st := by
  obtain ⟨_, _, ⟨hframes⟩⟩ := h
  exact hframes.sublist

theorem holdsFrames_put (hF : F.Sound) {st : PacketQueue} (h : HoldsFrames F st) (packet : π)
    (hcond : FindsBoundary F st (.put packet)) : HoldsFrames F (packetStep F st (.put packet)) := by
  obtain ⟨v, hring, ⟨hframes⟩⟩ := h
  obtain ⟨hstorable, hfinds⟩ := hcond
  obtain ⟨v', hput, -, hcontents⟩ := v.ringbufPutAll_spec (F.yield packet ++ F.tail)
  refine ⟨v', ?_, ?_⟩
  · rw [← hput, ← hring]
    exact hF.put_eq st.ring packet hstorable
  · rw [hcontents]
    by_cases hroom : v.room < (F.yield packet ++ F.tail).length
    · exact ⟨hframes.putPart (hF.frame packet) hroom⟩
    · rw [List.take_of_length_le (Nat.not_lt.mp hroom)]
      refine ⟨hframes.putWhole ?_ (hF.frame packet)⟩
      rw [hring] at hfinds
      have hlen := v.contents_length_lt
      have hfits : ¬ v.size - 1 < v.contents.length + (F.yield packet ++ F.tail).length := by
        rw [ValidRingbuf.room] at hroom
        omega
      rcases hfinds with hnil | hstop | hfull
      · exact Or.inl hnil
      · exact Or.inr hstop
      · exact absurd hfull hfits

theorem holdsFrames_get (hF : F.Sound) {st : PacketQueue} (h : HoldsFrames F st) (buf : Bool)
    (bufSize : Int16) : HoldsFrames F (packetStep F st (.get buf bufSize)) := by
  obtain ⟨v, hring, ⟨hframes⟩⟩ := h
  unfold packetStep HoldsFrames
  rw [hring]
  rcases hframes.front with ⟨out, rest, hout, hcontents, hkeep, htake⟩ | hstop
  · obtain ⟨⟨v', hring', hreads⟩, hwritten⟩ := hF.get_whole v out rest buf bufSize hout hcontents
    refine ⟨v', hring', ?_⟩
    rw [hreads.contents_eq]
    dsimp only
    split_ifs with hgot
    · rw [hwritten hgot.2.1 hgot.2.2]
      exact htake
    · exact hkeep
  · obtain ⟨⟨v', hring', hreads⟩, hret⟩ := hF.get_fails v buf bufSize hstop
    refine ⟨v', hring', ?_⟩
    dsimp only
    rw [hreads.contents_eq, hret, if_neg (fun hgot => absurd hgot.1 (by decide))]
    exact ⟨hframes.drop⟩

theorem holdsFrames_step (hF : F.Sound) (st : PacketQueue) (op : PacketOp π)
    (h : HoldsFrames F st) (hcond : FindsBoundary F st op) :
    HoldsFrames F (packetStep F st op) := by
  cases op with
  | put packet => exact holdsFrames_put hF h packet hcond
  | get buf bufSize => exact holdsFrames_get hF h buf bufSize

/-- The queue after `RINGBUF_Init`. -/
lemma holdsFrames_start (r₀ : Ringbuf) (buf : ℕ → UInt8) {n : ℕ} (hn : 2 ≤ n) (hn' : n < 2 ^ 32) :
    HoldsFrames F (packetStart (ringbufInit r₀ (some buf) n).2) := by
  refine ⟨ValidRingbuf.init buf n hn hn', ?_, ?_⟩
  · rw [ValidRingbuf.ringbufInit_eq r₀ buf n hn hn']
    rfl
  · have hempty : (ValidRingbuf.init buf n hn hn').contents = [] :=
      (ValidRingbuf.contents_eq_nil_iff _).mpr rfl
    rw [hempty]
    exact ⟨WholeFrames.empty⟩

end Steps

/-! ## The two queues are sound -/

lemma pqueuePutByte_eq (packet : ℕ → UInt8) (s : Ringbuf × ℕ) (k : ℕ) :
    (pqueuePutByte packet s k).1 = ringbufPutAll s.1 (hdlc.stuffOne (packet k)) := by
  by_cases hc : packet k = 0x7D ∨ packet k = 0x7E ∨ packet k = 0x7F
  · have hone : hdlc.stuffOne (packet k) = [0x7D, packet k ^^^ 0x20] := if_pos hc
    simp only [pqueuePutByte, if_pos hc, hone, ringbufPutAll, List.foldl_cons, List.foldl_nil]
  · have hone : hdlc.stuffOne (packet k) = [packet k] := if_neg hc
    simp only [pqueuePutByte, if_neg hc, hone, ringbufPutAll, List.foldl_cons, List.foldl_nil]

lemma pqueuePutByte_foldl (packet : ℕ → UInt8) (ks : List ℕ) :
    ∀ s : Ringbuf × ℕ, (ks.foldl (pqueuePutByte packet) s).1 =
      ringbufPutAll s.1 (hdlc.stuff (ks.map packet)) := by
  induction ks with
  | nil => exact fun _ => rfl
  | cons k ks ih =>
      intro s
      rw [List.foldl_cons, ih, pqueuePutByte_eq, List.map_cons, Stuffing.stuff_cons,
        ringbufPutAll_append]

lemma flag_not_mem_stuff (bytes : List UInt8) : 0x7F ∉ hdlc.stuff bytes := by
  intro hmem
  have hesc := hdlc.reserved_of_mem_stuff hmem (Or.inr (Or.inr rfl))
  exact absurd hesc (by decide)

theorem pqueueFormat_sound : pqueueFormat.Sound where
  frame packet := by
    refine ⟨hdlc.stuff ((List.range (packetLen packet)).map packet), ?_, ?_⟩
    · show frameOf _ ++ [] = _
      rw [List.append_nil]
      rfl
    · intro hmem
      rcases List.mem_cons.mp hmem with heq | hstuff
      · exact absurd heq (by decide)
      · exact flag_not_mem_stuff _ hstuff
  put_eq r packet _ := by
    show (ringbufPut _ 0x7F).2 = ringbufPutAll r (frameOf _ ++ [])
    rw [pqueuePutByte_foldl, List.append_nil, frameOf, ← List.singleton_append,
      ringbufPutAll_append, ringbufPutAll_append]
    rfl
  get_whole v out rest buf bufSize hframe hcontents := by
    obtain ⟨body, hout, hstop⟩ := hframe
    replace hout : out = 0x7E :: body ++ [0x7F] := (List.append_nil out).symm.trans hout
    replace hstop : 0x7F ∉ body := fun hmem => hstop (List.mem_cons_of_mem _ hmem)
    have hfront : v.contents = 0x7E :: (body ++ 0x7F :: rest) := by
      rw [hcontents, hout]
      simp [pqueueFormat]
    obtain ⟨v', hskip, hreads, hshort⟩ := v.skipTo_front hfront
    obtain ⟨⟨v'', hring, hreads'⟩, hcount, hwritten⟩ :=
      ValidRingbuf.pqueueCopy_of_mem buf bufSize 1
        (if bufSize > 0 ∧ buf = true then [0x7E] else []) hreads.contents_eq hstop hshort
    show GetsWhole v buf bufSize out rest (pqueueGet v.toRingbuf buf bufSize)
    rw [pqueueGet, hskip, if_pos rfl]
    refine ⟨⟨v'', hring, hreads'.size_eq.trans hreads.size_eq, hreads'.contents_eq⟩, ?_⟩
    intro hbuf hroom
    rw [hcount] at hroom
    push_cast at hroom
    have hpos : bufSize > 0 := ValidRingbuf.pos_iff.mpr (by omega)
    rw [hwritten hbuf (by push_cast; omega), if_pos ⟨hpos, hbuf⟩, hout]
    rfl
  get_fails v buf bufSize hstop :=
    v.skipTo_fails hstop fun _ hno hshort =>
      ValidRingbuf.pqueueCopy_of_not_mem buf bufSize 1 _ hno hshort

theorem apqueueFormat_sound : apqueueFormat.Sound where
  frame packet := by
    obtain ⟨chars, hstarts, hnul⟩ := packet
    cases chars with
    | nil => exact absurd hstarts (Option.some_ne_none _).symm
    | cons c body =>
        obtain rfl : c = 0x24 := Option.some.inj hstarts
        exact ⟨body, rfl, hnul⟩
  put_eq r packet hstorable := by
    have hlen : packet.chars.length % 2 ^ 16 = packet.chars.length := Nat.mod_eq_of_lt hstorable
    show (apqueuePut r packet.chars).2 = ringbufPutAll r (packet.chars ++ [0])
    rw [apqueuePut, hlen, List.take_length, ringbufPutAll_append]
    rfl
  get_whole v out rest buf bufSize hframe hcontents := by
    obtain ⟨body, hout, hstop⟩ := hframe
    replace hout : out = 0x24 :: body := List.append_cancel_right hout
    replace hstop : 0 ∉ body := fun hmem => hstop (List.mem_cons_of_mem _ hmem)
    have hfront : v.contents = 0x24 :: (body ++ 0 :: rest) := by
      rw [hcontents, hout]
      simp [apqueueFormat]
    obtain ⟨v', hskip, hreads, hshort⟩ := v.skipTo_front hfront
    obtain ⟨⟨v'', hring, hreads'⟩, hcount, hwritten⟩ :=
      ValidRingbuf.apqueueCopy_of_mem buf bufSize 0 [0x24] hreads.contents_eq hstop hshort
    show GetsWhole v buf bufSize out rest (apqueueGet v.toRingbuf buf bufSize)
    rw [apqueueGet, hskip, if_pos rfl]
    refine ⟨⟨v'', hring, hreads'.size_eq.trans hreads.size_eq, hreads'.contents_eq⟩, ?_⟩
    intro hbuf hroom
    rw [hcount, Nat.zero_add] at hroom
    rw [hwritten hbuf hroom, hout]
    rfl
  get_fails v buf bufSize hstop :=
    v.skipTo_fails hstop fun _ hno hshort =>
      ValidRingbuf.apqueueCopy_of_not_mem buf bufSize 0 _ hno hshort

/-- **When packets stay whole.**  For a ring of any size and any calls: if every put that has room
for its whole packet finds the ring empty or at the end of a packet, then every get that returns a
size and has a large enough buffer yields exactly one of the packets put, and the packets come in
the order of the puts.  This is so of the escaped frames of `PQUEUE_Put` and `PQUEUE_Get`, and of
the strings of `APQUEUE_Put` and `APQUEUE_Get` if they are shorter than `2 ^ 16`. -/
theorem packetQueue_whole (r₀ : Ringbuf) (buf : ℕ → UInt8) (n : ℕ) (hn : 2 ≤ n)
    (hn' : n < 2 ^ 32) :
    let st := packetStart (ringbufInit r₀ (some buf) n).2
    (∀ ops : List (PacketOp (ℕ → UInt8)),
      StepsMeet (packetStep pqueueFormat) (FindsBoundary pqueueFormat) st ops →
        Throughout (packetStep pqueueFormat) Whole st ops) ∧
    (∀ ops : List (PacketOp DollarString),
      StepsMeet (packetStep apqueueFormat) (FindsBoundary apqueueFormat) st ops →
        Throughout (packetStep apqueueFormat) Whole st ops) := by
  intro st
  refine ⟨fun ops hmeet => ?_, fun ops hmeet => ?_⟩
  · exact (throughout_of_stepsMeet (holdsFrames_step pqueueFormat_sound)
      (holdsFrames_start r₀ buf hn hn') hmeet).mono fun _ h => h.whole
  · exact (throughout_of_stepsMeet (holdsFrames_step apqueueFormat_sound)
      (holdsFrames_start r₀ buf hn hn') hmeet).mono fun _ h => h.whole

/-! ### A ring of eight bytes -/

/-- The packet that holds only its length. -/
def shortPacket (k : ℕ) : UInt8 := if k = 0 then 2 else 0

/-- A string of three characters. -/
def shortString : DollarString := ⟨[0x24, 65, 66], rfl, by decide⟩

/-- In both queues the second packet has no room; what there is of it is taken out before the third
is put. -/
theorem packetQueue_whole_eight :
    let st := packetStart (ringbufInit ⟨0, 0, 0, fun _ => 0⟩ (some fun _ => 0) 8).2
    Throughout (packetStep pqueueFormat) Whole st
      [.put shortPacket, .put shortPacket, .get true 100, .get true 100, .put shortPacket,
        .get true 100] ∧
    Throughout (packetStep apqueueFormat) Whole st
      [.put shortString, .put shortString, .get true 100, .get true 100, .put shortString,
        .get true 100] := by
  have hruns := packetQueue_whole ⟨0, 0, 0, fun _ => 0⟩ (fun _ => 0) 8 (by decide) (by decide)
  refine ⟨hruns.1 _ ?_, hruns.2 _ ?_⟩
  · exact ⟨⟨trivial, by decide⟩, ⟨trivial, by decide⟩, trivial, trivial, ⟨trivial, by decide⟩,
      trivial, trivial⟩
  · have hshort : apqueueFormat.storable shortString := show 3 < 2 ^ 16 by decide
    exact ⟨⟨hshort, by decide⟩, ⟨hshort, by decide⟩, trivial, trivial, ⟨hshort, by decide⟩,
      trivial, trivial⟩

/-- The second packet has no room for its last byte; the third is taken together with it. -/
theorem packetQueue_merges :
    ¬ ∀ (r₀ : Ringbuf) (buf : ℕ → UInt8) (n : ℕ), 2 ≤ n → n < 2 ^ 32 →
      ∀ ops : List (PacketOp (ℕ → UInt8)),
        Throughout (packetStep pqueueFormat) Whole
          (packetStart (ringbufInit r₀ (some buf) n).2) ops := by
  intro h
  have hlast := (h ⟨0, 0, 0, fun _ => 0⟩ (fun _ => 0) 8 (by decide) (by decide)
    [.put shortPacket, .put shortPacket, .get true 100, .put shortPacket, .get true 100]).last
  have hgot : (run (packetStep pqueueFormat)
      (packetStart (ringbufInit ⟨0, 0, 0, fun _ => 0⟩ (some fun _ => 0) 8).2)
      [.put shortPacket, .put shortPacket, .get true 100, .put shortPacket, .get true 100]).got =
        [[0x7E, 2, 0, 0x7F], [0x7E, 2, 0, 0x7E, 2, 0, 0x7F]] := by
    decide
  have hput : (run (packetStep pqueueFormat)
      (packetStart (ringbufInit ⟨0, 0, 0, fun _ => 0⟩ (some fun _ => 0) 8).2)
      [.put shortPacket, .put shortPacket, .get true 100, .put shortPacket, .get true 100]).put =
        [[0x7E, 2, 0, 0x7F], [0x7E, 2, 0, 0x7F], [0x7E, 2, 0, 0x7F]] := by
    decide
  rw [Whole, hgot, hput] at hlast
  exact absurd hlast (by decide)

end Ampm

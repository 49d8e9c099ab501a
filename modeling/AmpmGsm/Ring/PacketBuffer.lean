import AmpmGsm.Ring.PacketQueue

/-!
# The caller's buffer of the packet queue

`PQUEUE_Get` and `APQUEUE_Get` store the first byte of a packet before the loop that counts the
room in the buffer down, and do not count it.

* `pqueuePacket`, `apqueuePacket` — the packet at the front of the queued bytes, as far as it is
  there.
* `GetsInto` — a get stores no more than the buffer holds, and of a packet its first bytes.
* `pqueueGet_eq`, `apqueueGet_eq` — what the two functions return and store for every ring.
* `packetGet_getsInto_iff` — they keep to the buffer exactly if the whole packet fits.
-/

namespace Ampm

/-- The queued bytes from a mark on, up to the end of the packet and with it. -/
def packetWithEnd (mark stop : UInt8) (contents : List UInt8) : List UInt8 :=
  match contents.dropWhile (· ≠ mark) with
  | [] => []
  | first :: behind =>
      first :: (behind.takeWhile (· ≠ stop) ++ (behind.dropWhile (· ≠ stop)).take 1)

/-- The queued bytes from a mark on, up to the end of the packet and without it. -/
def packetToEnd (mark stop : UInt8) (contents : List UInt8) : List UInt8 :=
  match contents.dropWhile (· ≠ mark) with
  | [] => []
  | first :: behind => first :: behind.takeWhile (· ≠ stop)

/-- What `PQUEUE_Get` takes for a packet: the end flag belongs to it. -/
def pqueuePacket : List UInt8 → List UInt8 := packetWithEnd 0x7E 0x7F

/-- What `APQUEUE_Get` takes for a packet: a string without its terminator. -/
def apqueuePacket : List UInt8 → List UInt8 := packetToEnd 0x24 0

/-- A get that keeps to a buffer of `bufSize` bytes. -/
structure GetsInto (packet : List UInt8) (bufSize : Int16) (g : PacketGet) : Prop where
  inside : (g.written.length : ℤ) ≤ bufSize.toInt
  stored : 0 ≤ g.ret → g.written = packet.take (min g.ret bufSize.toInt).toNat

namespace ValidRingbuf

/-- The search for the mark, for any queued bytes. -/
lemma skipTo_cases (mark : UInt8) (v : ValidRingbuf) :
    ∃ v' : ValidRingbuf, v'.contents.length < v.size ∧
      (v.contents.dropWhile (· ≠ mark) = [] ∧
          skipTo mark v.size v.toRingbuf = (false, v'.toRingbuf) ∨
        v.contents.dropWhile (· ≠ mark) = mark :: v'.contents ∧
          skipTo mark v.size v.toRingbuf = (true, v'.toRingbuf)) := by
  have hlen := v.contents_length_lt
  by_cases hmem : mark ∈ v.contents
  · obtain ⟨pre, rest, hcontents, hpre⟩ := List.eq_append_cons_of_mem hmem
    have hparts := hlen
    rw [hcontents, List.length_append, List.length_cons] at hparts
    obtain ⟨v', hskip, hreads⟩ := skipTo_of_mem hcontents hpre (show pre.length < v.size by omega)
    refine ⟨v', hreads.size_eq ▸ v'.contents_length_lt, Or.inr ⟨?_, hskip⟩⟩
    rw [hcontents, hreads.contents_eq, List.dropWhile_append_of_pos]
    · simp
    · intro c hc
      simpa using fun h : c = mark => hpre (h ▸ hc)
  · obtain ⟨v', hskip, hreads⟩ := skipTo_of_not_mem hmem hlen
    refine ⟨v', hreads.size_eq ▸ v'.contents_length_lt, Or.inl ⟨?_, hskip⟩⟩
    rw [← List.append_nil v.contents, List.dropWhile_append_of_pos]
    · rfl
    · intro c hc
      simpa using fun h : c = mark => hmem (h ▸ hc)

lemma one_le_iff_ne_zero {n : Int16} (h : 0 ≤ n.toInt) : 1 ≤ n.toInt ↔ n ≠ 0 := by
  have hne : n ≠ 0 ↔ n.toInt ≠ 0 := not_congr Int16.toInt_inj.symm
  rw [hne]
  omega

/-- One byte in a buffer with `bufSize` bytes of room, and the rest behind it. -/
lemma store_take {bufSize : Int16} (hsize : 0 ≤ bufSize.toInt) (written out : List UInt8)
    (c : UInt8) :
    (if bufSize ≠ 0 then written ++ [c] else written) ++
        out.take (if bufSize ≠ 0 then bufSize - 1 else bufSize).toInt.toNat
      = written ++ (c :: out).take bufSize.toInt.toNat := by
  by_cases hzero : bufSize = 0
  · subst hzero
    rfl
  · have hpos : 1 ≤ bufSize.toInt := (one_le_iff_ne_zero hsize).mpr hzero
    have hsucc : bufSize.toInt.toNat = (bufSize - 1).toInt.toNat + 1 := by
      rw [toInt_pred hpos]
      omega
    rw [if_pos hzero, if_pos hzero, hsucc, List.take_succ_cons, List.append_assoc]
    rfl

lemma toInt_store_nonneg {bufSize : Int16} (hsize : 0 ≤ bufSize.toInt) :
    0 ≤ (if bufSize ≠ 0 then bufSize - 1 else bufSize).toInt := by
  by_cases hzero : bufSize = 0
  · rw [if_neg (not_not_intro hzero)]
    exact hsize
  · have hpos : 1 ≤ bufSize.toInt := (one_le_iff_ne_zero hsize).mpr hzero
    rw [if_pos hzero, toInt_pred hpos]
    exact Int.sub_nonneg.mpr hpos

/-- What the second loop of `PQUEUE_Get` returns and stores. -/
lemma pqueueCopy_eq : ∀ {fuel : ℕ} {v : ValidRingbuf} (bufSize : Int16) (i : ℕ)
    (written : List UInt8), v.contents.length < fuel → 0 ≤ bufSize.toInt →
    let g := pqueueCopy true fuel bufSize i written v.toRingbuf
    let out := v.contents.takeWhile (· ≠ 0x7F) ++ (v.contents.dropWhile (· ≠ 0x7F)).take 1
    g.written = written ++ out.take bufSize.toInt.toNat ∧
      g.ret = if 0x7F ∈ v.contents then toInt16 (i + out.length) else -1
  | 0, _, _, _, _, hfuel, _ => absurd hfuel (Nat.not_lt_zero _)
  | fuel + 1, v, bufSize, i, written, hfuel, hsize => by
      cases hcontents : v.contents with
      | nil =>
          rw [pqueueCopy, v.ringbufGet_of_empty hcontents]
          simp
      | cons c rest =>
          obtain ⟨hget, hrest⟩ := ringbufGet_of_cons hcontents
          rw [hcontents, List.length_cons] at hfuel
          have hstore := store_take hsize written
          rw [pqueueCopy, hget]
          by_cases hstop : c = 0x7F
          · subst hstop
            have hone := hstore [] 0x7F
            simp only [List.take_nil, List.append_nil] at hone
            simp [hone]
          · obtain ⟨hwritten, hret⟩ := pqueueCopy_eq (v := v.taken)
              (if bufSize ≠ 0 then bufSize - 1 else bufSize) (i + 1)
              (if bufSize ≠ 0 then written ++ [c] else written)
              (hrest ▸ Nat.lt_of_succ_lt_succ hfuel) (toInt_store_nonneg hsize)
            rw [hrest] at hwritten hret
            rw [hstore] at hwritten
            have hcount : ∀ n, i + 1 + n = i + (n + 1) := fun n => by omega
            rw [hcount] at hret
            simp [hstop, Ne.symm hstop] at hwritten hret ⊢
            exact ⟨hwritten, hret⟩

/-- What the second loop of `APQUEUE_Get` returns and stores. -/
lemma apqueueCopy_eq : ∀ {fuel : ℕ} {v : ValidRingbuf} (bufSize : Int16) (i : ℕ)
    (written : List UInt8), v.contents.length < fuel → 0 ≤ bufSize.toInt →
    let g := apqueueCopy true fuel bufSize i written v.toRingbuf
    let out := v.contents.takeWhile (· ≠ 0)
    g.written = written ++ out.take bufSize.toInt.toNat ∧
      g.ret = if 0 ∈ v.contents then toInt16 (i + (out.length + 1)) else -1
  | 0, _, _, _, _, hfuel, _ => absurd hfuel (Nat.not_lt_zero _)
  | fuel + 1, v, bufSize, i, written, hfuel, hsize => by
      cases hcontents : v.contents with
      | nil =>
          rw [apqueueCopy, v.ringbufGet_of_empty hcontents]
          simp
      | cons c rest =>
          obtain ⟨hget, hrest⟩ := ringbufGet_of_cons hcontents
          rw [hcontents, List.length_cons] at hfuel
          have hstore := store_take hsize written
          have hroom : bufSize > 0 ↔ bufSize ≠ 0 := pos_iff.trans (one_le_iff_ne_zero hsize)
          rw [apqueueCopy, hget]
          simp only [hroom]
          by_cases hstop : c = 0
          · simp [hstop]
          · obtain ⟨hwritten, hret⟩ := apqueueCopy_eq (v := v.taken)
              (if bufSize ≠ 0 then bufSize - 1 else bufSize) (i + 1)
              (if bufSize ≠ 0 then written ++ [c] else written)
              (hrest ▸ Nat.lt_of_succ_lt_succ hfuel) (toInt_store_nonneg hsize)
            rw [hrest] at hwritten hret
            rw [hstore] at hwritten
            have hcount : ∀ n, i + 1 + n = i + (n + 1) := fun n => by omega
            rw [hcount] at hret
            simp [hstop, Ne.symm hstop] at hwritten hret ⊢
            exact ⟨hwritten, hret⟩

/-- **What `PQUEUE_Get` stores and returns.** -/
theorem pqueueGet_eq (v : ValidRingbuf) {bufSize : Int16} (hsize : 0 ≤ bufSize.toInt) :
    let g := pqueueGet v.toRingbuf true bufSize
    let packet := pqueuePacket v.contents
    g.written = (if bufSize = 0 then [] else packet.take (bufSize.toInt.toNat + 1)) ∧
      (g.ret = toInt16 packet.length ∨ g.ret = -1) := by
  intro g packet
  obtain ⟨v', hlen, ⟨hdrop, hskip⟩ | ⟨hdrop, hskip⟩⟩ := skipTo_cases 0x7E v
  · have hg : g = ⟨-1, 1, [], v'.toRingbuf⟩ := by
      simp only [g, pqueueGet, hskip]
      rfl
    have hpacket : packet = [] := by
      simp only [packet, pqueuePacket, packetWithEnd, hdrop]
    rw [hg, hpacket, List.take_nil, ite_self]
    exact ⟨rfl, Or.inr rfl⟩
  · have hroom : bufSize > 0 ↔ bufSize ≠ 0 := pos_iff.trans (one_le_iff_ne_zero hsize)
    have hg : g = pqueueCopy true v.size bufSize 1 (if bufSize ≠ 0 then [0x7E] else [])
        v'.toRingbuf := by
      simp only [g, pqueueGet, hskip, if_true, hroom, and_true]
    have hpacket : packet = 0x7E :: (v'.contents.takeWhile (· ≠ 0x7F) ++
        (v'.contents.dropWhile (· ≠ 0x7F)).take 1) := by
      simp only [packet, pqueuePacket, packetWithEnd, hdrop]
    obtain ⟨hwritten, hret⟩ :=
      pqueueCopy_eq bufSize 1 (if bufSize ≠ 0 then [0x7E] else []) hlen hsize
    rw [hg, hpacket, hwritten, hret, List.length_cons, Nat.add_comm 1]
    constructor
    · by_cases hzero : bufSize = 0
      · subst hzero
        rfl
      · rw [if_pos hzero, if_neg hzero, List.take_succ_cons]
        rfl
    · by_cases hstop : 0x7F ∈ v'.contents
      · exact Or.inl (if_pos hstop)
      · exact Or.inr (if_neg hstop)

/-- **What `APQUEUE_Get` stores and returns.** -/
theorem apqueueGet_eq (v : ValidRingbuf) {bufSize : Int16} (hsize : 0 ≤ bufSize.toInt) :
    let g := apqueueGet v.toRingbuf true bufSize
    let packet := apqueuePacket v.contents
    g.written = packet.take (bufSize.toInt.toNat + 1) ∧
      (g.ret = toInt16 packet.length ∨ g.ret = -1) := by
  intro g packet
  obtain ⟨v', hlen, ⟨hdrop, hskip⟩ | ⟨hdrop, hskip⟩⟩ := skipTo_cases 0x24 v
  · have hg : g = ⟨-1, 0, [], v'.toRingbuf⟩ := by
      simp only [g, apqueueGet, hskip]
      rfl
    have hpacket : packet = [] := by
      simp only [packet, apqueuePacket, packetToEnd, hdrop]
    rw [hg, hpacket, List.take_nil]
    exact ⟨rfl, Or.inr rfl⟩
  · have hg : g = apqueueCopy true v.size bufSize 0 [0x24] v'.toRingbuf := by
      simp only [g, apqueueGet, hskip, if_true]
    have hpacket : packet = 0x24 :: v'.contents.takeWhile (· ≠ 0) := by
      simp only [packet, apqueuePacket, packetToEnd, hdrop]
    obtain ⟨hwritten, hret⟩ := apqueueCopy_eq bufSize 0 [0x24] hlen hsize
    rw [hg, hpacket, hwritten, hret, List.length_cons, Nat.zero_add, List.take_succ_cons]
    refine ⟨rfl, ?_⟩
    by_cases hstop : 0 ∈ v'.contents
    · exact Or.inl (if_pos hstop)
    · exact Or.inr (if_neg hstop)

/-- A get that stores a packet up to one byte more than the buffer holds. -/
lemma getsInto_iff {packet : List UInt8} {bufSize : Int16} (hsize : 0 ≤ bufSize.toInt)
    {g : PacketGet} (hwritten : g.written = packet.take (bufSize.toInt.toNat + 1))
    (hret : g.ret = toInt16 packet.length ∨ g.ret = -1) :
    GetsInto packet bufSize g ↔ (packet.length : ℤ) ≤ bufSize.toInt := by
  constructor
  · intro h
    have hinside := h.inside
    rw [hwritten, List.length_take] at hinside
    omega
  · intro hfit
    have hlt := bufSize.toInt_lt
    have hall : g.written = packet := by
      rw [hwritten, List.take_of_length_le (by omega)]
    refine ⟨by rw [hall]; exact hfit, fun hnonneg => ?_⟩
    have hlen : g.ret = packet.length := by
      rcases hret with hret | hret
      · rw [hret, toInt16, BitVec.toInt_eq_toNat_of_lt (by rw [BitVec.toNat_ofNat]; omega),
          BitVec.toNat_ofNat, Nat.mod_eq_of_lt (by omega)]
      · omega
    rw [hall, hlen, min_eq_left hfit, Int.toNat_natCast, List.take_length]

end ValidRingbuf

open ValidRingbuf in
/-- **The caller's buffer.**  For every ring and every buffer that is there, with room for
`bufSize` bytes: `PQUEUE_Get` stores no more than that, and of a packet it returns exactly its first
bytes, if and only if all that it dequeues from the start flag on fits, or the buffer has no room at
all; `APQUEUE_Get` if and only if the string fits, the `$` with it. -/
theorem packetGet_getsInto_iff (v : ValidRingbuf) (bufSize : Int16) (hsize : 0 ≤ bufSize.toInt) :
    (GetsInto (pqueuePacket v.contents) bufSize (pqueueGet v.toRingbuf true bufSize) ↔
      bufSize = 0 ∨ ((pqueuePacket v.contents).length : ℤ) ≤ bufSize.toInt) ∧
    (GetsInto (apqueuePacket v.contents) bufSize (apqueueGet v.toRingbuf true bufSize) ↔
      ((apqueuePacket v.contents).length : ℤ) ≤ bufSize.toInt) := by
  constructor
  · obtain ⟨hwritten, hret⟩ := pqueueGet_eq v hsize
    by_cases hzero : bufSize = 0
    · rw [if_pos hzero] at hwritten
      subst hzero
      refine iff_of_true ⟨?_, fun hnonneg => ?_⟩ (Or.inl rfl)
      · rw [hwritten]
        rfl
      · have hmin : min (pqueueGet v.toRingbuf true 0).ret (Int16.toInt 0) = 0 :=
          min_eq_right hnonneg
        rw [hwritten, hmin]
        rfl
    · rw [if_neg hzero] at hwritten
      rw [getsInto_iff hsize hwritten hret]
      exact (or_iff_right hzero).symm
  · obtain ⟨hwritten, hret⟩ := apqueueGet_eq v hsize
    exact getsInto_iff hsize hwritten hret

/-- A ring of eight cells with a short packet of each kind. -/
def shortPackets : ValidRingbuf where
  head := 6
  tail := 0
  size := 8
  pt k := [0x7E, 1, 0x7F, 0x24, 2, 0].getD k 0
  two_le_size := by decide
  size_lt := by decide
  head_lt := by decide
  tail_lt := by decide

/-- The hypothesis is met by a buffer of four bytes. -/
theorem packetGet_getsInto_four :
    (GetsInto (pqueuePacket shortPackets.contents) 4 (pqueueGet shortPackets.toRingbuf true 4) ↔
      (4 : Int16) = 0 ∨ ((pqueuePacket shortPackets.contents).length : ℤ) ≤ (4 : Int16).toInt) ∧
    (GetsInto (apqueuePacket shortPackets.contents) 4 (apqueueGet shortPackets.toRingbuf true 4) ↔
      ((apqueuePacket shortPackets.contents).length : ℤ) ≤ (4 : Int16).toInt) :=
  packetGet_getsInto_iff shortPackets 4 (by decide)

/-- Three bytes are stored in a buffer of two, and one in a buffer without room. -/
theorem packetGet_overruns :
    ¬GetsInto (pqueuePacket shortPackets.contents) 2 (pqueueGet shortPackets.toRingbuf true 2) ∧
      ¬GetsInto (apqueuePacket shortPackets.contents) 0
        (apqueueGet shortPackets.toRingbuf true 0) := by
  have htwo : (pqueueGet shortPackets.toRingbuf true 2).written = [0x7E, 1, 0x7F] := by decide
  have hnone : (apqueueGet shortPackets.toRingbuf true 0).written = [0x24] := by decide
  refine ⟨fun h => ?_, fun h => ?_⟩
  · have hinside := h.inside
    rw [htwo] at hinside
    exact absurd hinside (by decide)
  · have hinside := h.inside
    rw [hnone] at hinside
    exact absurd hinside (by decide)

end Ampm

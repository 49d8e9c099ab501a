import AmpmGsm.Proto.Protocol

/-!
# What the encoder promises

`PROTO_Add` counts the bytes that are still to be sent in 16 bits, and adds the two bytes of the
check sequence to the length of the packet first.

* `EncodesFrame` — the whole contract of a call: it stays inside the buffer, writes the frame or
  gives up, gives up only if the frame does not fit, and agrees with `PROTO_AddUnFcs` on the packet
  and its check sequence.
* `protoAddLoop_eq` — the loop of `PROTO_Add` is that of `PROTO_AddUnFcs` with the check sequence
  behind the packet.
* `protoAdd_encodesFrame_iff` — the contract holds for packets below 65534 bytes, and for longer
  ones only where the buffer is too small even for what the wrapped length leaves to send.
-/

namespace Ampm

/-- What is expected of the return value and the bytes written by a call of `PROTO_Add`. -/
structure EncodesFrame (packet : List UInt8) (bufSize : ℕ) (r : ℕ × List UInt8) : Prop where
  inside : r.2.length ≤ bufSize
  complete : r.1 = 0 ∨
    r = ((frameOf (packet ++ fcsBytes packet)).length, frameOf (packet ++ fcsBytes packet))
  refused : r.1 = 0 → bufSize < (frameOf (packet ++ fcsBytes packet)).length
  agrees : r = protoAddUnFcs (packet ++ fcsBytes packet) bufSize ((packet.length + 2) % 2 ^ 16)

/-! ## Inside the buffer -/

lemma protoPut_length {c : UInt8} {bufSize : ℕ} {out : List UInt8}
    (h : protoPut c bufSize = some out) : out.length ≤ bufSize := by
  rcases Nat.lt_or_ge bufSize (hdlc.stuffOne c).length with hfull | hfit
  · rw [protoPut_of_not_fits hfull] at h
    exact absurd h (Option.some_ne_none out).symm
  · rw [protoPut_of_fits hfit, Option.some.injEq] at h
    rw [← h]
    exact hfit

lemma protoClose_inside (bufSize i : ℕ) : (protoClose bufSize i).2.length ≤ bufSize := by
  rw [protoClose]
  split
  case isTrue => exact Nat.zero_le bufSize
  case isFalse hroom => exact Nat.le_of_not_lt hroom

/-- However many bytes the loop is told to send, it keeps inside the buffer. -/
lemma protoAddLoop_inside (fcs : UInt16) (len : ℕ) : ∀ (packet : List UInt8) (bufSize i : ℕ),
    (protoAddLoop fcs len packet bufSize i).2.length ≤ bufSize := by
  induction len with
  | zero => exact fun _ bufSize i => protoClose_inside bufSize i
  | succ len ih =>
      intro packet bufSize i
      rw [protoAddLoop]
      split
      case h_1 => exact Nat.zero_le bufSize
      case h_2 out hput =>
        have hout := protoPut_length hput
        rw [List.length_append]
        exact Nat.le_trans (Nat.add_le_add_left (ih _ _ _) _) (by omega)

lemma protoAdd_inside (packet : List UInt8) (bufSize len : ℕ) :
    (protoAdd packet bufSize len).2.length ≤ bufSize := by
  rw [protoAdd]
  split
  case isTrue => exact Nat.zero_le bufSize
  case isFalse hroom =>
    have hloop := protoAddLoop_inside (fcsGet (packet.take len)) ((len + 2) % 2 ^ 16) packet
      (bufSize - 1) 2
    rw [List.length_cons]
    omega

/-! ## The two encoders -/

/-- The check sequence that is spliced in by counting down is one that stands behind the packet. -/
lemma protoAddLoop_eq (fcs : UInt16) (packet : List UInt8) : ∀ bufSize i,
    protoAddLoop fcs (packet.length + 2) packet bufSize i
      = protoAddUnFcsLoop (packet.length + 2) (packet ++ [fcsLow fcs, fcsHigh fcs]) bufSize i := by
  induction packet with
  | nil => exact fun _ _ => rfl
  | cons c packet ih =>
      intro bufSize i
      have hlen : (c :: packet).length + 2 = (packet.length + 2) + 1 := rfl
      have hone : packet.length + 2 ≠ 1 := by omega
      have hzero : packet.length + 2 ≠ 0 := by omega
      rw [hlen, protoAddLoop, List.cons_append, protoAddUnFcsLoop]
      simp only [hone, hzero, or_self, if_false, List.headD_cons, List.tail_cons, ih]

lemma protoAdd_eq (packet : List UInt8) (bufSize : ℕ) (hlen : packet.length + 2 < 2 ^ 16) :
    protoAdd packet bufSize packet.length
      = protoAddUnFcs (packet ++ fcsBytes packet) bufSize ((packet.length + 2) % 2 ^ 16) := by
  rw [protoAdd, protoAddUnFcs, List.take_length, Nat.mod_eq_of_lt hlen, protoAddLoop_eq]
  rfl

/-! ## Where the length wraps -/

lemma lt_length_frameOf (bytes : List UInt8) : bytes.length < (frameOf bytes).length := by
  have hle := hdlc.length_le_length_stuff bytes
  rw [length_frameOf]
  omega

/-- A packet of 65534 bytes: the two flags are all that is sent. -/
lemma protoAdd_of_wrapped {packet : List UInt8} (hlen : packet.length = 65534) (bufSize : ℕ) :
    protoAdd packet bufSize packet.length = protoAddUnFcs [] bufSize 0 := by
  rw [protoAdd, hlen]
  rfl

/-- A packet of 65535 bytes: the last byte of the check sequence is all that is sent between the
flags. -/
lemma protoAdd_of_wrapped_one {packet : List UInt8} (hlen : packet.length = 65535) (bufSize : ℕ) :
    protoAdd packet bufSize packet.length
      = protoAddUnFcs [fcsHigh (fcsGet packet)] bufSize 1 := by
  have htake : packet.take 65535 = packet := by
    rw [← hlen, List.take_length]
  rw [protoAdd, hlen, htake]
  rfl

lemma protoAddUnFcs_one (packet : List UInt8) (bufSize : ℕ) :
    protoAddUnFcs packet bufSize 1 = protoAddUnFcs [packet.headD 0] bufSize 1 := rfl

lemma protoAddUnFcs_eq_zero_iff {packet : List UInt8} {bufSize n : ℕ} (hn : packet.length = n)
    (hbuf : bufSize < 2 ^ 16) :
    (protoAddUnFcs packet bufSize n).1 = 0 ↔ bufSize < (frameOf packet).length := by
  subst hn
  have hsends := protoAddUnFcs_sends packet bufSize hbuf
  refine ⟨fun hzero => ?_, hsends.refused⟩
  by_contra hfit
  rw [hsends.complete (Nat.le_of_not_lt hfit), length_frameOf] at hzero
  exact absurd hzero (Nat.succ_ne_zero _)

/-- What is written of a packet of one byte that is sent as it is. -/
lemma protoAddUnFcs_single_of_free {c : UInt8} (hc : ¬hdlc.reserved c) :
    protoAddUnFcs [c] 2 1 = (0, [0x7E, c]) ∧ protoAddUnFcs [c] 3 1 = (3, [0x7E, c, 0x7F]) := by
  have hone : hdlc.stuffOne c = [c] := if_neg hc
  have hput : ∀ n, protoPut c (n + 1) = some [c] := by
    intro n
    rw [← hone]
    exact protoPut_of_fits (hone ▸ Nat.le_add_left 1 n)
  constructor <;> simp [protoAddUnFcs, protoAddUnFcsLoop, hput, protoClose]

/-- What is written of a packet of one byte that is escaped. -/
lemma protoAddUnFcs_single_of_reserved {c : UInt8} (hc : hdlc.reserved c) :
    protoAddUnFcs [c] 2 1 = (0, [0x7E]) ∧
      protoAddUnFcs [c] 3 1 = (0, [0x7E, 0x7D, c ^^^ 0x20]) := by
  have htwo : hdlc.stuffOne c = [0x7D, c ^^^ 0x20] := if_pos hc
  have hnone : protoPut c 1 = none := protoPut_of_not_fits (htwo ▸ Nat.lt_succ_self 1)
  have hsome : protoPut c 2 = some [0x7D, c ^^^ 0x20] := by
    rw [← htwo]
    exact protoPut_of_fits (htwo ▸ Nat.le_refl 2)
  constructor <;> simp [protoAddUnFcs, protoAddUnFcsLoop, hnone, hsome, protoClose]

lemma length_frameOf_single (c : UInt8) :
    (frameOf [c]).length = if hdlc.reserved c then 4 else 3 := by
  rw [length_frameOf, Stuffing.stuff_cons, Stuffing.stuffOne, Stuffing.stuff_nil, List.append_nil]
  split <;> rfl

/-- Two packets of one byte in a buffer too small for the frame of the first: the same is written
of both only up to the flag, or if the bytes fare alike. -/
lemma protoAddUnFcs_single_iff (a b : UInt8) (n : ℕ) :
    (n < (frameOf [a]).length ∧ protoAddUnFcs [a] n 1 = protoAddUnFcs [b] n 1) ↔
      n < 2 ∨ n = 2 ∧ (a = b ∨ hdlc.reserved a ∧ hdlc.reserved b) ∨
        n = 3 ∧ a = b ∧ hdlc.reserved a := by
  rw [length_frameOf_single]
  match n with
  | 0 =>
      refine iff_of_true ⟨?_, rfl⟩ (Or.inl (by decide))
      split <;> decide
  | 1 =>
      have hput : ∀ c, protoPut c 0 = none := fun c => by simp [protoPut]
      refine iff_of_true ⟨?_, ?_⟩ (Or.inl (by decide))
      · split <;> decide
      · simp [protoAddUnFcs, protoAddUnFcsLoop, hput]
  | 2 =>
      by_cases ha : hdlc.reserved a <;> by_cases hb : hdlc.reserved b
      · simp [ha, hb, (protoAddUnFcs_single_of_reserved ha).1,
          (protoAddUnFcs_single_of_reserved hb).1]
      · have hne : a ≠ b := fun h => hb (h ▸ ha)
        simp [ha, hb, hne, (protoAddUnFcs_single_of_reserved ha).1,
          (protoAddUnFcs_single_of_free hb).1]
      · have hne : a ≠ b := fun h => ha (h ▸ hb)
        simp [ha, hb, hne, (protoAddUnFcs_single_of_free ha).1,
          (protoAddUnFcs_single_of_reserved hb).1]
      · simp [ha, (protoAddUnFcs_single_of_free ha).1, (protoAddUnFcs_single_of_free hb).1]
  | 3 =>
      by_cases ha : hdlc.reserved a
      · by_cases hb : hdlc.reserved b
        · simp [ha, (protoAddUnFcs_single_of_reserved ha).2,
            (protoAddUnFcs_single_of_reserved hb).2]
        · have hne : a ≠ b := fun h => hb (h ▸ ha)
          simp [ha, hne, (protoAddUnFcs_single_of_reserved ha).2,
            (protoAddUnFcs_single_of_free hb).2]
      · simp [ha]
  | n + 4 =>
      refine iff_of_false (fun h => ?_) (by omega)
      have hlt := h.1
      split at hlt <;> omega

/-- A packet whose length wraps has a frame longer than any buffer: a call can only refuse it. -/
lemma encodesFrame_of_wrapped {packet : List UInt8} {bufSize : ℕ} (hbuf : bufSize < 2 ^ 16)
    (hlong : 65534 ≤ packet.length) :
    EncodesFrame packet bufSize (protoAdd packet bufSize packet.length) ↔
      (protoAdd packet bufSize packet.length).1 = 0 ∧
        protoAdd packet bufSize packet.length
          = protoAddUnFcs (packet ++ fcsBytes packet) bufSize ((packet.length + 2) % 2 ^ 16) := by
  have hinside := protoAdd_inside packet bufSize packet.length
  have hframe := lt_length_frameOf (packet ++ fcsBytes packet)
  have hlength : (packet ++ fcsBytes packet).length = packet.length + 2 := List.length_append
  constructor
  · intro h
    refine ⟨h.complete.resolve_right fun heq => ?_, h.agrees⟩
    have hlt : (frameOf (packet ++ fcsBytes packet)).length ≤ bufSize := by
      rw [heq] at hinside
      exact hinside
    omega
  · rintro ⟨hzero, hagrees⟩
    exact ⟨hinside, Or.inl hzero, fun _ => by omega, hagrees⟩

/-- **The contract of the encoder.**  For every packet and every buffer that the 16-bit parameters
admit, a call of `PROTO_Add` keeps all that is expected of it exactly if the packet is shorter than
65534 bytes, or the buffer so small that what the wrapped length leaves to send does not fit and is
refused as the other encoder refuses it. -/
theorem protoAdd_encodesFrame_iff (packet : List UInt8) (bufSize : ℕ)
    (hlen : packet.length < 2 ^ 16) (hbuf : bufSize < 2 ^ 16) :
    EncodesFrame packet bufSize (protoAdd packet bufSize packet.length) ↔
      packet.length < 65534 ∨ bufSize < 2 ∨
        packet.length = 65535 ∧
          (bufSize = 2 ∧ (fcsHigh (fcsGet packet) = packet.headD 0 ∨
              hdlc.reserved (fcsHigh (fcsGet packet)) ∧ hdlc.reserved (packet.headD 0)) ∨
            bufSize = 3 ∧ fcsHigh (fcsGet packet) = packet.headD 0 ∧
              hdlc.reserved (fcsHigh (fcsGet packet))) := by
  rcases Nat.lt_or_ge packet.length 65534 with hshort | hlong
  · have hsends := protoAdd_sends packet bufSize (by omega) hbuf
    refine iff_of_true ⟨protoAdd_inside packet bufSize packet.length, ?_, fun hzero => ?_,
      protoAdd_eq packet bufSize (by omega)⟩ (Or.inl hshort)
    · rcases Nat.lt_or_ge bufSize (frameOf (packet ++ fcsBytes packet)).length with hfull | hfit
      · exact Or.inl (hsends.refused hfull)
      · exact Or.inr (hsends.complete hfit)
    · by_contra hfit
      rw [hsends.complete (Nat.le_of_not_lt hfit), length_frameOf] at hzero
      exact absurd hzero (Nat.succ_ne_zero _)
  · rw [encodesFrame_of_wrapped hbuf hlong]
    by_cases hone : packet.length = 65535
    · obtain ⟨p, ps, rfl⟩ := List.exists_cons_of_length_pos (l := packet) (by omega)
      have hwrap : ((p :: ps).length + 2) % 2 ^ 16 = 1 := congrArg (fun n => (n + 2) % 2 ^ 16) hone
      rw [hwrap, protoAddUnFcs_one, protoAdd_of_wrapped_one hone,
        protoAddUnFcs_eq_zero_iff (n := 1) rfl hbuf, List.cons_append, List.headD_cons,
        List.headD_cons,
        protoAddUnFcs_single_iff]
      simp [hone]
    · have hzero : packet.length = 65534 := by omega
      have hwrap : (packet.length + 2) % 2 ^ 16 = 0 :=
        congrArg (fun n => (n + 2) % 2 ^ 16) hzero
      rw [hwrap, protoAdd_of_wrapped hzero,
        protoAddUnFcs_eq_zero_iff (n := 0) List.length_nil hbuf, length_frameOf]
      have hnil : protoAddUnFcs [] bufSize 0
          = protoAddUnFcs (packet ++ fcsBytes packet) bufSize 0 := rfl
      simp [hzero, ← hnil]

/-- The hypotheses are met by a packet of a flag and an escape in a buffer of 20 bytes. -/
theorem protoAdd_encodesFrame_escapes :
    EncodesFrame [0x7E, 0x7D] 20 (protoAdd [0x7E, 0x7D] 20 [(0x7E : UInt8), 0x7D].length) ↔
      [(0x7E : UInt8), 0x7D].length < 65534 ∨ 20 < 2 ∨
        [(0x7E : UInt8), 0x7D].length = 65535 ∧
          (20 = 2 ∧ (fcsHigh (fcsGet [0x7E, 0x7D]) = [0x7E, 0x7D].headD 0 ∨
              hdlc.reserved (fcsHigh (fcsGet [0x7E, 0x7D])) ∧
                hdlc.reserved ([0x7E, 0x7D].headD 0)) ∨
            20 = 3 ∧ fcsHigh (fcsGet [0x7E, 0x7D]) = [0x7E, 0x7D].headD 0 ∧
              hdlc.reserved (fcsHigh (fcsGet [0x7E, 0x7D]))) :=
  protoAdd_encodesFrame_iff [0x7E, 0x7D] 20 (by decide) (by decide)

/-- A packet of 65534 zero bytes is framed as if it were empty, without a check sequence. -/
theorem protoAdd_wrapped :
    ¬EncodesFrame (List.replicate 65534 0) 65535
      (protoAdd (List.replicate 65534 0) 65535 (List.replicate 65534 (0 : UInt8)).length) := by
  intro h
  have hlen : (List.replicate 65534 (0 : UInt8)).length = 65534 := List.length_replicate
  have hzero := ((encodesFrame_of_wrapped (by decide) (by omega)).mp h).1
  rw [protoAdd_of_wrapped hlen] at hzero
  exact absurd hzero (by decide)

end Ampm

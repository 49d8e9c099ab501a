import AmpmGsm.Proto.Protocol

/-!
# What the receiver keeps of a stream

* `protoStore_stores` — a byte that leaves room in the buffer is appended.
* `protoParse_body` — bytes between flags are appended unstuffed as long as they fit.
* `protoEndFcs_of_data`, `data_of_protoEndFcs` — what the closing flag does with a checked frame.
-/

namespace Ampm

/-- The parser after some bytes, as a state machine. -/
def parseStep (protoEnd : ProtoParser → ProtoParser × ParseAnswer) (p : ProtoParser)
    (value : UInt8) : ProtoParser :=
  (protoParseWith protoEnd p value).1

/-! ## The data -/

@[simp] lemma length_data (p : ProtoParser) : p.data.length = p.dataLen := by
  simp [ProtoParser.data]

@[simp] lemma data_reset (p : ProtoParser) : p.reset.data = [] := rfl

/-- A buffer of `n + 2` bytes ends in the two received check bytes. -/
lemma data_eq_append {p : ProtoParser} {n : ℕ} (h : p.dataLen = n + 2) :
    p.data = (List.range n).map p.buf ++ [p.buf n, p.buf (n + 1)] := by
  simp [ProtoParser.data, h, List.range_succ]

/-- `q` is `p` with some more bytes in the buffer. -/
structure Stores (p q : ProtoParser) (bytes : List UInt8) : Prop where
  data_eq : q.data = p.data ++ bytes
  bufSize_eq : q.bufSize = p.bufSize
  callback_eq : q.callback = p.callback

lemma Stores.dataLen_eq {p q : ProtoParser} {bytes : List UInt8} (h : Stores p q bytes) :
    q.dataLen = p.dataLen + bytes.length := by
  have hlen := congrArg List.length h.data_eq
  rwa [List.length_append, length_data, length_data] at hlen

lemma Stores.trans {p q r : ProtoParser} {as bs : List UInt8} (h : Stores p q as)
    (h' : Stores q r bs) : Stores p r (as ++ bs) where
  data_eq := by rw [h'.data_eq, h.data_eq, List.append_assoc]
  bufSize_eq := h'.bufSize_eq.trans h.bufSize_eq
  callback_eq := h'.callback_eq.trans h.callback_eq

/-- Writing at `buf[n]` extends the first `n` bytes. -/
lemma map_range_update (buf : ℕ → UInt8) (n : ℕ) (c : UInt8) :
    (List.range (n + 1)).map (Function.update buf n c) = (List.range n).map buf ++ [c] := by
  have hold : (List.range n).map (Function.update buf n c) = (List.range n).map buf :=
    List.map_congr_left fun i hi =>
      Function.update_of_ne (Nat.ne_of_lt (List.mem_range.mp hi)) _ _
  rw [List.range_succ, List.map_append, hold]
  simp

/-- A byte that leaves room in the buffer is appended, decoded if an escape came before it. -/
lemma protoStore_stores {p : ProtoParser} (value : UInt8) (hroom : p.dataLen + 1 < p.bufSize)
    (hsize : p.bufSize < 2 ^ 16) :
    Stores p (protoStore p value) [if p.isEsc then hdlc.code value else value] ∧
      (protoStore p value).isEsc = false := by
  have hmod : (p.dataLen + 1) % 2 ^ 16 = p.dataLen + 1 := Nat.mod_eq_of_lt (by omega)
  cases hesc : p.isEsc with
  | true =>
      simp only [protoStore, hesc, if_true, hmod, if_neg (Nat.not_le.mpr hroom)]
      exact ⟨⟨map_range_update _ _ _, rfl, rfl⟩, trivial⟩
  | false =>
      simp only [protoStore, hesc, hmod, if_neg (Nat.not_le.mpr hroom), Bool.false_eq_true,
        if_false]
      exact ⟨⟨map_range_update _ _ _, rfl, rfl⟩, trivial⟩

/-- A byte that fills the buffer empties it. -/
lemma protoStore_of_full {p : ProtoParser} (value : UInt8) (hlt : p.dataLen < p.bufSize)
    (hfull : p.bufSize ≤ p.dataLen + 1) (hsize : p.bufSize < 2 ^ 16) :
    (protoStore p value).dataLen = 0 ∧ (protoStore p value).bufSize = p.bufSize := by
  have hmod : (p.dataLen + 1) % 2 ^ 16 = p.dataLen + 1 := Nat.mod_eq_of_lt (by omega)
  cases hesc : p.isEsc with
  | true =>
      simp only [protoStore, hesc, if_true, hmod, if_pos hfull]
      exact ⟨rfl, rfl⟩
  | false =>
      simp only [protoStore, hesc, hmod, if_pos hfull, Bool.false_eq_true, if_false]
      exact ⟨rfl, rfl⟩

/-! ## The switch -/

variable (protoEnd : ProtoParser → ProtoParser × ParseAnswer) (p : ProtoParser)

lemma protoParseWith_esc :
    protoParseWith protoEnd p 0x7D = ({ p with isEsc := true }, ⟨0, none⟩) := rfl

lemma protoParseWith_start : protoParseWith protoEnd p 0x7E = (p.reset, ⟨0, none⟩) := rfl

lemma protoParseWith_end : protoParseWith protoEnd p 0x7F = protoEnd p := rfl

lemma protoParseWith_byte {b : UInt8} (hesc : b ≠ 0x7D) (hstart : b ≠ 0x7E) (hend : b ≠ 0x7F) :
    protoParseWith protoEnd p b = (protoStore p b, ⟨0, none⟩) := by
  rw [protoParseWith, if_neg hesc, if_neg hstart, if_neg hend]

variable {p}

/-- **The body of a frame.**  Bytes that are no flags are appended unstuffed, silently, as long as
they leave room in the buffer. -/
theorem protoParse_body (mid : List UInt8) :
    ∀ {p : ProtoParser}, 0x7E ∉ mid → 0x7F ∉ mid → p.bufSize < 2 ^ 16 →
      p.dataLen + hdlc.carriers mid < p.bufSize →
      Stores p (Runs.run (parseStep protoEnd) p mid) (hdlc.unstuffFrom p.isEsc mid) ∧
      Runs.outputs (protoParseWith protoEnd) p mid = List.replicate mid.length ⟨0, none⟩ := by
  induction mid with
  | nil => exact fun _ _ _ _ => ⟨⟨(List.append_nil _).symm, rfl, rfl⟩, rfl⟩
  | cons b mid ih =>
      intro p hstart hend hsize hroom
      obtain ⟨hb7E, hstart'⟩ := not_or.mp (mt List.mem_cons.mpr hstart)
      obtain ⟨hb7F, hend'⟩ := not_or.mp (mt List.mem_cons.mpr hend)
      by_cases hb : b = 0x7D
      · subst hb
        have hcarry : hdlc.carriers (0x7D :: mid) = hdlc.carriers mid := hdlc.carriers_cons_esc mid
        rw [hcarry] at hroom
        obtain ⟨hstores, hquiet⟩ := ih (p := { p with isEsc := true }) hstart' hend' hsize hroom
        refine ⟨⟨hstores.data_eq, hstores.bufSize_eq, hstores.callback_eq⟩, ?_⟩
        rw [Runs.outputs, protoParseWith_esc, hquiet]
        rfl
      · rw [hdlc.carriers_cons_of_ne hb] at hroom
        have hbyte := protoParseWith_byte protoEnd p hb (Ne.symm hb7E) (Ne.symm hb7F)
        obtain ⟨hstore, hclear⟩ := protoStore_stores b (p := p) (by omega) hsize
        have hlen : (protoStore p b).dataLen = p.dataLen + 1 := hstore.dataLen_eq
        obtain ⟨hstores, hquiet⟩ := ih (p := protoStore p b) hstart' hend'
          (by rw [hstore.bufSize_eq]; exact hsize) (by rw [hstore.bufSize_eq, hlen]; omega)
        rw [hclear] at hstores
        have hunstuff : hdlc.unstuffFrom p.isEsc (b :: mid)
            = [if p.isEsc then hdlc.code b else b] ++ hdlc.unstuffFrom false mid := by
          rw [Stuffing.unstuffFrom]
          exact if_neg hb
        rw [Runs.run_cons, Runs.outputs, parseStep, hbyte, hunstuff, hquiet]
        exact ⟨hstore.trans hstores, rfl⟩

/-! ## The closing flag -/

/-- A frame that carries its own check sequence is delivered without it. -/
lemma protoEndFcs_of_data {packet : List UInt8} (hL : 2 ≤ packet.length)
    (hdata : p.data = packet ++ fcsBytes packet) :
    protoEndFcs p = protoComplete { p with dataLen := packet.length } ∧
      ({ p with dataLen := packet.length } : ProtoParser).data = packet := by
  have hlen : p.dataLen = packet.length + 2 := by
    have := congrArg List.length hdata
    rwa [length_data, List.length_append] at this
  rw [data_eq_append hlen] at hdata
  obtain ⟨hpacket, hbytes⟩ := List.append_inj hdata (by simp)
  obtain ⟨hlow, hhigh⟩ : p.buf packet.length = fcsLow (fcsGet packet) ∧
      p.buf (packet.length + 1) = fcsHigh (fcsGet packet) := by
    simpa [fcsBytes] using hbytes
  have hfcs : fcsGet packet = fcsJoin (p.buf packet.length) (p.buf (packet.length + 1)) :=
    (fcsJoin_eq_iff _ _ _).mpr ⟨hlow, hhigh⟩
  refine ⟨?_, hpacket⟩
  rw [protoEndFcs, if_pos (by omega)]
  simp only [hlen, Nat.add_sub_cancel, show packet.length + 2 - 1 = packet.length + 1 by omega,
    hpacket]
  rw [if_pos hfcs]

lemma protoComplete_callback {seen : ProtoParser}
    (h : (protoComplete p).2.callback = some seen) : seen = p := by
  by_cases hcb : p.callback
  · rw [protoComplete, if_pos hcb] at h
    exact (Option.some.inj h).symm
  · rw [protoComplete, if_neg hcb] at h
    exact absurd h (Option.some_ne_none seen).symm

/-- What the callback sees of a checked frame, its check sequence put back, is the buffer. -/
lemma data_of_protoEndFcs {seen : ProtoParser} (h : (protoEndFcs p).2.callback = some seen) :
    p.data = seen.data ++ fcsBytes seen.data := by
  by_cases hlen : p.dataLen ≥ 4
  · obtain ⟨n, hn⟩ : ∃ n, p.dataLen = n + 2 := ⟨p.dataLen - 2, by omega⟩
    have hlast : p.dataLen - 1 = n + 1 := by omega
    have hbody : p.dataLen - 2 = n := by omega
    rw [protoEndFcs, if_pos hlen, hlast, hbody] at h
    by_cases hfcs : fcsGet ((List.range n).map p.buf) = fcsJoin (p.buf n) (p.buf (n + 1))
    · simp only [if_pos hfcs] at h
      obtain rfl := protoComplete_callback h
      obtain ⟨hlow, hhigh⟩ := (fcsJoin_eq_iff _ _ _).mp hfcs
      rw [data_eq_append hn, hlow, hhigh]
      rfl
    · simp only [if_neg hfcs] at h
      exact absurd h (Option.some_ne_none seen).symm
  · rw [protoEndFcs, if_neg hlen] at h
    exact absurd h (Option.some_ne_none seen).symm

/-- What the callback sees of an unchecked frame is the buffer. -/
lemma data_of_protoEndUnFcs {seen : ProtoParser}
    (h : (protoEndUnFcs p).2.callback = some seen) : p.data = seen.data := by
  by_cases hlen : p.dataLen ≥ 2
  · rw [protoEndUnFcs, if_pos hlen] at h
    rw [protoComplete_callback h]
  · rw [protoEndUnFcs, if_neg hlen] at h
    exact absurd h (Option.some_ne_none seen).symm

end Ampm

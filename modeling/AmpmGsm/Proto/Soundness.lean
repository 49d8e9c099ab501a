import AmpmGsm.Proto.Receiver

/-!
# What the frame parser delivers

The parser has no notion of being between frames: after `PROTO_InitParser`, after a closing flag
and after the reset on a full buffer it goes on storing bytes, and the next `0x7F` delivers them.

* `IsFrameOf` — what a delivery should be: the bytes since the last `0x7E`, unstuffed.
* `parseStep_dataLen`, `run_dataLen` — a reset inside a frame loses bytes that are never made up
  for: the buffer then holds fewer bytes than the frame has carriers.
* `protoParse_sound_iff` — a delivery is right exactly if there was a start flag, and since the
  last one no closing flag and fewer carriers than the buffer has cells.
-/

namespace Ampm

/-! ## Right and wrong deliveries -/

/-- The bytes since the last start flag of the stream, unstuffed, are `data` and its check
bytes. -/
def IsFrameOf (check : List UInt8 → List UInt8) (stream data : List UInt8) : Prop :=
  ∃ pre mid, stream = pre ++ 0x7E :: mid ∧ 0x7E ∉ mid ∧ hdlc.unstuff mid = data ++ check data

/-- There is a start flag, and the bytes since the last one hold no closing flag and fit the
buffer. -/
def InOneFrame (S : ℕ) (stream : List UInt8) : Prop :=
  ∃ pre mid, stream = pre ++ 0x7E :: mid ∧ 0x7E ∉ mid ∧ 0x7F ∉ mid ∧ hdlc.carriers mid < S

/-- A parse function that hands its callback the buffer less some check bytes, and empties the
buffer at the closing flag. -/
structure SoundEnd (protoEnd : ProtoParser → ProtoParser × ParseAnswer)
    (check : List UInt8 → List UInt8) : Prop where
  delivers : ∀ {p seen : ProtoParser}, (protoEnd p).2.callback = some seen →
    p.data = seen.data ++ check seen.data
  empties : ∀ p, (protoEnd p).1.dataLen = 0 ∧ (protoEnd p).1.bufSize = p.bufSize

lemma protoEndFcs_sound : SoundEnd protoEndFcs fcsBytes where
  delivers := data_of_protoEndFcs
  empties p := by
    simp only [protoEndFcs, protoComplete]
    split_ifs <;> exact ⟨rfl, rfl⟩

lemma protoEndUnFcs_sound : SoundEnd protoEndUnFcs fun _ => [] where
  delivers h := by rw [data_of_protoEndUnFcs h, List.append_nil]
  empties p := by
    simp only [protoEndUnFcs, protoComplete]
    split_ifs <;> exact ⟨rfl, rfl⟩

/-! ## Bytes lost to a reset -/

section Loss

variable {protoEnd : ProtoParser → ProtoParser × ParseAnswer} {check : List UInt8 → List UInt8}

/-- The buffer is emptied by this byte. -/
def Resets (p : ProtoParser) (b : UInt8) : Prop :=
  b = 0x7F ∨ p.bufSize ≤ p.dataLen + hdlc.carriers [b]

/-- A byte that is no start flag adds itself to the buffer if it is a carrier, and if it resets the
parser the buffer falls behind. -/
lemma parseStep_dataLen (hend : SoundEnd protoEnd check) {p : ProtoParser} {b : UInt8}
    (hsize : p.bufSize < 2 ^ 16) (hlt : p.dataLen < p.bufSize) (hb : b ≠ 0x7E) :
    (parseStep protoEnd p b).bufSize = p.bufSize ∧
    (parseStep protoEnd p b).dataLen < p.bufSize ∧
    (Resets p b ∧ (parseStep protoEnd p b).dataLen < p.dataLen + hdlc.carriers [b] ∨
      ¬ Resets p b ∧ (parseStep protoEnd p b).dataLen = p.dataLen + hdlc.carriers [b]) := by
  by_cases hesc : b = 0x7D
  · subst hesc
    have hcarry : hdlc.carriers [(0x7D : UInt8)] = 0 := hdlc.carriers_cons_esc []
    have hkeeps : ¬ Resets p 0x7D := by
      rintro (h | h)
      · exact absurd h (by decide)
      · omega
    rw [hcarry]
    exact ⟨rfl, hlt, Or.inr ⟨hkeeps, rfl⟩⟩
  have hcarry : hdlc.carriers [b] = 1 := hdlc.carriers_cons_of_ne hesc []
  by_cases hclose : b = 0x7F
  · subst hclose
    obtain ⟨hzero, hkeep⟩ := hend.empties p
    rw [parseStep, protoParseWith_end, hcarry, hzero]
    exact ⟨hkeep, Nat.zero_lt_of_lt hlt, Or.inl ⟨Or.inl rfl, Nat.succ_pos _⟩⟩
  · have hbyte : parseStep protoEnd p b = protoStore p b :=
      congrArg Prod.fst (protoParseWith_byte protoEnd p hesc hb hclose)
    rw [hbyte, hcarry]
    rcases Nat.lt_or_ge (p.dataLen + 1) p.bufSize with hroom | hfull
    · obtain ⟨hstore, -⟩ := protoStore_stores b hroom hsize
      have hlen : (protoStore p b).dataLen = p.dataLen + 1 := hstore.dataLen_eq
      have hkeeps : ¬ Resets p b := by
        rintro (h | h)
        · exact hclose h
        · omega
      exact ⟨hstore.bufSize_eq, by omega, Or.inr ⟨hkeeps, hlen⟩⟩
    · obtain ⟨hzero, hkeep⟩ := protoStore_of_full b hlt hfull hsize
      rw [hzero]
      exact ⟨hkeep, Nat.zero_lt_of_lt hlt, Or.inl ⟨Or.inr (hcarry ▸ hfull), Nat.succ_pos _⟩⟩

/-- The same for all the bytes since the last start flag: the buffer never gets ahead of the
carriers, and one reset leaves it behind for good. -/
lemma run_dataLen (hend : SoundEnd protoEnd check) (mid : List UInt8) :
    ∀ {p : ProtoParser}, p.bufSize < 2 ^ 16 → p.dataLen < p.bufSize → 0x7E ∉ mid →
      (Runs.run (parseStep protoEnd) p mid).dataLen ≤ p.dataLen + hdlc.carriers mid ∧
      (0x7F ∈ mid ∨ p.bufSize ≤ p.dataLen + hdlc.carriers mid →
        (Runs.run (parseStep protoEnd) p mid).dataLen < p.dataLen + hdlc.carriers mid) := by
  induction mid with
  | nil =>
      intro p _ hlt _
      refine ⟨Nat.le_refl _, ?_⟩
      rintro (h | h)
      · exact absurd h List.not_mem_nil
      · exact absurd hlt (Nat.not_lt.mpr h)
  | cons b mid ih =>
      intro p hsize hlt hstart
      obtain ⟨hb, hstart'⟩ := not_or.mp (mt List.mem_cons.mpr hstart)
      obtain ⟨hkeep, hlt', hdata⟩ := parseStep_dataLen hend hsize hlt (Ne.symm hb)
      obtain ⟨hle, hloss⟩ := ih (p := parseStep protoEnd p b) (by omega) (by omega) hstart'
      have hsplit : hdlc.carriers (b :: mid) = hdlc.carriers [b] + hdlc.carriers mid :=
        hdlc.carriers_append [b] mid
      rw [Runs.run_cons, hsplit]
      rcases hdata with ⟨-, hbehind⟩ | ⟨hkeeps, heq⟩
      · exact ⟨by omega, fun _ => by omega⟩
      · refine ⟨by omega, fun h => ?_⟩
        have hlater := hloss (h.imp (fun hmem => ?_) fun hfull => by omega)
        · omega
        · rcases List.mem_cons.mp hmem with hfirst | hmem
          · exact absurd (Or.inl hfirst.symm) hkeeps
          · exact hmem

end Loss

/-! ## The exact condition -/

section Exact

variable {protoEnd : ProtoParser → ProtoParser × ParseAnswer} {check : List UInt8 → List UInt8}

lemma parseStep_bufSize (hend : SoundEnd protoEnd check) (p : ProtoParser) (b : UInt8) :
    (parseStep protoEnd p b).bufSize = p.bufSize := by
  by_cases hclose : b = 0x7F
  · rw [hclose]
    exact (hend.empties p).2
  · simp only [parseStep, protoParseWith, if_neg hclose, protoStore]
    split_ifs <;> rfl

/-- The parser after a start flag and the bytes since. -/
lemma run_since_start (hend : SoundEnd protoEnd check) (p : ProtoParser) (pre mid : List UInt8) :
    ∃ q : ProtoParser, q.bufSize = p.bufSize ∧
      Runs.run (parseStep protoEnd) p (pre ++ 0x7E :: mid)
        = Runs.run (parseStep protoEnd) q.reset mid := by
  refine ⟨Runs.run (parseStep protoEnd) p pre, ?_, ?_⟩
  · exact Runs.run_invariant (I := fun q => q.bufSize = p.bufSize)
      (fun q b hq => (parseStep_bufSize hend q b).trans hq) pre rfl
  · rw [Runs.run_append, Runs.run_cons]
    rfl

/-- A delivery is the frame since the last start flag exactly if the stream is inside one frame
that fits the buffer. -/
theorem delivery_sound_iff (hend : SoundEnd protoEnd check) {p₀ : ProtoParser} {S : ℕ}
    (hS : 1 ≤ S) (hS' : S < 2 ^ 16) (hp₀ : p₀.bufSize = S) (stream : List UInt8)
    {seen : ProtoParser}
    (hseen : (protoEnd (Runs.run (parseStep protoEnd) p₀ stream)).2.callback = some seen) :
    IsFrameOf check stream seen.data ↔ InOneFrame S stream := by
  have hdata := hend.delivers hseen
  constructor
  · rintro ⟨pre, mid, rfl, hstart, hframe⟩
    obtain ⟨q, hq, hrun⟩ := run_since_start hend p₀ pre mid
    have hlen : hdlc.carriers mid = (Runs.run (parseStep protoEnd) q.reset mid).dataLen := by
      rw [← hdlc.length_unstuffFrom mid false, ← length_data, ← hrun, hdata]
      exact congrArg List.length hframe
    obtain ⟨-, hloss⟩ := run_dataLen hend mid (p := q.reset)
      (by show q.bufSize < _; omega) (by show 0 < q.bufSize; omega) hstart
    have hnever : ¬ (0x7F ∈ mid ∨ q.bufSize ≤ 0 + hdlc.carriers mid) := by
      intro h
      have hless : _ < 0 + hdlc.carriers mid := hloss h
      omega
    exact ⟨pre, mid, rfl, hstart, fun h => hnever (Or.inl h), by omega⟩
  · rintro ⟨pre, mid, rfl, hstart, hclose, hfit⟩
    obtain ⟨q, hq, hrun⟩ := run_since_start hend p₀ pre mid
    obtain ⟨hstores, -⟩ := protoParse_body protoEnd mid (p := q.reset) hstart hclose
      (by show q.bufSize < _; omega) (by show 0 + _ < q.bufSize; omega)
    have hkept := hstores.data_eq
    rw [← hrun, hdata] at hkept
    exact ⟨pre, mid, rfl, hstart, hkept.symm⟩

end Exact

/-- **What the frame parsers deliver.**  Fed any stream after `PROTO_InitParser`, both parse
functions deliver at a `0x7F` the complete unstuffed bytes since the most recent `0x7E` (less the
two check bytes for `PROTO_ParseByte`) if and only if there was a `0x7E`, and the bytes since hold
no `0x7F` and fewer carriers than the buffer has cells. -/
theorem protoParse_sound_iff (buf : ℕ → UInt8) (S : ℕ) (hS : 1 ≤ S) (hS' : S < 2 ^ 16)
    (stream : List UInt8) :
    (∀ seen : ProtoParser,
      (protoParseByteUnFcs (Runs.run (fun p b => (protoParseByteUnFcs p b).1)
        (protoInitParser true buf S) stream) 0x7F).2.callback = some seen →
      (IsFrameOf (fun _ => []) stream seen.data ↔ InOneFrame S stream)) ∧
    (∀ seen : ProtoParser,
      (protoParseByte (Runs.run (fun p b => (protoParseByte p b).1)
        (protoInitParser true buf S) stream) 0x7F).2.callback = some seen →
      (IsFrameOf fcsBytes stream seen.data ↔ InOneFrame S stream)) :=
  ⟨fun _ hseen => delivery_sound_iff protoEndUnFcs_sound hS hS' rfl stream hseen,
    fun _ hseen => delivery_sound_iff protoEndFcs_sound hS hS' rfl stream hseen⟩

/-- The hypotheses are met by a buffer of 16 bytes. -/
theorem protoParse_sound_iff_sixteen :
    ∃ seen : ProtoParser,
      (protoParseByteUnFcs (Runs.run (fun p b => (protoParseByteUnFcs p b).1)
        (protoInitParser true (fun _ => 0) 16) [0x7E, 0x41, 0x42]) 0x7F).2.callback = some seen ∧
      (IsFrameOf (fun _ => []) [0x7E, 0x41, 0x42] seen.data ↔ InOneFrame 16 [0x7E, 0x41, 0x42]) :=
  ⟨_, rfl, (protoParse_sound_iff (fun _ => 0) 16 (by decide) (by decide)
    [0x7E, 0x41, 0x42]).1 _ rfl⟩

/-- Deliveries are not always complete: of a frame of six bytes in a buffer of four, the last two
are delivered. -/
theorem protoParseByteUnFcs_delivers_part :
    ¬ ∀ (buf : ℕ → UInt8) (S : ℕ) (stream : List UInt8) (seen : ProtoParser), 1 ≤ S → S < 2 ^ 16 →
      (protoParseByteUnFcs (Runs.run (fun p b => (protoParseByteUnFcs p b).1)
        (protoInitParser true buf S) stream) 0x7F).2.callback = some seen →
      IsFrameOf (fun _ => []) stream seen.data := by
  intro h
  obtain ⟨pre, mid, hstream, -, hframe⟩ := h (fun _ => 0) 4
    [0x7E, 0x41, 0x42, 0x43, 0x44, 0x45, 0x46] _ (by decide) (by decide) rfl
  cases pre with
  | nil =>
      obtain ⟨-, rfl⟩ := List.cons.inj hstream
      exact absurd hframe (by decide)
  | cons c pre =>
      obtain ⟨-, htail⟩ := List.cons.inj hstream
      have hmem : (0x7E : UInt8) ∈ [(0x41 : UInt8), 0x42, 0x43, 0x44, 0x45, 0x46] :=
        htail ▸ List.mem_append_right pre (List.mem_cons_self ..)
      exact absurd hmem (by decide)

end Ampm

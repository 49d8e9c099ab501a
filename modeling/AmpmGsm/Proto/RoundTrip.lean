import AmpmGsm.Proto.Receiver

/-!
# Framing round trip

* `protoParse_frame` — any frame whose bytes fit the buffer reaches the closing flag with exactly
  these bytes in the buffer, whatever the parser had received before.
* `protoParseByte_protoAdd` — what `PROTO_Add` framed, `PROTO_ParseByte` delivers.
-/

namespace Ampm

/-- A frame is read silently up to its closing flag, with its bytes in the buffer by then. -/
lemma protoParse_frame (protoEnd : ProtoParser → ProtoParser × ParseAnswer) (p : ProtoParser)
    (bytes : List UInt8) (hroom : bytes.length < p.bufSize) (hsize : p.bufSize < 2 ^ 16) :
    ∃ q, q.data = bytes ∧ q.callback = p.callback ∧
      Runs.run (parseStep protoEnd) p (frameOf bytes) = (protoEnd q).1 ∧
      Runs.outputs (protoParseWith protoEnd) p (frameOf bytes)
        = List.replicate ((frameOf bytes).length - 1) ⟨0, none⟩ ++ [(protoEnd q).2] := by
  have hfree : ∀ f, f = 0x7E ∨ f = 0x7F → f ∉ hdlc.stuff bytes := by
    intro f hf hmem
    have hesc : f = 0x7D := hdlc.reserved_of_mem_stuff hmem (Or.inr hf)
    rcases hf with rfl | rfl <;> exact absurd hesc (by decide)
  have hround : hdlc.unstuffFrom false (hdlc.stuff bytes) = bytes := hdlc.unstuff_stuff bytes
  have hcarry : hdlc.carriers (hdlc.stuff bytes) = bytes.length := by
    rw [← hdlc.length_unstuffFrom _ false, hround]
  obtain ⟨hstores, hquiet⟩ := protoParse_body protoEnd (hdlc.stuff bytes) (p := p.reset)
    (hfree _ (Or.inl rfl)) (hfree _ (Or.inr rfl)) hsize
    (by show 0 + _ < p.bufSize; rw [hcarry]; omega)
  have hdata := hstores.data_eq
  change _ = [] ++ hdlc.unstuffFrom false _ at hdata
  rw [hround, List.nil_append] at hdata
  refine ⟨_, hdata, hstores.callback_eq, ?_, ?_⟩
  · rw [frameOf, Runs.run_cons, Runs.run_append]
    rfl
  · rw [length_frameOf, frameOf, Runs.outputs, protoParseWith_start, Runs.outputs_append, hquiet]
    rfl

/-- **Framing round trip.**  Whatever the parser received before, the frame that `PROTO_Add` made
of a packet is read silently up to its last byte; there `PROTO_ParseByte` returns 1 and hands the
packet to the callback, and the parser is left empty. -/
theorem protoParseByte_protoAdd (packet : List UInt8) (bufSize : ℕ) (p : ProtoParser)
    (hL : 2 ≤ packet.length) (hS : packet.length + 2 < p.bufSize) (hS' : p.bufSize ≤ 65535)
    (hbuf : bufSize < 2 ^ 16)
    (hframe : (protoAdd packet bufSize packet.length).1 ≠ 0) :
    let frame := (protoAdd packet bufSize packet.length).2
    let q := Runs.run (fun p b => (protoParseByte p b).1) p frame
    (∃ seen : ProtoParser, seen.dataLen = packet.length ∧ seen.data = packet ∧
      Runs.outputs protoParseByte p frame = List.replicate (frame.length - 1) ⟨0, none⟩ ++
        [⟨1, if p.callback then some seen else none⟩]) ∧
    q.dataLen = 0 ∧ q.isEsc = false := by
  intro frame q
  have hsends := protoAdd_sends packet bufSize (by omega) hbuf
  have hfit : (frameOf (packet ++ fcsBytes packet)).length ≤ bufSize := by
    by_contra hfull
    exact hframe (hsends.refused (by omega))
  have hframe_eq : frame = frameOf (packet ++ fcsBytes packet) :=
    congrArg Prod.snd (hsends.complete hfit)
  have hlen : (packet ++ fcsBytes packet).length = packet.length + 2 := List.length_append
  obtain ⟨r, hdata, hcb, hrun, hout⟩ :=
    protoParse_frame protoEndFcs p (packet ++ fcsBytes packet) (by omega) (by omega)
  obtain ⟨hend, hseen⟩ := protoEndFcs_of_data hL hdata
  have hq : q = r.reset := by
    show Runs.run (parseStep protoEndFcs) p frame = _
    rw [hframe_eq, hrun, hend]
    rfl
  refine ⟨⟨{ r with dataLen := packet.length }, rfl, hseen, ?_⟩, by rw [hq]; rfl, by rw [hq]; rfl⟩
  rw [hframe_eq]
  refine hout.trans ?_
  rw [hend, ← hcb]
  rfl

/-- The hypotheses are met by a packet of a flag and an escape, parsed after garbage. -/
theorem protoParseByte_protoAdd_escapes :
    let p : ProtoParser := ⟨fun _ => 0, 8, 3, true, true⟩
    let frame := (protoAdd [0x7E, 0x7D] 20 [(0x7E : UInt8), 0x7D].length).2
    let q := Runs.run (fun p b => (protoParseByte p b).1) p frame
    (∃ seen : ProtoParser, seen.dataLen = [(0x7E : UInt8), 0x7D].length ∧
      seen.data = [0x7E, 0x7D] ∧
      Runs.outputs protoParseByte p frame = List.replicate (frame.length - 1) ⟨0, none⟩ ++
        [⟨1, if p.callback then some seen else none⟩]) ∧
    q.dataLen = 0 ∧ q.isEsc = false :=
  protoParseByte_protoAdd [0x7E, 0x7D] 20 ⟨fun _ => 0, 8, 3, true, true⟩ (by decide) (by decide)
    (by decide) (by decide) (by decide +kernel)

end Ampm

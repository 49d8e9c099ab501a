import AmpmGsm.Lib.Runs
import AmpmGsm.Lib.Stuffing
import AmpmGsm.Proto.Fcs
import Mathlib.Algebra.Group.Nat.Defs

/-!
# The packet protocol

`lib/protocol.c`: frames between two flags, `0x7E` and `0x7F`, with `0x7D` as escape, closed by a
check sequence or not.

* `protoInitParser`, `protoParseByte`, `protoParseByteUnFcs` — the receiver, a byte at a time.
* `protoAdd`, `protoAddUnFcs` — the sender.
* `hdlc` — the stuffing alphabet that sender and receiver share.
* `protoAdd_sends`, `protoAddUnFcs_sends` — the sender writes the stuffed packet between flags if the
  buffer has room for it, and returns `0` otherwise.
-/

namespace Ampm

/-! ## The receiver -/

/-- `PROTO_PARSER`.  `callback` says whether the pointer is not `NULL`. -/
structure ProtoParser where
  buf : ℕ → UInt8
  bufSize : ℕ
  dataLen : ℕ
  isEsc : Bool
  callback : Bool

/-- `buf[0..dataLen)`. -/
def ProtoParser.data (p : ProtoParser) : List UInt8 := (List.range p.dataLen).map p.buf

/-- What a call of a parse function returns, and the parser it passed to the callback if it made
the call. -/
structure ParseAnswer where
  ret : ℕ
  callback : Option ProtoParser

/-- `PROTO_InitParser`. -/
def protoInitParser (completeCallback : Bool) (buf : ℕ → UInt8) (bufSize : ℕ) : ProtoParser :=
  { buf := buf, bufSize := bufSize, dataLen := 0, isEsc := false, callback := completeCallback }

/-- `dataLen = 0; isEsc = 0;` -/
def ProtoParser.reset (p : ProtoParser) : ProtoParser := { p with dataLen := 0, isEsc := false }

/-- The `default` branch of both parse functions. -/
def protoStore (p : ProtoParser) (value : UInt8) : ProtoParser :=
  let p :=
    if p.isEsc then
      { p with
        buf := Function.update p.buf p.dataLen (value ^^^ 0x20)
        dataLen := (p.dataLen + 1) % 2 ^ 16
        isEsc := false }
    else
      { p with
        buf := Function.update p.buf p.dataLen value
        dataLen := (p.dataLen + 1) % 2 ^ 16 }
  if p.dataLen ≥ p.bufSize then p.reset else p

/-- The call of the callback and the reset after it. -/
def protoComplete (p : ProtoParser) : ProtoParser × ParseAnswer :=
  (p.reset, ⟨1, if p.callback then some p else none⟩)

/-- The `0x7F` branch of `PROTO_ParseByte`. -/
def protoEndFcs (p : ProtoParser) : ProtoParser × ParseAnswer :=
  if p.dataLen ≥ 4 then
    let fcs := fcsGet ((List.range (p.dataLen - 2)).map p.buf)
    let rxFcs := fcsJoin (p.buf (p.dataLen - 2)) (p.buf (p.dataLen - 1))
    let p := { p with dataLen := p.dataLen - 2 }
    if fcs = rxFcs then protoComplete p else (p.reset, ⟨0, none⟩)
  else (p.reset, ⟨0, none⟩)

/-- The `0x7F` branch of `PROTO_ParseByteUnFcs`. -/
def protoEndUnFcs (p : ProtoParser) : ProtoParser × ParseAnswer :=
  if p.dataLen ≥ 2 then protoComplete p else (p.reset, ⟨0, none⟩)

/-- The `switch` of the parse functions, which differ in the `0x7F` branch. -/
def protoParseWith (protoEnd : ProtoParser → ProtoParser × ParseAnswer) (p : ProtoParser)
    (value : UInt8) : ProtoParser × ParseAnswer :=
  if value = 0x7D then ({ p with isEsc := true }, ⟨0, none⟩)
  else if value = 0x7E then (p.reset, ⟨0, none⟩)
  else if value = 0x7F then protoEnd p
  else (protoStore p value, ⟨0, none⟩)

/-- `PROTO_ParseByte`. -/
def protoParseByte : ProtoParser → UInt8 → ProtoParser × ParseAnswer := protoParseWith protoEndFcs

/-- `PROTO_ParseByteUnFcs`. -/
def protoParseByteUnFcs : ProtoParser → UInt8 → ProtoParser × ParseAnswer :=
  protoParseWith protoEndUnFcs

/-! ## The sender -/

/-- The `switch(c)` of the senders: the bytes written for `c`, `none` if they do not fit. -/
def protoPut (c : UInt8) (bufSize : ℕ) : Option (List UInt8) :=
  if c = 0x7D ∨ c = 0x7E ∨ c = 0x7F then
    if bufSize < 2 then none else some [0x7D, c ^^^ 0x20]
  else
    if bufSize < 1 then none else some [c]

/-- The end of the senders: the closing flag. -/
def protoClose (bufSize i : ℕ) : ℕ × List UInt8 := if bufSize < 1 then (0, []) else (i, [0x7F])

/-- The loop of `PROTO_Add` and what follows it: the return value and the bytes written. -/
def protoAddLoop (fcs : UInt16) : ℕ → List UInt8 → ℕ → ℕ → ℕ × List UInt8
  | 0, _, bufSize, i => protoClose bufSize i
  | len + 1, packet, bufSize, i =>
      let c := if len = 1 then fcsLow fcs else if len = 0 then fcsHigh fcs else packet.headD 0
      let packet := if len = 1 ∨ len = 0 then packet else packet.tail
      match protoPut c bufSize with
      | none => (0, [])
      | some out =>
          let r := protoAddLoop fcs len packet (bufSize - out.length) ((i + out.length) % 2 ^ 16)
          (r.1, out ++ r.2)

/-- `PROTO_Add`: the return value and the bytes written from `buf` on. -/
def protoAdd (packet : List UInt8) (bufSize len : ℕ) : ℕ × List UInt8 :=
  if bufSize < 1 then (0, [])
  else
    let r := protoAddLoop (fcsGet (packet.take len)) ((len + 2) % 2 ^ 16) packet (bufSize - 1) 2
    (r.1, 0x7E :: r.2)

/-- The loop of `PROTO_AddUnFcs` and what follows it. -/
def protoAddUnFcsLoop : ℕ → List UInt8 → ℕ → ℕ → ℕ × List UInt8
  | 0, _, bufSize, i => protoClose bufSize i
  | packetLen + 1, packet, bufSize, i =>
      match protoPut (packet.headD 0) bufSize with
      | none => (0, [])
      | some out =>
          let r := protoAddUnFcsLoop packetLen packet.tail (bufSize - out.length)
            ((i + out.length) % 2 ^ 16)
          (r.1, out ++ r.2)

/-- `PROTO_AddUnFcs`: the return value and the bytes written from `buf` on. -/
def protoAddUnFcs (packet : List UInt8) (bufSize packetLen : ℕ) : ℕ × List UInt8 :=
  if bufSize < 1 then (0, [])
  else
    let r := protoAddUnFcsLoop packetLen packet (bufSize - 1) 2
    (r.1, 0x7E :: r.2)

/-! ## What the sender writes -/

/-- The alphabet of the protocol: the two flags and the escape are reserved. -/
def hdlc : Stuffing UInt8 where
  esc := 0x7D
  reserved c := c = 0x7D ∨ c = 0x7E ∨ c = 0x7F
  code c := c ^^^ 0x20
  code_code c := by rw [UInt8.xor_assoc, UInt8.xor_self, UInt8.xor_zero]
  esc_reserved := Or.inl rfl
  code_free := by
    rintro c (rfl | rfl | rfl) <;> decide

instance : DecidablePred hdlc.reserved :=
  fun c => inferInstanceAs (Decidable (c = 0x7D ∨ c = 0x7E ∨ c = 0x7F))

/-- A frame: the stuffed bytes between the flags. -/
def frameOf (bytes : List UInt8) : List UInt8 := 0x7E :: (hdlc.stuff bytes ++ [0x7F])

lemma protoPut_of_fits {c : UInt8} {bufSize : ℕ} (h : (hdlc.stuffOne c).length ≤ bufSize) :
    protoPut c bufSize = some (hdlc.stuffOne c) := by
  by_cases hc : c = 0x7D ∨ c = 0x7E ∨ c = 0x7F
  · have hone : hdlc.stuffOne c = [0x7D, c ^^^ 0x20] := if_pos hc
    rw [hone] at h ⊢
    rw [protoPut, if_pos hc]
    exact if_neg (Nat.not_lt.mpr h)
  · have hone : hdlc.stuffOne c = [c] := if_neg hc
    rw [hone] at h ⊢
    rw [protoPut, if_neg hc]
    exact if_neg (Nat.not_lt.mpr h)

lemma protoPut_of_not_fits {c : UInt8} {bufSize : ℕ} (h : bufSize < (hdlc.stuffOne c).length) :
    protoPut c bufSize = none := by
  by_cases hc : c = 0x7D ∨ c = 0x7E ∨ c = 0x7F
  · have hone : hdlc.stuffOne c = [0x7D, c ^^^ 0x20] := if_pos hc
    rw [hone] at h
    rw [protoPut, if_pos hc]
    exact if_pos h
  · have hone : hdlc.stuffOne c = [c] := if_neg hc
    rw [hone] at h
    rw [protoPut, if_neg hc]
    exact if_pos h

/-- What a sender's loop does with the bytes still to be sent: it writes them stuffed and closes
the frame if there is room for that, and returns `0` otherwise. -/
structure SendsRest (bytes : List UInt8) (bufSize i : ℕ) (r : ℕ × List UInt8) : Prop where
  complete : (hdlc.stuff bytes).length < bufSize →
    r = (i + (hdlc.stuff bytes).length, hdlc.stuff bytes ++ [0x7F])
  refused : bufSize ≤ (hdlc.stuff bytes).length → r.1 = 0

lemma protoClose_sendsRest (bufSize i : ℕ) : SendsRest [] bufSize i (protoClose bufSize i) where
  complete h := if_neg (Nat.not_lt.mpr h)
  refused h := congrArg Prod.fst (if_pos (Nat.lt_succ_of_le h))

/-- One round of a sender's loop. -/
lemma sendsRest_cons {c : UInt8} {bytes : List UInt8} {bufSize i : ℕ}
    {f : ℕ → ℕ → ℕ × List UInt8} (hroom : bufSize + i ≤ 2 ^ 16)
    (hnext : ∀ n j, n + j ≤ 2 ^ 16 → SendsRest bytes n j (f n j)) :
    SendsRest (c :: bytes) bufSize i
      (match protoPut c bufSize with
        | none => (0, [])
        | some out =>
            ((f (bufSize - out.length) ((i + out.length) % 2 ^ 16)).1,
              out ++ (f (bufSize - out.length) ((i + out.length) % 2 ^ 16)).2)) := by
  have hlen : (hdlc.stuff (c :: bytes)).length
      = (hdlc.stuffOne c).length + (hdlc.stuff bytes).length := List.length_append
  rcases Nat.lt_or_ge bufSize (hdlc.stuffOne c).length with hfull | hfit
  · rw [protoPut_of_not_fits hfull]
    exact ⟨fun h => by omega, fun _ => rfl⟩
  · have hrest := hnext (bufSize - (hdlc.stuffOne c).length)
      ((i + (hdlc.stuffOne c).length) % 2 ^ 16) (by omega)
    rw [protoPut_of_fits hfit]
    refine ⟨fun h => ?_, fun h => hrest.refused (by omega)⟩
    have hmod : (i + (hdlc.stuffOne c).length) % 2 ^ 16 = i + (hdlc.stuffOne c).length :=
      Nat.mod_eq_of_lt (by omega)
    rw [hmod] at hrest
    simp only [hmod, hrest.complete (by omega), Stuffing.stuff_cons, List.length_append,
      Nat.add_assoc, List.append_assoc]

lemma protoAddLoop_sendsRest (fcs : UInt16) (packet : List UInt8) :
    ∀ bufSize i, bufSize + i ≤ 2 ^ 16 →
      SendsRest (packet ++ [fcsLow fcs, fcsHigh fcs]) bufSize i
        (protoAddLoop fcs (packet.length + 2) packet bufSize i) := by
  induction packet with
  | nil =>
      intro bufSize i hroom
      refine sendsRest_cons (f := protoAddLoop fcs 1 []) hroom fun n j hnj => ?_
      refine sendsRest_cons (f := protoAddLoop fcs 0 []) hnj fun m k _ => ?_
      exact protoClose_sendsRest m k
  | cons c packet ih =>
      intro bufSize i hroom
      exact sendsRest_cons (f := protoAddLoop fcs (packet.length + 2) packet) hroom ih

lemma protoAddUnFcsLoop_sendsRest (packet : List UInt8) :
    ∀ bufSize i, bufSize + i ≤ 2 ^ 16 →
      SendsRest packet bufSize i (protoAddUnFcsLoop packet.length packet bufSize i) := by
  induction packet with
  | nil =>
      intro bufSize i _
      exact protoClose_sendsRest bufSize i
  | cons c packet ih =>
      intro bufSize i hroom
      exact sendsRest_cons (f := protoAddUnFcsLoop packet.length packet) hroom ih

lemma length_frameOf (bytes : List UInt8) :
    (frameOf bytes).length = (hdlc.stuff bytes).length + 2 := by
  simp [frameOf]

/-- What a sender as a whole does with the bytes of a frame. -/
structure Sends (bytes : List UInt8) (bufSize : ℕ) (r : ℕ × List UInt8) : Prop where
  complete : (frameOf bytes).length ≤ bufSize → r = ((frameOf bytes).length, frameOf bytes)
  refused : bufSize < (frameOf bytes).length → r.1 = 0

/-- A sender started on an empty buffer. -/
lemma sends_nothing {bytes : List UInt8} {bufSize : ℕ} (hbuf : bufSize < 1) :
    Sends bytes bufSize (0, []) where
  complete h := by
    rw [length_frameOf] at h
    omega
  refused _ := rfl

/-- A sender started on a buffer with room for the opening flag. -/
lemma SendsRest.frame {bytes : List UInt8} {bufSize : ℕ} {r : ℕ × List UInt8}
    (h : SendsRest bytes (bufSize - 1) 2 r) : Sends bytes bufSize (r.1, 0x7E :: r.2) where
  complete hfit := by
    rw [length_frameOf] at hfit ⊢
    rw [h.complete (by omega), Nat.add_comm 2]
    rfl
  refused hfull := by
    rw [length_frameOf] at hfull
    exact h.refused (by omega)

/-- `PROTO_Add` writes the frame of the packet and its check sequence and returns its length if
the buffer has room for it, and returns `0` otherwise. -/
theorem protoAdd_sends (packet : List UInt8) (bufSize : ℕ) (hlen : packet.length + 2 < 2 ^ 16)
    (hbuf : bufSize < 2 ^ 16) :
    Sends (packet ++ fcsBytes packet) bufSize (protoAdd packet bufSize packet.length) := by
  by_cases hpos : bufSize < 1
  · rw [protoAdd, if_pos hpos]
    exact sends_nothing hpos
  · have hloop := protoAddLoop_sendsRest (fcsGet packet) packet (bufSize - 1) 2 (by omega)
    rw [protoAdd, if_neg hpos, List.take_length, Nat.mod_eq_of_lt hlen]
    exact hloop.frame

/-- `PROTO_AddUnFcs` does the same without a check sequence. -/
theorem protoAddUnFcs_sends (packet : List UInt8) (bufSize : ℕ) (hbuf : bufSize < 2 ^ 16) :
    Sends packet bufSize (protoAddUnFcs packet bufSize packet.length) := by
  by_cases hpos : bufSize < 1
  · rw [protoAddUnFcs, if_pos hpos]
    exact sends_nothing hpos
  · have hloop := protoAddUnFcsLoop_sendsRest packet (bufSize - 1) 2 (by omega)
    rw [protoAddUnFcs, if_neg hpos]
    exact hloop.frame

end Ampm

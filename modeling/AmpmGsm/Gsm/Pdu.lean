import Mathlib.Logic.Function.Basic
import Mathlib.Data.Int.Notation
import Mathlib.Data.Nat.Notation

/-!
# SMS-SUBMIT encoding

`sms/pdu.c`, the encoding half.  The output buffer is the map from an index to the byte stored
there; strings are the bytes before their terminating NUL.

* `encodePduMessage`, `encodePhoneNumber` — septets and semi-octets.
* `pduEncode`, `pdu16Encode` — a whole message, `-1` if it does not fit.
-/

namespace Ampm

/-! ## Septets -/

/-- The variables of the loop of `EncodePDUMessage`. -/
structure PduLoop where
  i : ℕ
  outputBufferLength : ℕ
  carryOnBits : UInt8
  outputBuffer : ℕ → UInt8

/-- A character's seven bits. -/
def septet (smsText : List UInt8) (i : ℕ) : UInt8 := smsText.getD i 0 &&& 0x7F

/-- The loop of `EncodePDUMessage`; it runs at most `smsText.length` rounds. -/
def encodePduLoop (smsText : List UInt8) : ℕ → PduLoop → PduLoop
  | 0, s => s
  | rounds + 1, s =>
      if s.i + 1 < smsText.length then
        let out := (septet smsText s.i >>> (s.carryOnBits - 1)) |||
          (septet smsText (s.i + 1) <<< (8 - s.carryOnBits))
        let carry := s.carryOnBits + 1
        encodePduLoop smsText rounds
          { i := if carry = 8 then s.i + 2 else s.i + 1
            outputBufferLength := s.outputBufferLength + 1
            carryOnBits := if carry = 8 then 1 else carry
            outputBuffer := Function.update s.outputBuffer s.outputBufferLength out }
      else s

/-- `EncodePDUMessage` with its output from index `start` on: the return value and the buffer. -/
def encodePduMessage (smsText : List UInt8) (outputBuffer : ℕ → UInt8) (start : ℕ)
    (bufferSize : ℤ) : ℤ × (ℕ → UInt8) :=
  if ((smsText.length * 7 + 7) / 8 : ℕ) > bufferSize then (-1, outputBuffer)
  else
    let s := encodePduLoop smsText smsText.length ⟨0, start, 1, outputBuffer⟩
    if s.i ≤ smsText.length then
      ((s.outputBufferLength + 1 : ℕ) - start,
        Function.update s.outputBuffer s.outputBufferLength
          (septet smsText s.i >>> (s.carryOnBits - 1)))
    else ((s.outputBufferLength : ℤ) - start, s.outputBuffer)

/-! ## Semi-octets -/

/-- One round of the loop of `EncodePhoneNumber`.  Its test for digits is never true. -/
def encodePhoneDigit (phoneNumber : List UInt8) (start : ℕ) (out : ℕ → UInt8) (i : ℕ) :
    ℕ → UInt8 :=
  let digit := phoneNumber.getD i 0 - 48
  let at_ := start + i / 2
  if i % 2 = 0 then Function.update out at_ (0xF0 ||| digit)
  else Function.update out at_ ((out at_ &&& (0x0F : UInt8)) ||| (digit <<< 4))

/-- `EncodePhoneNumber` with its output from index `start` on. -/
def encodePhoneNumber (phoneNumber : List UInt8) (outputBuffer : ℕ → UInt8) (start : ℕ)
    (bufferSize : ℤ) : ℤ × (ℕ → UInt8) :=
  if ((phoneNumber.length + 1) / 2 : ℕ) > bufferSize then (-1, outputBuffer)
  else
    (((phoneNumber.length + 1) / 2 : ℕ),
      (List.range phoneNumber.length).foldl (encodePhoneDigit phoneNumber start) outputBuffer)

/-! ## Whole messages -/

/-- Steps 1 to 4 of `pdu_encode` and `pdu16_encode`, which differ in the data coding scheme `dcs`:
the length so far, `none` where they return `-1`, and the buffer. -/
def pduHeader (serviceCenterNumber phoneNumber : List UInt8) (dcs : UInt8)
    (outputBuffer : ℕ → UInt8) (bufferSize : ℕ) : Option ℕ × (ℕ → UInt8) :=
  if bufferSize < 2 then (none, outputBuffer)
  else
    -- a failure here gives -1 + 1, since the test after it is never true
    let r : ℤ × (ℕ → UInt8) :=
      if serviceCenterNumber.length > 0 then
        let r := encodePhoneNumber serviceCenterNumber (Function.update outputBuffer 1 0x91) 2
          (bufferSize - 2)
        (r.1 + 1, r.2)
      else (0, outputBuffer)
    let length := r.1.toNat
    let out := Function.update r.2 0 length.toUInt8
    let n := length + 1
    if n + 4 > bufferSize then (none, out)
    else
      let out := Function.update out n 0x11
      let out := Function.update out (n + 1) 0x00
      let n := n + 2
      let out := Function.update out n phoneNumber.length.toUInt8
      let out := Function.update out (n + 1) 0x91
      let r := encodePhoneNumber phoneNumber out (n + 2) (bufferSize - n - 2)
      let n := (n + r.1 + 2).toNat
      if n + 4 > bufferSize then (none, r.2)
      else
        let out := Function.update r.2 n 0x00
        let out := Function.update out (n + 1) dcs
        let out := Function.update out (n + 2) 0xB0
        (some (n + 3), out)

/-- `SMS_MAX_7BIT_TEXT_LENGTH`. -/
def smsMax7BitTextLength : ℕ := 160

/-- `pdu_encode`: the return value and the buffer. -/
def pduEncode (serviceCenterNumber phoneNumber smsText : List UInt8) (outputBuffer : ℕ → UInt8)
    (bufferSize : ℕ) : ℤ × (ℕ → UInt8) :=
  match pduHeader serviceCenterNumber phoneNumber 0x00 outputBuffer bufferSize with
  | (none, out) => (-1, out)
  | (some n, out) =>
      if smsText.length > smsMax7BitTextLength then (-1, out)
      else
        let out := Function.update out n smsText.length.toUInt8
        let r := encodePduMessage smsText out (n + 1) ((bufferSize : ℤ) - (n + 1))
        if r.1 < 0 then (-1, r.2) else ((n + 1 : ℕ) + r.1, r.2)

/-- `pdu16_encode`; `smsText` are the bytes at the message pointer. -/
def pdu16Encode (serviceCenterNumber phoneNumber smsText : List UInt8) (smsLen : UInt8)
    (outputBuffer : ℕ → UInt8) (bufferSize : ℕ) : ℤ × (ℕ → UInt8) :=
  match pduHeader serviceCenterNumber phoneNumber 0x08 outputBuffer bufferSize with
  | (none, out) => (-1, out)
  | (some n, out) =>
      if smsLen.toNat > smsMax7BitTextLength then (-1, out)
      else
        let out := Function.update out n smsLen
        let out := (List.range smsLen.toNat).foldl
          (fun out i => Function.update out (n + 1 + i) (smsText.getD i 0)) out
        ((n + 1 + smsLen.toNat : ℕ), out)

end Ampm

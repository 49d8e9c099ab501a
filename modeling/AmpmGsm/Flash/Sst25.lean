import AmpmGsm.Lib.NorFlash
import Mathlib.Algebra.Group.Nat.Defs
import Mathlib.Tactic.SplitIfs

/-!
# The flash driver

`flash_mem/sst25.c`: erasing in blocks of 4096 bytes, programming, and reading.  A write erases the
block that it starts, programs, and compares.  The device takes 24 bits of an address, and here it
is never busy for longer than the driver waits; that a call of `SST25_Write` fails nevertheless, and
with what it leaves in the cells, is up to `fault`.

* `Flash`, `FlashAccess` — the device, and what was asked of it.
* `sst25Erase`, `sst25Write`, `sst25Read` — the functions.
* `pageLog`, `sst25Write_log` — the commands of a write of one page or less.
* `pageMem`, `sst25Write_page` — what it leaves in the cells if it stays inside a block.
-/

namespace Ampm

open NorFlash

/-! ## The code -/

/-- One command to the device: its address as the driver has it, and the number of bytes. -/
inductive FlashAccess
  | erase (addr : ℕ)
  | program (addr count : ℕ)
  | read (addr count : ℕ)
  deriving DecidableEq

/-- The device, and the number of calls of `SST25_Write` so far.  `fault k` are the cells after the
call `k` if that fails. -/
structure Flash where
  mem : Memory
  fault : ℕ → Option Memory
  writes : ℕ
  log : List FlashAccess

/-- The part of an address that is sent. -/
def devAddr (addr : ℕ) : ℕ := addr % 2 ^ 24

/-- `SST25_Erase` with `block4k`. -/
def sst25Erase (f : Flash) (addr : ℕ) : Flash :=
  { f with mem := erase 4096 (devAddr addr) f.mem, log := f.log ++ [.erase addr] }

/-- `__SST25_Write`. -/
def sst25Program (f : Flash) (addr : ℕ) (buf : List UInt8) : Flash :=
  { f with
    mem := program (devAddr addr) buf f.mem
    log := f.log ++ [.program addr buf.length] }

/-- `_SST25_Write`. -/
def sst25WriteBlocks (f : Flash) (addr : ℕ) (buf : List UInt8) : Flash :=
  let f := if addr % 4096 = 0 then sst25Erase f addr else f
  let count1 := if addr % 4096 + buf.length > 4096 then (addr + buf.length) % 2 ^ 32 % 4096 else 0
  let count := buf.length - count1
  let f := sst25Program f addr (buf.take count)
  if count1 ≠ 0 then
    let next := (addr + count) % 2 ^ 32
    sst25Program (sst25Erase f next) next (buf.drop count)
  else f

/-- `_SST25_Read`. -/
def sst25ReadBytes (f : Flash) (addr count : ℕ) : List UInt8 × Flash :=
  (read f.mem (devAddr addr) count, { f with log := f.log ++ [.read addr count] })

/-- A write, and the comparison of what was written. -/
def sst25WriteChecked (f : Flash) (addr : ℕ) (buf : List UInt8) : Bool × Flash :=
  let r := sst25ReadBytes (sst25WriteBlocks f addr buf) addr buf.length
  (r.1 = buf, r.2)

/-- The loop of `SST25_Write`, in pieces of 256 bytes. -/
def sst25WriteLoop : ℕ → Flash → ℕ → List UInt8 → Bool × Flash
  | 0, f, _, _ => (true, f)
  | fuel + 1, f, addr, buf =>
      if buf = [] then (true, f)
      else
        let r := sst25WriteChecked f addr (buf.take 256)
        if r.1 then sst25WriteLoop fuel r.2 ((addr + 256) % 2 ^ 32) (buf.drop 256) else r

/-- `SST25_Write` of all bytes of `buf` on a device that answers in time.  The count is cut to 16
bits. -/
def sst25WriteInTime (f : Flash) (addr : ℕ) (buf : List UInt8) : Bool × Flash :=
  let cnt := buf.length % 2 ^ 16
  if cnt ≤ 256 then sst25WriteChecked f addr (buf.take cnt)
  else sst25WriteLoop cnt f addr (buf.take cnt)

/-- `SST25_Write`: whether it returns `SST25_OK`. -/
def sst25Write (f : Flash) (addr : ℕ) (buf : List UInt8) : Bool × Flash :=
  let r := sst25WriteInTime { f with writes := f.writes + 1 } addr buf
  match f.fault f.writes with
  | some mem => (false, { r.2 with mem := mem })
  | none => r

/-- The loop of `SST25_Read`, in pieces of 512 bytes. -/
def sst25ReadLoop : ℕ → Flash → ℕ → ℕ → List UInt8 × Flash
  | 0, f, _, _ => ([], f)
  | fuel + 1, f, addr, cnt =>
      if cnt = 0 then ([], f)
      else
        let r := sst25ReadBytes f addr (min cnt 512)
        let rest := sst25ReadLoop fuel r.2 ((addr + 512) % 2 ^ 32) (cnt - 512)
        (r.1 ++ rest.1, rest.2)

/-- `SST25_Read`: the bytes stored in the buffer.  The count is cut to 16 bits. -/
def sst25Read (f : Flash) (addr count : ℕ) : List UInt8 × Flash :=
  let cnt := count % 2 ^ 16
  if cnt ≤ 512 then sst25ReadBytes f addr cnt else sst25ReadLoop cnt f addr cnt

/-! ## What the functions do -/

/-- No call of `SST25_Write` fails of itself. -/
def Flash.Faultless (f : Flash) : Prop := ∀ k, f.fault k = none

/-- The number of bytes of a write that lie in the next block. -/
def overlapCount (addr count : ℕ) : ℕ :=
  if addr % 4096 + count > 4096 then (addr + count) % 2 ^ 32 % 4096 else 0

lemma overlapCount_of_fits {addr count : ℕ} (h : addr % 4096 + count ≤ 4096) :
    overlapCount addr count = 0 := if_neg (Nat.not_lt.mpr h)

lemma overlapCount_le {addr count : ℕ} (h : count ≤ 256) : overlapCount addr count ≤ count := by
  unfold overlapCount
  split_ifs with hover
  · omega
  · exact Nat.zero_le count

/-- The commands of a write of a page or less. -/
def pageLog (addr count : ℕ) : List FlashAccess :=
  let count1 := overlapCount addr count
  let next := (addr + (count - count1)) % 2 ^ 32
  (if addr % 4096 = 0 then [.erase addr] else []) ++ [.program addr (count - count1)] ++
    (if count1 ≠ 0 then [.erase next, .program next count1] else []) ++ [.read addr count]

/-- Whether or not the write fails, these commands were given. -/
lemma sst25Write_log (f : Flash) (addr : ℕ) {buf : List UInt8} (hlen : buf.length ≤ 256) :
    (sst25Write f addr buf).2.log = f.log ++ pageLog addr buf.length := by
  have hmod : buf.length % 2 ^ 16 = buf.length := Nat.mod_eq_of_lt (by omega)
  have hcount : overlapCount addr buf.length ≤ buf.length := overlapCount_le hlen
  have hlog : (sst25WriteInTime { f with writes := f.writes + 1 } addr buf).2.log =
      f.log ++ pageLog addr buf.length := by
    simp only [sst25WriteInTime, hmod, if_pos hlen, List.take_length, sst25WriteChecked,
      sst25ReadBytes, sst25WriteBlocks, pageLog]
    rw [← overlapCount]
    generalize overlapCount addr buf.length = count1 at hcount
    by_cases hstart : addr % 4096 = 0 <;> by_cases hnext : count1 = 0 <;>
      simp [hstart, hnext, sst25Program, sst25Erase, Nat.sub_sub_self hcount]
  unfold sst25Write
  cases f.fault f.writes with
  | none => exact hlog
  | some mem => exact hlog

/-- The cells after a write inside a block. -/
def pageMem (mem : Memory) (addr : ℕ) (buf : List UInt8) : Memory :=
  program (devAddr addr) buf (if addr % 4096 = 0 then erase 4096 (devAddr addr) mem else mem)

/-- A write of a page or less that stays inside a block. -/
theorem sst25Write_page {f : Flash} (hf : f.Faultless) {addr : ℕ} {buf : List UInt8}
    (hlen : buf.length ≤ 256) (hfit : addr % 4096 + buf.length ≤ 4096) :
    sst25Write f addr buf =
      (decide (read (pageMem f.mem addr buf) (devAddr addr) buf.length = buf),
        { f with
          mem := pageMem f.mem addr buf
          writes := f.writes + 1
          log := f.log ++ pageLog addr buf.length }) := by
  have hmod : buf.length % 2 ^ 16 = buf.length := Nat.mod_eq_of_lt (by omega)
  have hcount := overlapCount_of_fits hfit
  simp only [sst25Write, hf f.writes, sst25WriteInTime, hmod, if_pos hlen, List.take_length,
    sst25WriteChecked, sst25ReadBytes, sst25WriteBlocks, pageLog, pageMem]
  rw [← overlapCount, hcount]
  by_cases hstart : addr % 4096 = 0 <;> simp [hstart, sst25Program, sst25Erase]

/-- The commands of the loop of `SST25_Read`. -/
def readLoopLog : ℕ → ℕ → ℕ → List FlashAccess
  | 0, _, _ => []
  | fuel + 1, addr, cnt =>
      if cnt = 0 then []
      else .read addr (min cnt 512) :: readLoopLog fuel ((addr + 512) % 2 ^ 32) (cnt - 512)

/-- The commands of a read. -/
def readLog (addr count : ℕ) : List FlashAccess :=
  let cnt := count % 2 ^ 16
  if cnt ≤ 512 then [.read addr cnt] else readLoopLog cnt addr cnt

lemma sst25ReadLoop_state :
    ∀ (fuel : ℕ) (f : Flash) (addr cnt : ℕ), (sst25ReadLoop fuel f addr cnt).2 =
      { f with log := f.log ++ readLoopLog fuel addr cnt }
  | 0, f, _, _ => by
      rw [sst25ReadLoop, readLoopLog, List.append_nil]
  | fuel + 1, f, addr, cnt => by
      rw [sst25ReadLoop, readLoopLog]
      split_ifs with hcnt
      · rw [List.append_nil]
      · simp only [sst25ReadBytes]
        rw [sst25ReadLoop_state fuel]
        simp

/-- A read changes nothing but the log. -/
lemma sst25Read_state (f : Flash) (addr count : ℕ) :
    (sst25Read f addr count).2 = { f with log := f.log ++ readLog addr count } := by
  simp only [sst25Read, readLog]
  split_ifs
  · rfl
  · exact sst25ReadLoop_state _ f addr _

lemma sst25ReadLoop_bytes :
    ∀ (fuel : ℕ) (f : Flash) (addr cnt : ℕ), cnt ≤ fuel → addr + cnt ≤ 2 ^ 24 →
      (sst25ReadLoop fuel f addr cnt).1 = read f.mem addr cnt
  | 0, f, addr, cnt, hfuel, _ => by
      rw [Nat.le_zero.mp hfuel]
      rfl
  | fuel + 1, f, addr, cnt, hfuel, hfit => by
      rw [sst25ReadLoop]
      split_ifs with hcnt
      · rw [hcnt]
        rfl
      · have haddr : devAddr addr = addr := Nat.mod_eq_of_lt (by omega)
        simp only [sst25ReadBytes, haddr]
        rcases Nat.le_total cnt 512 with hle | hge
        · have hrest : (sst25ReadLoop fuel { f with log := f.log ++ [.read addr cnt] }
              ((addr + 512) % 2 ^ 32) 0).1 = [] := by
            cases fuel <;> rfl
          rw [Nat.min_eq_left hle, Nat.sub_eq_zero_of_le hle, hrest, List.append_nil]
        · have hnext : (addr + 512) % 2 ^ 32 = addr + 512 ∨ cnt = 512 := by omega
          rw [Nat.min_eq_right hge]
          rcases hnext with hnext | rfl
          · rw [hnext, sst25ReadLoop_bytes fuel _ _ _ (by omega) (by omega), ← read_add,
              Nat.add_sub_cancel' hge]
          · have hrest : (sst25ReadLoop fuel { f with log := f.log ++ [.read addr 512] }
                ((addr + 512) % 2 ^ 32) 0).1 = [] := by
              cases fuel <;> rfl
            rw [Nat.sub_self, hrest, List.append_nil]

/-- What is read, if it does not go past the end of the device. -/
lemma sst25Read_bytes (f : Flash) {addr count : ℕ} (hcount : count < 2 ^ 16)
    (hfit : addr + count ≤ 2 ^ 24) (hpos : addr < 2 ^ 24) :
    (sst25Read f addr count).1 = read f.mem addr count := by
  have hmod : count % 2 ^ 16 = count := Nat.mod_eq_of_lt hcount
  have haddr : devAddr addr = addr := Nat.mod_eq_of_lt hpos
  simp only [sst25Read, hmod]
  split_ifs
  · simp only [sst25ReadBytes, haddr]
  · exact sst25ReadLoop_bytes count f addr count (Nat.le_refl _) hfit

end Ampm

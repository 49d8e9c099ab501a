import AmpmGsm.Gsm.DataCmp
import Mathlib.Algebra.Group.Nat.Defs
import Mathlib.Algebra.GroupWithZero.Nat
import Mathlib.Data.List.Basic
import Mathlib.Logic.Function.Basic

/-!
# Formatting

`lib/ampm_sprintf.c`.  A `char` is unsigned, as it is on the target, so no character is `EOF`.

* `Printer` — the buffer, and what the formatter writes and reads.
* `ampmVsprintf` — the formatter.
* `ampmVsprintf_text` — what it makes of `%s%c`.
-/

namespace Ampm

/-! ## The code -/

/-- An argument: a pointer to a string, given by the memory from there on, or a number. -/
inductive FmtArg
  | str (p : ℕ → UInt8)
  | num (v : UInt32)

/-- The memory from the beginning of the buffer on, the place in it that is written next, and the
result.  `written` and `read` are the offsets in the buffer that were written and those in strings
that were read; `ended` is false when a loop does not come to an end. -/
structure Printer where
  buf : ℕ → UInt8
  fp : ℕ
  res : ℕ
  written : List ℕ
  read : List ℕ
  ended : Bool

/-- `ampm_f_putc`. -/
def Printer.putc (s : Printer) (c : UInt8) : Printer :=
  { s with
    buf := Function.update (Function.update s.buf s.fp c) (s.fp + 1) 0
    fp := s.fp + 1
    written := s.written ++ [s.fp, s.fp + 1] }

/-- `ampm_f_putc` for one character after another. -/
def Printer.putAll (s : Printer) (cs : List UInt8) : Printer := cs.foldl Printer.putc s

/-- `cc = …; res += cc` -/
def Printer.count (s : Printer) (cc : ℕ) : Printer := { s with res := s.res + cc }

/-- `for (; p[j]; j++) ;` for a number of rounds. -/
def strEndFrom (p : ℕ → UInt8) : ℕ → ℕ → Option ℕ
  | 0, _ => none
  | rounds + 1, j => if p j = 0 then some j else strEndFrom p rounds (j + 1)

/-- `for (j = 0; p[j]; j++) ;` with `j` of 16 bits: the loop does not end if there is no NUL in
reach. -/
def strEnd (p : ℕ → UInt8) : Option ℕ := strEndFrom p (2 ^ 16) 0

/-- The offsets that a loop without an end reads. -/
def strReach : List ℕ := List.range (2 ^ 16)

/-- `ampm_f_puts` of a string of the length `n`. -/
def Printer.puts (s : Printer) (p : ℕ → UInt8) (n : ℕ) : Printer :=
  { s.putAll ((List.range n).map p) with read := s.read ++ List.range (n + 1) }

/-- `while (j++ < w) chc += ampm_f_putc(c);` with what is in `j` afterwards. -/
def Printer.pad (s : Printer) (c : UInt8) (w j : ℕ) : ℕ × Printer :=
  ((max j w + 1) % 2 ^ 16, (s.putAll (List.replicate (w - j) c)).count ((w - j) * c.toNat))

/-- What stands between the percent sign and the next character of the format. -/
structure Conversion where
  zero : Bool
  left : Bool
  width : ℕ
  long : Bool
  type : UInt8

/-- `while (IsDigit(c)) …`: the width, and the rest of the format. -/
def fmtWidth : List UInt8 → ℕ → ℕ × List UInt8
  | [], w => (w, [])
  | c :: format, w =>
      if isDigit c then fmtWidth format ((w * 10 + c.toNat - 48) % 2 ^ 16) else (w, c :: format)

/-- The characters behind a percent sign, unless the format ends before the type. -/
def fmtConversion (format : List UInt8) : Option (Conversion × List UInt8) :=
  let zero := format.head? = some 48
  let left := format.head? = some 45
  let r := fmtWidth (if zero || left then format.tail else format) 0
  let long := r.2.head? = some 108 || r.2.head? = some 76
  match if long then r.2.tail else r.2 with
  | [] => none
  | c :: rest => some (⟨zero, left, r.1, long, c⟩, rest)

/-- `%s` -/
def Printer.string (s : Printer) (conv : Conversion) (p : ℕ → UInt8) : Printer :=
  match strEnd p with
  | none => { s with read := s.read ++ strReach, ended := false }
  | some n =>
      let s := { s with read := s.read ++ List.range (n + 1) }
      let r := if conv.left then (n, s) else s.pad 32 conv.width n
      ((r.2.puts p n).count n |>.pad 32 conv.width r.1).2

/-- The digits of a number, low ones first.  There is room for 16. -/
def fmtDigits (radix : UInt32) (small : Bool) : ℕ → UInt32 → List UInt8
  | 0, _ => []
  | room + 1, v =>
      let d := (v % radix).toUInt8
      let d := if d > 9 then d + (if small then 0x27 else 0x07) else d
      (d + 48) :: if v / radix = 0 then [] else fmtDigits radix small room (v / radix)

/-- A numeral. -/
def Printer.numeral (s : Printer) (conv : Conversion) (radix : UInt32) (signed : Bool) (v : UInt32) :
    Printer :=
  let negative := signed && v &&& 0x80000000 ≠ 0
  let v := if negative then 0 - v else v
  let digits := fmtDigits radix (conv.type = 120) 16 v ++ if negative then [45] else []
  let r := if conv.left then (digits.length, s)
    else s.pad (if conv.zero then 48 else 32) conv.width digits.length
  let s := (r.2.putAll digits.reverse).count (digits.map UInt8.toNat).sum
  (s.pad 32 conv.width r.1).2

/-- The string that an argument points to. -/
def FmtArg.string : FmtArg → ℕ → UInt8
  | .str p => p
  | .num _ => fun _ => 0

/-- The number in an argument. -/
def FmtArg.number : FmtArg → UInt32
  | .str _ => 0
  | .num v => v

/-- The radix of a type. -/
def fmtRadix (d : UInt8) : Option UInt32 :=
  if d = 66 then some 2
  else if d = 79 then some 8
  else if d = 68 ∨ d = 85 then some 10
  else if d = 88 then some 16
  else none

/-- `switch (d)`: the arguments that are left, and the output. -/
def fmtSwitch (conv : Conversion) (args : List FmtArg) (s : Printer) : List FmtArg × Printer :=
  let d := if 97 ≤ conv.type ∧ conv.type ≤ 122 then conv.type - 0x20 else conv.type
  let arg := args.headD (.num 0)
  if d = 83 then (args.tail, s.string conv arg.string)
  else if d = 67 then
    (args.tail, (s.putc arg.number.toUInt8).count arg.number.toUInt8.toNat)
  else match fmtRadix d with
    | some radix => (args.tail, s.numeral conv radix (d = 68) arg.number)
    | none => (args, (s.putc conv.type).count conv.type.toNat)

/-- The loop of `ampm_vsprintf`. -/
def vsprintfLoop : ℕ → List UInt8 → List FmtArg → Printer → Printer
  | 0, _, _, s => s
  | _, [], _, s => s
  | fuel + 1, c :: format, args, s =>
      if c ≠ 37 then vsprintfLoop fuel format args ((s.putc c).count 1)
      else match fmtConversion format with
        | none => s
        | some (conv, rest) =>
            let r := fmtSwitch conv args s
            if r.2.ended then vsprintfLoop fuel rest r.1 r.2 else r.2

/-- `ampm_vsprintf`.  A round takes at least one character of the format. -/
def ampmVsprintf (buf : ℕ → UInt8) (format : List UInt8) (args : List FmtArg) : Printer :=
  vsprintfLoop (format.length + 1) format args ⟨buf, 0, 0, [], [], true⟩

/-! ## Characters in the buffer -/

section PutAll

variable {s : Printer} {p : ℕ → UInt8} {cs : List UInt8}

@[simp] lemma putc_fp (s : Printer) (c : UInt8) : (s.putc c).fp = s.fp + 1 := rfl

lemma putc_buf (s : Printer) (c : UInt8) (k : ℕ) :
    (s.putc c).buf k = Function.update (Function.update s.buf s.fp c) (s.fp + 1) 0 k := rfl

lemma putc_written (s : Printer) (c : UInt8) :
    (s.putc c).written = s.written ++ [s.fp, s.fp + 1] := rfl

@[simp] lemma putAll_nil (s : Printer) : s.putAll [] = s := rfl

@[simp] lemma putAll_cons (s : Printer) (c : UInt8) (cs : List UInt8) :
    s.putAll (c :: cs) = (s.putc c).putAll cs := rfl

lemma putAll_append (s : Printer) (cs ds : List UInt8) :
    s.putAll (cs ++ ds) = (s.putAll cs).putAll ds := List.foldl_append

lemma putAll_fp (s : Printer) (cs : List UInt8) : (s.putAll cs).fp = s.fp + cs.length := by
  induction cs generalizing s with
  | nil => rfl
  | cons c cs ih =>
      rw [putAll_cons, ih, List.length_cons, putc_fp]
      omega

/-- The other fields do not matter to the characters. -/
lemma putAll_frame (s : Printer) (cs : List UInt8) (res : ℕ) (read : List ℕ) :
    Printer.putAll { s with res := res, read := read } cs =
      { s.putAll cs with res := res, read := read } := by
  induction cs generalizing s with
  | nil => rfl
  | cons c cs ih => exact ih (s.putc c)

lemma putAll_ended (s : Printer) (cs : List UInt8) : (s.putAll cs).ended = s.ended := by
  induction cs generalizing s with
  | nil => rfl
  | cons c cs ih => exact ih (s.putc c)

/-- Below the place that is written next nothing changes. -/
lemma putAll_buf_below (s : Printer) (cs : List UInt8) {k : ℕ} (hk : k < s.fp) :
    (s.putAll cs).buf k = s.buf k := by
  induction cs generalizing s with
  | nil => rfl
  | cons c cs ih =>
      rw [putAll_cons, ih (s.putc c) (Nat.lt_succ_of_lt hk), putc_buf,
        Function.update_of_ne (by omega), Function.update_of_ne (by omega)]

/-- The characters stand in the buffer, and a NUL behind them. -/
lemma putAll_buf (s : Printer) (cs : List UInt8) (hne : cs ≠ []) :
    (∀ k < cs.length, (s.putAll cs).buf (s.fp + k) = cs.getD k 0) ∧
      (s.putAll cs).buf (s.fp + cs.length) = 0 := by
  induction cs generalizing s with
  | nil => exact absurd rfl hne
  | cons c cs ih =>
      have hfirst : ((s.putc c).putAll cs).buf s.fp = c := by
        rw [putAll_buf_below _ _ (Nat.lt_succ_self _), putc_buf, Function.update_of_ne (by omega),
          Function.update_self]
      rw [putAll_cons]
      by_cases hcs : cs = []
      · subst hcs
        refine ⟨fun k hk => ?_, Function.update_self ..⟩
        obtain rfl : k = 0 := by
          rw [List.length_singleton] at hk
          omega
        exact hfirst
      · obtain ⟨hrest, hend⟩ := ih (s.putc c) hcs
        refine ⟨fun k hk => ?_, ?_⟩
        · cases k with
          | zero => exact hfirst
          | succ k =>
              have hk' := hrest k (by rwa [List.length_cons, Nat.add_lt_add_iff_right] at hk)
              rwa [putc_fp, Nat.add_assoc, Nat.add_comm 1] at hk'
        · rwa [putc_fp, Nat.add_assoc, Nat.add_comm 1] at hend

lemma mem_putAll_written (s : Printer) (cs : List UInt8) (hne : cs ≠ []) {k : ℕ} :
    k ∈ (s.putAll cs).written ↔ k ∈ s.written ∨ s.fp ≤ k ∧ k ≤ s.fp + cs.length := by
  induction cs generalizing s with
  | nil => exact absurd rfl hne
  | cons c cs ih =>
      rw [putAll_cons, List.length_cons]
      by_cases hcs : cs = []
      · subst hcs
        rw [putAll_nil, putc_written]
        simp only [List.mem_append, List.mem_cons, List.not_mem_nil, or_false, List.length_nil]
        exact or_congr_right (by omega)
      · rw [ih (s.putc c) hcs, putc_written, putc_fp]
        simp only [List.mem_append, List.mem_cons, List.not_mem_nil, or_false, or_assoc]
        exact or_congr_right (by omega)

end PutAll

/-! ## A string and a character -/

section StrEnd

variable {p : ℕ → UInt8}

lemma strEndFrom_eq_some :
    ∀ {rounds j n : ℕ}, strEndFrom p rounds j = some n →
      n < j + rounds ∧ p n = 0 ∧ ∀ k, j ≤ k → k < n → p k ≠ 0
  | rounds + 1, j, n, h => by
      rw [strEndFrom] at h
      split_ifs at h with hzero
      · obtain rfl := Option.some.inj h
        exact ⟨by omega, hzero, fun k hk hlt => absurd hlt (Nat.not_lt.mpr hk)⟩
      · obtain ⟨hlt, hn, hall⟩ := strEndFrom_eq_some h
        refine ⟨by omega, hn, fun k hk hkn => ?_⟩
        rcases Nat.lt_or_eq_of_le hk with hnext | rfl
        · exact hall k hnext hkn
        · exact hzero

lemma strEndFrom_eq_none :
    ∀ {rounds j : ℕ}, strEndFrom p rounds j = none → ∀ k, j ≤ k → k < j + rounds → p k ≠ 0
  | 0, _, _ => fun k hk hlt => absurd hlt (Nat.not_lt.mpr hk)
  | rounds + 1, j, h => by
      rw [strEndFrom] at h
      split_ifs at h with hzero
      intro k hk hlt
      rcases Nat.lt_or_eq_of_le hk with hnext | rfl
      · exact strEndFrom_eq_none h k hnext (by omega)
      · exact hzero

/-- The end of a string is its first NUL. -/
lemma strEnd_eq_some {n : ℕ} (h : strEnd p = some n) :
    n < 2 ^ 16 ∧ p n = 0 ∧ ∀ k < n, p k ≠ 0 := by
  obtain ⟨hlt, hn, hall⟩ := strEndFrom_eq_some h
  exact ⟨by omega, hn, fun k hk => hall k (Nat.zero_le k) hk⟩

lemma strEnd_eq_none (h : strEnd p = none) : ∀ k < 2 ^ 16, p k ≠ 0 :=
  fun k hk => strEndFrom_eq_none h k (Nat.zero_le k) (by omega)

lemma strEnd_of {n : ℕ} (hlt : n < 2 ^ 16) (hn : p n = 0) (hall : ∀ k < n, p k ≠ 0) :
    strEnd p = some n := by
  cases h : strEnd p with
  | none => exact absurd hn (strEnd_eq_none h n hlt)
  | some m =>
      obtain ⟨-, hm, hbefore⟩ := strEnd_eq_some h
      rcases Nat.lt_trichotomy m n with hmn | rfl | hnm
      · exact absurd hm (hall m hmn)
      · rfl
      · exact absurd hn (hbefore n hnm)

end StrEnd

lemma mem_strReach {k : ℕ} : k ∈ strReach ↔ k < 2 ^ 16 := by
  rw [strReach, List.mem_range]

-- otherwise a comparison of two lists counts to 65536
attribute [irreducible] strReach

lemma pad_none (s : Printer) (c : UInt8) (n : ℕ) : s.pad c 0 n = ((n + 1) % 2 ^ 16, s) := by
  simp [Printer.pad, Printer.count]

lemma string_none {p : ℕ → UInt8} (h : strEnd p = none) (s : Printer) (conv : Conversion) :
    s.string conv p = { s with read := s.read ++ strReach, ended := false } := by
  simp only [Printer.string, h]

/-- `%s` without a width. -/
lemma string_some {p : ℕ → UInt8} {n : ℕ} (h : strEnd p = some n) (s : Printer) (type : UInt8) :
    s.string ⟨false, false, 0, false, type⟩ p =
      { s.putAll ((List.range n).map p) with
        res := s.res + n
        read := s.read ++ List.range (n + 1) ++ List.range (n + 1) } := by
  simp only [Printer.string, h, pad_none, Bool.false_eq_true, if_false, Printer.puts, Printer.count]
  rw [putAll_frame s _ s.res]

section Text

variable {buf p : ℕ → UInt8} {v : UInt32}

/-- The string is printed, and the character if that came to an end. -/
lemma ampmVsprintf_text_eq {s : Printer}
    (hs : Printer.string ⟨buf, 0, 0, [], [], true⟩ ⟨false, false, 0, false, 115⟩ p = s) :
    ampmVsprintf buf (bytesOf "%s%c") [.str p, .num v] =
      if s.ended then (s.putc v.toUInt8).count v.toUInt8.toNat else s := by
  have hformat : bytesOf "%s%c" = [37, 115, 37, 99] := by decide
  have hstring : fmtConversion [115, 37, 99] =
      some (⟨false, false, 0, false, 115⟩, [37, 99]) := rfl
  have hchar : fmtConversion [99] = some (⟨false, false, 0, false, 99⟩, []) := rfl
  have hswitch (s : Printer) : fmtSwitch ⟨false, false, 0, false, 115⟩ [.str p, .num v] s =
      ([.num v], s.string ⟨false, false, 0, false, 115⟩ p) := rfl
  have hswitch' (s : Printer) : fmtSwitch ⟨false, false, 0, false, 99⟩ [.num v] s =
      ([], (s.putc v.toUInt8).count v.toUInt8.toNat) := rfl
  rw [hformat]
  simp only [ampmVsprintf, List.length_cons, List.length_nil, vsprintfLoop, hstring, hchar, hswitch,
    hswitch', if_neg (show ¬ ((37 : UInt8) ≠ 37) by decide), ite_self, hs]

/-- A string without an end. -/
theorem ampmVsprintf_text_endless (h : strEnd p = none) :
    ampmVsprintf buf (bytesOf "%s%c") [.str p, .num v] = ⟨buf, 0, 0, [], strReach, false⟩ := by
  have hstring : Printer.string ⟨buf, 0, 0, [], [], true⟩ ⟨false, false, 0, false, 115⟩ p =
      ⟨buf, 0, 0, [], strReach, false⟩ := by
    rw [string_none h, List.nil_append]
  rw [ampmVsprintf_text_eq hstring]
  exact if_neg Bool.false_ne_true

/-- **The format `%s%c`.**  The string is read up to its NUL, for its length and then to copy it; in
the buffer the character stands behind it. -/
theorem ampmVsprintf_text {n : ℕ} (h : strEnd p = some n) :
    ampmVsprintf buf (bytesOf "%s%c") [.str p, .num v] =
      { Printer.putAll ⟨buf, 0, 0, [], [], true⟩ ((List.range n).map p ++ [v.toUInt8]) with
        res := n + v.toUInt8.toNat
        read := List.range (n + 1) ++ List.range (n + 1) } := by
  rw [ampmVsprintf_text_eq (string_some h _ _)]
  simp only [putAll_ended, if_true, Printer.putc, Printer.count, putAll_append, putAll_cons,
    putAll_nil, Nat.zero_add, List.nil_append]

end Text

end Ampm

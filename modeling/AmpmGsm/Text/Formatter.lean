import AmpmGsm.Text.FormatSpec
import Mathlib.Algebra.BigOperators.Group.List.Basic
import Mathlib.Data.List.TakeWhile
import Mathlib.Data.Nat.Bitwise

/-!
# The formatter and the conventions

`ampm_vsprintf` for the formats it supports: what each piece of a format makes it write and count,
and when that is what the conventions of the C library say.

* `fmtConversion_field` — a conversion is read as it was written.
* `FmtItem.made`, `FmtItem.counted` — what a piece writes, and what it adds to the result.
* `vsprintfLoop_items` — a whole format.
* `Formats`, `ampmVsprintf_formats_iff` — when the text, its terminator and its length are right.
-/

namespace Ampm

/-! ## Reading the format -/

lemma foldl_digits_mod (cs : List UInt8) (w : ℕ) :
    cs.foldl (fun v c => 10 * v + (c.toNat - 48)) (w % 2 ^ 16) % 2 ^ 16 =
      cs.foldl (fun v c => 10 * v + (c.toNat - 48)) w % 2 ^ 16 := by
  induction cs generalizing w with
  | nil => exact Nat.mod_mod w (2 ^ 16)
  | cons c cs ih =>
      rw [List.foldl_cons, List.foldl_cons, ← ih, ← ih (10 * w + _)]
      congr 2
      omega

/-- The width, in 16 bits. -/
lemma fmtWidth_digits {rest : List UInt8} (hrest : ∀ c ∈ rest.head?, isDigit c = false) :
    ∀ (digits : List UInt8) (w : ℕ), (∀ c ∈ digits, isDigit c = true) → w < 2 ^ 16 →
      fmtWidth (digits ++ rest) w =
        (digits.foldl (fun v c => 10 * v + (c.toNat - 48)) w % 2 ^ 16, rest)
  | [], w, _, hw => by
      rw [List.nil_append, List.foldl_nil, Nat.mod_eq_of_lt hw]
      cases rest with
      | nil => rfl
      | cons c rest =>
          rw [fmtWidth, hrest c rfl]
          rfl
  | c :: digits, w, hdigits, _ => by
      have hc := hdigits c List.mem_cons_self
      have hge : 48 ≤ c.toNat := by
        simp only [isDigit, Bool.and_eq_true, decide_eq_true_eq] at hc
        exact UInt8.le_iff_toNat_le.mp hc.1
      rw [List.cons_append, fmtWidth, if_pos hc, fmtWidth_digits hrest digits _
        (fun d hd => hdigits d (List.mem_cons_of_mem c hd)) (Nat.mod_lt _ (by decide)),
        foldl_digits_mod, List.foldl_cons, Nat.mul_comm w, Nat.add_sub_assoc hge]

lemma FmtField.width_eq (f : FmtField) :
    f.width = f.digits.foldl (fun v c => 10 * v + (c.toNat - 48)) 0 := by
  rw [FmtField.width, leadingDigits, List.takeWhile_eq_self_iff.mpr f.areDigits]

/-- What the formatter takes a field to be. -/
def FmtField.conversion (f : FmtField) (type : UInt8) : Conversion :=
  ⟨f.flag = .zero, f.flag = .left, f.width % 2 ^ 16, f.long, type⟩

section Field

variable {type : UInt8}

/-- What follows the flag. -/
private def FmtField.body (f : FmtField) (type : UInt8) (rest : List UInt8) : List UInt8 :=
  f.digits ++ ((if f.long then [108] else []) ++ type :: rest)

private lemma chars_append (f : FmtField) (type : UInt8) (rest : List UInt8) :
    f.chars ++ type :: rest = f.flag.chars ++ f.body type rest := by
  simp only [FmtField.chars, FmtField.body, List.append_assoc]

/-- Behind the width stands no digit and no flag. -/
private lemma head_behind_width (f : FmtField) (rest : List UInt8) (hdigit : isDigit type = false)
    (hminus : type ≠ 45) :
    ∀ c ∈ ((if f.long then [108] else []) ++ type :: rest).head?, isDigit c = false ∧ c ≠ 45 := by
  intro c hc
  cases h : f.long with
  | true =>
      rw [h] at hc
      obtain rfl := Option.some.inj hc
      decide
  | false =>
      rw [h] at hc
      obtain rfl := Option.some.inj hc
      exact ⟨hdigit, hminus⟩

/-- What follows the flag is not a flag, unless it is the zero of a width behind a flag. -/
private lemma head_body (f : FmtField) (rest : List UInt8) (hdigit : isDigit type = false)
    (hminus : type ≠ 45) :
    (f.body type rest).head? ≠ some 45 ∧
      (f.flag = .plain → (f.body type rest).head? ≠ some 48) := by
  have hbehind := head_behind_width f rest hdigit hminus
  have hall := f.areDigits
  have hnot := f.notFlag
  unfold FmtField.body
  cases hdigits : f.digits with
  | nil =>
      refine ⟨fun h => (hbehind 45 h).2 rfl, fun _ h => ?_⟩
      exact absurd (hbehind 48 h).1 (by decide)
  | cons c cs =>
      rw [hdigits] at hnot hall
      refine ⟨fun h => ?_, hnot⟩
      obtain rfl : c = 45 := Option.some.inj h
      exact absurd (hall 45 List.mem_cons_self) (by decide)

/-- A conversion is read as it was written, but for the width, which is cut to 16 bits. -/
lemma fmtConversion_field (f : FmtField) (rest : List UInt8) (hdigit : isDigit type = false)
    (hminus : type ≠ 45) (hl : type ≠ 108 ∧ type ≠ 76) :
    fmtConversion (f.chars ++ type :: rest) = some (f.conversion type, rest) := by
  obtain ⟨hleft, hzero⟩ := head_body f rest hdigit hminus
  have hwidth : fmtWidth (f.body type rest) 0 =
      (f.width % 2 ^ 16, (if f.long then [108] else []) ++ type :: rest) := by
    rw [f.width_eq]
    exact fmtWidth_digits (fun c hc => (head_behind_width f rest hdigit hminus c hc).1) f.digits 0
      f.areDigits (by decide)
  have hflag : ((f.flag.chars ++ f.body type rest).head? = some 48 ↔ f.flag = .zero) ∧
      ((f.flag.chars ++ f.body type rest).head? = some 45 ↔ f.flag = .left) := by
    cases h : f.flag with
    | plain => exact ⟨iff_of_false (hzero h) nofun, iff_of_false hleft nofun⟩
    | zero =>
        exact ⟨iff_of_true rfl rfl, iff_of_false (show some (48 : UInt8) ≠ some 45 by decide) nofun⟩
    | left =>
        exact ⟨iff_of_false (show some (45 : UInt8) ≠ some 48 by decide) nofun, iff_of_true rfl rfl⟩
  have hskip : (if (decide (f.flag = .zero) || decide (f.flag = .left)) = true
      then (f.flag.chars ++ f.body type rest).tail else f.flag.chars ++ f.body type rest) =
        f.body type rest := by
    cases h : f.flag <;> rfl
  rw [chars_append]
  simp only [fmtConversion, hflag, hskip, hwidth, FmtField.conversion]
  cases h : f.long with
  | true => rfl
  | false =>
      have h108 : ¬ (some type = some (108 : UInt8)) := fun h => hl.1 (Option.some.inj h)
      have h76 : ¬ (some type = some (76 : UInt8)) := fun h => hl.2 (Option.some.inj h)
      simp only [Bool.false_eq_true, if_false, List.nil_append, List.head?_cons, h108, h76,
        decide_false, Bool.or_false]

end Field

/-! ## Writing and counting -/

/-- From `s` to `s'` the characters `cs` were written, and `n` was added to the result. -/
structure Printer.Prints (s s' : Printer) (cs : List UInt8) (n : ℕ) : Prop where
  buf : s'.buf = (s.putAll cs).buf
  fp : s'.fp = s.fp + cs.length
  res : s'.res = s.res + n
  ended : s'.ended = s.ended

section Prints

variable {s s' s'' : Printer} {cs ds : List UInt8} {n m : ℕ}

lemma putAll_buf_congr (hbuf : s'.buf = s.buf) (hfp : s'.fp = s.fp) (cs : List UInt8) :
    (s'.putAll cs).buf = (s.putAll cs).buf := by
  induction cs generalizing s s' with
  | nil => exact hbuf
  | cons c cs ih =>
      refine ih ?_ ?_
      · rw [Printer.putc, Printer.putc, hbuf, hfp]
      · rw [putc_fp, putc_fp, hfp]

lemma putAll_res (s : Printer) (cs : List UInt8) : (s.putAll cs).res = s.res := by
  induction cs generalizing s with
  | nil => rfl
  | cons c cs ih => exact ih (s.putc c)

lemma Printer.Prints.trans (h : s.Prints s' cs n) (h' : s'.Prints s'' ds m) :
    s.Prints s'' (cs ++ ds) (n + m) := by
  constructor
  · rw [h'.buf, putAll_append]
    exact putAll_buf_congr h.buf (by rw [h.fp, putAll_fp]) ds
  · rw [h'.fp, h.fp, List.length_append, Nat.add_assoc]
  · rw [h'.res, h.res, Nat.add_assoc]
  · rw [h'.ended, h.ended]

lemma prints_putAll (s : Printer) (cs : List UInt8) : s.Prints (s.putAll cs) cs 0 :=
  ⟨rfl, putAll_fp s cs, putAll_res s cs, putAll_ended s cs⟩

lemma prints_count (s : Printer) (n : ℕ) : s.Prints (s.count n) [] n := ⟨rfl, rfl, rfl, rfl⟩

lemma prints_read (s : Printer) (read : List ℕ) : s.Prints { s with read := read } [] 0 :=
  ⟨rfl, rfl, rfl, rfl⟩

lemma prints_pad (s : Printer) (c : UInt8) (w j : ℕ) :
    s.Prints (s.pad c w j).2 (List.replicate (w - j) c) ((w - j) * c.toNat) := by
  have h := (prints_putAll s (List.replicate (w - j) c)).trans (prints_count _ ((w - j) * c.toNat))
  rwa [List.append_nil, Nat.zero_add] at h

lemma prints_puts (s : Printer) (p : ℕ → UInt8) (n : ℕ) :
    s.Prints (s.puts p n) ((List.range n).map p) 0 := by
  have h := (prints_putAll s ((List.range n).map p)).trans
    (prints_read _ (s.read ++ List.range (n + 1)))
  rwa [List.append_nil] at h

end Prints

/-! ## What a piece makes -/

/-- What a field makes of a text of the length `n`: the spaces behind it. -/
def FmtField.behind (f : FmtField) (n : ℕ) : ℕ :=
  let w := f.width % 2 ^ 16
  if f.flag = .left then w - n else w - (max n w + 1) % 2 ^ 16

/-- The characters in front of it. -/
def FmtField.front (f : FmtField) (n : ℕ) : ℕ :=
  if f.flag = .left then 0 else f.width % 2 ^ 16 - n

/-- A text in its field. -/
def FmtField.made (f : FmtField) (fill : UInt8) (text : List UInt8) : List UInt8 :=
  List.replicate (f.front text.length) fill ++ text ++ List.replicate (f.behind text.length) 32

/-- What the padding adds to the result. -/
def FmtField.counted (f : FmtField) (fill : UInt8) (n : ℕ) : ℕ :=
  f.front n * fill.toNat + f.behind n * 32

/-- The character in front of a numeral. -/
def FmtField.fill (f : FmtField) : UInt8 := if f.flag = .zero then 48 else 32

/-- Sign and digits of a number; the digits are limited to 16. -/
def FmtNumeral.made (kind : FmtNumeral) (v : UInt32) : List UInt8 :=
  (fmtDigits kind.base.toUInt32 (kind = FmtNumeral.x) 16 (kind.value v).natAbs.toUInt32 ++
    if kind.value v < 0 then [45] else []).reverse

/-- What a piece writes. -/
def FmtItem.made : FmtItem → List UInt8
  | .literal c _ => [c]
  | .string field s => field.made 32 s.chars
  | .char _ v => [v.toUInt8]
  | .numeral field kind v => field.made field.fill (kind.made v)

/-- What a piece adds to the result: the code of a character unless it is a literal or part of a
string. -/
def FmtItem.counted : FmtItem → ℕ
  | .literal _ _ => 1
  | .string field s => s.length + field.counted 32 s.length
  | .char _ v => v.toUInt8.toNat
  | .numeral field kind v =>
      ((kind.made v).map UInt8.toNat).sum + field.counted field.fill (kind.made v).length

/-- A string is shorter than the counter for its length can hold. -/
def FmtItem.Short : FmtItem → Prop
  | .string _ s => s.length < 2 ^ 16
  | _ => True

section Pieces

variable {s : Printer} {f : FmtField}

/-- The loop in front of the text, and how many rounds the one behind it has. -/
private lemma prints_front (s : Printer) (f : FmtField) (fill : UInt8) (n : ℕ) {r : ℕ × Printer}
    (hr : r = if f.flag = .left then (n, s) else s.pad fill (f.width % 2 ^ 16) n) :
    s.Prints r.2 (List.replicate (f.front n) fill) (f.front n * fill.toNat) ∧
      f.width % 2 ^ 16 - r.1 = f.behind n := by
  subst hr
  simp only [FmtField.front, FmtField.behind]
  split_ifs with hleft
  · have h := prints_count s (0 * fill.toNat)
    rw [Nat.zero_mul] at h ⊢
    exact ⟨h, rfl⟩
  · exact ⟨prints_pad s fill _ n, rfl⟩

/-- A text in its field, whose characters add `m` to the result. -/
private lemma prints_field (s : Printer) (f : FmtField) (fill : UInt8) (text : List UInt8) {m : ℕ}
    {r : ℕ × Printer} {t : Printer}
    (hr : r = if f.flag = .left then (text.length, s)
      else s.pad fill (f.width % 2 ^ 16) text.length)
    (htext : r.2.Prints t text m) :
    s.Prints (t.pad 32 (f.width % 2 ^ 16) r.1).2 (f.made fill text)
      (m + f.counted fill text.length) := by
  obtain ⟨hfront, hbehind⟩ := prints_front s f fill text.length hr
  have h := (hfront.trans htext).trans (prints_pad t 32 (f.width % 2 ^ 16) r.1)
  rw [hbehind] at h
  have hcount : f.front text.length * fill.toNat + m + f.behind text.length * (32 : UInt8).toNat =
      m + f.counted fill text.length := by
    rw [FmtField.counted, Nat.add_comm (f.front text.length * fill.toNat), Nat.add_assoc]
    rfl
  rwa [hcount] at h

/-- `%s` -/
lemma prints_string {str : CText} (hshort : str.length < 2 ^ 16) (s : Printer) (f : FmtField)
    (type : UInt8) :
    s.Prints (s.string (f.conversion type) str.mem) (f.made 32 str.chars)
      (str.length + f.counted 32 str.length) := by
  have hend : strEnd str.mem = some str.length :=
    strEnd_of hshort str.mem_length fun k hk => str.mem_ne_zero hk
  have hleft : (f.conversion type).left = decide (f.flag = .left) := rfl
  have hwidth : (f.conversion type).width = f.width % 2 ^ 16 := rfl
  have hread := prints_read s (s.read ++ List.range (str.length + 1))
  simp only [Printer.string, hend, hleft, hwidth, decide_eq_true_eq]
  generalize Printer.mk s.buf s.fp s.res s.written (s.read ++ List.range (str.length + 1)) s.ended =
    s₁ at hread ⊢
  have htext (t : Printer) :
      t.Prints ((t.puts str.mem str.length).count str.length) str.chars str.length := by
    have h := (prints_puts t str.mem str.length).trans (prints_count _ str.length)
    rwa [List.append_nil, Nat.zero_add] at h
  have hfield := prints_field s₁ f 32 str.chars rfl (htext _)
  rw [CText.length_chars] at hfield
  have h := hread.trans hfield
  rwa [List.nil_append, Nat.zero_add] at h

/-- A string that is too long for the counter. -/
lemma string_long {str : CText} (hlong : 2 ^ 16 ≤ str.length) (s : Printer) (conv : Conversion) :
    (s.string conv str.mem).ended = false := by
  have hend : strEnd str.mem = none := by
    cases h : strEnd str.mem with
    | none => rfl
    | some n =>
        obtain ⟨hlt, hzero, -⟩ := strEnd_eq_some h
        exact absurd hzero (str.mem_ne_zero (Nat.lt_of_lt_of_le hlt hlong))
  rw [string_none hend]

lemma fmtSwitch_string (f : FmtField) (p : ℕ → UInt8) (args : List FmtArg) (s : Printer) :
    fmtSwitch (f.conversion 115) (.str p :: args) s = (args, s.string (f.conversion 115) p) := by
  have htype : (f.conversion 115).type = 115 := rfl
  have hupper : (if (97 : UInt8) ≤ 115 ∧ (115 : UInt8) ≤ 122 then (115 : UInt8) - 0x20 else 115) =
      83 := by decide
  simp only [fmtSwitch, htype, hupper, if_true, List.tail_cons, List.headD_cons, FmtArg.string]

lemma fmtSwitch_char (f : FmtField) (v : UInt32) (args : List FmtArg) (s : Printer) :
    fmtSwitch (f.conversion 99) (.num v :: args) s =
      (args, (s.putc v.toUInt8).count v.toUInt8.toNat) := by
  have htype : (f.conversion 99).type = 99 := rfl
  have hupper : (if (97 : UInt8) ≤ 99 ∧ (99 : UInt8) ≤ 122 then (99 : UInt8) - 0x20 else 99) =
      67 := by decide
  simp only [fmtSwitch, htype, hupper, if_neg (show ¬ ((67 : UInt8) = 83) by decide), if_true,
    List.tail_cons, List.headD_cons, FmtArg.number]

/-- The radix of a numeral. -/
lemma fmtSwitch_numeral (f : FmtField) (kind : FmtNumeral) (v : UInt32) (args : List FmtArg)
    (s : Printer) :
    fmtSwitch (f.conversion kind.type) (.num v :: args) s =
      (args, s.numeral (f.conversion kind.type) kind.base.toUInt32 (kind = .d) v) := by
  have htype : (f.conversion kind.type).type = kind.type := rfl
  have hupper : ∃ d : UInt8, (if 97 ≤ kind.type ∧ kind.type ≤ 122 then kind.type - 0x20
      else kind.type) = d ∧ d ≠ 83 ∧ d ≠ 67 ∧ (d = 68 ↔ kind = .d) ∧
        fmtRadix d = some kind.base.toUInt32 := by
    refine ⟨_, rfl, ?_⟩
    cases kind <;> decide
  obtain ⟨d, hd, hs, hc, hsigned, hradix⟩ := hupper
  simp only [fmtSwitch, htype, hd, if_neg hs, if_neg hc, hradix, hsigned, List.tail_cons,
    List.headD_cons, FmtArg.number]

/-- The bit of the sign. -/
lemma signBit_iff (v : UInt32) : v &&& 0x80000000 ≠ 0 ↔ 2 ^ 31 ≤ v.toNat := by
  have hlt : v.toNat < 2 ^ 32 := v.toNat_lt
  have hand : (v &&& 0x80000000).toNat = (v.toNat.testBit 31).toNat * 2 ^ 31 := by
    rw [UInt32.toNat_and]
    exact Nat.and_two_pow v.toNat 31
  have hbit : ¬ (decide (v.toNat / 2 ^ 31 % 2 = 1)).toNat * 2 ^ 31 = (0 : UInt32).toNat ↔
      v.toNat / 2 ^ 31 % 2 = 1 := by simp
  rw [ne_eq, ← UInt32.toNat_inj, hand, Nat.testBit_eq_decide_div_mod_eq, hbit]
  omega

/-- The sign and the magnitude, as the code computes them. -/
lemma FmtNumeral.made_eq (kind : FmtNumeral) (v : UInt32) :
    kind.made v =
      (fmtDigits kind.base.toUInt32 (kind = FmtNumeral.x) 16
        (if kind = FmtNumeral.d ∧ v &&& 0x80000000 ≠ 0 then 0 - v else v) ++
          if kind = FmtNumeral.d ∧ v &&& 0x80000000 ≠ 0 then [45] else []).reverse := by
  have hlt : v.toNat < 2 ^ 32 := v.toNat_lt
  simp only [FmtNumeral.made, FmtNumeral.value, signBit_iff]
  split_ifs with hneg hsign hsign
  · have hmagnitude : ((v.toNat : ℤ) - 2 ^ 32).natAbs.toUInt32 = 0 - v := by
      refine UInt32.toNat_inj.mp ?_
      rw [UInt32.toNat_sub]
      have habs : ((v.toNat : ℤ) - 2 ^ 32).natAbs = 2 ^ 32 - v.toNat := by omega
      rw [habs]
      exact rfl
    rw [hmagnitude]
  · omega
  · omega
  · rw [Int.natAbs_natCast]
    congr 3
    exact UInt32.ofNat_toNat

/-- A numeral. -/
lemma prints_numeral (s : Printer) (f : FmtField) (kind : FmtNumeral) (v : UInt32) :
    s.Prints (s.numeral (f.conversion kind.type) kind.base.toUInt32 (kind = .d) v)
      (f.made f.fill (kind.made v))
      (((kind.made v).map UInt8.toNat).sum + f.counted f.fill (kind.made v).length) := by
  have htype : decide ((f.conversion kind.type).type = 120) = decide (kind = .x) := by
    cases kind <;> rfl
  have hleft : (f.conversion kind.type).left = decide (f.flag = .left) := rfl
  have hzero : (f.conversion kind.type).zero = decide (f.flag = .zero) := rfl
  have hwidth : (f.conversion kind.type).width = f.width % 2 ^ 16 := rfl
  rw [FmtNumeral.made_eq]
  simp only [Printer.numeral, htype, hleft, hzero, hwidth, Bool.and_eq_true, decide_eq_true_eq]
  generalize (fmtDigits kind.base.toUInt32 (kind = FmtNumeral.x) 16
    (if kind = FmtNumeral.d ∧ v &&& 0x80000000 ≠ 0 then 0 - v else v) ++
      if kind = FmtNumeral.d ∧ v &&& 0x80000000 ≠ 0 then [45] else []) = digits
  have htext (t : Printer) :
      t.Prints ((t.putAll digits.reverse).count (digits.map UInt8.toNat).sum) digits.reverse
        (digits.map UInt8.toNat).sum := by
    have h := (prints_putAll t digits.reverse).trans (prints_count _ (digits.map UInt8.toNat).sum)
    rwa [List.append_nil, Nat.zero_add] at h
  have hfield := prints_field s f f.fill digits.reverse rfl (htext _)
  rw [List.map_reverse, List.sum_reverse]
  rw [List.length_reverse] at hfield ⊢
  exact hfield

end Pieces

/-! ## A whole format -/

section Loop

variable {s : Printer} {rest : List UInt8} {args : List FmtArg} {fuel : ℕ}

/-- What a conversion does in the loop. -/
private lemma vsprintfLoop_field (fuel : ℕ) (rest : List UInt8) (f : FmtField) {type : UInt8}
    (hdigit : isDigit type = false) (hminus : type ≠ 45) (hl : type ≠ 108 ∧ type ≠ 76)
    {r : List FmtArg × Printer}
    (hr : fmtSwitch (f.conversion type) args s = r) :
    vsprintfLoop (fuel + 1) (37 :: (f.chars ++ [type]) ++ rest) args s =
      if r.2.ended then vsprintfLoop fuel rest r.1 r.2 else r.2 := by
  have hread := fmtConversion_field f rest hdigit hminus hl
  rw [List.cons_append, List.append_assoc, List.singleton_append, vsprintfLoop,
    if_neg (show ¬ ((37 : UInt8) ≠ 37) from fun h => h rfl), hread]
  simp only [hr]

private lemma FmtNumeral.type_plain (kind : FmtNumeral) :
    isDigit kind.type = false ∧ kind.type ≠ 45 ∧ kind.type ≠ 108 ∧ kind.type ≠ 76 := by
  cases kind <;> decide

/-- **One piece.** -/
lemma vsprintfLoop_item (fuel : ℕ) (rest : List UInt8) (args : List FmtArg) {item : FmtItem}
    (hshort : item.Short) (hs : s.ended = true) :
    ∃ s', s.Prints s' item.made item.counted ∧
      vsprintfLoop (fuel + 1) (item.format ++ rest) (item.args ++ args) s =
        vsprintfLoop fuel rest args s' := by
  cases item with
  | literal c hc =>
      have hprint := (prints_putAll s [c]).trans (prints_count _ 1)
      rw [List.append_nil, Nat.zero_add] at hprint
      refine ⟨_, hprint, ?_⟩
      exact if_pos hc.1
  | string f str =>
      have hprint := prints_string hshort s f 115
      refine ⟨_, hprint, ?_⟩
      refine Eq.trans (vsprintfLoop_field fuel rest f (by decide) (by decide) (by decide)
        (fmtSwitch_string f str.mem args s)) ?_
      exact if_pos (hprint.ended.trans hs)
  | char f v =>
      have hprint := (prints_putAll s [v.toUInt8]).trans (prints_count _ v.toUInt8.toNat)
      rw [List.append_nil, Nat.zero_add] at hprint
      refine ⟨_, hprint, ?_⟩
      refine Eq.trans (vsprintfLoop_field fuel rest f (by decide) (by decide) (by decide)
        (fmtSwitch_char f v args s)) ?_
      exact if_pos (hprint.ended.trans hs)
  | numeral f kind v =>
      have hprint := prints_numeral s f kind v
      obtain ⟨hdigit, hminus, hl⟩ := kind.type_plain
      refine ⟨_, hprint, ?_⟩
      refine Eq.trans (vsprintfLoop_field fuel rest f hdigit hminus hl
        (fmtSwitch_numeral f kind v args s)) ?_
      exact if_pos (hprint.ended.trans hs)

/-- A string that is too long stops the formatter. -/
lemma vsprintfLoop_long {item : FmtItem} (hlong : ¬ item.Short) :
    (vsprintfLoop (fuel + 1) (item.format ++ rest) (item.args ++ args) s).ended = false := by
  cases item with
  | string f str =>
      have hend := string_long (Nat.not_lt.mp hlong) s (f.conversion 115)
      have hloop := vsprintfLoop_field fuel rest f (by decide) (by decide)
        (by decide) (fmtSwitch_string f str.mem args s)
      simp only [hend, Bool.false_eq_true, if_false] at hloop
      exact (congrArg Printer.ended hloop).trans hend
  | literal c hc => exact absurd trivial hlong
  | char f v => exact absurd trivial hlong
  | numeral f kind v => exact absurd trivial hlong

lemma FmtItem.length_format_pos (item : FmtItem) : 0 < item.format.length := by
  cases item <;> exact Nat.succ_pos _

/-- **A whole format.**  By induction on its pieces. -/
theorem vsprintfLoop_items : ∀ (items : List FmtItem) (fuel : ℕ) (s : Printer),
    (items.flatMap FmtItem.format).length < fuel → s.ended = true →
      (∀ item ∈ items, item.Short) →
        s.Prints (vsprintfLoop fuel (items.flatMap FmtItem.format) (items.flatMap FmtItem.args) s)
          (items.flatMap FmtItem.made) (items.map FmtItem.counted).sum
  | _, 0, _, hfuel, _, _ => absurd hfuel (Nat.not_lt_zero _)
  | [], _ + 1, s, _, _, _ => prints_count s 0
  | item :: items, fuel + 1, s, hfuel, hs, hshort => by
      have hpos := item.length_format_pos
      rw [List.flatMap_cons, List.length_append] at hfuel
      obtain ⟨s', hprint, hloop⟩ := vsprintfLoop_item fuel (items.flatMap FmtItem.format)
        (items.flatMap FmtItem.args) (hshort item List.mem_cons_self) hs
      rw [List.flatMap_cons, List.flatMap_cons, List.flatMap_cons, List.map_cons, List.sum_cons,
        hloop]
      exact hprint.trans (vsprintfLoop_items items fuel s' (by omega) (hprint.ended.trans hs)
        fun item h => hshort item (List.mem_cons_of_mem _ h))

/-- A format with a string that is too long. -/
lemma vsprintfLoop_not_short : ∀ (items : List FmtItem) (fuel : ℕ) (s : Printer),
    (items.flatMap FmtItem.format).length < fuel → s.ended = true →
      ¬ (∀ item ∈ items, item.Short) →
        (vsprintfLoop fuel (items.flatMap FmtItem.format) (items.flatMap FmtItem.args) s).ended =
          false
  | _, 0, _, hfuel, _, _ => absurd hfuel (Nat.not_lt_zero _)
  | [], _ + 1, _, _, _, hlong => absurd (fun item h => absurd h List.not_mem_nil) hlong
  | item :: items, fuel + 1, s, hfuel, hs, hlong => by
      have hpos := item.length_format_pos
      rw [List.flatMap_cons, List.length_append] at hfuel
      rw [List.flatMap_cons, List.flatMap_cons]
      by_cases hitem : item.Short
      · obtain ⟨s', hprint, hloop⟩ := vsprintfLoop_item fuel
          (items.flatMap FmtItem.format) (items.flatMap FmtItem.args) hitem hs
        rw [hloop]
        refine vsprintfLoop_not_short items fuel s' (by omega) (hprint.ended.trans hs) ?_
        intro hall
        exact hlong (List.forall_mem_cons.mpr ⟨hitem, hall⟩)
      · exact vsprintfLoop_long hitem

end Loop

end Ampm

import AmpmGsm.Gsm.Sprintf
import Mathlib.Data.Nat.Digits.Defs

/-!
# Format strings

The formats that the formatter supports, `%[0|-][width][l]` with one of the types `s`, `c`, `b`,
`o`, `d`, `u`, `x` and `X`, and the text that the conventions of the C library give them.

* `FmtField`, `FmtItem` — a conversion and its argument, or a character that stands for itself.
* `FmtItem.format`, `FmtItem.args` — how it is written in a format, and the argument it takes.
* `FmtItem.text` — the text it stands for.
* `readDigits_numeralText` — a numeral reads back as the number.
-/

namespace Ampm

/-! ## Conversions -/

/-- The flag of a conversion. -/
inductive FmtFlag
  | plain
  | zero
  | left
  deriving DecidableEq

/-- What stands between the percent sign and the type.  Without a flag the width cannot begin with
a zero, which would be the flag. -/
structure FmtField where
  flag : FmtFlag
  digits : List UInt8
  long : Bool
  areDigits : ∀ c ∈ digits, isDigit c = true
  notFlag : flag = .plain → digits.head? ≠ some 48

/-- How a flag is written. -/
def FmtFlag.chars : FmtFlag → List UInt8
  | .plain => []
  | .zero => [48]
  | .left => [45]

/-- How a field is written. -/
def FmtField.chars (f : FmtField) : List UInt8 :=
  f.flag.chars ++ (f.digits ++ if f.long then [108] else [])

/-- The width; it is zero if none is given. -/
def FmtField.width (f : FmtField) : ℕ := leadingDigits f.digits

/-- A pointer to a string that comes to an end. -/
structure CText where
  mem : ℕ → UInt8
  ends : ∃ n, mem n = 0

/-- The length of the string. -/
def CText.length (s : CText) : ℕ := Nat.find s.ends

/-- The characters in front of the terminator. -/
def CText.chars (s : CText) : List UInt8 := (List.range s.length).map s.mem

/-- The conversions of numbers, named by their type. -/
inductive FmtNumeral
  | b
  | o
  | d
  | u
  | x
  | X
  deriving DecidableEq

/-- The type of a numeral as a character. -/
def FmtNumeral.type : FmtNumeral → UInt8
  | .b => 98
  | .o => 111
  | .d => 100
  | .u => 117
  | .x => 120
  | .X => 88

/-- The base of a numeral. -/
def FmtNumeral.base : FmtNumeral → ℕ
  | .b => 2
  | .o => 8
  | .d => 10
  | .u => 10
  | .x => 16
  | .X => 16

/-- The number in an argument of 32 bits. -/
def FmtNumeral.value (kind : FmtNumeral) (v : UInt32) : ℤ :=
  if kind = .d ∧ 2 ^ 31 ≤ v.toNat then v.toNat - 2 ^ 32 else v.toNat

/-- A piece of a format, with its argument. -/
inductive FmtItem
  | literal (c : UInt8) (plain : c ≠ 37 ∧ c ≠ 0)
  | string (field : FmtField) (s : CText)
  | char (field : FmtField) (v : UInt32)
  | numeral (field : FmtField) (kind : FmtNumeral) (v : UInt32)

/-- How the piece is written. -/
def FmtItem.format : FmtItem → List UInt8
  | .literal c _ => [c]
  | .string field _ => 37 :: (field.chars ++ [115])
  | .char field _ => 37 :: (field.chars ++ [99])
  | .numeral field kind _ => 37 :: (field.chars ++ [kind.type])

/-- The argument of the piece. -/
def FmtItem.args : FmtItem → List FmtArg
  | .literal _ _ => []
  | .string _ s => [.str s.mem]
  | .char _ v => [.num v]
  | .numeral _ _ v => [.num v]

/-! ## The conventions -/

/-- A text in its field: spaces up to the width, in front of it or behind it. -/
def FmtField.pad (f : FmtField) (text : List UInt8) : List UInt8 :=
  let spaces := List.replicate (f.width - text.length) 32
  if f.flag = .left then text ++ spaces else spaces ++ text

/-- A numeral in its field.  Zeros stand between the sign and the digits. -/
def FmtField.padNumeral (f : FmtField) (sign digits : List UInt8) : List UInt8 :=
  if f.flag = .zero then
    sign ++ List.replicate (f.width - (sign ++ digits).length) 48 ++ digits
  else f.pad (sign ++ digits)

/-- A digit. -/
def digitChar (upper : Bool) (d : ℕ) : UInt8 :=
  (if d < 10 then d + 48 else if upper then d + 55 else d + 87).toUInt8

/-- All significant digits of a number. -/
def numeralText (base : ℕ) (upper : Bool) (m : ℕ) : List UInt8 :=
  if m = 0 then [48] else ((Nat.digits base m).map (digitChar upper)).reverse

/-- The text of a piece: the string, the character, or the numeral, in its field. -/
def FmtItem.text : FmtItem → List UInt8
  | .literal c _ => [c]
  | .string field s => field.pad s.chars
  | .char field v => field.pad [v.toUInt8]
  | .numeral field kind v =>
      field.padNumeral (if kind.value v < 0 then [45] else [])
        (numeralText kind.base (kind = .X) (kind.value v).natAbs)

section Text

variable {f : FmtField} {s : CText} {text : List UInt8} {base m : ℕ} {upper : Bool}

@[simp] lemma CText.length_chars (s : CText) : s.chars.length = s.length := by
  rw [CText.chars, List.length_map, List.length_range]

lemma CText.mem_length (s : CText) : s.mem s.length = 0 := Nat.find_spec s.ends

lemma CText.mem_ne_zero {k : ℕ} (h : k < s.length) : s.mem k ≠ 0 := Nat.find_min s.ends h

lemma FmtField.length_pad (f : FmtField) (text : List UInt8) :
    (f.pad text).length = max text.length f.width := by
  simp only [FmtField.pad]
  split_ifs <;> rw [List.length_append, List.length_replicate] <;> omega

lemma FmtField.pad_eq_self (h : f.width ≤ text.length) : f.pad text = text := by
  simp only [FmtField.pad, Nat.sub_eq_zero_of_le h, List.replicate_zero, List.append_nil,
    List.nil_append, ite_self]

/-! ## Reading a numeral -/

/-- The value of a digit. -/
def digitValue (c : UInt8) : ℕ :=
  if c ≤ 57 then c.toNat - 48 else if c ≤ 70 then c.toNat - 55 else c.toNat - 87

/-- The number that digits spell. -/
def readDigits (base : ℕ) (cs : List UInt8) : ℕ :=
  cs.foldl (fun v c => v * base + digitValue c) 0

lemma digitValue_digitChar {d : ℕ} (h : d < 16) : digitValue (digitChar upper d) = d := by
  have hall : ∀ upper : Bool, ∀ d < 16, digitValue (digitChar upper d) = d := by decide
  exact hall upper d h

lemma readDigits_map {ds : List ℕ} (hds : ∀ d ∈ ds, d < 16) :
    readDigits base (ds.map (digitChar upper)).reverse = Nat.ofDigits base ds := by
  induction ds with
  | nil => rfl
  | cons d ds ih =>
      have hd := hds d List.mem_cons_self
      have hrest := ih fun e he => hds e (List.mem_cons_of_mem d he)
      rw [readDigits] at hrest ⊢
      rw [List.map_cons, List.reverse_cons, List.foldl_append, hrest, Nat.ofDigits_cons,
        List.foldl_cons, List.foldl_nil, digitValue_digitChar hd, Nat.add_comm, Nat.mul_comm]

/-- **A numeral reads back**, in any base up to 16. -/
theorem readDigits_numeralText (hbase : 1 < base) (hle : base ≤ 16) :
    readDigits base (numeralText base upper m) = m := by
  rw [numeralText]
  split_ifs with hzero
  · rw [hzero]
    exact Nat.zero_mul base
  · rw [readDigits_map fun d hd => Nat.lt_of_lt_of_le (Nat.digits_lt_base hbase hd) hle,
      Nat.ofDigits_digits]

end Text

end Ampm

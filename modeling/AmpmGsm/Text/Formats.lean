import AmpmGsm.Text.Formatter
import Mathlib.Algebra.Order.BigOperators.Group.List

/-!
# What the formatter gets right

`ampm_vsprintf` against the conventions of the C library.  Only the characters of literals and of
strings are counted as one each: padding, `%c` and every digit are counted as their code.

* `HoldsText`, `Formats` — the text is written, terminated, and its length returned.
* `formats_iff_cells` — the characters and the count one by one.
* `FmtItem.Plain`, `Compensated`, `ampmVsprintf_formats_iff` — the formats that come out right.
-/

namespace Ampm

/-- The buffer holds the text and a terminator, and the result is its length. -/
structure HoldsText (s : Printer) (text : List UInt8) : Prop where
  ended : s.ended = true
  chars : ∀ i (hi : i < text.length), s.buf i = text[i]
  nul : s.buf text.length = 0
  result : s.res = text.length

/-- `ampm_vsprintf` does with the format what the conventions say, whatever the buffer held. -/
def Formats (items : List FmtItem) : Prop :=
  ∀ buf, HoldsText
    (ampmVsprintf buf (items.flatMap FmtItem.format) (items.flatMap FmtItem.args))
    (items.flatMap FmtItem.text)

/-! ## Characters and count -/

section Cells

variable {items : List FmtItem}

/-- Behind the terminator nothing changes. -/
lemma putAll_buf_above (s : Printer) (cs : List UInt8) {k : ℕ} (hk : s.fp + cs.length < k) :
    (s.putAll cs).buf k = s.buf k := by
  induction cs generalizing s with
  | nil => rfl
  | cons c cs ih =>
      rw [List.length_cons] at hk
      rw [putAll_cons, ih (s.putc c) (by rw [putc_fp]; omega), putc_buf,
        Function.update_of_ne (by omega), Function.update_of_ne (by omega)]

/-- The cells of a buffer into which characters were written from its beginning. -/
lemma putAll_cells (buf : ℕ → UInt8) {cs : List UInt8} (hne : cs ≠ []) {i : ℕ}
    (hi : i < (cs ++ [0]).length) :
    (Printer.putAll ⟨buf, 0, 0, [], [], true⟩ cs).buf i = (cs ++ [0])[i] := by
  obtain ⟨hchars, hend⟩ := putAll_buf (s := ⟨buf, 0, 0, [], [], true⟩) cs hne
  rw [List.length_append, List.length_singleton] at hi
  rcases Nat.lt_or_ge i cs.length with hlt | hge
  · have h := hchars i hlt
    rw [Nat.zero_add, List.getD_eq_getElem?_getD, List.getElem?_eq_getElem hlt,
      Option.getD_some] at h
    rw [h, List.getElem_append_left hlt]
  · obtain rfl : i = cs.length := by omega
    rw [Nat.zero_add] at hend
    rw [hend, List.getElem_append_right (Nat.le_refl _)]
    simp

/-- A text and its terminator in the cells. -/
lemma holdsText_cells_iff {s : Printer} {text : List UInt8} :
    ((∀ i (hi : i < text.length), s.buf i = text[i]) ∧ s.buf text.length = 0) ↔
      ∀ i (hi : i < (text ++ [0]).length), s.buf i = (text ++ [0])[i] := by
  constructor
  · rintro ⟨hchars, hnul⟩ i hi
    rw [List.length_append, List.length_singleton] at hi
    rcases Nat.lt_or_ge i text.length with hlt | hge
    · rw [List.getElem_append_left hlt, hchars i hlt]
    · obtain rfl : i = text.length := by omega
      rw [hnul, List.getElem_append_right (Nat.le_refl _)]
      simp
  · intro h
    constructor
    · intro i hi
      rw [h i (by rw [List.length_append]; omega), List.getElem_append_left hi]
    · rw [h _ (by simp), List.getElem_append_right (Nat.le_refl _)]
      simp

/-- **Characters and count.**  The text is right if the characters that are written begin with it
and its terminator, whatever was in the buffer: nothing at all must not be written. -/
theorem formats_iff_cells : Formats items ↔
    (∀ item ∈ items, item.Short) ∧ items.flatMap FmtItem.made ≠ [] ∧
      (items.flatMap FmtItem.text ++ [0]) <+: (items.flatMap FmtItem.made ++ [0]) ∧
      (items.map FmtItem.counted).sum = (items.flatMap FmtItem.text).length := by
  by_cases hshort : ∀ item ∈ items, item.Short
  · have hprint (buf : ℕ → UInt8) := vsprintfLoop_items items
      ((items.flatMap FmtItem.format).length + 1) ⟨buf, 0, 0, [], [], true⟩ (Nat.lt_succ_self _) rfl
      hshort
    constructor
    · intro h
      -- a buffer without a zero shows what was written
      have hones := h fun _ => 1
      have hbuf := (hprint fun _ => 1).buf
      have hres := (hprint fun _ => 1).res
      have hnul := hones.nul
      have hresult := hones.result
      rw [ampmVsprintf] at hnul hresult
      rw [hbuf] at hnul
      rw [hres, Nat.zero_add] at hresult
      have hne : items.flatMap FmtItem.made ≠ [] := by
        intro hnil
        rw [hnil] at hnul
        exact absurd hnul (show (1 : UInt8) ≠ 0 by decide)
      refine ⟨hshort, hne, ?_, hresult⟩
      have hle : (items.flatMap FmtItem.text).length ≤ (items.flatMap FmtItem.made).length := by
        by_contra hgt
        rw [putAll_buf_above _ _ (by rw [Nat.zero_add]; omega)] at hnul
        exact absurd hnul (show (1 : UInt8) ≠ 0 by decide)
      refine List.prefix_iff_getElem.mpr ⟨?_, fun i hi => ?_⟩
      · rw [List.length_append, List.length_append]
        exact Nat.add_le_add_right hle 1
      · have hcell := holdsText_cells_iff.mp ⟨hones.chars, hones.nul⟩ i hi
        rw [ampmVsprintf, hbuf, putAll_cells _ hne] at hcell
        exact hcell.symm
    · rintro ⟨-, hne, hcells, hcount⟩ buf
      obtain ⟨hle, hall⟩ := List.prefix_iff_getElem.mp hcells
      obtain ⟨hbuf, -, hres, hended⟩ := hprint buf
      have htext := holdsText_cells_iff.mpr fun i hi => by
        have hcell := putAll_cells buf hne (Nat.lt_of_lt_of_le hi hle)
        rw [← hbuf] at hcell
        rw [hcell, hall i hi]
      exact ⟨hended, htext.1, htext.2, by rw [ampmVsprintf, hres, Nat.zero_add, hcount]⟩
  · refine iff_of_false (fun h => ?_) fun h => hshort h.1
    have hended := vsprintfLoop_not_short items ((items.flatMap FmtItem.format).length + 1)
      ⟨fun _ => 0, 0, 0, [], [], true⟩ (Nat.lt_succ_self _) rfl hshort
    have h0 := (h fun _ => 0).ended
    rw [ampmVsprintf, hended] at h0
    exact Bool.false_ne_true h0

end Cells

/-! ## Which formats come out right -/

/-- The piece is written and counted as it should be: a literal, a string that fills its field, or
the character of the code 1.  A string of 65535 characters must not have a width in front of it:
there the counter of the padding wraps. -/
def FmtItem.Plain : FmtItem → Prop
  | .literal _ _ => True
  | .string f s =>
      s.length < 2 ^ 16 ∧ f.width ≤ s.length ∧
        (f.flag = .left ∨ s.length ≠ 2 ^ 16 - 1 ∨ f.width = 0)
  | .char f v => v.toUInt8 = 1 ∧ f.width ≤ 1
  | .numeral _ _ _ => False

/-- The piece is a NUL character. -/
def FmtItem.Nul : FmtItem → Prop
  | .char _ v => v.toUInt8 = 0
  | _ => False

/-- NUL characters, which `%c` counts as nothing, make up for what is counted too much elsewhere. -/
structure Compensated (items : List FmtItem) : Prop where
  nul : ∃ item ∈ items, item.Nul
  short : ∀ item ∈ items, item.Short
  cells : (items.flatMap FmtItem.text ++ [0]) <+: (items.flatMap FmtItem.made ++ [0])
  codes : (items.map FmtItem.counted).sum = (items.flatMap FmtItem.text).length

section Plain

variable {items : List FmtItem} {item : FmtItem} {f : FmtField}

lemma FmtField.length_made (f : FmtField) (fill : UInt8) (text : List UInt8) :
    (f.made fill text).length = f.front text.length + text.length + f.behind text.length := by
  rw [FmtField.made, List.length_append, List.length_append, List.length_replicate,
    List.length_replicate]

lemma FmtField.made_of_none {fill : UInt8} {text : List UInt8} (hfront : f.front text.length = 0)
    (hbehind : f.behind text.length = 0) : f.made fill text = text := by
  rw [FmtField.made, hfront, hbehind, List.replicate_zero, List.nil_append, List.replicate_zero,
    List.append_nil]

/-- Padding counts for more than its length. -/
lemma FmtField.padding_le_counted (f : FmtField) {fill : UInt8} (hfill : 32 ≤ fill.toNat) (n : ℕ) :
    32 * (f.front n + f.behind n) ≤ f.counted fill n := by
  have hfront := Nat.mul_le_mul_left (f.front n) hfill
  rw [FmtField.counted]
  omega

lemma FmtField.fill_ge (f : FmtField) : 32 ≤ f.fill.toNat := by
  rw [FmtField.fill]
  split_ifs <;> decide

/-- The padding of a text that fills its field. -/
lemma FmtField.behind_of_le {n : ℕ} (hle : f.width ≤ n) (hn : n < 2 ^ 16)
    (hwrap : f.flag = .left ∨ n ≠ 2 ^ 16 - 1 ∨ f.width = 0) :
    f.front n = 0 ∧ f.behind n = 0 := by
  have hwidth : f.width % 2 ^ 16 = f.width := Nat.mod_eq_of_lt (by omega)
  simp only [FmtField.front, FmtField.behind, hwidth]
  split_ifs with hleft
  · exact ⟨rfl, by omega⟩
  · rw [Nat.max_eq_left hle]
    rcases hwrap with h | h | h
    · exact absurd h hleft
    · omega
    · omega

/-- A string of 65535 characters in a field is padded once more. -/
lemma FmtField.wrap_of_behind {n : ℕ} (hle : f.width ≤ n) (hn : n < 2 ^ 16)
    (hbehind : f.behind n = 0) : f.flag = .left ∨ n ≠ 2 ^ 16 - 1 ∨ f.width = 0 := by
  have hwidth : f.width % 2 ^ 16 = f.width := Nat.mod_eq_of_lt (by omega)
  simp only [FmtField.behind, hwidth] at hbehind
  split_ifs at hbehind with hleft
  · exact Or.inl hleft
  · rw [Nat.max_eq_left hle] at hbehind
    omega

lemma FmtNumeral.base_bounds (kind : FmtNumeral) : 2 ≤ kind.base ∧ kind.base ≤ 16 := by
  cases kind <;> decide

/-- One digit and the rest of a number. -/
lemma fmtDigits_succ {base : ℕ} (hbase : 2 ≤ base ∧ base ≤ 16) (small : Bool) (room : ℕ)
    (v : UInt32) :
    (v / base.toUInt32).toNat = v.toNat / base ∧
      fmtDigits base.toUInt32 small (room + 1) v =
        digitChar (!small) (v.toNat % base) ::
          if v.toNat / base = 0 then [] else
            fmtDigits base.toUInt32 small room (v / base.toUInt32) := by
  have hradix : base.toUInt32.toNat = base :=
    UInt32.toNat_ofNat_of_lt' (Nat.lt_of_le_of_lt hbase.2 (by decide))
  have hdiv : (v / base.toUInt32).toNat = v.toNat / base := by
    rw [UInt32.toNat_div, hradix]
  have hmod : (v % base.toUInt32).toUInt8 = (v.toNat % base).toUInt8 := by
    refine UInt8.toNat_inj.mp ?_
    rw [UInt32.toNat_toUInt8, UInt32.toNat_mod, hradix]
    exact UInt8.toNat_ofNat'.symm
  have hzero : v / base.toUInt32 = 0 ↔ v.toNat / base = 0 := by
    rw [← UInt32.toNat_inj, hdiv]
    rfl
  have hdigit : ∀ small : Bool, ∀ d < 16,
      (if d.toUInt8 > 9 then d.toUInt8 + (if small then 0x27 else 0x07) else d.toUInt8) + 48 =
        digitChar (!small) d := by decide
  refine ⟨hdiv, ?_⟩
  have hlt : v.toNat % base < 16 := Nat.lt_of_lt_of_le (Nat.mod_lt _ (by omega)) hbase.2
  simp only [fmtDigits, hmod, hzero]
  rw [hdigit small _ hlt]

/-- The codes of digits begin at 48. -/
lemma fmtDigits_codes {base : ℕ} (hbase : 2 ≤ base ∧ base ≤ 16) (small : Bool) :
    ∀ (room : ℕ) (v : UInt32), ∀ c ∈ fmtDigits base.toUInt32 small room v, 48 ≤ c.toNat
  | 0, _, c, hc => absurd hc List.not_mem_nil
  | room + 1, v, c, hc => by
      rw [(fmtDigits_succ hbase small room v).2] at hc
      rcases List.mem_cons.mp hc with rfl | hrest
      · have hall : ∀ upper : Bool, ∀ d < 16, 48 ≤ (digitChar upper d).toNat := by decide
        exact hall _ _ (Nat.lt_of_lt_of_le (Nat.mod_lt _ (by omega)) hbase.2)
      · split_ifs at hrest with hzero
        · exact absurd hrest List.not_mem_nil
        · exact fmtDigits_codes hbase small room _ c hrest

/-- A numeral is not empty, and its characters have codes from 45 on. -/
lemma FmtNumeral.made_codes (kind : FmtNumeral) (v : UInt32) :
    kind.made v ≠ [] ∧ ∀ c ∈ kind.made v, 45 ≤ c.toNat := by
  constructor
  · rw [FmtNumeral.made, (fmtDigits_succ kind.base_bounds _ 15 _).2]
    simp
  · intro c hc
    rcases List.mem_append.mp (List.mem_reverse.mp hc) with hdigit | hsign
    · exact Nat.le_trans (by decide) (fmtDigits_codes kind.base_bounds _ _ _ c hdigit)
    · split_ifs at hsign
      · rw [List.mem_singleton.mp hsign]
        decide
      · exact absurd hsign List.not_mem_nil

/-- A numeral counts for more than its length. -/
lemma FmtNumeral.length_lt_codes (kind : FmtNumeral) (v : UInt32) :
    (kind.made v).length < ((kind.made v).map UInt8.toNat).sum := by
  obtain ⟨hne, hcodes⟩ := kind.made_codes v
  have hall : ∀ cs : List UInt8, (∀ c ∈ cs, 45 ≤ c.toNat) →
      45 * cs.length ≤ (cs.map UInt8.toNat).sum := by
    intro cs hcs
    induction cs with
    | nil => exact Nat.zero_le _
    | cons c cs ih =>
        have hc := hcs c List.mem_cons_self
        have hrest := ih fun e he => hcs e (List.mem_cons_of_mem c he)
        rw [List.length_cons, List.map_cons, List.sum_cons]
        omega
  have hpos := List.length_pos_iff.mpr hne
  have hsum := hall _ hcodes
  omega

/-- Without a NUL character nothing is counted too little. -/
lemma FmtItem.length_made_le (hnul : ¬ item.Nul) : item.made.length ≤ item.counted := by
  cases item with
  | literal c hc => exact Nat.le_refl 1
  | string f s =>
      have hpad := f.padding_le_counted (show 32 ≤ (32 : UInt8).toNat by decide) s.length
      rw [FmtItem.made, FmtItem.counted, f.length_made, CText.length_chars]
      omega
  | char f v =>
      refine Nat.one_le_iff_ne_zero.mpr fun hzero => hnul ?_
      exact UInt8.toNat_inj.mp hzero
  | numeral f kind v =>
      have hpad := f.padding_le_counted f.fill_ge (kind.made v).length
      have hcodes := kind.length_lt_codes v
      rw [FmtItem.made, FmtItem.counted, f.length_made]
      omega

/-- A piece whose characters are counted as one each is not longer than it should be, and plain if
it is as long. -/
lemma FmtItem.plain_of_counted (hshort : item.Short) (hcount : item.made.length = item.counted) :
    item.made.length ≤ item.text.length ∧
      (item.made.length = item.text.length → item.Plain) := by
  cases item with
  | literal c hc => exact ⟨Nat.le_refl 1, fun _ => trivial⟩
  | string f s =>
      have hpad := f.padding_le_counted (show 32 ≤ (32 : UInt8).toNat by decide) s.length
      have hlen : (FmtItem.string f s).text.length = max s.length f.width := by
        rw [FmtItem.text, f.length_pad, CText.length_chars]
      rw [FmtItem.made, FmtItem.counted, f.length_made, CText.length_chars] at hcount
      rw [FmtItem.made, f.length_made, CText.length_chars, hlen]
      refine ⟨by omega, fun heq => ?_⟩
      have hle : f.width ≤ s.length := by omega
      exact ⟨hshort, hle, f.wrap_of_behind hle hshort (by omega)⟩
  | char f v =>
      have hlen : (FmtItem.char f v).text.length = max 1 f.width := f.length_pad _
      have hone : (1 : ℕ) = v.toUInt8.toNat := hcount
      rw [hlen]
      refine ⟨Nat.le_max_left 1 _, fun heq => ⟨?_, ?_⟩⟩
      · exact UInt8.toNat_inj.mp hone.symm
      · exact Nat.le_trans (Nat.le_max_right 1 _) (Nat.le_of_eq heq.symm)
  | numeral f kind v =>
      have hpad := f.padding_le_counted f.fill_ge (kind.made v).length
      have hcodes := kind.length_lt_codes v
      rw [FmtItem.made, FmtItem.counted, f.length_made] at hcount
      omega

/-- A plain piece is written and counted as it should be. -/
lemma FmtItem.Plain.spec (h : item.Plain) :
    item.Short ∧ item.made = item.text ∧ item.counted = item.text.length := by
  cases item with
  | literal c hc => exact ⟨trivial, rfl, rfl⟩
  | string f s =>
      obtain ⟨hshort, hle, hwrap⟩ := h
      obtain ⟨hfront, hbehind⟩ := f.behind_of_le hle hshort hwrap
      have htext : (FmtItem.string f s).text = s.chars :=
        f.pad_eq_self (by rwa [CText.length_chars])
      refine ⟨hshort, ?_, ?_⟩
      · rw [htext, FmtItem.made]
        exact f.made_of_none (by rwa [CText.length_chars]) (by rwa [CText.length_chars])
      · rw [htext, FmtItem.counted, FmtField.counted, hfront, hbehind, CText.length_chars,
          Nat.zero_mul, Nat.zero_mul, Nat.add_zero]
  | char f v =>
      have htext : (FmtItem.char f v).text = [v.toUInt8] := f.pad_eq_self h.2
      refine ⟨trivial, htext.symm, ?_⟩
      rw [htext, FmtItem.counted, h.1]
      rfl
  | numeral f kind v => exact absurd h id

/-- Where nothing is larger and the sums are the same, all are the same. -/
lemma eq_of_sum_map_le {α : Type} {f g : α → ℕ} :
    ∀ {l : List α}, (∀ x ∈ l, f x ≤ g x) → (l.map g).sum ≤ (l.map f).sum → ∀ x ∈ l, f x = g x
  | [], _, _, x, hx => absurd hx List.not_mem_nil
  | y :: l, hle, hsum, x, hx => by
      have hy := hle y List.mem_cons_self
      have hrest : (l.map f).sum ≤ (l.map g).sum :=
        List.sum_le_sum fun z hz => hle z (List.mem_cons_of_mem y hz)
      rw [List.map_cons, List.map_cons, List.sum_cons, List.sum_cons] at hsum
      rcases List.mem_cons.mp hx with rfl | hmem
      · omega
      · exact eq_of_sum_map_le (fun z hz => hle z (List.mem_cons_of_mem y hz)) (by omega) x hmem

/-- **Formats without NUL characters.**  What is written is no longer than what is counted, so every
character of it is counted as one, and then no piece can be shorter than it should be. -/
lemma formats_iff_plain (hnul : ∀ item ∈ items, ¬ item.Nul) :
    Formats items ↔ items.flatMap FmtItem.text ≠ [] ∧ ∀ item ∈ items, item.Plain := by
  rw [formats_iff_cells]
  constructor
  · rintro ⟨hshort, hne, hcells, hcount⟩
    have hle := hcells.length_le
    rw [List.length_append, List.length_append, Nat.add_le_add_iff_right, List.length_flatMap,
      List.length_flatMap] at hle
    rw [List.length_flatMap] at hcount
    have hcounted := eq_of_sum_map_le (fun item h => FmtItem.length_made_le (hnul item h))
      (Nat.le_trans (Nat.le_of_eq hcount) hle)
    have hlength := eq_of_sum_map_le
      (fun item h => (FmtItem.plain_of_counted (hshort item h) (hcounted item h)).1) hle
    have hplain : ∀ item ∈ items, item.Plain := fun item h =>
      (FmtItem.plain_of_counted (hshort item h) (hcounted item h)).2 (hlength item h)
    refine ⟨?_, hplain⟩
    rwa [← List.flatMap_congr fun item h => (hplain item h).spec.2.1]
  · rintro ⟨hne, hplain⟩
    have hmade : items.flatMap FmtItem.made = items.flatMap FmtItem.text :=
      List.flatMap_congr fun item h => (hplain item h).spec.2.1
    rw [hmade]
    refine ⟨fun item h => (hplain item h).spec.1, hne, List.prefix_rfl, ?_⟩
    rw [List.length_flatMap]
    exact congrArg List.sum (List.map_congr_left fun item h => (hplain item h).spec.2.2)

end Plain

/-- **What the formatter gets right**: formats of literals and of strings that fill their fields,
unless all of it is empty.  A numeral is never counted right, nor is padding or, but for the code 1,
a character; only NUL characters can make up for it. -/
theorem ampmVsprintf_formats_iff (items : List FmtItem) :
    Formats items ↔
      items.flatMap FmtItem.text ≠ [] ∧ (∀ item ∈ items, item.Plain) ∨ Compensated items := by
  by_cases hnul : ∃ item ∈ items, item.Nul
  · have hmade : items.flatMap FmtItem.made ≠ [] := by
      obtain ⟨item, hmem, hitem⟩ := hnul
      cases item with
      | char f v =>
          refine List.ne_nil_of_mem (a := v.toUInt8) (List.mem_flatMap.mpr ⟨_, hmem, ?_⟩)
          exact List.mem_singleton.mpr rfl
      | literal c hc => exact absurd hitem id
      | string f s => exact absurd hitem id
      | numeral f kind v => exact absurd hitem id
    have hplain : ¬ ∀ item ∈ items, item.Plain := by
      intro h
      obtain ⟨item, hmem, hitem⟩ := hnul
      have hp := h item hmem
      cases item with
      | char f v => exact absurd (hp.1.symm.trans hitem) (by decide)
      | literal c hc => exact absurd hitem id
      | string f s => exact absurd hitem id
      | numeral f kind v => exact absurd hitem id
    rw [formats_iff_cells]
    constructor
    · rintro ⟨hshort, -, hcells, hcount⟩
      exact Or.inr ⟨hnul, hshort, hcells, hcount⟩
    · rintro (h | h)
      · exact absurd h.2 hplain
      · exact ⟨h.short, hmade, h.cells, h.codes⟩
  · have hnone : ∀ item ∈ items, ¬ item.Nul := fun item hmem h => hnul ⟨item, hmem, h⟩
    rw [formats_iff_plain hnone]
    exact (or_iff_left fun h => hnul h.nul).symm

/-- The field of `%05d`. -/
def FmtField.zeroFive : FmtField where
  flag := .zero
  digits := [53]
  long := false
  areDigits _ hc := List.mem_singleton.mp hc ▸ rfl
  notFlag := nofun

/-- `%05d` of −5 is written as `000-5`. -/
theorem ampmVsprintf_zeroPadded : ¬ Formats [.numeral .zeroFive .d 0xFFFFFFFB] := by
  intro h
  have hcell := (h fun _ => 0).chars 0 (by decide +kernel)
  have hmade : (ampmVsprintf (fun _ => 0) [37, 48, 53, 100] [.num 0xFFFFFFFB]).buf 0 = 48 := by
    decide +kernel
  have htext : (FmtItem.numeral .zeroFive .d 0xFFFFFFFB).text = [45, 48, 48, 48, 53] := by
    decide +kernel
  have hsame : (48 : UInt8) = 45 := by
    rw [← hmade]
    refine hcell.trans ?_
    simp only [List.flatMap_cons, List.flatMap_nil, List.append_nil, htext]
    rfl
  exact absurd hsame (by decide)

/-! ## Numerals -/

section Numerals

variable {base : ℕ}

/-- All digits of a number for which there is room. -/
lemma fmtDigits_digits (hbase : 2 ≤ base ∧ base ≤ 16) (small : Bool) :
    ∀ (room : ℕ) (v : UInt32), 0 < v.toNat → v.toNat < base ^ room →
      fmtDigits base.toUInt32 small room v = (Nat.digits base v.toNat).map (digitChar (!small))
  | 0, v, hpos, hlt => by
      rw [Nat.pow_zero] at hlt
      omega
  | room + 1, v, hpos, hlt => by
      obtain ⟨hdiv, hstep⟩ := fmtDigits_succ hbase small room v
      rw [hstep, Nat.digits_def' hbase.1 hpos, List.map_cons]
      split_ifs with hzero
      · rw [hzero, Nat.digits_zero, List.map_nil]
      · rw [fmtDigits_digits hbase small room _ (by omega), hdiv]
        rw [hdiv]
        exact Nat.div_lt_of_lt_mul (by rwa [Nat.pow_succ, Nat.mul_comm] at hlt)

lemma FmtNumeral.natAbs_value_lt (kind : FmtNumeral) (v : UInt32) :
    (kind.value v).natAbs < 2 ^ 32 := by
  have hlt : v.toNat < 2 ^ 32 := v.toNat_lt
  rw [FmtNumeral.value]
  split_ifs <;> omega

/-- **Sign and digits.**  They are those of the conventions unless the 16 places for the digits are
not enough. -/
theorem FmtNumeral.made_eq_text (kind : FmtNumeral) (v : UInt32)
    (hfits : (kind.value v).natAbs < kind.base ^ 16) :
    kind.made v = (if kind.value v < 0 then [45] else []) ++
      numeralText kind.base (kind = .X) (kind.value v).natAbs := by
  have hsign : (if kind.value v < 0 then [(45 : UInt8)] else []).reverse =
      if kind.value v < 0 then [45] else [] := by
    split_ifs <;> rfl
  have hnat : (kind.value v).natAbs.toUInt32.toNat = (kind.value v).natAbs :=
    UInt32.toNat_ofNat_of_lt' (kind.natAbs_value_lt v)
  -- a large digit occurs in hexadecimal only, and there the case is that of the type
  have hchar : ∀ d < kind.base, digitChar (!decide (kind = .x)) d = digitChar (kind = .X) d := by
    cases kind <;> decide
  rw [FmtNumeral.made, List.reverse_append, hsign, numeralText]
  congr 1
  split_ifs with hzero
  · rw [(fmtDigits_succ kind.base_bounds _ 15 _).2, hnat, hzero, Nat.zero_div, Nat.zero_mod]
    rfl
  · rw [fmtDigits_digits kind.base_bounds _ 16 _ (by omega) (by rwa [hnat]), hnat]
    congr 1
    exact List.map_congr_left fun d hd => hchar d (Nat.digits_lt_base kind.base_bounds.1 hd)

/-- **A numeral reads back.**  Only in binary can there be too many digits. -/
theorem FmtNumeral.readDigits_made (kind : FmtNumeral) (v : UInt32) (hkind : kind ≠ .b) :
    ∃ digits, kind.made v = (if kind.value v < 0 then [45] else []) ++ digits ∧
      readDigits kind.base digits = (kind.value v).natAbs := by
  have hlt := kind.natAbs_value_lt v
  have hroom : 2 ^ 32 ≤ kind.base ^ 16 := by
    cases kind with
    | b => exact absurd rfl hkind
    | o => decide
    | d => decide
    | u => decide
    | x => decide
    | X => decide
  exact ⟨_, kind.made_eq_text v (Nat.lt_of_lt_of_le hlt hroom),
    readDigits_numeralText kind.base_bounds.1 kind.base_bounds.2⟩

/-- The padding of a short text in a width that the counter can pass. -/
lemma FmtField.padding_of_lt {f : FmtField} {n : ℕ} (hwidth : f.width < 2 ^ 16 - 1)
    (hn : n < 2 ^ 16 - 1) :
    f.front n = (if f.flag = .left then 0 else f.width - n) ∧
      f.behind n = if f.flag = .left then f.width - n else 0 := by
  have hmod : f.width % 2 ^ 16 = f.width := Nat.mod_eq_of_lt (by omega)
  have hcount : (max n f.width + 1) % 2 ^ 16 = max n f.width + 1 := Nat.mod_eq_of_lt (by omega)
  simp only [FmtField.front, FmtField.behind, hmod, hcount, true_and]
  split_ifs
  · rfl
  · omega

lemma length_fmtDigits_le (radix : UInt32) (small : Bool) :
    ∀ (room : ℕ) (v : UInt32), (fmtDigits radix small room v).length ≤ room
  | 0, _ => Nat.le_refl 0
  | room + 1, v => by
      simp only [fmtDigits, List.length_cons]
      split_ifs
      · exact Nat.le_add_left 1 room
      · exact Nat.succ_le_succ (length_fmtDigits_le radix small room _)

/-- **A numeral in its field.**  Zeros are written in front of the sign, and 16 places may not be
enough in binary; otherwise the text is that of the conventions, though it is counted wrong. -/
theorem FmtItem.numeral_made {f : FmtField} {kind : FmtNumeral} {v : UInt32}
    (hwidth : f.width < 2 ^ 16 - 1) (hfits : (kind.value v).natAbs < kind.base ^ 16)
    (hsign : f.flag = .zero → kind.value v < 0 → f.width ≤ (kind.made v).length) :
    (FmtItem.numeral f kind v).made = (FmtItem.numeral f kind v).text := by
  have hlen : (kind.made v).length < 2 ^ 16 - 1 := by
    have hdigits := length_fmtDigits_le kind.base.toUInt32 (kind = .x) 16
      (kind.value v).natAbs.toUInt32
    rw [FmtNumeral.made, List.length_reverse, List.length_append]
    split_ifs <;> simp only [List.length_cons, List.length_nil] <;> omega
  obtain ⟨hfront, hbehind⟩ := FmtField.padding_of_lt hwidth hlen
  rw [FmtItem.made, FmtItem.text, FmtField.made, hfront, hbehind, FmtField.padNumeral,
    ← kind.made_eq_text v hfits]
  cases hflag : f.flag with
  | plain => simp [FmtField.pad, FmtField.fill, hflag]
  | left => simp [FmtField.pad, hflag]
  | zero =>
      by_cases hneg : kind.value v < 0
      · rw [Nat.sub_eq_zero_of_le (hsign hflag hneg)]
        simp [kind.made_eq_text v hfits, hneg]
      · simp [kind.made_eq_text v hfits, hneg, FmtField.fill, hflag]

end Numerals

end Ampm

import Mathlib.Data.List.Basic

/-!
# Byte stuffing

Framed serial protocols keep a few reserved symbols out of the payload: a reserved symbol is sent
as an escape symbol followed by its code, and the receiver decodes the symbol after an escape.

* `Stuffing` — the alphabet: the escape symbol, the reserved symbols, and an involutive code that
  leads out of the reserved ones.
* `stuff`, `unstuff` — the sender's and the receiver's map.
* `length_le_length_stuff` — stuffing does not shorten a payload.
* `reserved_of_mem_stuff` — a stuffed payload holds no reserved symbol except escapes.
* `length_unstuffFrom` — the receiver gets one symbol for each one that is not an escape.
* `unstuff_stuff` — what was sent is what is received.
-/

/-- Which symbols are reserved, and how they are sent. -/
structure Stuffing (α : Type*) where
  esc : α
  reserved : α → Prop
  code : α → α
  code_code : ∀ a, code (code a) = a
  esc_reserved : reserved esc
  code_free : ∀ a, reserved a → ¬ reserved (code a)

namespace Stuffing

variable {α : Type*} (S : Stuffing α)

/-! ## The sender -/

section Sender

variable [DecidablePred S.reserved]

/-- What is sent for one symbol. -/
def stuffOne (a : α) : List α := if S.reserved a then [S.esc, S.code a] else [a]

/-- What is sent for a payload. -/
def stuff (as : List α) : List α := as.flatMap S.stuffOne

@[simp] lemma stuff_nil : S.stuff [] = [] := rfl

@[simp] lemma stuff_cons (a : α) (as : List α) :
    S.stuff (a :: as) = S.stuffOne a ++ S.stuff as := rfl

lemma length_stuffOne_pos (a : α) : 1 ≤ (S.stuffOne a).length := by
  rw [stuffOne]
  split
  · exact Nat.le_succ 1
  · exact Nat.le_refl 1

lemma length_le_length_stuff (as : List α) : as.length ≤ (S.stuff as).length := by
  induction as with
  | nil => exact Nat.le_refl 0
  | cons a as ih =>
      have hone := S.length_stuffOne_pos a
      rw [stuff_cons, List.length_append, List.length_cons]
      omega

/-- The only reserved symbol in a stuffed payload is the escape. -/
lemma reserved_of_mem_stuff {as : List α} {b : α} (hb : b ∈ S.stuff as) (hres : S.reserved b) :
    b = S.esc := by
  obtain ⟨a, -, hmem⟩ := List.mem_flatMap.mp hb
  by_cases ha : S.reserved a
  · rw [stuffOne, if_pos ha] at hmem
    rcases List.mem_pair.mp hmem with rfl | rfl
    · rfl
    · exact absurd hres (S.code_free a ha)
  · rw [stuffOne, if_neg ha, List.mem_singleton] at hmem
    exact absurd (hmem ▸ hres) ha

end Sender

/-! ## The receiver -/

section Receiver

variable [DecidableEq α]

/-- What is received, where `pending` says that the last symbol was an escape. -/
def unstuffFrom : Bool → List α → List α
  | _, [] => []
  | pending, b :: bs =>
      if b = S.esc then unstuffFrom true bs
      else (if pending then S.code b else b) :: unstuffFrom false bs

/-- What is received. -/
def unstuff (bs : List α) : List α := S.unstuffFrom false bs

/-- How many symbols are not escapes. -/
def carriers (bs : List α) : ℕ := (bs.filter (· ≠ S.esc)).length

lemma carriers_cons_esc (bs : List α) : S.carriers (S.esc :: bs) = S.carriers bs := by
  simp [carriers]

lemma carriers_cons_of_ne {b : α} (hb : b ≠ S.esc) (bs : List α) :
    S.carriers (b :: bs) = S.carriers bs + 1 := by
  simp [carriers, hb]

lemma carriers_append (as bs : List α) :
    S.carriers (as ++ bs) = S.carriers as + S.carriers bs := by
  rw [carriers, List.filter_append, List.length_append, carriers, carriers]

/-- One symbol is received for each carrier. -/
lemma length_unstuffFrom (bs : List α) :
    ∀ pending, (S.unstuffFrom pending bs).length = S.carriers bs := by
  induction bs with
  | nil => exact fun _ => rfl
  | cons b bs ih =>
      intro pending
      by_cases hb : b = S.esc
      · rw [unstuffFrom, if_pos hb, ih, hb, carriers_cons_esc]
      · rw [unstuffFrom, if_neg hb, List.length_cons, ih, S.carriers_cons_of_ne hb]

end Receiver

/-! ## Round trip -/

variable [DecidablePred S.reserved] [DecidableEq α]

/-- A stuffed symbol at the front is received as the symbol itself. -/
lemma unstuffFrom_stuffOne_append (a : α) (bs : List α) :
    S.unstuffFrom false (S.stuffOne a ++ bs) = a :: S.unstuffFrom false bs := by
  by_cases ha : S.reserved a
  · have hne : S.code a ≠ S.esc := fun heq => S.code_free a ha (heq ▸ S.esc_reserved)
    simp [stuffOne, ha, unstuffFrom, hne, S.code_code]
  · have hne : a ≠ S.esc := fun heq => ha (heq ▸ S.esc_reserved)
    simp [stuffOne, ha, unstuffFrom, hne]

/-- **Round trip.** -/
theorem unstuff_stuff (as : List α) : S.unstuff (S.stuff as) = as := by
  induction as with
  | nil => rfl
  | cons a as ih =>
      rw [stuff_cons, unstuff, unstuffFrom_stuffOne_append]
      exact congrArg (a :: ·) ih

end Stuffing

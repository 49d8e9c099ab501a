import Mathlib.Data.List.Basic

/-!
# Enough fuel

A loop of unknown length is a function of a fuel, with no result when the fuel runs out.  That the
loop ends means that from some fuel on there is a result, and always the same one.

* `SettlesTo`, `Settles` — enough fuel gives the result; gives a result.
* `SettlesTo.map`, `SettlesTo.bind` — computations that run one after the other.
* `not_settles` — a loop without an end.
-/

namespace Fuel

variable {α β : Type*}

/-- Enough fuel gives `a`. -/
def SettlesTo (f : ℕ → Option α) (a : α) : Prop := ∃ bound, ∀ fuel ≥ bound, f fuel = some a

/-- Enough fuel gives a result. -/
def Settles (f : ℕ → Option α) : Prop := ∃ a, SettlesTo f a

lemma SettlesTo.settles {f : ℕ → Option α} {a : α} (h : SettlesTo f a) : Settles f := ⟨a, h⟩

/-- No loop. -/
lemma settlesTo_some (a : α) : SettlesTo (fun _ => some a) a := ⟨0, fun _ _ => rfl⟩

lemma SettlesTo.map {f : ℕ → Option α} {a : α} (h : SettlesTo f a) (g : α → β) :
    SettlesTo (fun fuel => (f fuel).map g) (g a) := by
  obtain ⟨bound, hbound⟩ := h
  refine ⟨bound, fun fuel hfuel => ?_⟩
  show (f fuel).map g = some (g a)
  rw [hbound fuel hfuel, Option.map_some]

lemma Settles.map {f : ℕ → Option α} (h : Settles f) (g : α → β) :
    Settles fun fuel => (f fuel).map g := by
  obtain ⟨a, ha⟩ := h
  exact (ha.map g).settles

/-- One after the other. -/
lemma SettlesTo.bind {f : ℕ → Option α} {a : α} {g : ℕ → α → Option β} {b : β}
    (h : SettlesTo f a) (h' : SettlesTo (fun fuel => g fuel a) b) :
    SettlesTo (fun fuel => (f fuel).bind (g fuel)) b := by
  obtain ⟨bound, hbound⟩ := h
  obtain ⟨bound', hbound'⟩ := h'
  refine ⟨max bound bound', fun fuel hfuel => ?_⟩
  show (f fuel).bind (g fuel) = some b
  rw [hbound fuel (Nat.le_trans (Nat.le_max_left _ _) hfuel), Option.bind_some]
  exact hbound' fuel (Nat.le_trans (Nat.le_max_right _ _) hfuel)

/-- A loop without an end. -/
lemma not_settles {f : ℕ → Option α} (h : ∀ fuel, f fuel = none) : ¬ Settles f := by
  rintro ⟨a, bound, hbound⟩
  exact absurd ((h bound).symm.trans (hbound bound (Nat.le_refl _))) nofun

end Fuel

import Mathlib.Data.List.Basic

/-!
# Traces

A system keeps a trace of what it does, and only adds to it.  What an operation does is what it adds,
and an operation that is made of others stays within a set of actions exactly if each of them does.

* `Extends` — the trace goes on.
* `AddsOnly` — it goes on with actions of a set.
* `addsOnly_trans_iff` — two operations one after the other.
* `addsOnly_foldl` — a loop.
-/

namespace Traces

variable {σ α : Type*} {trace : σ → List α} {P : α → Prop} {s s' s'' : σ} {as : List α}

/-- The trace of the second state goes on where that of the first ends. -/
def Extends (trace : σ → List α) (s s' : σ) : Prop := ∃ as, trace s' = trace s ++ as

/-- All that is added satisfies `P`. -/
def AddsOnly (trace : σ → List α) (P : α → Prop) (s s' : σ) : Prop :=
  ∃ as, trace s' = trace s ++ as ∧ ∀ a ∈ as, P a

lemma AddsOnly.extends (h : AddsOnly trace P s s') : Extends trace s s' := by
  obtain ⟨as, heq, -⟩ := h
  exact ⟨as, heq⟩

lemma addsOnly_iff (h : trace s' = trace s ++ as) : AddsOnly trace P s s' ↔ ∀ a ∈ as, P a := by
  constructor
  · rintro ⟨bs, heq, hbs⟩
    rwa [List.append_cancel_left (h.symm.trans heq)]
  · exact fun has => ⟨as, h, has⟩

/-- Only the traces matter. -/
lemma addsOnly_congr {t t' : σ} (h : trace s = trace t) (h' : trace s' = trace t') :
    AddsOnly trace P s s' ↔ AddsOnly trace P t t' := by
  rw [AddsOnly, AddsOnly, h, h']

lemma extends_congr {t t' : σ} (h : trace s = trace t) (h' : trace s' = trace t') :
    Extends trace s s' ↔ Extends trace t t' := by
  rw [Extends, Extends, h, h']

lemma addsOnly_of_eq (h : trace s' = trace s) : AddsOnly trace P s s' :=
  (addsOnly_iff (h.trans (List.append_nil _).symm)).mpr fun _ ha => absurd ha List.not_mem_nil

lemma addsOnly_refl (s : σ) : AddsOnly trace P s s := addsOnly_of_eq rfl

lemma extends_refl (s : σ) : Extends trace s s := ⟨[], (List.append_nil _).symm⟩

lemma Extends.trans (h : Extends trace s s') (h' : Extends trace s' s'') :
    Extends trace s s'' := by
  obtain ⟨as, heq⟩ := h
  obtain ⟨bs, heq'⟩ := h'
  exact ⟨as ++ bs, by rw [heq', heq, List.append_assoc]⟩

/-- Two operations one after the other. -/
theorem addsOnly_trans_iff (h : Extends trace s s') (h' : Extends trace s' s'') :
    AddsOnly trace P s s'' ↔ AddsOnly trace P s s' ∧ AddsOnly trace P s' s'' := by
  obtain ⟨as, heq⟩ := h
  obtain ⟨bs, heq'⟩ := h'
  have hboth : trace s'' = trace s ++ (as ++ bs) := by rw [heq', heq, List.append_assoc]
  rw [addsOnly_iff heq, addsOnly_iff heq', addsOnly_iff hboth]
  exact List.forall_mem_append

lemma AddsOnly.trans (h : AddsOnly trace P s s') (h' : AddsOnly trace P s' s'') :
    AddsOnly trace P s s'' :=
  (addsOnly_trans_iff h.extends h'.extends).mpr ⟨h, h'⟩

/-- A loop each round of which adds only such actions. -/
theorem addsOnly_foldl {ι : Type*} {body : σ → ι → σ} :
    ∀ (is : List ι) {s : σ}, (∀ i ∈ is, ∀ t, AddsOnly trace P t (body t i)) →
      AddsOnly trace P s (is.foldl body s)
  | [], s, _ => addsOnly_refl s
  | i :: is, s, h => (h i List.mem_cons_self s).trans
      (addsOnly_foldl is fun j hj => h j (List.mem_cons_of_mem _ hj))

end Traces

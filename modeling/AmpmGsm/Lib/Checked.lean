import AmpmGsm.Lib.Runs

/-!
# Steps with checked accesses

A program whose arrays have a size is a function with a result in `Option`: there is none when an
index is out of range.  Behind such a step stands a log of what happened on the way.

* `store?` — a cell is written, if the array has it.
* `runLog` — the inputs one by one, with everything that was logged.
* `Refines` — every step has a result, logs what may be logged and does what the other one does.
* `runLog_refines` — then so does every run.
-/

namespace Checked

/-! ## Arrays -/

/-- The array with one cell written. -/
def store? {α : Type*} {n : ℕ} (cells : Vector α n) (i : ℕ) (x : α) : Option (Vector α n) :=
  if h : i < n then some (cells.set i x h) else none

lemma store?_of_lt {α : Type*} {n i : ℕ} (cells : Vector α n) (h : i < n) (x : α) :
    store? cells i x = some (cells.set i x h) := dif_pos h

/-! ## Runs -/

variable {σ ι ω τ : Type*}

/-- The log of a run and the state behind it. -/
def runLog (step : σ → ι → Option (List ω × σ)) : σ → List ι → Option (List ω × σ)
  | s, [] => some ([], s)
  | s, i :: is =>
      (step s i).bind fun r => (runLog step r.2 is).map fun q => (r.1 ++ q.1, q.2)

/-- From related states every step succeeds, logs only what meets `L`, and ends in the state that
is related to the one of the other system. -/
def Refines (step : σ → ι → Option (List ω × σ)) (spec : τ → ι → τ) (L : ω → Prop)
    (R : σ → τ → Prop) : Prop :=
  ∀ s t, R s t → ∀ i, ∃ log s', step s i = some (log, s') ∧ (∀ e ∈ log, L e) ∧ R s' (spec t i)

/-- **The rule for runs.**  What every step does, a run does. -/
theorem runLog_refines {step : σ → ι → Option (List ω × σ)} {spec : τ → ι → τ} {L : ω → Prop}
    {R : σ → τ → Prop} (h : Refines step spec L R) :
    ∀ {s : σ} {t : τ} (is : List ι), R s t →
      ∃ log s', runLog step s is = some (log, s') ∧ (∀ e ∈ log, L e) ∧ R s' (Runs.run spec t is)
  | s, _, [], hR => ⟨[], s, rfl, nofun, hR⟩
  | s, t, i :: is, hR => by
      obtain ⟨log, s', hstep, hlog, hR'⟩ := h s t hR i
      obtain ⟨logs, s'', hrun, hlogs, hR''⟩ := runLog_refines h is hR'
      refine ⟨log ++ logs, s'', ?_, ?_, hR''⟩
      · rw [runLog, hstep, Option.bind_some, hrun, Option.map_some]
      · intro e he
        rcases List.mem_append.mp he with he | he
        · exact hlog e he
        · exact hlogs e he

end Checked

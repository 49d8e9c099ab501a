import Mathlib.Data.List.Basic

/-!
# Runs of a deterministic step function

A system that reacts to inputs is a step function `σ → ι → σ`; a run is a list of inputs folded
through it.  Everything a development says about "every state of every run" is one of three
shapes, and this file proves the induction behind each of them once.

* `run` — the state after a list of inputs.
* `Throughout P` — every state the run passes through, first and last included, satisfies `P`.
* `StepsMeet C` — every step is taken from a state and with an input that satisfy `C`.
* `throughout_of_stepsMeet` — the invariant rule: what one `C`-step preserves, a `C`-run preserves.
* `stepsMeet_of_invariant`, `stepsMeet_iff_of_invariant` — what the invariant gives at each step.
* `stepsMeet_iff_of_throughout` — what is known of every state gives the same.
* `throughout_iff_stepsMeet`, `throughout_iff_stepsMeet_of` — the exact form: if a step that breaks
  `C` also breaks `P`, the runs on which `P` holds throughout are precisely those whose steps all
  meet `C`.
* `Along`, `Along.append` — every state is related to the first one.
* `outputs`, `Simulation.outputs_eq` — step functions with a visible answer, and the rule that a
  simulation makes two of them indistinguishable.
-/

namespace Runs

variable {σ ι : Type*}

/-! ## States of a run -/

/-- The state after feeding the inputs one by one. -/
def run (step : σ → ι → σ) (s : σ) (is : List ι) : σ := is.foldl step s

@[simp] lemma run_nil (step : σ → ι → σ) (s : σ) : run step s [] = s := rfl

@[simp] lemma run_cons (step : σ → ι → σ) (s : σ) (i : ι) (is : List ι) :
    run step s (i :: is) = run step (step s i) is := rfl

lemma run_append (step : σ → ι → σ) (s : σ) (is js : List ι) :
    run step s (is ++ js) = run step (run step s is) js := List.foldl_append

/-- Every state of the run satisfies `P`. -/
def Throughout (step : σ → ι → σ) (P : σ → Prop) : σ → List ι → Prop
  | s, [] => P s
  | s, i :: is => P s ∧ Throughout step P (step s i) is

/-- Every step of the run is taken under `C`. -/
def StepsMeet (step : σ → ι → σ) (C : σ → ι → Prop) : σ → List ι → Prop
  | _, [] => True
  | s, i :: is => C s i ∧ StepsMeet step C (step s i) is

instance decidableThroughout (step : σ → ι → σ) (P : σ → Prop) [DecidablePred P] :
    ∀ (s : σ) (is : List ι), Decidable (Throughout step P s is)
  | s, [] => inferInstanceAs (Decidable (P s))
  | s, i :: is =>
      have := decidableThroughout step P (step s i) is
      inferInstanceAs (Decidable (P s ∧ Throughout step P (step s i) is))

instance decidableStepsMeet (step : σ → ι → σ) (C : σ → ι → Prop) [∀ s i, Decidable (C s i)] :
    ∀ (s : σ) (is : List ι), Decidable (StepsMeet step C s is)
  | _, [] => inferInstanceAs (Decidable True)
  | s, i :: is =>
      have := decidableStepsMeet step C (step s i) is
      inferInstanceAs (Decidable (C s i ∧ StepsMeet step C (step s i) is))

/-- `Throughout` is a statement about every prefix of the inputs. -/
theorem throughout_iff_starts (step : σ → ι → σ) (P : σ → Prop) :
    ∀ (s : σ) (is : List ι), Throughout step P s is ↔ ∀ js, js <+: is → P (run step s js)
  | s, [] => by
      simp [Throughout]
  | s, i :: is => by
      rw [Throughout, throughout_iff_starts step P (step s i) is]
      constructor
      · rintro ⟨hs, hrest⟩ js hjs
        rcases List.prefix_cons_iff.mp hjs with rfl | ⟨ks, rfl, hks⟩
        · exact hs
        · exact hrest ks hks
      · intro h
        refine ⟨h [] List.nil_prefix, fun js hjs => ?_⟩
        exact h (i :: js) (List.cons_prefix_cons.mpr ⟨rfl, hjs⟩)

lemma Throughout.last {step : σ → ι → σ} {P : σ → Prop} {s : σ} {is : List ι}
    (h : Throughout step P s is) : P (run step s is) :=
  (throughout_iff_starts step P s is).mp h is (List.prefix_refl is)

lemma Throughout.mono {step : σ → ι → σ} {P Q : σ → Prop} (hPQ : ∀ s, P s → Q s) :
    ∀ {s : σ} {is : List ι}, Throughout step P s is → Throughout step Q s is
  | _, [], h => hPQ _ h
  | _, _ :: _, h => ⟨hPQ _ h.1, h.2.mono hPQ⟩

/-- A run in two parts. -/
lemma throughout_append {step : σ → ι → σ} {P : σ → Prop} :
    ∀ {s : σ} {is js : List ι}, Throughout step P s is → Throughout step P (run step s is) js →
      Throughout step P s (is ++ js)
  | _, [], _, _, hjs => hjs
  | _, _ :: _, _, his, hjs => ⟨his.1, throughout_append his.2 hjs⟩

lemma stepsMeet_append {step : σ → ι → σ} {C : σ → ι → Prop} :
    ∀ {s : σ} {is js : List ι}, StepsMeet step C s (is ++ js) ↔
      StepsMeet step C s is ∧ StepsMeet step C (run step s is) js
  | _, [], _ => by simp [StepsMeet]
  | s, i :: is, js => by
      rw [List.cons_append, StepsMeet, StepsMeet, run_cons,
        stepsMeet_append (s := step s i), and_assoc]

lemma StepsMeet.mono {step : σ → ι → σ} {C D : σ → ι → Prop} (hCD : ∀ s i, C s i → D s i) :
    ∀ {s : σ} {is : List ι}, StepsMeet step C s is → StepsMeet step D s is
  | _, [], _ => trivial
  | s, i :: _, h => ⟨hCD s i h.1, h.2.mono hCD⟩

lemma stepsMeet_of_mem {step : σ → ι → σ} {C : σ → ι → Prop} :
    ∀ {s : σ} {is : List ι}, (∀ i ∈ is, ∀ s, C s i) → StepsMeet step C s is
  | _, [], _ => trivial
  | s, i :: _, h =>
      ⟨h i List.mem_cons_self s, stepsMeet_of_mem fun j hj => h j (List.mem_cons_of_mem _ hj)⟩

/-! ## The invariant rules -/

/-- What every step under `C` preserves holds throughout a run of steps under `C`. -/
theorem throughout_of_stepsMeet {step : σ → ι → σ} {C : σ → ι → Prop} {I : σ → Prop}
    (hstep : ∀ s i, I s → C s i → I (step s i)) :
    ∀ {s : σ} {is : List ι}, I s → StepsMeet step C s is → Throughout step I s is
  | _, [], hs, _ => hs
  | s, i :: _, hs, hC => ⟨hs, throughout_of_stepsMeet hstep (hstep s i hs hC.1) hC.2⟩

/-- What an invariant gives at a step under `C` holds at every step of a run of them. -/
theorem stepsMeet_of_invariant {step : σ → ι → σ} {C D : σ → ι → Prop} {I : σ → Prop}
    (hstep : ∀ s i, I s → C s i → I (step s i)) (hD : ∀ s i, I s → C s i → D s i) :
    ∀ {s : σ} {is : List ι}, I s → StepsMeet step C s is → StepsMeet step D s is
  | _, [], _, _ => trivial
  | s, i :: _, hs, hC =>
      ⟨hD s i hs hC.1, stepsMeet_of_invariant hstep hD (hstep s i hs hC.1) hC.2⟩

/-- Two conditions that agree under an invariant, which they keep, are met by the same runs. -/
theorem stepsMeet_iff_of_invariant {step : σ → ι → σ} {C D : σ → ι → Prop} {I : σ → Prop}
    (hiff : ∀ s i, I s → (C s i ↔ D s i)) (hstep : ∀ s i, I s → D s i → I (step s i)) {s : σ}
    {is : List ι} (hs : I s) : StepsMeet step C s is ↔ StepsMeet step D s is :=
  ⟨stepsMeet_of_invariant (fun s i hI hC => hstep s i hI ((hiff s i hI).mp hC))
      (fun s i hI => (hiff s i hI).mp) hs,
    stepsMeet_of_invariant hstep (fun s i hI => (hiff s i hI).mpr) hs⟩

/-- Two conditions that agree in every state of a run are met by it alike. -/
theorem stepsMeet_iff_of_throughout {step : σ → ι → σ} {C D : σ → ι → Prop} {P : σ → Prop}
    (hiff : ∀ s i, P s → (C s i ↔ D s i)) :
    ∀ {s : σ} {is : List ι}, Throughout step P s is →
      (StepsMeet step C s is ↔ StepsMeet step D s is)
  | _, [], _ => Iff.rfl
  | s, i :: _, hP => and_congr (hiff s i hP.1) (stepsMeet_iff_of_throughout hiff hP.2)

/-- The unconditional form: an invariant of every step is an invariant of every run. -/
theorem run_invariant {step : σ → ι → σ} {I : σ → Prop}
    (hstep : ∀ s i, I s → I (step s i)) :
    ∀ {s : σ} (is : List ι), I s → I (run step s is)
  | _, [], hs => hs
  | s, i :: is, hs => run_invariant hstep is (hstep s i hs)

/-- An invariant that a step keeps as long as it ends in `P` holds after a run inside `P`. -/
theorem run_invariant_within {step : σ → ι → σ} {P I : σ → Prop}
    (hstep : ∀ s i, I s → P (step s i) → I (step s i)) :
    ∀ {s : σ} {is : List ι}, I s → Throughout step P s is → I (run step s is)
  | _, [], hs, _ => hs
  | s, i :: is, hs, hP => by
      have hfirst : P (step s i) :=
        (throughout_iff_starts step P (step s i) is).mp hP.2 [] List.nil_prefix
      show I (run step (step s i) is)
      exact run_invariant_within hstep (hstep s i hs hfirst) hP.2

/-- The exact form, for runs whose steps all meet a further condition `D`.  `P` may be weaker than
the invariant `I` that carries it, as long as the invariant implies it and a step outside `C` from
an invariant state destroys it. -/
theorem throughout_iff_stepsMeet_of {step : σ → ι → σ} {C D : σ → ι → Prop} {I P : σ → Prop}
    (hP : ∀ s, I s → P s)
    (hstep : ∀ s i, I s → D s i → C s i → I (step s i))
    (hbreak : ∀ s i, I s → ¬ C s i → ¬ P (step s i)) :
    ∀ {s : σ} {is : List ι}, I s → StepsMeet step D s is →
      (Throughout step P s is ↔ StepsMeet step C s is)
  | s, [], hs, _ => by
      simp [Throughout, StepsMeet, hP s hs]
  | s, i :: is, hs, hD => by
      by_cases hC : C s i
      · have ih : Throughout step P (step s i) is ↔ StepsMeet step C (step s i) is :=
          throughout_iff_stepsMeet_of hP hstep hbreak (hstep s i hs hD.1 hC) hD.2
        rw [Throughout, StepsMeet, ih]
        exact ⟨fun h => ⟨hC, h.2⟩, fun h => ⟨hP s hs, h.2⟩⟩
      · have hnot : ¬ Throughout step P (step s i) is := by
          intro h
          have hfirst : P (step s i) :=
            (throughout_iff_starts step P (step s i) is).mp h [] List.nil_prefix
          exact hbreak s i hs hC hfirst
        rw [Throughout, StepsMeet]
        exact ⟨fun h => absurd h.2 hnot, fun h => absurd h.1 hC⟩

/-- The exact form for every run. -/
theorem throughout_iff_stepsMeet {step : σ → ι → σ} {C : σ → ι → Prop} {I P : σ → Prop}
    (hP : ∀ s, I s → P s)
    (hstep : ∀ s i, I s → C s i → I (step s i))
    (hbreak : ∀ s i, I s → ¬ C s i → ¬ P (step s i)) {s : σ} {is : List ι} (hs : I s) :
    Throughout step P s is ↔ StepsMeet step C s is :=
  throughout_iff_stepsMeet_of (D := fun _ _ => True) hP (fun s i h _ hC => hstep s i h hC) hbreak
    hs (stepsMeet_of_mem fun _ _ _ => trivial)

/-! ## Runs under a relation -/

/-- Every state of the run, the first one included, is related to the state that it starts from. -/
def Along (step : σ → ι → σ) (R : σ → σ → Prop) (s : σ) (is : List ι) : Prop :=
  Throughout step (R s) s is

lemma along_nil {step : σ → ι → σ} {R : σ → σ → Prop} {s : σ} (h : R s s) : Along step R s [] := h

lemma Along.last {step : σ → ι → σ} {R : σ → σ → Prop} {s : σ} {is : List ι}
    (h : Along step R s is) : R s (run step s is) := Throughout.last h

/-- The state after some of the inputs. -/
lemma Along.take {step : σ → ι → σ} {R : σ → σ → Prop} {s : σ} {is : List ι}
    (h : Along step R s is) (k : ℕ) : R s (run step s (is.take k)) :=
  (throughout_iff_starts step (R s) s is).mp h _ (List.take_prefix k is)

/-- A run in two parts, each of which is along a transitive relation. -/
lemma Along.append {step : σ → ι → σ} {R : σ → σ → Prop} {s : σ} {is js : List ι}
    (htrans : ∀ {s t u}, R s t → R t u → R s u) (his : Along step R s is)
    (hjs : Along step R (run step s is) js) : Along step R s (is ++ js) :=
  throughout_append his (hjs.mono fun _ => htrans his.last)

/-! ## Systems with answers -/

variable {τ ο : Type*}

/-- The answers a system gives to a list of inputs. -/
def outputs (step : σ → ι → σ × ο) : σ → List ι → List ο
  | _, [] => []
  | s, i :: is => (step s i).2 :: outputs step (step s i).1 is

lemma outputs_append (step : σ → ι → σ × ο) :
    ∀ (s : σ) (is js : List ι), outputs step s (is ++ js) =
      outputs step s is ++ outputs step (run (fun s i => (step s i).1) s is) js
  | _, [], _ => rfl
  | s, i :: is, js => by
      rw [List.cons_append, outputs, outputs, run_cons, List.cons_append,
        outputs_append step (step s i).1 is js]

/-- `R` is a simulation: related states answer every input alike and stay related. -/
structure Simulation (impl : σ → ι → σ × ο) (spec : τ → ι → τ × ο) (R : σ → τ → Prop) : Prop where
  answer : ∀ {s t}, R s t → ∀ i, (impl s i).2 = (spec t i).2
  next : ∀ {s t}, R s t → ∀ i, R (impl s i).1 (spec t i).1

/-- Related states give the same answers for ever. -/
theorem Simulation.outputs_eq {impl : σ → ι → σ × ο} {spec : τ → ι → τ × ο} {R : σ → τ → Prop}
    (sim : Simulation impl spec R) :
    ∀ {s : σ} {t : τ} (is : List ι), R s t → outputs impl s is = outputs spec t is
  | _, _, [], _ => rfl
  | s, t, i :: is, h => by
      rw [outputs, outputs, sim.answer h i, sim.outputs_eq is (sim.next h i)]

/-- Related states are still related after any run. -/
theorem Simulation.run_related {impl : σ → ι → σ × ο} {spec : τ → ι → τ × ο} {R : σ → τ → Prop}
    (sim : Simulation impl spec R) :
    ∀ {s : σ} {t : τ} (is : List ι), R s t →
      R (run (fun s i => (impl s i).1) s is) (run (fun t i => (spec t i).1) t is)
  | _, _, [], h => h
  | _, _, i :: is, h => sim.run_related is (sim.next h i)

end Runs

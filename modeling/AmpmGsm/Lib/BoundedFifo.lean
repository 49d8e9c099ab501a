import AmpmGsm.Lib.Runs

/-!
# Bounded first-in first-out queues

The abstract component behind every ring buffer: a list of at most `cap` elements, where `put`
appends if there is room and `get` removes the oldest element.  The bound is a field, so a queue
that is too long cannot be built.

* `BoundedFifo.step` — the queue as a system that answers `Op`s.
* `BoundedFifo.accepted_eq_got_append` — conservation: over any run, what was accepted is what was
  handed out, in order, followed by what is still queued.
-/

/-- A queue of at most `cap` elements, oldest first. -/
@[ext] structure BoundedFifo (α : Type*) where
  cap : ℕ
  items : List α
  fits : items.length ≤ cap

namespace BoundedFifo

variable {α : Type*}

/-- The empty queue of a given capacity. -/
def empty (cap : ℕ) : BoundedFifo α := ⟨cap, [], Nat.zero_le cap⟩

/-- Append if there is room. -/
def put (q : BoundedFifo α) (a : α) : Option (BoundedFifo α) :=
  if h : q.items.length < q.cap then
    some ⟨q.cap, q.items ++ [a], by rw [List.length_append]; exact h⟩
  else none

/-- Remove the oldest element if there is one. -/
def get (q : BoundedFifo α) : Option (α × BoundedFifo α) :=
  match h : q.items with
  | [] => none
  | a :: rest => some (a, ⟨q.cap, rest, by
      have hfits := q.fits
      rw [h, List.length_cons] at hfits
      omega⟩)

/-- The calls a client can make. -/
inductive Op (α : Type*)
  | put (a : α)
  | get
  | fill

/-- The answers it gets: whether the element was accepted, the element handed out, the fill. -/
inductive Answer (α : Type*)
  | put (accepted : Bool)
  | get (handed : Option α)
  | fill (n : ℕ)
  deriving DecidableEq

/-- The queue as a system with answers. -/
def step (q : BoundedFifo α) : Op α → BoundedFifo α × Answer α
  | .put a => match q.put a with
      | some q' => (q', .put true)
      | none => (q, .put false)
  | .get => match q.get with
      | some (a, q') => (q', .get (some a))
      | none => (q, .get none)
  | .fill => (q, .fill q.items.length)

lemma put_of_lt {q : BoundedFifo α} (h : q.items.length < q.cap) (a : α) :
    ∃ q', q.put a = some q' ∧ q'.cap = q.cap ∧ q'.items = q.items ++ [a] :=
  ⟨_, dif_pos h, rfl, rfl⟩

lemma put_of_not_lt {q : BoundedFifo α} (h : ¬ q.items.length < q.cap) (a : α) :
    q.put a = none := dif_neg h

lemma get_of_nil {q : BoundedFifo α} (h : q.items = []) : q.get = none := by
  obtain ⟨cap, items, fits⟩ := q
  subst h
  rfl

lemma get_of_cons {q : BoundedFifo α} {a : α} {rest : List α} (h : q.items = a :: rest) :
    ∃ q', q.get = some (a, q') ∧ q'.cap = q.cap ∧ q'.items = rest := by
  obtain ⟨cap, items, fits⟩ := q
  subst h
  exact ⟨_, rfl, rfl, rfl⟩

lemma step_put_of_lt {q : BoundedFifo α} (h : q.items.length < q.cap) (a : α) :
    ∃ q', q.step (.put a) = (q', .put true) ∧ q'.cap = q.cap ∧ q'.items = q.items ++ [a] := by
  obtain ⟨q', hput, hcap, hitems⟩ := put_of_lt h a
  exact ⟨q', by simp only [step, hput], hcap, hitems⟩

lemma step_put_of_not_lt {q : BoundedFifo α} (h : ¬ q.items.length < q.cap) (a : α) :
    q.step (.put a) = (q, .put false) := by
  simp only [step, put_of_not_lt h]

lemma step_get_of_nil {q : BoundedFifo α} (h : q.items = []) :
    q.step .get = (q, .get none) := by
  simp only [step, get_of_nil h]

lemma step_get_of_cons {q : BoundedFifo α} {a : α} {rest : List α} (h : q.items = a :: rest) :
    ∃ q', q.step .get = (q', .get (some a)) ∧ q'.cap = q.cap ∧ q'.items = rest := by
  obtain ⟨q', hget, hcap, hitems⟩ := get_of_cons h
  exact ⟨q', by simp only [step, hget], hcap, hitems⟩

lemma step_fill (q : BoundedFifo α) : q.step .fill = (q, .fill q.items.length) := rfl

/-! ## Conservation -/

/-- The elements a run of calls got accepted. -/
def accepted : List (Op α) → List (Answer α) → List α
  | .put a :: ops, .put true :: ans => a :: accepted ops ans
  | _ :: ops, _ :: ans => accepted ops ans
  | _, _ => []

/-- The elements a run of calls was handed. -/
def got : List (Answer α) → List α
  | .get (some a) :: ans => a :: got ans
  | _ :: ans => got ans
  | [] => []

/-- **Conservation.**  What was queued at the start followed by what was accepted is what was
handed out, in order, followed by what is queued at the end. -/
theorem accepted_eq_got_append :
    ∀ (q : BoundedFifo α) (ops : List (Op α)),
      q.items ++ accepted ops (Runs.outputs step q ops)
        = got (Runs.outputs step q ops) ++ (Runs.run (fun q op => (step q op).1) q ops).items
  | q, [] => by simp [Runs.outputs, accepted, got]
  | q, .put a :: ops => by
      by_cases h : q.items.length < q.cap
      · obtain ⟨q', hstep, -, hitems⟩ := step_put_of_lt h a
        have ih := accepted_eq_got_append q' ops
        simp only [Runs.outputs, Runs.run_cons, hstep, accepted, got]
        rw [← ih, hitems, List.append_assoc, List.singleton_append]
      · have ih := accepted_eq_got_append q ops
        simp only [Runs.outputs, Runs.run_cons, step_put_of_not_lt h, accepted, got]
        exact ih
  | q, .get :: ops => by
      cases hq : q.items with
      | nil =>
          have ih := accepted_eq_got_append q ops
          simp only [Runs.outputs, Runs.run_cons, step_get_of_nil hq, accepted, got]
          rw [← hq]
          exact ih
      | cons a rest =>
          obtain ⟨q', hstep, -, hitems⟩ := step_get_of_cons hq
          have ih := accepted_eq_got_append q' ops
          simp only [Runs.outputs, Runs.run_cons, hstep, accepted, got]
          rw [List.cons_append, List.cons_append, ← ih, hitems]
  | q, .fill :: ops => by
      have ih := accepted_eq_got_append q ops
      simp only [Runs.outputs, Runs.run_cons, step_fill, accepted, got]
      exact ih

end BoundedFifo

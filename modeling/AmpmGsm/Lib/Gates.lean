import Mathlib.Data.List.Basic

/-!
# Gates over a log

Many safety laws read "this happens only after that, and nothing undid it in between".  A log is
a list of events, newest first; a gate is opened by some events and shut by others, and a law
puts an event behind a gate.

* `Gate`, `Gate.isOpen` — a gate, and whether a log leaves it open.
* `obeys` — every event of a log that is behind a gate happened while the gate was open.
* `Gate.isOpen_filter`, `obeys_filter` — a part of the log is enough.
-/

namespace Gates

variable {E : Type*}

/-- The events that open a gate and the events that shut it. -/
structure Gate (E : Type*) where
  opens : E → Bool
  shuts : E → Bool

/-- The latest event that opens or shuts the gate opens it. -/
def Gate.isOpen (g : Gate E) : List E → Bool
  | [] => false
  | e :: log => g.opens e || (!g.shuts e && g.isOpen log)

/-- The gate takes no notice of the event. -/
def Gate.ignores (g : Gate E) (e : E) : Prop := g.opens e = false ∧ g.shuts e = false

lemma Gate.isOpen_cons_of_opens {g : Gate E} {e : E} (he : g.opens e = true) (log : List E) :
    g.isOpen (e :: log) = true := by
  simp [Gate.isOpen, he]

lemma Gate.isOpen_cons_of_ignores {g : Gate E} {e : E} (he : g.ignores e) (log : List E) :
    g.isOpen (e :: log) = g.isOpen log := by
  simp [Gate.isOpen, he.1, he.2]

lemma Gate.isOpen_append_of_ignores {g : Gate E} {es : List E} (hes : ∀ e ∈ es, g.ignores e)
    (log : List E) : g.isOpen (es ++ log) = g.isOpen log := by
  induction es with
  | nil => rfl
  | cons e es ih =>
      rw [List.cons_append, Gate.isOpen_cons_of_ignores (hes e (List.mem_cons_self ..)),
        ih fun x hx => hes x (List.mem_cons_of_mem _ hx)]

/-- The events that a gate takes no notice of may be left out. -/
lemma Gate.isOpen_filter {g : Gate E} {p : E → Bool} (hp : ∀ e, p e = false → g.ignores e)
    (log : List E) : g.isOpen (log.filter p) = g.isOpen log := by
  induction log with
  | nil => rfl
  | cons e log ih =>
      cases he : p e with
      | false => rw [List.filter_cons_of_neg (by rw [he]; exact Bool.false_ne_true), ih,
          Gate.isOpen_cons_of_ignores (hp e he)]
      | true => rw [List.filter_cons_of_pos he, Gate.isOpen, ih, Gate.isOpen]

/-- Every event that `gate` puts behind a gate happened while that gate was open. -/
def obeys (gate : E → Option (Gate E)) : List E → Bool
  | [] => true
  | e :: log =>
      (match gate e with
        | some g => g.isOpen log
        | none => true) && obeys gate log

lemma obeys_cons_of_none {gate : E → Option (Gate E)} {e : E} (he : gate e = none)
    (log : List E) : obeys gate (e :: log) = obeys gate log := by
  simp [obeys, he]

lemma obeys_cons_of_some {gate : E → Option (Gate E)} {e : E} {g : Gate E}
    (he : gate e = some g) (log : List E) :
    obeys gate (e :: log) = (g.isOpen log && obeys gate log) := by
  simp [obeys, he]

lemma obeys_append_of_none {gate : E → Option (Gate E)} {es : List E}
    (hes : ∀ e ∈ es, gate e = none) (log : List E) :
    obeys gate (es ++ log) = obeys gate log := by
  induction es with
  | nil => rfl
  | cons e es ih =>
      rw [List.cons_append, obeys_cons_of_none (hes e (List.mem_cons_self ..)),
        ih fun x hx => hes x (List.mem_cons_of_mem _ hx)]

/-- The events that are behind no gate and that no gate takes notice of may be left out. -/
lemma obeys_filter {gate : E → Option (Gate E)} {p : E → Bool}
    (hnone : ∀ e, p e = false → gate e = none)
    (hignores : ∀ e g, gate e = some g → ∀ x, p x = false → g.ignores x) (log : List E) :
    obeys gate (log.filter p) = obeys gate log := by
  induction log with
  | nil => rfl
  | cons e log ih =>
      cases he : p e with
      | false => rw [List.filter_cons_of_neg (by rw [he]; exact Bool.false_ne_true), ih,
          obeys_cons_of_none (hnone e he)]
      | true =>
          rw [List.filter_cons_of_pos he]
          cases hgate : gate e with
          | none => rw [obeys_cons_of_none hgate, obeys_cons_of_none hgate, ih]
          | some g => rw [obeys_cons_of_some hgate, obeys_cons_of_some hgate, ih,
              Gate.isOpen_filter (hignores e g hgate)]

end Gates

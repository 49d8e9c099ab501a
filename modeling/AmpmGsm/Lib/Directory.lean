import Mathlib.Data.List.Basic

/-!
# Directories without a table

A device of numbered places, each of which may have an entry: the place where a file begins, and a
name.  A file is an entry that names its own place; the entries of the other places of the file name
that one.  Nobody keeps a list of the files, so what is there is what the entries say.

* `Begins` — a file with the name begins at the place.
* `NamesUnique` — no name is the name of two files.
* `Rooted` — an entry leads to a file in one step, if to anything.
* `Tidy` — a change after which there are no new files and the entries are still rooted.
* `ChangedAt` — a change of one entry, with the rules for erasing, for another place of a file, and
  for a new file.
-/

namespace Directories

/-- The place where the file begins, and the name. -/
abbrev Directory (α : Type*) := ℕ → Option (ℕ × α)

variable {α : Type*} {d d' d'' : Directory α} {n m : α} {i s t : ℕ}

/-- A file with the name begins at the place. -/
def Begins (d : Directory α) (n : α) (i : ℕ) : Prop := d i = some (i, n)

/-- At most one file has a name. -/
def NamesUnique (d : Directory α) : Prop := ∀ n i j, Begins d n i → Begins d n j → i = j

/-- If there is an entry at the place that an entry names, it names its own place. -/
def Rooted (d : Directory α) : Prop := ∀ i s n, d i = some (s, n) → ∀ e, d s = some e → e.1 = s

/-- No other entry names the place. -/
def Unnamed (d : Directory α) (t : ℕ) : Prop := ∀ i s n, i ≠ t → d i = some (s, n) → s ≠ t

lemma Begins.name_eq (h : Begins d n i) (h' : Begins d m i) : n = m :=
  (Prod.mk.inj (Option.some.inj (h.symm.trans h'))).2

/-- An entry and the one that it leads to. -/
lemma Rooted.begins (h : Rooted d) (hi : d i = some (s, n)) {e : ℕ × α} (hs : d s = some e) :
    Begins d e.2 s := by
  have hroot := h i s n hi e hs
  rw [Begins, hs, ← hroot]

/-! ## Changes that make no files -/

/-- No new files, and the entries are still rooted. -/
structure Tidy (d d' : Directory α) : Prop where
  begins : ∀ n i, Begins d' n i → Begins d n i
  rooted : Rooted d → Rooted d'

lemma Tidy.refl (d : Directory α) : Tidy d d := ⟨fun _ _ => id, id⟩

lemma Tidy.trans (h : Tidy d d') (h' : Tidy d' d'') : Tidy d d'' :=
  ⟨fun n i hi => h.begins n i (h'.begins n i hi), fun hd => h'.rooted (h.rooted hd)⟩

lemma Tidy.namesUnique (h : Tidy d d') (hd : NamesUnique d) : NamesUnique d' :=
  fun n i j hi hj => hd n i j (h.begins n i hi) (h.begins n j hj)

/-! ## One entry -/

/-- The other entries are as they were, and if there is one at the place it is `e`. -/
structure ChangedAt (t : ℕ) (e : ℕ × α) (d d' : Directory α) : Prop where
  other : ∀ i, i ≠ t → d' i = d i
  entry : ∀ e', d' t = some e' → e' = e

/-- An entry that is gone. -/
lemma tidy_of_erased (hother : ∀ i, i ≠ t → d' i = d i) (hnone : d' t = none) : Tidy d d' := by
  have hold : ∀ {i e}, d' i = some e → d i = some e := by
    intro i e hi
    by_cases hit : i = t
    · rw [hit, hnone] at hi
      cases hi
    · rwa [hother i hit] at hi
  exact ⟨fun n i hi => hold hi, fun hd i s n hi e hs => hd i s n (hold hi) e (hold hs)⟩

section ChangedAt

variable (h : ChangedAt t (s, n) d d')

include h

/-- The entry after the change, and where it was before. -/
lemma ChangedAt.cases {e : ℕ × α} (hi : d' i = some e) :
    (i = t ∧ e = (s, n)) ∨ (i ≠ t ∧ d i = some e) := by
  by_cases hit : i = t
  · subst hit
    exact Or.inl ⟨rfl, h.entry e hi⟩
  · exact Or.inr ⟨hit, h.other i hit ▸ hi⟩

/-- Another place of a file: it was not a place that entries name. -/
lemma ChangedAt.tidy (hs : ∀ e, d s = some e → e.1 = s) (hst : s ≠ t) (ht : Unnamed d t) :
    Tidy d d' := by
  constructor
  · intro n' i hi
    rcases h.cases hi with ⟨rfl, heq⟩ | ⟨-, hold⟩
    · exact absurd (Prod.mk.inj heq).1.symm hst
    · exact hold
  · intro hd i r n' hi e hr
    rcases h.cases hi with ⟨rfl, heq⟩ | ⟨hit, hold⟩
    · -- the new entry names the first place of the file
      obtain ⟨rfl, rfl⟩ := Prod.mk.inj heq
      rw [h.other _ hst] at hr
      exact hs e hr
    · have hrt : r ≠ t := ht i r n' hit hold
      rw [h.other r hrt] at hr
      exact hd i r n' hold e hr

end ChangedAt

section NewFile

variable (h : ChangedAt t (t, n) d d')

include h

/-- A new file. -/
lemma ChangedAt.begins_of_new (hm : Begins d' m i) : (i = t ∧ m = n) ∨ Begins d m i := by
  rcases h.cases hm with ⟨hit, heq⟩ | ⟨-, hold⟩
  · exact Or.inl ⟨hit, (Prod.mk.inj heq).2⟩
  · exact Or.inr hold

lemma ChangedAt.rooted_of_new (hd : Rooted d) : Rooted d' := by
  intro i r n' hi e hr
  rcases h.cases hr with ⟨rfl, rfl⟩ | ⟨hrt, holdr⟩
  · rfl
  · rcases h.cases hi with ⟨-, heq⟩ | ⟨-, hold⟩
    · exact absurd (Prod.mk.inj heq).1 hrt
    · exact hd i r n' hold e holdr

/-- The names stay unique if the new one was not in use. -/
lemma ChangedAt.namesUnique_of_new (hd : NamesUnique d) (hnew : ∀ i, ¬ Begins d n i) :
    NamesUnique d' := by
  intro m i j hi hj
  rcases h.begins_of_new hi with ⟨hi', hm⟩ | hi'
  · rcases h.begins_of_new hj with ⟨hj', -⟩ | hj'
    · exact hi'.trans hj'.symm
    · exact absurd (hm ▸ hj') (hnew j)
  · rcases h.begins_of_new hj with ⟨-, hm⟩ | hj'
    · exact absurd (hm ▸ hi') (hnew i)
    · exact hd m i j hi' hj'

end NewFile

end Directories

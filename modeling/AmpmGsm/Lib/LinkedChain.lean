import Mathlib.Data.List.Nodup
import Mathlib.Logic.Function.Basic

/-!
# Linked chains

Items that hold a link to the next item, seen as a map from item to link.  Following the links
passes through a list of items; where the link of an item is changed, the list changes behind it.

* `Segment`, `Chain` — the links lead through the items to a given place; to their end.
* `Chain.unique`, `Chain.nodup` — where a chain begins says what it is, so that it has no item twice.
* `Segment.relink`, `segment_update_of_notMem` — what a changed link does, and what it leaves alone.
* `Chain.push`, `Chain.append`, `Chain.chop`, `Chain.unlink`, `Chain.insertAfter` — the changes that
  leave a chain.
* `not_chain_of_cycle` — links that come back to where they began have no end.
-/

namespace LinkedChain

variable {α : Type*}

/-- The links lead from `p` through the items to `q`. -/
def Segment (next : α → Option α) : Option α → List α → Option α → Prop
  | p, [], q => p = q
  | p, x :: xs, q => p = some x ∧ Segment next (next x) xs q

/-- The links lead from `p` through the items to the end. -/
def Chain (next : α → Option α) (p : Option α) (xs : List α) : Prop := Segment next p xs none

variable {next : α → Option α} {p q m : Option α} {x y : α} {xs ys zs : List α}

@[simp] lemma segment_nil : Segment next p [] q ↔ p = q := Iff.rfl

@[simp] lemma segment_cons :
    Segment next p (x :: xs) q ↔ p = some x ∧ Segment next (next x) xs q := Iff.rfl

@[simp] lemma chain_nil : Chain next p [] ↔ p = none := Iff.rfl

@[simp] lemma chain_cons : Chain next p (x :: xs) ↔ p = some x ∧ Chain next (next x) xs := Iff.rfl

/-- Two segments, one behind the other. -/
lemma segment_append :
    Segment next p (xs ++ ys) q ↔ ∃ m, Segment next p xs m ∧ Segment next m ys q := by
  induction xs generalizing p with
  | nil => simp
  | cons x xs ih => simp [ih, and_assoc]

lemma chain_append :
    Chain next p (xs ++ ys) ↔ ∃ m, Segment next p xs m ∧ Chain next m ys := segment_append

lemma Segment.trans (h : Segment next p xs m) (h' : Segment next m ys q) :
    Segment next p (xs ++ ys) q := segment_append.mpr ⟨m, h, h'⟩

lemma Segment.chain (h : Segment next p xs m) (h' : Chain next m ys) : Chain next p (xs ++ ys) :=
  h.trans h'

/-- A chain begins at its first item. -/
lemma Chain.head_eq (h : Chain next p xs) : p = xs.head? := by
  cases xs with
  | nil => exact h
  | cons x xs => exact h.1

/-- A segment and the chain behind it. -/
lemma Chain.split (h : Chain next p (xs ++ ys)) :
    Segment next p xs ys.head? ∧ Chain next ys.head? ys := by
  obtain ⟨m, hxs, hys⟩ := chain_append.mp h
  have hm : m = ys.head? := hys.head_eq
  subst hm
  exact ⟨hxs, hys⟩

/-- The link of an item of a chain leads to the item behind it. -/
lemma Chain.next_eq (h : Chain next p (xs ++ x :: ys)) : next x = ys.head? :=
  Chain.head_eq h.split.2.2

/-! ## What a chain is -/

/-- Two chains that begin at the same place are the same. -/
lemma Chain.unique (h : Chain next p xs) (h' : Chain next p ys) : xs = ys := by
  induction xs generalizing p ys with
  | nil =>
      cases ys with
      | nil => rfl
      | cons y ys => exact absurd (h.symm.trans h'.1) nofun
  | cons x xs ih =>
      cases ys with
      | nil => exact absurd (h'.symm.trans h.1) nofun
      | cons y ys =>
          have hxy : x = y := Option.some.inj (h.1.symm.trans h'.1)
          subst hxy
          rw [ih h.2 h'.2]

/-- A chain that ends has no item twice. -/
lemma Chain.nodup (h : Chain next p xs) : xs.Nodup := by
  induction xs generalizing p with
  | nil => exact List.nodup_nil
  | cons x xs ih =>
      refine List.nodup_cons.mpr ⟨fun hx => ?_, ih h.2⟩
      -- the chain from the second occurrence on would be the whole one
      obtain ⟨as, bs, rfl⟩ := List.append_of_mem hx
      have hwhole : Chain next (some x) (x :: (as ++ x :: bs)) := ⟨rfl, h.2⟩
      have hrest : Chain next (some x) (x :: bs) := (Chain.split h.2).2
      have hlength := congrArg List.length (hwhole.unique hrest)
      simp at hlength
      omega

/-- No item of a chain is before and behind another one. -/
lemma Chain.notMem_before (h : Chain next p (xs ++ x :: ys)) : x ∉ xs := by
  have hnodup := List.nodup_append.mp h.nodup
  exact fun hx => hnodup.2.2 x hx x (List.mem_cons_self ..) rfl

lemma Chain.notMem_behind (h : Chain next p (xs ++ x :: ys)) : x ∉ ys :=
  (List.nodup_cons.mp h.split.2.nodup).1

/-- What is left of a chain behind a segment from the same place. -/
lemma Segment.rest (h : Segment next p xs q) (h' : Chain next p ys) :
    ∃ zs, ys = xs ++ zs ∧ Chain next q zs := by
  induction xs generalizing p ys with
  | nil =>
      obtain rfl : p = q := h
      exact ⟨ys, rfl, h'⟩
  | cons x xs ih =>
      cases ys with
      | nil => exact absurd (h'.symm.trans h.1) nofun
      | cons y ys =>
          obtain rfl : x = y := Option.some.inj (h.1.symm.trans h'.1)
          obtain ⟨zs, rfl, hzs⟩ := ih h.2 h'.2
          exact ⟨zs, rfl, hzs⟩

/-- Links that come back to where they began have no end. -/
lemma not_chain_of_cycle (h : Segment next (some x) (x :: xs) (some x)) :
    ¬ Chain next (some x) ys := by
  intro hchain
  have hagain : Chain next (some x) (x :: xs ++ ys) := h.chain hchain
  have hlength := congrArg List.length (hagain.unique hchain)
  simp at hlength
  omega

/-! ## Changing a link -/

/-- Only the links of the items on the way matter. -/
lemma Segment.congr {next' : α → Option α} (h : Segment next p xs q)
    (heq : ∀ x ∈ xs, next' x = next x) : Segment next' p xs q := by
  induction xs generalizing p with
  | nil => exact h
  | cons x xs ih =>
      refine ⟨h.1, ?_⟩
      rw [heq x (List.mem_cons_self ..)]
      exact ih h.2 fun y hy => heq y (List.mem_cons_of_mem _ hy)

variable [DecidableEq α]

/-- The link of an item that is not on the way. -/
lemma segment_update_of_notMem (h : y ∉ xs) :
    Segment (Function.update next y m) p xs q ↔ Segment next p xs q := by
  induction xs generalizing p with
  | nil => rfl
  | cons x xs ih =>
      have hxy : x ≠ y := fun hxy => h (hxy ▸ List.mem_cons_self ..)
      have hxs : y ∉ xs := fun hxs => h (List.mem_cons_of_mem _ hxs)
      rw [segment_cons, segment_cons, Function.update_of_ne hxy, ih hxs]

lemma Chain.update (h : Chain next p xs) (hy : y ∉ xs) :
    Chain (Function.update next y m) p xs := (segment_update_of_notMem hy).mpr h

/-- The way leads somewhere else behind its last item. -/
lemma Segment.relink (h : Segment next p (xs ++ [x]) q) (hx : x ∉ xs) :
    Segment (Function.update next x m) p (xs ++ [x]) m := by
  obtain ⟨k, hxs, hk, -⟩ := segment_append.mp h
  refine ((segment_update_of_notMem hx).mpr hxs).trans ⟨hk, ?_⟩
  rw [segment_nil, Function.update_self]

/-- The part of a chain up to an item leads somewhere else. -/
lemma Chain.relink (h : Chain next p (xs ++ x :: ys)) :
    Segment (Function.update next x m) p (xs ++ [x]) m := by
  have hx : x ∉ xs := h.notMem_before
  rw [List.append_cons] at h
  exact Segment.relink (Chain.split h).1 hx

/-! ## Changing a chain -/

/-- An item is put in front. -/
lemma Chain.push (h : Chain next p xs) (hx : x ∉ xs) :
    Chain (Function.update next x p) (some x) (x :: xs) := by
  refine ⟨rfl, ?_⟩
  rw [Function.update_self]
  exact h.update hx

/-- An item without a link is put behind the last one. -/
lemma Chain.append (h : Chain next p (xs ++ [y])) (hx : x ∉ xs ++ [y]) (hnext : next x = none) :
    Chain (Function.update next y (some x)) p (xs ++ [y] ++ [x]) := by
  have hxy : x ≠ y := fun hxy => hx (List.mem_append_right _ (List.mem_singleton.mpr hxy))
  refine (Segment.relink h h.notMem_before).chain ⟨rfl, ?_⟩
  rw [Function.update_of_ne hxy]
  exact hnext

/-- The same with the link of the new item cleared, and any items before. -/
lemma Chain.appendAfter (h : Chain next p (xs ++ (zs ++ [y]))) (hx : x ∉ xs ++ (zs ++ [y])) :
    Chain (Function.update (Function.update next x none) y (some x)) p
      (xs ++ (zs ++ [y] ++ [x])) := by
  rw [← List.append_assoc] at h hx
  rw [← List.append_assoc, ← List.append_assoc]
  exact Chain.append (h.update hx) hx (Function.update_self ..)

/-- What is behind an item is cut off. -/
lemma Chain.chop (h : Chain next p (xs ++ x :: ys)) :
    Chain (Function.update next x none) p (xs ++ [x]) := h.relink

/-- The item behind another one is taken out. -/
lemma Chain.unlink (h : Chain next p (xs ++ y :: x :: ys)) :
    Chain (Function.update next y (next x)) p (xs ++ y :: ys) := by
  have hbehind : Chain next (next x) ys := h.split.2.2.2
  have hy : y ∉ ys := fun hy => h.notMem_behind (List.mem_cons_of_mem _ hy)
  rw [List.append_cons]
  exact h.relink.chain (hbehind.update hy)

/-- An item that is not on the chain is put behind one that is. -/
lemma Chain.insertAfter (h : Chain next p (xs ++ y :: ys)) (hx : x ∉ xs ++ y :: ys) :
    Chain (Function.update (Function.update next x (next y)) y (some x)) p
      (xs ++ y :: x :: ys) := by
  have hxy : x ≠ y := fun hxy => hx (by simp [hxy])
  have hys : x ∉ ys := fun hys => hx (by simp [hys])
  have hbehind : Chain next (next y) ys := h.split.2.2
  have hmid : Chain (Function.update (Function.update next x (next y)) y (some x)) (some x)
      (x :: ys) := by
    refine ⟨rfl, ?_⟩
    rw [Function.update_of_ne hxy, Function.update_self]
    exact (hbehind.update hys).update h.notMem_behind
  have hfront : Segment (Function.update (Function.update next x (next y)) y (some x)) p
      (xs ++ [y]) (some x) := Chain.relink (h.update hx)
  rw [List.append_cons]
  exact hfront.chain hmid

end LinkedChain

import AmpmGsm.List.LinkedList

/-!
# Runs on linked lists

What the callers of `ampm_list.c` rely on: lists of items, each item on at most one of them.  The
functions keep no record of that.  A caller that gives an item to one list at a time, and inserts
only new items behind items of the list, gets what it would get from lists of items; one that does
not gets lists without an end, or lists with a common end.

* `ListCall`, `ListMem.exec`, `ListMem.runCalls` — the calls, and runs of them.
* `stepLists`, `Admissible`, `Proper` — the same calls on lists of items, and the rules for callers.
* `HoldsLists` — the memory holds these lists, and no item is on two of them.
* `holdsLists_exec`, **`runCalls_refines`** — every loop ends, and the answers are those of the lists.
* **`listInsert_twice`** — `list_insert` of an item that is on the list already.
* `listCopy_joined` — `list_copy` of a list with items.
* **`listAdd_twice`** — `list_add` of an item that is on another list.
-/

namespace Ampm

open LinkedChain Fuel

variable {ρ : Type*} [DecidableEq ρ]

/-! ## Calls -/

/-- The calls of the functions.  `itemNext` names the list that the item is on, which the function
is not told. -/
inductive ListCall (ρ : Type*)
  | init (list : ρ)
  | head (list : ρ)
  | copy (dest src : ρ)
  | tail (list : ρ)
  | add (list : ρ) (item : ℕ)
  | push (list : ρ) (item : ℕ)
  | chop (list : ρ)
  | pop (list : ρ)
  | remove (list : ρ) (item : ℕ)
  | length (list : ρ)
  | insert (list : ρ) (previtem : Option ℕ) (newitem : ℕ)
  | itemNext (list : ρ) (item : ℕ)

/-- What a function returns. -/
inductive ListAnswer
  | nothing
  | item (item : Option ℕ)
  | count (n : ℕ)
  deriving DecidableEq

namespace ListMem

/-- A call, with a number of rounds for its loops. -/
def exec (rounds : ℕ) (m : ListMem ρ) : ListCall ρ → Option (ListAnswer × ListMem ρ)
  | .init list => some (.nothing, m.listInit list)
  | .head list => some (.item (m.listHead list), m)
  | .copy dest src => some (.nothing, m.listCopy dest src)
  | .tail list => (m.listTail rounds list).map fun l => (.item l, m)
  | .add list item => (m.listAdd rounds list item).map fun m => (.nothing, m)
  | .push list item => (m.listPush rounds list item).map fun m => (.nothing, m)
  | .chop list => (m.listChop rounds list).map fun r => (.item r.1, r.2)
  | .pop list => some (.item (m.listPop list).1, (m.listPop list).2)
  | .remove list item => (m.listRemove rounds list item).map fun m => (.nothing, m)
  | .length list => (m.listLength rounds list).map fun n => (.count n, m)
  | .insert list previtem newitem =>
      (m.listInsert rounds list previtem newitem).map fun m => (.nothing, m)
  | .itemNext _ item => some (.item (m.listItemNext (some item)), m)

/-- Calls one after the other: what they return, and the memory. -/
def runCalls (rounds : ℕ) (m : ListMem ρ) : List (ListCall ρ) → Option (List ListAnswer × ListMem ρ)
  | [] => some ([], m)
  | call :: calls =>
      (m.exec rounds call).bind fun r =>
        (runCalls rounds r.2 calls).map fun q => (r.1 :: q.1, q.2)

end ListMem

/-! ## Lists of items -/

/-- The call on lists of items. -/
def stepLists (lists : ρ → List ℕ) : ListCall ρ → ListAnswer × (ρ → List ℕ)
  | .init list => (.nothing, Function.update lists list [])
  | .head list => (.item (lists list).head?, lists)
  | .copy dest src => (.nothing, Function.update lists dest (lists src))
  | .tail list => (.item (listTail (lists list)), lists)
  | .add list item => (.nothing, Function.update lists list (listAdd (lists list) item))
  | .push list item =>
      (.nothing, Function.update lists list (item :: listRemove (lists list) item))
  | .chop list => (.item (lists list).getLast?, Function.update lists list (lists list).dropLast)
  | .pop list => (.item (lists list).head?, Function.update lists list (lists list).tail)
  | .remove list item => (.nothing, Function.update lists list (listRemove (lists list) item))
  | .length list => (.count (lists list).length, lists)
  | .insert list none item =>
      (.nothing, Function.update lists list (item :: listRemove (lists list) item))
  | .insert list (some previtem) newitem =>
      (.nothing, Function.update lists list
        (ListMem.insertBehind (lists list) previtem newitem))
  | .itemNext list item => (.item (listItemNext (lists list) item), lists)

/-- The calls on lists of items, one after the other. -/
def runLists (lists : ρ → List ℕ) : List (ListCall ρ) → List ListAnswer × (ρ → List ℕ)
  | [] => ([], lists)
  | call :: calls =>
      let r := stepLists lists call
      let q := runLists r.2 calls
      (r.1 :: q.1, q.2)

/-- The item is on no other list. -/
def OnNoOther (lists : ρ → List ℕ) (list : ρ) (item : ℕ) : Prop :=
  ∀ k ≠ list, item ∉ lists k

/-- The rules for a caller: an item that is given to a list is on no other one, one that is
inserted behind an item of the list is on none, the item whose next one is asked for is on the list,
and only a list without items is copied to another one. -/
def Admissible (lists : ρ → List ℕ) : ListCall ρ → Prop
  | .copy dest src => dest = src ∨ lists src = []
  | .add list item => OnNoOther lists list item
  | .push list item => OnNoOther lists list item
  | .insert list none item => OnNoOther lists list item
  | .insert list (some previtem) newitem => previtem ∈ lists list ∧ ∀ k, newitem ∉ lists k
  | .itemNext list item => item ∈ lists list
  | _ => True

/-- Every call of a run keeps to the rules. -/
def Proper (lists : ρ → List ℕ) : List (ListCall ρ) → Prop
  | [] => True
  | call :: calls => Admissible lists call ∧ Proper (stepLists lists call).2 calls

/-! ## The memory of lists -/

/-- The links of the memory are those of the lists, and no item is on two of them. -/
structure HoldsLists (m : ListMem ρ) (lists : ρ → List ℕ) : Prop where
  chain : ∀ list, Chain m.next (m.head list) (lists list)
  apart : ∀ list k item, item ∈ lists list → item ∈ lists k → list = k

variable {m m' : ListMem ρ} {lists : ρ → List ℕ} {list : ρ} {s ys : List ℕ}

omit [DecidableEq ρ] in
lemma HoldsLists.onNoOther (h : HoldsLists m lists) {item : ℕ} (hitem : item ∈ lists list) :
    OnNoOther lists list item := fun k hk hmem => hk (h.apart k list item hmem hitem)

/-- A list whose cells alone were written. -/
lemma HoldsLists.change (h : HoldsLists m lists) (htouches : m.Touches m' list s)
    (hchain : Chain m'.next (m'.head list) ys) (hs : ∀ x ∈ s, OnNoOther lists list x)
    (hys : ys ⊆ s) : HoldsLists m' (Function.update lists list ys) := by
  constructor
  · intro k
    by_cases hk : k = list
    · subst hk
      rwa [Function.update_self]
    · rw [Function.update_of_ne hk, htouches.head k hk]
      exact Segment.congr (h.chain k) fun x hx => htouches.next x fun hxs => hs x hxs k hk hx
  · have hnew : ∀ k ≠ list, ∀ x ∈ ys, x ∉ lists k := fun k hk x hx => hs x (hys hx) k hk
    intro l k x hl hk
    by_cases hllist : l = list <;> by_cases hklist : k = list
    · rw [hllist, hklist]
    · rw [hllist, Function.update_self] at hl
      rw [Function.update_of_ne hklist] at hk
      exact absurd hk (hnew k hklist x hl)
    · rw [hklist, Function.update_self] at hk
      rw [Function.update_of_ne hllist] at hl
      exact absurd hl (hnew l hllist x hk)
    · rw [Function.update_of_ne hllist] at hl
      rw [Function.update_of_ne hklist] at hk
      exact h.apart l k x hl hk

/-- A list of which only items remain. -/
lemma HoldsLists.shrink (h : HoldsLists m lists) (htouches : m.Touches m' list (lists list))
    (hchain : Chain m'.next (m'.head list) ys) (hys : ys ⊆ lists list) :
    HoldsLists m' (Function.update lists list ys) :=
  h.change htouches hchain (fun _ hx => h.onNoOther hx) hys

/-- A list that got an item. -/
lemma HoldsLists.grow (h : HoldsLists m lists) {item : ℕ} (hitem : OnNoOther lists list item)
    (htouches : m.Touches m' list (item :: lists list))
    (hchain : Chain m'.next (m'.head list) ys) (hys : ys ⊆ item :: lists list) :
    HoldsLists m' (Function.update lists list ys) := by
  refine h.change htouches hchain (fun x hx => ?_) hys
  obtain rfl | hx := List.mem_cons.mp hx
  · exact hitem
  · exact h.onNoOther hx

/-! ## Runs -/

lemma insertBehind_subset (xs : List ℕ) (x item : ℕ) (hx : x ∈ xs) :
    ListMem.insertBehind xs x item ⊆ item :: xs := by
  intro y hy
  simp only [ListMem.insertBehind, List.mem_append, List.mem_cons] at hy ⊢
  rcases hy with hy | rfl | rfl | hy
  · exact Or.inr (List.takeWhile_subset _ hy)
  · exact Or.inr hx
  · exact Or.inl rfl
  · exact Or.inr (List.dropWhile_subset _ (List.tail_subset _ hy))

/-- A call that keeps to the rules ends, with the answer and the lists that it should have. -/
lemma holdsLists_exec (h : HoldsLists m lists) (call : ListCall ρ) (hcall : Admissible lists call) :
    ∃ m', SettlesTo (fun rounds => m.exec rounds call) ((stepLists lists call).1, m') ∧
      HoldsLists m' (stepLists lists call).2 := by
  cases call with
  | init list =>
      refine ⟨_, settlesTo_some _, h.shrink ?_ ?_ (List.nil_subset _)⟩
      · exact ListMem.touches_setHead _
      · simp [ListMem.listInit]
  | head list =>
      refine ⟨m, ?_, h⟩
      simp only [ListMem.exec, ListMem.listHead, (h.chain list).head_eq]
      exact settlesTo_some _
  | copy dest src =>
      refine ⟨m.listCopy dest src, settlesTo_some _, ?_⟩
      obtain rfl | hsrc := hcall
      · simpa [ListMem.listCopy, ListMem.setHead, stepLists] using h
      · have hchain := h.chain src
        rw [hsrc] at hchain
        simp only [stepLists, hsrc]
        refine h.shrink (ListMem.touches_setHead _) ?_ (List.nil_subset _)
        simpa [ListMem.listCopy] using hchain
  | tail list => exact ⟨m, (ListMem.listTail_settles (h.chain list)).map _, h⟩
  | add list item =>
      obtain ⟨m', hsettles, hchain, htouches⟩ := ListMem.listAdd_settles (h.chain list) item
      refine ⟨m', hsettles.map _, h.grow hcall htouches hchain ?_⟩
      intro x hx
      obtain hx | hx := List.mem_append.mp hx
      · exact List.mem_cons_of_mem _ (List.mem_of_mem_erase hx)
      · exact List.mem_cons.mpr (Or.inl (List.mem_singleton.mp hx))
  | push list item =>
      obtain ⟨m', hsettles, hchain, htouches⟩ := ListMem.listPush_settles (h.chain list) item
      exact ⟨m', hsettles.map _, h.grow hcall htouches hchain
        (List.cons_subset_cons _ List.erase_subset)⟩
  | chop list =>
      obtain ⟨m', hsettles, hchain, htouches⟩ := ListMem.listChop_settles (h.chain list)
      exact ⟨m', hsettles.map _, h.shrink htouches hchain (List.dropLast_subset _)⟩
  | pop list =>
      obtain ⟨m', hpop, hchain, htouches⟩ := ListMem.listPop_eq (h.chain list)
      refine ⟨m', ?_, h.shrink htouches hchain (List.tail_subset _)⟩
      simp only [ListMem.exec, hpop]
      exact settlesTo_some _
  | remove list item =>
      obtain ⟨m', hsettles, hchain, htouches⟩ := ListMem.listRemove_settles (h.chain list) item
      exact ⟨m', hsettles.map _, h.shrink htouches hchain List.erase_subset⟩
  | length list => exact ⟨m, (ListMem.listLength_settles (h.chain list)).map _, h⟩
  | insert list previtem newitem =>
      cases previtem with
      | none =>
          obtain ⟨m', hsettles, hchain, htouches⟩ :=
            ListMem.listPush_settles (h.chain list) newitem
          exact ⟨m', hsettles.map _, h.grow hcall htouches hchain
            (List.cons_subset_cons _ List.erase_subset)⟩
      | some previtem =>
          obtain ⟨hprev, hnew⟩ := hcall
          obtain ⟨m', hinsert, hchain, htouches⟩ :=
            ListMem.listInsert_some (h.chain list) hprev (hnew list) 0
          refine ⟨m', ⟨0, fun rounds _ => ?_⟩, h.grow (fun k _ => hnew k) htouches hchain
            (insertBehind_subset _ _ _ hprev)⟩
          exact congrArg (Option.map _) hinsert
  | itemNext list item =>
      refine ⟨m, ?_, h⟩
      simp only [ListMem.exec, ListMem.listItemNext_eq (h.chain list) hcall]
      exact settlesTo_some _

/-- In every run of calls that keep to the rules, on any number of lists, every loop ends, every
answer is that of the lists of items, and the memory holds those lists. -/
theorem runCalls_refines (h : HoldsLists m lists) (calls : List (ListCall ρ))
    (hcalls : Proper lists calls) :
    ∃ m', SettlesTo (fun rounds => m.runCalls rounds calls) ((runLists lists calls).1, m') ∧
      HoldsLists m' (runLists lists calls).2 := by
  induction calls generalizing m lists with
  | nil => exact ⟨m, settlesTo_some _, h⟩
  | cons call calls ih =>
      obtain ⟨m₁, hsettles₁, h₁⟩ := holdsLists_exec h call hcalls.1
      obtain ⟨m₂, hsettles₂, h₂⟩ := ih h₁ hcalls.2
      exact ⟨m₂, hsettles₁.bind (hsettles₂.map _), h₂⟩

/-- Two lists to begin with: `true` without items, and `false` with the items 7 and 8. -/
def twoLists : ListMem Bool :=
  { head := fun list => if list then none else some 7
    next := fun item => if item = 7 then some 8 else none }

/-- What they hold. -/
def twoListsItems (list : Bool) : List ℕ := if list then [] else [7, 8]

lemma twoLists_holds : HoldsLists twoLists twoListsItems := by
  constructor
  · rintro ⟨⟩
    · exact ⟨rfl, rfl, rfl⟩
    · exact rfl
  · rintro ⟨⟩ ⟨⟩ item <;> simp [twoListsItems]

/-- Items are queued, put in front, inserted, passed from one list to the other, and counted. -/
theorem runCalls_refines_twoLists :
    ∃ m', SettlesTo (fun rounds => twoLists.runCalls rounds
        [.add true 1, .push true 2, .insert true (some 2) 3, .pop false, .add true 7,
          .itemNext true 1, .remove true 3, .length true])
      ([.nothing, .nothing, .nothing, .item (some 7), .nothing, .item (some 7), .nothing, .count 3],
        m') ∧
      HoldsLists m' (runLists twoListsItems
        [.add true 1, .push true 2, .insert true (some 2) 3, .pop false, .add true 7,
          .itemNext true 1, .remove true 3, .length true]).2 :=
  runCalls_refines twoLists_holds _ (by simp +decide [Proper, Admissible, OnNoOther])

/-! ## Items that are on a list already -/

/-- A loop that follows the links to their end. -/
lemma chain_of_lengthLoop {next : ℕ → Option ℕ} {p : Option ℕ} (rounds n : ℕ) {k : ℕ}
    (h : ListMem.lengthLoop next rounds p n = some k) : ∃ xs, Chain next p xs := by
  induction rounds generalizing p n with
  | zero => exact absurd h nofun
  | succ rounds ih =>
      cases p with
      | none => exact ⟨[], rfl⟩
      | some l =>
          obtain ⟨xs, hxs⟩ := ih _ h
          exact ⟨l :: xs, rfl, hxs⟩

omit [DecidableEq ρ] in
/-- Where the links come back, `list_length` does not end. -/
lemma not_settles_listLength (h : ∀ xs, ¬ Chain m.next (m.head list) xs) :
    ¬ Settles fun rounds => m.listLength rounds list := by
  rintro ⟨k, bound, hbound⟩
  obtain ⟨xs, hxs⟩ := chain_of_lengthLoop _ _ (hbound bound (Nat.le_refl _))
  exact h xs hxs

omit [DecidableEq ρ] in
/-- An item behind another one in a list, or the same one. -/
lemma before_or_behind {xs : List ℕ} {x y : ℕ} (hx : x ∈ xs) (hy : y ∈ xs) :
    (∃ as bs cs, xs = as ++ x :: (bs ++ y :: cs)) ∨ ∃ as bs, xs = as ++ y :: bs ∧ x ∈ y :: bs := by
  obtain ⟨as, bs, rfl⟩ := List.append_of_mem hy
  obtain hx | hx := List.mem_append.mp hx
  · obtain ⟨as₁, as₂, rfl⟩ := List.append_of_mem hx
    exact Or.inl ⟨as₁, as₂, bs, by simp⟩
  · exact Or.inr ⟨as, bs, rfl, hx⟩

/-- The memory after `list_insert` behind an item. -/
def ListMem.insertLinks (m : ListMem ρ) (previtem newitem : ℕ) : ListMem ρ :=
  (m.setNext newitem (m.next previtem)).setNext previtem (some newitem)

omit [DecidableEq ρ] in
lemma insertLinks_next (previtem newitem : ℕ) :
    (m.insertLinks previtem newitem).next =
      Function.update (Function.update m.next newitem (m.next previtem)) previtem (some newitem) :=
  rfl

omit [DecidableEq ρ] in
/-- The item stands before the one that it is put behind: what was between them is gone. -/
lemma insertLinks_of_before {p : Option ℕ} {as bs cs : List ℕ} {x y : ℕ}
    (h : Chain m.next p (as ++ x :: (bs ++ y :: cs))) :
    Chain (m.insertLinks y x).next p (as ++ x :: cs) := by
  have hnodup := h.nodup
  have hcs : Chain m.next (m.next y) cs := (Chain.split h.split.2.2).2.2
  have hy : y ∉ as ++ x :: cs := by
    simp only [List.nodup_append, List.nodup_cons, List.mem_append, List.mem_cons] at hnodup ⊢
    grind
  have hlinks : Chain (Function.update m.next x (m.next y)) p (as ++ x :: cs) := by
    have hx : x ∉ cs := fun hx => h.notMem_behind (by simp [hx])
    rw [List.append_cons]
    exact h.relink.chain (hcs.update hx)
  exact hlinks.update hy

omit [DecidableEq ρ] in
/-- The item stands behind the one that it is put behind, or is the same one: the links come
back. -/
lemma insertLinks_of_behind {p : Option ℕ} {as bs : List ℕ} {x y : ℕ}
    (h : Chain m.next p (as ++ y :: bs)) (hx : x ∈ y :: bs) (ys : List ℕ) :
    ¬ Chain (m.insertLinks y x).next p ys := by
  intro hys
  have hnodup := List.nodup_append.mp h.nodup
  have hxas : x ∉ as := fun hxas => hnodup.2.2 x hxas x hx rfl
  -- the links still lead to `y`, and from there to `x`
  have hfront : Segment (m.insertLinks y x).next p (as ++ [y]) (some x) := by
    refine ((segment_update_of_notMem h.notMem_before).mpr
      ((segment_update_of_notMem hxas).mpr h.split.1)).trans ⟨rfl, ?_⟩
    exact Function.update_self ..
  obtain ⟨zs, -, hzs⟩ := hfront.rest hys
  obtain rfl | hx := List.mem_cons.mp hx
  · have hself : Segment (m.insertLinks x x).next (some x) [x] (some x) :=
      ⟨rfl, Function.update_self ..⟩
    exact not_chain_of_cycle hself hzs
  · have hxy : x ≠ y := fun hxy => (List.nodup_cons.mp hnodup.2.1).1 (hxy ▸ hx)
    obtain ⟨bs, cs, rfl⟩ := List.append_of_mem hx
    have hbehind : Chain m.next (m.next y) (bs ++ x :: cs) := h.split.2.2
    have hy : y ∉ bs := fun hy => h.notMem_behind (List.mem_append_left _ hy)
    have hback : Segment (m.insertLinks y x).next (some x) (x :: bs) (some x) := by
      refine ⟨rfl, ?_⟩
      rw [insertLinks_next, Function.update_of_ne hxy, Function.update_self]
      exact (segment_update_of_notMem hy).mpr
        ((segment_update_of_notMem hbehind.notMem_before).mpr hbehind.split.1)
    exact not_chain_of_cycle hback hzs

omit [DecidableEq ρ] in
lemma insertLinks_touches {previtem newitem : ℕ} (hprev : previtem ∈ s) (hnew : newitem ∈ s) :
    m.Touches (m.insertLinks previtem newitem) list s :=
  (ListMem.touches_setNext hnew _).trans (ListMem.touches_setNext hprev _)

/-- `list_insert` of an item that is on the list already, behind an item of the list.  If the item
stands before the other one, the list loses what was between them, and the other one; if not, the
list has no end any more, and `list_length` never returns. -/
theorem listInsert_twice (h : HoldsLists m lists) {previtem newitem : ℕ}
    (hprev : previtem ∈ lists list) (hnew : newitem ∈ lists list) (rounds : ℕ) :
    ∃ m', m.listInsert rounds list (some previtem) newitem = some m' ∧
      ((∃ as bs cs, lists list = as ++ newitem :: (bs ++ previtem :: cs) ∧
          HoldsLists m' (Function.update lists list (as ++ newitem :: cs))) ∨
        (∃ as bs, lists list = as ++ previtem :: bs ∧ newitem ∈ previtem :: bs) ∧
          ¬ Settles fun rounds => m'.listLength rounds list) := by
  refine ⟨m.insertLinks previtem newitem, rfl, ?_⟩
  have hchain := h.chain list
  obtain ⟨as, bs, cs, hlist⟩ | ⟨as, bs, hlist, hmem⟩ := before_or_behind hnew hprev
  · rw [hlist] at hchain
    refine Or.inl ⟨as, bs, cs, hlist, ?_⟩
    refine h.shrink (insertLinks_touches hprev hnew) (insertLinks_of_before hchain) ?_
    rw [hlist]
    exact List.append_subset.mpr ⟨List.subset_append_left .., fun x hx => by simp at hx ⊢; tauto⟩
  · rw [hlist] at hchain
    exact Or.inr ⟨⟨as, bs, hlist, hmem⟩,
      not_settles_listLength (insertLinks_of_behind hchain hmem)⟩

/-- The second item is put behind the first, where it stands already. -/
theorem listInsert_twice_twoLists :
    ∃ m', twoLists.listInsert 0 false (some 7) 8 = some m' ∧
      ((∃ as bs cs, twoListsItems false = as ++ 8 :: (bs ++ 7 :: cs) ∧
          HoldsLists m' (Function.update twoListsItems false (as ++ 8 :: cs))) ∨
        (∃ as bs, twoListsItems false = as ++ 7 :: bs ∧ 8 ∈ 7 :: bs) ∧
          ¬ Settles fun rounds => m'.listLength rounds false) :=
  listInsert_twice twoLists_holds (by decide) (by decide) 0

/-! ## Lists with a common end -/

/-- The two lists have a common end. -/
def JoinedAt (m : ListMem ρ) (list k : ρ) (xs ys behind : List ℕ) : Prop :=
  Chain m.next (m.head list) (xs ++ behind) ∧ Chain m.next (m.head k) (ys ++ behind)

/-- The item is added to one list or to the other. -/
def addTo (list k : ρ) (i : Bool × ℕ) : ListCall ρ := .add (if i.1 then list else k) i.2

/-- What is added to one of two lists with a common end is on both. -/
lemma JoinedAt.add {k : ρ} {xs behind : List ℕ} (h : JoinedAt m list k xs ys behind)
    (hbehind : behind ≠ []) (i : Bool × ℕ) (hxs : i.2 ∉ xs ++ behind) (hys : i.2 ∉ ys ++ behind) :
    ∃ m', SettlesTo (fun rounds => m.exec rounds (addTo list k i)) (.nothing, m') ∧
      JoinedAt m' list k xs ys (behind ++ [i.2]) := by
  obtain rfl | ⟨zs, y, rfl⟩ := behind.eq_nil_or_concat'
  · exact absurd rfl hbehind
  · have hlast : ∀ vs : List ℕ, (vs ++ (zs ++ [y])).getLast? = some y := fun vs => by simp
    refine ⟨(m.setNext i.2 none).setNext y (some i.2), ?_,
      Chain.appendAfter h.1 hxs, Chain.appendAfter h.2 hys⟩
    obtain ⟨b, item⟩ := i
    cases b with
    | true =>
        have hadd := (ListMem.listAdd_settles_of_notMem h.1 hxs).map
          fun m => (ListAnswer.nothing, m)
        rwa [hlast] at hadd
    | false =>
        have hadd := (ListMem.listAdd_settles_of_notMem h.2 hys).map
          fun m => (ListAnswer.nothing, m)
        rwa [hlast] at hadd

lemma JoinedAt.addAll {k : ρ} {xs behind : List ℕ} (h : JoinedAt m list k xs ys behind)
    (hbehind : behind ≠ []) (items : List (Bool × ℕ)) (hnodup : (items.map Prod.snd).Nodup)
    (hnew : ∀ i ∈ items, i.2 ∉ xs ++ behind ∧ i.2 ∉ ys ++ behind) :
    ∃ m', SettlesTo (fun rounds => m.runCalls rounds (items.map (addTo list k)))
        (items.map fun _ => .nothing, m') ∧
      JoinedAt m' list k xs ys (behind ++ items.map Prod.snd) := by
  induction items generalizing m behind with
  | nil => exact ⟨m, settlesTo_some _, by simpa using h⟩
  | cons i items ih =>
      obtain ⟨hi, hitems⟩ := List.nodup_cons.mp hnodup
      obtain ⟨hxs, hys⟩ := hnew i (List.mem_cons_self ..)
      obtain ⟨m₁, hsettles₁, h₁⟩ := h.add hbehind i hxs hys
      have hnew₁ : ∀ j ∈ items, j.2 ∉ xs ++ (behind ++ [i.2]) ∧ j.2 ∉ ys ++ (behind ++ [i.2]) := by
        intro j hj
        have hji : j.2 ≠ i.2 := fun hji => hi (hji ▸ List.mem_map_of_mem hj)
        have hold := hnew j (List.mem_cons_of_mem _ hj)
        rw [← List.append_assoc, ← List.append_assoc]
        simp only [List.mem_append, List.mem_singleton] at hold ⊢
        tauto
      obtain ⟨m₂, hsettles₂, h₂⟩ := ih h₁ (by simp) hitems hnew₁
      refine ⟨m₂, hsettles₁.bind (hsettles₂.map _), ?_⟩
      rwa [List.append_assoc] at h₂

/-- The first item that two lists have in common. -/
lemma HoldsLists.join (h : HoldsLists m lists) {k : ρ} (hk : k ≠ list) {as bs : List ℕ} {item : ℕ}
    (hitem : lists k = as ++ item :: bs) :
    ∃ m', SettlesTo (fun rounds => m.exec rounds (.add list item)) (.nothing, m') ∧
      JoinedAt m' list k (lists list) as [item] := by
  have hmem : item ∈ lists k := by simp [hitem]
  have hnot : item ∉ lists list := fun hlist => hk (h.apart k list item hmem hlist)
  refine ⟨_, (ListMem.listAdd_settles_of_notMem (h.chain list) hnot).map _,
    ListMem.link_chain (h.chain list) hnot, ?_⟩
  have hchain := h.chain k
  rw [hitem] at hchain
  have hcut : Chain (Function.update m.next item none) (m.head k) (as ++ [item]) := hchain.chop
  generalize hlast : (lists list).getLast? = last
  cases last with
  | none => simpa [ListMem.link, ListMem.setHead, hk] using hcut
  | some y =>
      have hy : y ∉ as ++ [item] := by
        intro hy
        have hylist : y ∈ lists list := List.mem_of_getLast? hlast
        refine hk (h.apart k list y ?_ hylist)
        rw [hitem]
        simp only [List.mem_append, List.mem_cons, List.not_mem_nil, or_false] at hy ⊢
        tauto
      exact hcut.update hy

/-- `list_copy` of a list with items, and any number of calls of `list_add` with new items after it:
what is added to one of the two lists is on both. -/
theorem listCopy_joined (h : HoldsLists m lists) {src : ρ} (hsrc : src ≠ list)
    (hitems : lists src ≠ []) (items : List (Bool × ℕ)) (hnodup : (items.map Prod.snd).Nodup)
    (hnew : ∀ i ∈ items, ∀ l, i.2 ∉ lists l) :
    ∃ answers m', SettlesTo
        (fun rounds => m.runCalls rounds (.copy list src :: items.map (addTo list src)))
        (answers, m') ∧
      Chain m'.next (m'.head list) (lists src ++ items.map Prod.snd) ∧
      Chain m'.next (m'.head src) (lists src ++ items.map Prod.snd) := by
  have hcopy : JoinedAt (m.listCopy list src) list src [] [] (lists src) := by
    have hchain := h.chain src
    constructor <;> simpa [ListMem.listCopy, ListMem.setHead, hsrc] using hchain
  obtain ⟨m', hsettles, hjoined⟩ :=
    hcopy.addAll hitems items hnodup fun i hi => ⟨hnew i hi src, hnew i hi src⟩
  exact ⟨_, m', (settlesTo_some _).bind (hsettles.map _), hjoined⟩

/-- `list_add` of an item that is on another list, and any number of calls of `list_add` with new
items after it.  The other list loses what was behind the item, and from then on everything that is
added to one of the two lists is on both. -/
theorem listAdd_twice (h : HoldsLists m lists) {k : ρ} (hk : k ≠ list) {as bs : List ℕ} {item : ℕ}
    (hitem : lists k = as ++ item :: bs) (items : List (Bool × ℕ))
    (hnodup : (items.map Prod.snd).Nodup) (hnew : ∀ i ∈ items, ∀ l, i.2 ∉ lists l) :
    ∃ answers m', SettlesTo
        (fun rounds => m.runCalls rounds (.add list item :: items.map (addTo list k)))
        (answers, m') ∧
      Chain m'.next (m'.head list) (lists list ++ item :: items.map Prod.snd) ∧
      Chain m'.next (m'.head k) (as ++ item :: items.map Prod.snd) := by
  obtain ⟨m₁, hsettles₁, h₁⟩ := h.join hk hitem
  have hnew₁ : ∀ i ∈ items, i.2 ∉ lists list ++ [item] ∧ i.2 ∉ as ++ [item] := by
    intro i hi
    have hlist := hnew i hi list
    have hother := hnew i hi k
    rw [hitem] at hother
    simp only [List.mem_append, List.mem_cons, List.not_mem_nil, or_false] at hother ⊢
    tauto
  obtain ⟨m₂, hsettles₂, h₂⟩ := h₁.addAll (by simp) items hnodup hnew₁
  exact ⟨_, m₂, hsettles₁.bind (hsettles₂.map _), h₂⟩

/-- The first item of one list is added to the other, and then an item to each of them. -/
theorem listAdd_twice_twoLists :
    ∃ answers m', SettlesTo
        (fun rounds => twoLists.runCalls rounds [.add true 7, .add true 1, .add false 2])
        (answers, m') ∧
      Chain m'.next (m'.head true) [7, 1, 2] ∧ Chain m'.next (m'.head false) [7, 1, 2] := by
  have hlists : twoListsItems false = [] ++ 7 :: [8] := rfl
  have hitems : ∀ i ∈ [(true, 1), (false, 2)], ∀ l, i.2 ∉ twoListsItems l := by decide
  exact listAdd_twice twoLists_holds Bool.false_ne_true hlists _ (by decide) hitems

end Ampm

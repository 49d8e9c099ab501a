import AmpmGsm.Gsm.SmsTask
import AmpmGsm.Lib.Fuel
import AmpmGsm.Lib.LinkedChain

/-!
# Linked lists

`ampm_list.c`: lists of items that hold the link to the next item themselves.  A list is a variable
with the first item; the list of messages, the list of calls and the list of commands are three of
them.  Nothing but the links says which items a list has.

* `ListMem` — the list variables and the links.
* `ListMem.listTail` … `ListMem.listItemNext` — the functions; a loop has a number of rounds.
* `ListMem.Touches` — the cells that a function writes.
* `listTail_settles` … `listInsert_some` — each function ends, and what it makes of a chain.
-/

namespace Ampm

open LinkedChain Fuel

/-- The memory that the functions work on: what the list variables hold, and the field `next` of
the items. -/
structure ListMem (ρ : Type*) where
  head : ρ → Option ℕ
  next : ℕ → Option ℕ

namespace ListMem

variable {ρ : Type*} {m m' m'' : ListMem ρ} {list k : ρ} {item x y : ℕ} {xs ys s : List ℕ}

section Functions

variable [DecidableEq ρ]

/-- `*list = item;` -/
def setHead (m : ListMem ρ) (list : ρ) (item : Option ℕ) : ListMem ρ :=
  { m with head := Function.update m.head list item }

/-- `l->next = item;` -/
def setNext (m : ListMem ρ) (l : ℕ) (item : Option ℕ) : ListMem ρ :=
  { m with next := Function.update m.next l item }

/-! ## The functions -/

/-- `list_init`. -/
def listInit (m : ListMem ρ) (list : ρ) : ListMem ρ := m.setHead list none

/-- `list_head`. -/
def listHead (m : ListMem ρ) (list : ρ) : Option ℕ := m.head list

/-- `list_copy`. -/
def listCopy (m : ListMem ρ) (dest src : ρ) : ListMem ρ := m.setHead dest (m.head src)

/-- `for(l = *list; l->next != NULL; l = l->next);` -/
def tailLoop (next : ℕ → Option ℕ) : ℕ → ℕ → Option ℕ
  | 0, _ => none
  | rounds + 1, l =>
      match next l with
      | none => some l
      | some l' => tailLoop next rounds l'

/-- `list_tail`. -/
def listTail (rounds : ℕ) (m : ListMem ρ) (list : ρ) : Option (Option ℕ) :=
  match m.head list with
  | none => some none
  | some l => (tailLoop m.next rounds l).map some

/-- The item `l` is found behind `r`, or first on the list. -/
def unlink (m : ListMem ρ) (list : ρ) (l : ℕ) : Option ℕ → ListMem ρ
  | none => (m.setHead list (m.next l)).setNext l none
  | some r => (m.setNext r (m.next l)).setNext l none

/-- The loop of `list_remove`, with `r` and `l` as they are. -/
def removeLoop (m : ListMem ρ) (list : ρ) (item : ℕ) :
    ℕ → Option ℕ → Option ℕ → Option (ListMem ρ)
  | 0, _, _ => none
  | _ + 1, _, none => some m
  | rounds + 1, r, some l =>
      if l = item then some (m.unlink list l r)
      else removeLoop m list item rounds (some l) (m.next l)

/-- `list_remove`. -/
def listRemove (rounds : ℕ) (m : ListMem ρ) (list : ρ) (item : ℕ) : Option (ListMem ρ) :=
  match m.head list with
  | none => some m
  | some l => removeLoop m list item rounds none (some l)

/-- The item goes behind the last one. -/
def link (m : ListMem ρ) (list : ρ) (item : ℕ) : Option ℕ → ListMem ρ
  | none => m.setHead list (some item)
  | some l => m.setNext l (some item)

/-- `list_add`. -/
def listAdd (rounds : ℕ) (m : ListMem ρ) (list : ρ) (item : ℕ) : Option (ListMem ρ) :=
  (listRemove rounds m list item).bind fun m =>
    let m := m.setNext item none
    (listTail rounds m list).map fun l => m.link list item l

/-- `list_push`. -/
def listPush (rounds : ℕ) (m : ListMem ρ) (list : ρ) (item : ℕ) : Option (ListMem ρ) :=
  (listRemove rounds m list item).map fun m =>
    (m.setNext item (m.head list)).setHead list (some item)

/-- `for(l = *list; l->next->next != NULL; l = l->next);` with `r = l->next`: the last values of
both. -/
def chopLoop (next : ℕ → Option ℕ) : ℕ → ℕ → ℕ → Option (ℕ × ℕ)
  | 0, _, _ => none
  | rounds + 1, l, r =>
      match next r with
      | none => some (l, r)
      | some r' => chopLoop next rounds r r'

/-- `list_chop`. -/
def listChop (rounds : ℕ) (m : ListMem ρ) (list : ρ) : Option (Option ℕ × ListMem ρ) :=
  match m.head list with
  | none => some (none, m)
  | some l =>
      match m.next l with
      | none => some (some l, m.setHead list none)
      | some r => (chopLoop m.next rounds l r).map fun p => (some p.2, m.setNext p.1 none)

/-- `list_pop`. -/
def listPop (m : ListMem ρ) (list : ρ) : Option ℕ × ListMem ρ :=
  match m.head list with
  | none => (none, m)
  | some l => (some l, m.setHead list (m.next l))

/-- The loop of `list_length`. -/
def lengthLoop (next : ℕ → Option ℕ) : ℕ → Option ℕ → ℕ → Option ℕ
  | 0, _, _ => none
  | _ + 1, none, n => some n
  | rounds + 1, some l, n => lengthLoop next rounds (next l) (n + 1)

/-- `list_length`. -/
def listLength (rounds : ℕ) (m : ListMem ρ) (list : ρ) : Option ℕ :=
  lengthLoop m.next rounds (m.head list) 0

/-- `list_insert`. -/
def listInsert (rounds : ℕ) (m : ListMem ρ) (list : ρ) (previtem : Option ℕ) (newitem : ℕ) :
    Option (ListMem ρ) :=
  match previtem with
  | none => listPush rounds m list newitem
  | some previtem =>
      some ((m.setNext newitem (m.next previtem)).setNext previtem (some newitem))

/-- `list_item_next`. -/
def listItemNext (m : ListMem ρ) (item : Option ℕ) : Option ℕ := item.bind m.next

end Functions

/-! ## Reading the links -/

lemma tailLoop_eq {next : ℕ → Option ℕ} {l : ℕ} (h : Chain next (some l) xs) (rounds : ℕ)
    (hrounds : xs.length ≤ rounds) : tailLoop next rounds l = xs.getLast? := by
  induction xs generalizing l rounds with
  | nil => exact absurd h nofun
  | cons x xs ih =>
      obtain rfl : l = x := Option.some.inj h.1
      obtain ⟨n, rfl⟩ := Nat.exists_eq_add_of_le' (Nat.le_trans (Nat.le_add_left 1 _) hrounds)
      cases xs with
      | nil => simp only [tailLoop, chain_nil.mp h.2, List.getLast?_singleton]
      | cons y ys =>
          rw [tailLoop, h.2.1, List.getLast?_cons_cons]
          exact ih ⟨rfl, h.2.2⟩ _ (Nat.le_of_succ_le_succ hrounds)

/-- `list_tail` ends with the last item. -/
lemma listTail_settles (h : Chain m.next (m.head list) xs) :
    SettlesTo (fun rounds => m.listTail rounds list) xs.getLast? := by
  refine ⟨xs.length, fun rounds hrounds => ?_⟩
  cases xs with
  | nil => simp only [listTail, chain_nil.mp h, List.getLast?_nil]
  | cons x xs =>
      have hx : Chain m.next (some x) (x :: xs) := ⟨rfl, h.2⟩
      simp only [listTail, h.1, tailLoop_eq hx rounds hrounds, List.getLast?_cons, Option.map_some]

lemma lengthLoop_eq {next : ℕ → Option ℕ} {p : Option ℕ} (h : Chain next p xs) (rounds n : ℕ)
    (hrounds : xs.length < rounds) : lengthLoop next rounds p n = some (n + xs.length) := by
  induction xs generalizing p rounds n with
  | nil =>
      obtain ⟨k, rfl⟩ := Nat.exists_eq_add_of_le' hrounds
      rw [chain_nil.mp h]
      rfl
  | cons x xs ih =>
      obtain ⟨k, rfl⟩ := Nat.exists_eq_add_of_le' (Nat.le_trans (Nat.le_add_left 1 _) hrounds)
      rw [h.1, lengthLoop, ih h.2 _ _ (Nat.lt_of_succ_lt_succ hrounds), List.length_cons,
        Nat.add_assoc, Nat.add_comm 1]

/-- `list_length` ends with the number of items. -/
lemma listLength_settles (h : Chain m.next (m.head list) xs) :
    SettlesTo (fun rounds => m.listLength rounds list) xs.length := by
  refine ⟨xs.length + 1, fun rounds hrounds => ?_⟩
  show lengthLoop m.next rounds (m.head list) 0 = _
  rw [lengthLoop_eq h rounds 0 hrounds, Nat.zero_add]

/-- `list_item_next` gives what is behind an item. -/
lemma listItemNext_eq (h : Chain m.next (m.head list) xs) (hitem : item ∈ xs) :
    m.listItemNext (some item) = Ampm.listItemNext xs item := by
  obtain ⟨as, bs, rfl⟩ := List.append_of_mem hitem
  have has : ∀ x ∈ as, decide (x ≠ item) = true := by
    intro x hx
    exact decide_eq_true fun hxi => h.notMem_before (hxi ▸ hx)
  rw [Ampm.listItemNext, List.dropWhile_append_of_pos has]
  simpa [listItemNext] using h.next_eq

/-! ## The cells they write -/

/-- Nothing was written but the variable of the list and the links of items of `s`. -/
structure Touches (m m' : ListMem ρ) (list : ρ) (s : List ℕ) : Prop where
  head : ∀ k ≠ list, m'.head k = m.head k
  next : ∀ x ∉ s, m'.next x = m.next x

lemma Touches.refl : Touches m m list s := ⟨fun _ _ => rfl, fun _ _ => rfl⟩

lemma Touches.trans (h : Touches m m' list s) (h' : Touches m' m'' list s) :
    Touches m m'' list s :=
  ⟨fun k hk => (h'.head k hk).trans (h.head k hk), fun x hx => (h'.next x hx).trans (h.next x hx)⟩

lemma Touches.mono (h : Touches m m' list s) (hs : s ⊆ ys) : Touches m m' list ys :=
  ⟨h.head, fun x hx => h.next x fun hxs => hx (hs hxs)⟩

@[simp] lemma setHead_next [DecidableEq ρ] (p : Option ℕ) : (m.setHead list p).next = m.next := rfl

@[simp] lemma setNext_head (p : Option ℕ) : (m.setNext x p).head = m.head := rfl

@[simp] lemma setNext_next (p : Option ℕ) : (m.setNext x p).next = Function.update m.next x p := rfl

lemma touches_setNext (hx : x ∈ s) (p : Option ℕ) : Touches m (m.setNext x p) list s :=
  ⟨fun _ _ => rfl, fun y hy => Function.update_of_ne (fun hyx : y = x => hy (hyx ▸ hx)) _ _⟩

variable [DecidableEq ρ]

@[simp] lemma setHead_head (p : Option ℕ) : (m.setHead list p).head list = p :=
  Function.update_self ..

lemma touches_setHead (p : Option ℕ) : Touches m (m.setHead list p) list s :=
  ⟨fun _ hk => Function.update_of_ne hk _ _, fun _ _ => rfl⟩

/-! ## Removing -/

lemma removeLoop_of_notMem (hitem : item ∉ xs) (r p : Option ℕ) (h : Chain m.next p xs)
    (rounds : ℕ) (hrounds : xs.length < rounds) :
    removeLoop m list item rounds r p = some m := by
  induction xs generalizing r p rounds with
  | nil =>
      obtain ⟨n, rfl⟩ := Nat.exists_eq_add_of_lt hrounds
      rw [chain_nil.mp h]
      rfl
  | cons x xs ih =>
      obtain ⟨n, rfl⟩ := Nat.exists_eq_add_of_lt hrounds
      have hx : x ≠ item := fun hx => hitem (hx ▸ List.mem_cons_self ..)
      rw [h.1, removeLoop, if_neg hx]
      exact ih (fun hxs => hitem (List.mem_cons_of_mem _ hxs)) _ _ h.2 _ (by simp; omega)

lemma removeLoop_of_mem (as bs : List ℕ) (r p : Option ℕ)
    (h : Chain m.next p (as ++ item :: bs)) (rounds : ℕ) (hrounds : as.length < rounds) :
    removeLoop m list item rounds r p = some (m.unlink list item (as.getLast?.or r)) := by
  induction as generalizing r p rounds with
  | nil =>
      obtain ⟨n, rfl⟩ := Nat.exists_eq_add_of_lt hrounds
      rw [h.1, removeLoop, if_pos rfl]
      rfl
  | cons x as ih =>
      obtain ⟨n, rfl⟩ := Nat.exists_eq_add_of_lt hrounds
      have hx : x ≠ item := by
        rintro rfl
        exact h.notMem_before (List.mem_cons_self ..)
      rw [h.1, removeLoop, if_neg hx, ih _ _ h.2 _ (by simp; omega)]
      cases as <;> rfl

lemma listRemove_eq (h : Chain m.next (m.head list) xs) (hxs : xs ≠ []) (rounds : ℕ) :
    m.listRemove rounds list item = removeLoop m list item rounds none (m.head list) := by
  cases xs with
  | nil => exact absurd rfl hxs
  | cons x xs => rw [listRemove, h.1]

/-- `list_remove` of an item that is not on the chain. -/
lemma listRemove_settles_of_notMem (h : Chain m.next (m.head list) xs) (hitem : item ∉ xs) :
    SettlesTo (fun rounds => m.listRemove rounds list item) m := by
  refine ⟨xs.length + 1, fun rounds hrounds => ?_⟩
  show listRemove rounds m list item = _
  cases xs with
  | nil => rw [listRemove, chain_nil.mp h]
  | cons x xs =>
      rw [listRemove_eq h (List.cons_ne_nil _ _),
        removeLoop_of_notMem hitem none _ h rounds (by omega)]

/-- `list_remove` ends, and the item is not on the chain any more. -/
lemma listRemove_settles (h : Chain m.next (m.head list) xs) (item : ℕ) :
    ∃ m', SettlesTo (fun rounds => m.listRemove rounds list item) m' ∧
      Chain m'.next (m'.head list) (xs.erase item) ∧ Touches m m' list xs := by
  by_cases hitem : item ∈ xs
  · obtain ⟨as, bs, rfl⟩ := List.append_of_mem hitem
    have herase : (as ++ item :: bs).erase item = as ++ bs := by
      rw [List.erase_append_right _ h.notMem_before, List.erase_cons_head]
    refine ⟨m.unlink list item as.getLast?, ⟨as.length + 1, fun rounds hrounds => ?_⟩, ?_⟩
    · show listRemove rounds m list item = _
      rw [listRemove_eq h (by simp), removeLoop_of_mem as bs none _ h rounds (by omega),
        Option.or_none]
    · rw [herase]
      obtain rfl | ⟨cs, y, rfl⟩ := as.eq_nil_or_concat'
      · have hbehind : Chain m.next (m.next item) bs := h.2
        refine ⟨?_, (touches_setHead _).trans (touches_setNext (List.mem_cons_self ..) _)⟩
        have hbs : item ∉ bs := (List.nodup_cons.mp h.nodup).1
        simpa [unlink] using hbehind.update hbs
      · have hy : y ≠ item := fun hy => h.notMem_before (by simp [hy])
        have hcs : item ∉ cs ++ y :: bs := by
          have hbefore := h.notMem_before
          have hbehind := h.notMem_behind
          simp only [List.mem_append, List.mem_cons] at hbefore ⊢
          tauto
        rw [List.append_assoc] at h
        rw [List.getLast?_concat]
        have hymem : y ∈ cs ++ [y] ++ item :: bs := by simp
        refine ⟨?_, (touches_setNext hymem _).trans (touches_setNext hitem _)⟩
        simpa [unlink] using (Chain.unlink h).update hcs
  · refine ⟨m, listRemove_settles_of_notMem h hitem, ?_, Touches.refl⟩
    rwa [List.erase_of_not_mem hitem]

/-! ## Adding -/

/-- The second half of `list_add`. -/
lemma link_settles (h : Chain m.next (m.head list) xs) (hitem : item ∉ xs) :
    SettlesTo (fun rounds => (listTail rounds (m.setNext item none) list).map fun l =>
      (m.setNext item none).link list item l) ((m.setNext item none).link list item xs.getLast?) :=
  SettlesTo.map (listTail_settles (h.update hitem)) _

lemma link_chain (h : Chain m.next (m.head list) xs) (hitem : item ∉ xs) :
    Chain ((m.setNext item none).link list item xs.getLast?).next
      (((m.setNext item none).link list item xs.getLast?).head list) (xs ++ [item]) := by
  obtain rfl | ⟨ys, y, rfl⟩ := xs.eq_nil_or_concat'
  · simp [link]
  · rw [List.getLast?_concat]
    exact Chain.append (h.update hitem) hitem (Function.update_self ..)

lemma link_touches (p : Option ℕ) (hp : p = xs.getLast?) :
    Touches m ((m.setNext item none).link list item p) list (item :: xs) := by
  refine (touches_setNext (List.mem_cons_self ..) none).trans ?_
  cases p with
  | none => exact touches_setHead _
  | some l =>
      exact touches_setNext (List.mem_cons_of_mem _ (List.mem_of_getLast? hp.symm)) _

/-- `list_add` of an item that is not on the chain. -/
lemma listAdd_settles_of_notMem (h : Chain m.next (m.head list) xs) (hitem : item ∉ xs) :
    SettlesTo (fun rounds => m.listAdd rounds list item)
      ((m.setNext item none).link list item xs.getLast?) :=
  (listRemove_settles_of_notMem h hitem).bind (link_settles h hitem)

/-- `list_add` ends with the item last. -/
lemma listAdd_settles (h : Chain m.next (m.head list) xs) (item : ℕ) :
    ∃ m', SettlesTo (fun rounds => m.listAdd rounds list item) m' ∧
      Chain m'.next (m'.head list) (Ampm.listAdd xs item) ∧
      Touches m m' list (item :: xs) := by
  obtain ⟨m₁, hsettles, hchain, htouches⟩ := listRemove_settles h item
  have hitem : item ∉ xs.erase item := h.nodup.not_mem_erase
  refine ⟨_, hsettles.bind (link_settles hchain hitem), link_chain hchain hitem, ?_⟩
  exact (htouches.mono (List.subset_cons_self ..)).trans
    ((link_touches _ rfl).mono (List.cons_subset_cons _ List.erase_subset))

/-- `list_push` ends with the item in front. -/
lemma listPush_settles (h : Chain m.next (m.head list) xs) (item : ℕ) :
    ∃ m', SettlesTo (fun rounds => m.listPush rounds list item) m' ∧
      Chain m'.next (m'.head list) (item :: xs.erase item) ∧ Touches m m' list (item :: xs) := by
  obtain ⟨m₁, hsettles, hchain, htouches⟩ := listRemove_settles h item
  refine ⟨_, hsettles.map _, ?_, (htouches.mono (List.subset_cons_self ..)).trans
    ((touches_setNext (List.mem_cons_self ..) _).trans (touches_setHead _))⟩
  simpa using hchain.push h.nodup.not_mem_erase

/-! ## Taking from the ends -/

lemma chopLoop_eq {next : ℕ → Option ℕ} {l r : ℕ} (h : Chain next (some l) (l :: r :: xs))
    (rounds : ℕ) (hrounds : xs.length < rounds) :
    ∃ as a b, l :: r :: xs = as ++ [a, b] ∧ chopLoop next rounds l r = some (a, b) := by
  induction xs generalizing l r rounds with
  | nil =>
      obtain ⟨n, rfl⟩ := Nat.exists_eq_add_of_le' (Nat.le_trans (Nat.le_add_left 1 _) hrounds)
      refine ⟨[], l, r, rfl, ?_⟩
      simp only [chopLoop, chain_nil.mp h.2.2]
  | cons x xs ih =>
      obtain ⟨n, rfl⟩ := Nat.exists_eq_add_of_le' (Nat.le_trans (Nat.le_add_left 1 _) hrounds)
      obtain ⟨as, a, b, hab, hloop⟩ := ih ⟨rfl, h.2.2⟩ n (Nat.lt_of_succ_lt_succ hrounds)
      refine ⟨l :: as, a, b, by rw [hab, List.cons_append], ?_⟩
      rw [chopLoop, h.2.2.1]
      exact hloop

/-- `list_chop` ends without the last item, and returns it. -/
lemma listChop_settles (h : Chain m.next (m.head list) xs) :
    ∃ m', SettlesTo (fun rounds => m.listChop rounds list) (xs.getLast?, m') ∧
      Chain m'.next (m'.head list) xs.dropLast ∧ Touches m m' list xs := by
  cases xs with
  | nil =>
      refine ⟨m, ⟨0, fun rounds _ => ?_⟩, h, Touches.refl⟩
      simp only [listChop, chain_nil.mp h, List.getLast?_nil]
  | cons x xs =>
      cases xs with
      | nil =>
          refine ⟨m.setHead list none, ⟨0, fun rounds _ => ?_⟩, by simp, touches_setHead _⟩
          simp only [listChop, h.1, chain_nil.mp h.2, List.getLast?_singleton]
      | cons y xs =>
          have hx : Chain m.next (some x) (x :: y :: xs) := ⟨rfl, h.2⟩
          obtain ⟨as, a, b, hab, -⟩ := chopLoop_eq hx (xs.length + 1) (Nat.lt_succ_self _)
          refine ⟨m.setNext a none, ⟨xs.length + 1, fun rounds hrounds => ?_⟩, ?_, ?_⟩
          · obtain ⟨as', a', b', hab', hloop⟩ := chopLoop_eq hx rounds hrounds
            obtain ⟨-, hlast⟩ := List.append_inj' (hab.symm.trans hab') rfl
            obtain ⟨rfl, rfl⟩ : a = a' ∧ b = b' := by simpa using hlast
            simp [listChop, h.1, h.2.1, hloop, hab]
          · rw [hab] at h ⊢
            rw [List.dropLast_append_cons, List.dropLast_cons_cons, List.dropLast_singleton]
            exact Chain.chop h
          · exact touches_setNext (by simp [hab]) _

/-- `list_pop` takes the first item. -/
lemma listPop_eq (h : Chain m.next (m.head list) xs) :
    ∃ m', m.listPop list = (xs.head?, m') ∧ Chain m'.next (m'.head list) xs.tail ∧
      Touches m m' list xs := by
  cases xs with
  | nil =>
      refine ⟨m, ?_, h, Touches.refl⟩
      simp only [listPop, chain_nil.mp h, List.head?_nil]
  | cons x xs =>
      refine ⟨m.setHead list (m.next x), ?_, by simpa using (chain_cons.mp h).2, touches_setHead _⟩
      simp only [listPop, h.1, List.head?_cons]

/-! ## Inserting -/

/-- The list with an item put behind another one. -/
def insertBehind (xs : List ℕ) (previtem newitem : ℕ) : List ℕ :=
  xs.takeWhile (fun x => x ≠ previtem) ++
    previtem :: newitem :: (xs.dropWhile fun x => x ≠ previtem).tail

lemma insertBehind_append (h : x ∉ xs) :
    insertBehind (xs ++ x :: ys) x y = xs ++ x :: y :: ys := by
  have hxs : ∀ z ∈ xs, decide (z ≠ x) = true := fun z hz => decide_eq_true fun hzx => h (hzx ▸ hz)
  rw [insertBehind, List.takeWhile_append_of_pos hxs, List.dropWhile_append_of_pos hxs]
  simp

/-- `list_insert` behind an item of the list, of an item that is not on it. -/
lemma listInsert_some (h : Chain m.next (m.head list) xs) (hx : x ∈ xs) (hitem : item ∉ xs)
    (rounds : ℕ) :
    ∃ m', m.listInsert rounds list (some x) item = some m' ∧
      Chain m'.next (m'.head list) (insertBehind xs x item) ∧ Touches m m' list (item :: xs) := by
  obtain ⟨as, bs, rfl⟩ := List.append_of_mem hx
  refine ⟨_, rfl, ?_, (touches_setNext (List.mem_cons_self ..) _).trans
    (touches_setNext (List.mem_cons_of_mem _ hx) _)⟩
  rw [insertBehind_append h.notMem_before]
  exact h.insertAfter hitem

end ListMem

end Ampm

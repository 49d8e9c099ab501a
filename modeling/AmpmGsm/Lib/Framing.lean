import Mathlib.Data.List.Basic

/-!
# Frames in a byte queue

Packets of different lengths share one queue of symbols: each is written as a frame that ends with
a mark which no frame has inside.  A writer that finds too little room leaves the beginning of a
frame.  The reader takes everything up to the next mark, so that what is written behind such a
fragment is taken together with it.

* `IsFrame` — a start mark, anything without the end mark, and the end mark.
* `WholeFrames` — the queue holds frames of packets not yet taken, and behind them at most a
  fragment; what was taken are packets that were put, in their order.
* `WholeFrames.putWhole`, `WholeFrames.putPart`, `WholeFrames.front` — what keeps it.
-/

namespace Framing

variable {α β : Type*} (start stop : α) (wire : β → List α)

/-- The symbols of one frame. -/
def IsFrame (f : List α) : Prop := ∃ body, f = start :: body ++ [stop] ∧ stop ∉ start :: body

/-- The queue holds frames of packets that were put, and behind them at most a fragment. -/
structure WholeFrames (contents : List α) (put got : List β) where
  done : List β
  queued : List β
  fragment : List α
  contents_eq : contents = queued.flatMap wire ++ fragment
  frames : ∀ b ∈ queued, IsFrame start stop (wire b)
  stop_not_mem : stop ∉ fragment
  accounted : (done ++ queued).Sublist put
  got_sublist : got.Sublist done

variable {start stop} {f : List α}

lemma IsFrame.stop_not_mem_take (h : IsFrame start stop f) {n : ℕ} (hn : n < f.length) :
    stop ∉ f.take n := by
  obtain ⟨body, rfl, hstop⟩ := h
  rw [List.length_append, List.length_singleton] at hn
  rw [List.take_append_of_le_length (Nat.le_of_lt_succ hn)]
  exact fun hmem => hstop (List.mem_of_mem_take hmem)

lemma IsFrame.getLast?_append (h : IsFrame start stop f) (l : List α) :
    (l ++ f).getLast? = some stop := by
  obtain ⟨body, rfl, -⟩ := h
  rw [← List.append_assoc, List.getLast?_concat]

namespace WholeFrames

variable {wire} {contents : List α} {put got : List β}

/-- The packets that were taken were put, in this order. -/
lemma sublist (h : WholeFrames start stop wire contents put got) : got.Sublist put :=
  h.got_sublist.trans ((List.sublist_append_left _ _).trans h.accounted)

/-- An empty queue. -/
def empty : WholeFrames start stop wire [] ([] : List β) [] where
  done := []
  queued := []
  fragment := []
  contents_eq := rfl
  frames := by simp
  stop_not_mem := List.not_mem_nil
  accounted := List.nil_sublist _
  got_sublist := List.nil_sublist _

lemma fragment_eq_nil (h : WholeFrames start stop wire contents put got)
    (hend : contents = [] ∨ contents.getLast? = some stop) : h.fragment = [] := by
  by_contra hne
  have hlast : contents.getLast? = h.fragment.getLast? :=
    (congrArg List.getLast? h.contents_eq).trans (List.getLast?_append_of_ne_nil _ hne)
  rcases hend with hnil | hstop
  · exact hne (List.append_eq_nil_iff.mp (h.contents_eq.symm.trans hnil)).2
  · rw [hlast] at hstop
    exact h.stop_not_mem (List.mem_of_getLast? hstop)

/-- A whole frame behind whole frames. -/
def putWhole (h : WholeFrames start stop wire contents put got)
    (hend : contents = [] ∨ contents.getLast? = some stop) {b : β}
    (hb : IsFrame start stop (wire b)) :
    WholeFrames start stop wire (contents ++ wire b) (put ++ [b]) got where
  done := h.done
  queued := h.queued ++ [b]
  fragment := []
  contents_eq := by
    have heq : contents ++ wire b = h.queued.flatMap wire ++ h.fragment ++ wire b :=
      congrArg (· ++ wire b) h.contents_eq
    rw [heq, h.fragment_eq_nil hend]
    simp
  frames := by
    intro b' hb'
    rcases List.mem_append.mp hb' with hold | hnew
    · exact h.frames b' hold
    · rw [List.mem_singleton.mp hnew]
      exact hb
  stop_not_mem := List.not_mem_nil
  accounted := by
    rw [← List.append_assoc]
    exact h.accounted.append (List.Sublist.refl [b])
  got_sublist := h.got_sublist

/-- A part of a frame. -/
def putPart (h : WholeFrames start stop wire contents put got) {b : β}
    (hb : IsFrame start stop (wire b)) {n : ℕ} (hn : n < (wire b).length) :
    WholeFrames start stop wire (contents ++ (wire b).take n) (put ++ [b]) got where
  done := h.done
  queued := h.queued
  fragment := h.fragment ++ (wire b).take n
  contents_eq := (congrArg (· ++ _) h.contents_eq).trans (List.append_assoc _ _ _)
  frames := h.frames
  stop_not_mem := by
    rw [List.mem_append]
    exact not_or.mpr ⟨h.stop_not_mem, hb.stop_not_mem_take hn⟩
  accounted := h.accounted.trans (List.sublist_append_left put [b])
  got_sublist := h.got_sublist

/-- A reader finds a frame in front, or no end of one. -/
lemma front (h : WholeFrames start stop wire contents put got) :
    (∃ b rest, IsFrame start stop (wire b) ∧ contents = wire b ++ rest ∧
      Nonempty (WholeFrames start stop wire rest put got) ∧
      Nonempty (WholeFrames start stop wire rest put (got ++ [b]))) ∨ stop ∉ contents := by
  cases hq : h.queued with
  | nil =>
      right
      rw [h.contents_eq, hq]
      exact h.stop_not_mem
  | cons b queued =>
      left
      have hframe : IsFrame start stop (wire b) := h.frames b (hq ▸ List.mem_cons_self)
      have hacc : (h.done ++ [b] ++ queued).Sublist put := by
        have haccounted := h.accounted
        rw [hq] at haccounted
        rw [List.append_assoc]
        exact haccounted
      have hrest : ∀ got', got'.Sublist (h.done ++ [b]) →
          Nonempty (WholeFrames start stop wire (queued.flatMap wire ++ h.fragment) put got') :=
        fun got' hgot =>
          ⟨⟨h.done ++ [b], queued, h.fragment, rfl,
            fun b' hb' => h.frames b' (hq ▸ List.mem_cons_of_mem b hb'), h.stop_not_mem, hacc,
            hgot⟩⟩
      refine ⟨b, queued.flatMap wire ++ h.fragment, hframe, ?_, ?_, ?_⟩
      · rw [← List.append_assoc, ← List.flatMap_cons, ← hq]
        exact h.contents_eq
      · exact hrest got (h.got_sublist.trans (List.sublist_append_left _ _))
      · exact hrest (got ++ [b]) (h.got_sublist.append (List.Sublist.refl [b]))

/-- A reader that finds no end of a frame takes everything. -/
def drop (h : WholeFrames start stop wire contents put got) :
    WholeFrames start stop wire [] put got where
  done := h.done
  queued := []
  fragment := []
  contents_eq := rfl
  frames := by simp
  stop_not_mem := List.not_mem_nil
  accounted := by
    rw [List.append_nil]
    exact (List.sublist_append_left _ _).trans h.accounted
  got_sublist := h.got_sublist

end WholeFrames

end Framing

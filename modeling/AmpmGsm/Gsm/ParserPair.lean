import AmpmGsm.Gsm.DataCmp
import AmpmGsm.Gsm.StrSearch
import AmpmGsm.Lib.Runs

/-!
# Parsers that share `lastChar`

`lib/sparser.c`: the counters of `StrComnandParser` belong to an instance, its `lastChar` to the
function.  `AT_CmdParser` runs in the receive interrupt and `ampm_AtCallBackParser` in the task, so
the bytes of the two may come in any order.

* `Party`, `Parsers`, `parsersStep` — instances with their callbacks, and one `lastChar`.
* `alone` — an instance that has the function for itself.
* `SameFallback` — the foreign bytes in `lastChar` make no difference to the byte at hand.
* `parsers_independent_iff` — the interleavings in which the instances do not disturb each other.
-/

namespace Ampm

open Runs

/-! ## Instances -/

/-- What an instance is given: the commands and their callbacks, which work on a state `σ`. -/
structure StrInfo (σ : Type*) where
  commands : List (List UInt8)
  callback : ℕ → UInt16 → UInt8 → σ → UInt32 × σ

/-- An instance, the state of its callbacks, and the calls made to them. -/
structure Party (σ : Type*) where
  inst : StrInstance
  world : σ
  calls : List (ℕ × UInt16 × UInt8)

section Party

variable {σ : Type*}

/-- The callbacks, with a record of the calls. -/
def StrInfo.logged (info : StrInfo σ) (i : ℕ) (cnt : UInt16) (c : UInt8)
    (w : σ × List (ℕ × UInt16 × UInt8)) : UInt32 × σ × List (ℕ × UInt16 × UInt8) :=
  let r := info.callback i cnt c w.1
  (r.1, r.2, w.2 ++ [(i, cnt, c)])

/-- `StrComnandParser` at a time and with a byte, and what it leaves in `lastChar`. -/
def Party.byte (info : StrInfo σ) (p : Party σ) (lastChar : UInt8) (b : UInt32 × UInt8) :
    Party σ × UInt8 :=
  let r := strComnandParser b.1 info.commands info.logged p.inst lastChar b.2 (p.world, p.calls)
  (⟨r.1, r.2.2.1, r.2.2.2⟩, r.2.1)

end Party

/-! ## Interleavings -/

section Interleavings

variable {ι : Type*} [DecidableEq ι] {σ : ι → Type*} (info : ∀ i, StrInfo (σ i))

/-- The instances and the static variable. -/
structure Parsers (σ : ι → Type*) where
  party : ∀ i, Party (σ i)
  lastChar : UInt8

/-- A byte for one of the instances. -/
def parsersStep (st : Parsers σ) (e : ι × UInt32 × UInt8) : Parsers σ :=
  let r := (st.party e.1).byte (info e.1) st.lastChar e.2
  ⟨Function.update st.party e.1 r.1, r.2⟩

/-- A byte for an instance that shares nothing. -/
def aloneStep {τ : Type*} (info : StrInfo τ) (st : Party τ × UInt8) (b : UInt32 × UInt8) :
    Party τ × UInt8 :=
  st.1.byte info st.2 b

/-- The bytes for the instance `i`. -/
def streamOf (i : ι) (s : List (ι × UInt32 × UInt8)) : List (UInt32 × UInt8) :=
  (s.filter fun e => e.1 = i).map Prod.snd

/-- The instance `i` after its stream, processed alone from the same start. -/
def alone (st : Parsers σ) (i : ι) (s : List (ι × UInt32 × UInt8)) : Party (σ i) :=
  (run (aloneStep (info i)) (st.party i, st.lastChar) (streamOf i s)).1

/-! ## The condition -/

/-- In the search: a command that does not go on with the byte, and before which no other command
does, has its first byte in the one `lastChar` if and only if it has it in the other. -/
def SameFallback {τ : Type*} (info : StrInfo τ) (p : Party τ) (lastChar own : UInt8)
    (b : UInt32 × UInt8) : Prop :=
  let s := strParserCtl b.1 p.inst
  let q : SearchByte := ⟨info.commands, s.numCharParsed, lastChar, b.2⟩
  s.process.state = .finish → ∀ i < s.process.strParserCntMax.toNat, (∀ j ≤ i, q.isNext j = false) →
    (lastChar = (info.commands.getD i []).getD 0 0 ↔ own = (info.commands.getD i []).getD 0 0)

/-- The instances, and for each what `lastChar` would be if only this one had set it. -/
structure WatchedParsers (σ : ι → Type*) where
  parsers : Parsers σ
  own : ι → UInt8

def watchedStep (st : WatchedParsers σ) (e : ι × UInt32 × UInt8) : WatchedParsers σ :=
  ⟨parsersStep info st.parsers e,
    Function.update st.own e.1 ((st.parsers.party e.1).byte (info e.1) (st.own e.1) e.2).2⟩

def watch (st : Parsers σ) : WatchedParsers σ := ⟨st, fun _ => st.lastChar⟩

/-- The instance whose turn it is does not see the others' bytes. -/
def Undisturbed (st : WatchedParsers σ) (e : ι × UInt32 × UInt8) : Prop :=
  SameFallback (info e.1) (st.parsers.party e.1) st.parsers.lastChar (st.own e.1) e.2

end Interleavings

/-! ## One byte -/

section Byte

/-- `lastChar` when the loop comes to the command `n`: that of the byte before, or the byte. -/
lemma SearchByte.last_eq (q : SearchByte) :
    ∀ n, q.last n = if ∀ j < n, q.isNext j = false then q.lastChar else q.c
  | 0 => by
      rw [SearchByte.last, if_pos fun j hj => absurd hj (Nat.not_lt_zero j)]
  | n + 1 => by
      rw [SearchByte.last, q.last_eq n]
      by_cases hn : q.isNext n = true
      · rw [if_pos hn, if_neg]
        intro hall
        rw [hall n (Nat.lt_succ_self n)] at hn
        exact Bool.false_ne_true hn
      · rw [if_neg hn]
        refine if_congr ⟨fun hall j hj => ?_, fun hall j hj => hall j (Nat.lt_succ_of_lt hj)⟩ rfl rfl
        rcases Nat.lt_succ_iff_lt_or_eq.mp hj with hlt | rfl
        · exact hall j hlt
        · exact (Bool.not_eq_true _).mp hn

/-- The two counters are the same if and only if `lastChar` makes no difference. -/
lemma SearchByte.count_eq_iff (commands : List (List UInt8)) (num : ℕ → UInt8)
    (lastChar own c : UInt8) (i : ℕ) :
    (⟨commands, num, lastChar, c⟩ : SearchByte).count i =
        (⟨commands, num, own, c⟩ : SearchByte).count i ↔
      ((∀ j ≤ i, (⟨commands, num, lastChar, c⟩ : SearchByte).isNext j = false) →
        (lastChar = (commands.getD i []).getD 0 0 ↔ own = (commands.getD i []).getD 0 0)) := by
  have hown : ∀ j, (⟨commands, num, own, c⟩ : SearchByte).isNext j =
      (⟨commands, num, lastChar, c⟩ : SearchByte).isNext j := fun _ => rfl
  rw [SearchByte.count, SearchByte.count, SearchByte.last_eq, SearchByte.last_eq]
  simp only [hown]
  generalize (⟨commands, num, lastChar, c⟩ : SearchByte).isNext = next
  by_cases hi : next i = true
  · rw [if_pos hi, if_pos hi]
    refine iff_of_true rfl fun hall => ?_
    rw [hall i (Nat.le_refl i)] at hi
    exact absurd hi Bool.false_ne_true
  · rw [if_neg hi, if_neg hi]
    by_cases hall : ∀ j < i, next j = false
    · have hle : ∀ j ≤ i, next j = false := by
        intro j hj
        rcases Nat.lt_or_eq_of_le hj with hlt | rfl
        · exact hall j hlt
        · exact (Bool.not_eq_true _).mp hi
      rw [if_pos hall, if_pos hall, imp_iff_right hle]
      split_ifs with h1 h2 h2
      · exact iff_of_true rfl (iff_of_true h1 h2)
      · exact iff_of_false (by decide) fun h => h2 (h.mp h1)
      · exact iff_of_false (by decide) fun h => h1 (h.mpr h2)
      · exact iff_of_true rfl (iff_of_false h1 h2)
    · rw [if_neg hall, if_neg hall]
      exact iff_of_true rfl fun hle => absurd (fun j hj => hle j (Nat.le_of_lt hj)) hall

/-- The whole search is the same if and only if every counter is. -/
lemma strSearch_eq_iff (commands : List (List UInt8)) (c : UInt8) (s : StrInstance)
    (lastChar own : UInt8) (n : ℕ) :
    ((List.range n).foldl (strSearch commands c) (s, lastChar)).1 =
        ((List.range n).foldl (strSearch commands c) (s, own)).1 ↔
      ∀ i < n, (⟨commands, s.numCharParsed, lastChar, c⟩ : SearchByte).count i =
        (⟨commands, s.numCharParsed, own, c⟩ : SearchByte).count i := by
  obtain ⟨-, hnum, hprocess⟩ := strSearch_fold commands c s lastChar n
  obtain ⟨-, hnum', hprocess'⟩ := strSearch_fold commands c s own n
  have hsame : (⟨commands, s.numCharParsed, lastChar, c⟩ : SearchByte).completes =
      (⟨commands, s.numCharParsed, own, c⟩ : SearchByte).completes := rfl
  rw [hsame, ← hprocess'] at hprocess
  generalize (List.range n).foldl (strSearch commands c) (s, lastChar) = r at hnum hprocess
  generalize (List.range n).foldl (strSearch commands c) (s, own) = r' at hnum' hprocess
  constructor
  · intro heq i hi
    have h := congrArg (fun t => t.numCharParsed i) heq
    rwa [hnum, hnum', if_pos hi, if_pos hi] at h
  · intro hcount
    have hcounters : r.1.numCharParsed = r'.1.numCharParsed := by
      funext i
      rw [hnum, hnum']
      split_ifs with hi
      · exact hcount i hi
      · rfl
    calc r.1 = ⟨r.1.process, r.1.numCharParsed⟩ := rfl
      _ = ⟨r'.1.process, r'.1.numCharParsed⟩ := by rw [hprocess, hcounters]
      _ = r'.1 := rfl

/-- An instance comes out of a byte the same with either `lastChar` if and only if the byte finds
the same fallback. -/
lemma byte_eq_iff {σ : Type*} (info : StrInfo σ) (p : Party σ) (lastChar own : UInt8)
    (b : UInt32 × UInt8) :
    (p.byte info lastChar b).1 = (p.byte info own b).1 ↔ SameFallback info p lastChar own b := by
  unfold Party.byte SameFallback strComnandParser
  dsimp only
  cases hstate : (strParserCtl b.1 p.inst).process.state with
  | newState => exact iff_of_true rfl fun h => absurd h (by decide)
  | waitFinish => exact iff_of_true rfl fun h => absurd h (by decide)
  | finish =>
      simp only [Party.mk.injEq, and_true, true_imp_iff]
      rw [strSearch_eq_iff]
      simp only [SearchByte.count_eq_iff]

end Byte

/-! ## Runs -/

section Run

variable {ι : Type*} [DecidableEq ι] {σ : ι → Type*} {info : ∀ i, StrInfo (σ i)}

lemma streamOf_cons (i : ι) (e : ι × UInt32 × UInt8) (s : List (ι × UInt32 × UInt8)) :
    streamOf i (e :: s) = if e.1 = i then e.2 :: streamOf i s else streamOf i s := by
  rw [streamOf, List.filter_cons]
  simp only [decide_eq_true_iff]
  split_ifs <;> rfl

/-- The instance `i` on its own, from what it would have in `lastChar`. -/
def aloneFrom (info : ∀ i, StrInfo (σ i)) (st : WatchedParsers σ) (i : ι)
    (s : List (ι × UInt32 × UInt8)) : Party (σ i) :=
  (run (aloneStep (info i)) (st.parsers.party i, st.own i) (streamOf i s)).1

/-- A byte that finds the same fallback is the byte of the instance alone. -/
lemma aloneFrom_cons {st : WatchedParsers σ} {e : ι × UInt32 × UInt8} (h : Undisturbed info st e)
    (i : ι) (s : List (ι × UInt32 × UInt8)) :
    aloneFrom info st i (e :: s) = aloneFrom info (watchedStep info st e) i s := by
  rw [aloneFrom, aloneFrom, streamOf_cons]
  by_cases hi : e.1 = i
  · subst hi
    have hparty : ((watchedStep info st e).parsers.party e.1, (watchedStep info st e).own e.1) =
        aloneStep (info e.1) (st.parsers.party e.1, st.own e.1) e.2 := by
      refine Prod.ext ?_ ?_
      · show Function.update st.parsers.party e.1 _ e.1 = _
        rw [Function.update_self]
        exact (byte_eq_iff _ _ _ _ _).mpr h
      · show Function.update st.own e.1 _ e.1 = _
        rw [Function.update_self]
        rfl
    rw [if_pos rfl, run_cons, hparty]
  · have hparty : (watchedStep info st e).parsers.party i = st.parsers.party i :=
      Function.update_of_ne (Ne.symm hi) _ _
    have hown : (watchedStep info st e).own i = st.own i :=
      Function.update_of_ne (Ne.symm hi) _ _
    rw [if_neg hi, hparty, hown]

/-- From a watched state: the instances go on as they would alone if and only if no byte is
disturbed. -/
lemma aloneFrom_iff (st : WatchedParsers σ) (s : List (ι × UInt32 × UInt8)) :
    (∀ u, u <+: s → ∀ i, (run (parsersStep info) st.parsers u).party i = aloneFrom info st i u) ↔
      StepsMeet (watchedStep info) (Undisturbed info) st s := by
  induction s generalizing st with
  | nil =>
      refine iff_of_true (fun u hu i => ?_) trivial
      rw [List.prefix_nil.mp hu]
      rfl
  | cons e s ih =>
      rw [StepsMeet, ← ih]
      constructor
      · intro h
        have hfirst : Undisturbed info st e := by
          have hone := h [e] (List.cons_prefix_cons.mpr ⟨rfl, List.nil_prefix⟩) e.1
          rw [aloneFrom, streamOf_cons, if_pos rfl] at hone
          refine (byte_eq_iff _ _ _ _ _).mp (Eq.trans ?_ hone)
          exact (Function.update_self e.1 _ st.parsers.party).symm
        refine ⟨hfirst, fun u hu i => ?_⟩
        rw [← aloneFrom_cons hfirst]
        exact h (e :: u) (List.cons_prefix_cons.mpr ⟨rfl, hu⟩) i
      · rintro ⟨hfirst, hrest⟩ u hu i
        rcases List.prefix_cons_iff.mp hu with rfl | ⟨v, rfl, hv⟩
        · rfl
        · rw [aloneFrom_cons hfirst]
          exact hrest v hv i

/-- **Parsers that do not disturb each other.**  For any instances of the parser, any commands and
callbacks, any streams with their times and any interleaving of them: if no byte finds another
fallback because of the bytes that the other instances have left in `lastChar`, then each instance
makes the calls that it makes when its stream is processed alone, with the same arguments.  These
are exactly the interleavings in which every instance is throughout in the state in which it would
be alone. -/
theorem parsers_independent_iff (info : ∀ i, StrInfo (σ i)) (st : Parsers σ)
    (s : List (ι × UInt32 × UInt8)) :
    (StepsMeet (watchedStep info) (Undisturbed info) (watch st) s →
      ∀ u, u <+: s → ∀ i,
        ((run (parsersStep info) st u).party i).calls = (alone info st i u).calls) ∧
    ((∀ u, u <+: s → ∀ i, (run (parsersStep info) st u).party i = alone info st i u) ↔
      StepsMeet (watchedStep info) (Undisturbed info) (watch st) s) := by
  have hiff : (∀ u, u <+: s → ∀ i, (run (parsersStep info) st u).party i = alone info st i u) ↔
      StepsMeet (watchedStep info) (Undisturbed info) (watch st) s := aloneFrom_iff (watch st) s
  refine ⟨fun hmeet u hu i => ?_, hiff⟩
  exact congrArg Party.calls (hiff.mpr hmeet u hu i)

end Run

/-! ### Two parsers -/

/-- A parser for one command that has not been fed yet. -/
def oneCommandParty : Party Unit := ⟨⟨⟨.finish, 0, 100, 1, 0, 0, 10000⟩, fun _ => 0⟩, (), []⟩

/-- The two commands. -/
def twoCommands : Bool → StrInfo Unit
  | false => ⟨[bytesOf "OK"], fun _ _ _ w => (0, w)⟩
  | true => ⟨[bytesOf "OVER"], fun _ _ _ w => (0, w)⟩

/-- The `O` that one parser has matched makes the other find `OK` in `ZK`. -/
theorem parsers_disturbed :
    ¬ ∀ (info : Bool → StrInfo Unit) (st : Parsers fun _ : Bool => Unit)
      (s : List (Bool × UInt32 × UInt8)) (i : Bool),
      ((run (parsersStep info) st s).party i).calls = (alone info st i s).calls := by
  intro h
  have hcalls := h twoCommands ⟨fun _ => oneCommandParty, 0⟩
    [(true, 0, 0x4f), (false, 0, 0x5a), (false, 0, 0x4b), (false, 0, 0x0d)] false
  exact absurd hcalls (by decide)

end Ampm

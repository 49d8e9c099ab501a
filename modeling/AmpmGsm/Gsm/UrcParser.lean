import AmpmGsm.Gsm.DataCmp
import AmpmGsm.Gsm.StrSearch
import AmpmGsm.Lib.Matching
import AmpmGsm.Lib.Runs

/-!
# Where the string parser finds its commands

`lib/sparser.c`: on a byte that is not the next one of a command, `StrComnandParser` compares
`lastChar` with the first of the command.  That is the last byte that was the next one of *some*
command, and not the byte at hand.

* `Recogniser`, `recogniserStep` — a parser that is fed byte by byte until it has found a command.
* `Recognises` — what is asked of it.
* `Advances` — the condition at one byte.
* `strComnandParser_recognises` — the streams on which the parser finds what it should.
-/

namespace Ampm

open Matching Runs

/-! ## The property -/

/-- A symbol of a command: a tab stands for every byte. -/
def wild (a b : UInt8) : Bool := b = a || a = 9

/-- A parser, the static `lastChar`, and the bytes that the search was fed, newest first. -/
structure Recogniser where
  inst : StrInstance
  lastChar : UInt8
  fed : List UInt8

/-- `StrComnandParser` in `STR_FINISH`, at a time and with a byte.  What comes after the switch is
not for the search. -/
def recogniserStep {σ : Type*} (commands : List (List UInt8))
    (callback : ℕ → UInt16 → UInt8 → σ → UInt32 × σ) (w : σ) (st : Recogniser)
    (i : UInt32 × UInt8) : Recogniser :=
  if st.inst.process.state = .finish then
    let r := strComnandParser i.1 commands callback st.inst st.lastChar i.2 w
    ⟨r.1, r.2.1, i.2 :: st.fed⟩
  else st

/-- The command that the parser has switched to. -/
def recognised (s : StrInstance) : Option ℕ :=
  if s.process.state = .waitFinish then some s.process.strInProcess.toNat else none

/-- The last of the commands that the stream ends with. -/
def occurring (commands : List (List UInt8)) (fed : List UInt8) : Option ℕ :=
  lastIndex (fun i => endsWith wild (commands.getD i []) (commands.getD i []).length fed)
    commands.length

/-- The parser has switched if and only if the stream ends with a command, and to that one. -/
def Recognises (commands : List (List UInt8)) (st : Recogniser) : Prop :=
  recognised st.inst = occurring commands st.fed

/-- Each counter is what the stream has of the command. -/
def CountsOverlaps (commands : List (List UInt8)) (st : Recogniser) : Prop :=
  ∀ i < commands.length,
    (st.inst.numCharParsed i).toNat = overlap wild (commands.getD i []) st.fed

/-- A parser before its first byte.  The other parser may have left anything in `lastChar`. -/
structure FreshRecogniser (commands : List (List UInt8)) (st : Recogniser) : Prop where
  state_eq : st.inst.process.state = .finish
  max_eq : st.inst.process.strParserCntMax.toNat = commands.length
  counter_eq : ∀ i < commands.length, st.inst.numCharParsed i = 0
  fed_eq : st.fed = []

/-! ## The condition -/

/-- The byte is the next one of the pattern. -/
def matchesNext (p fed : List UInt8) (c : UInt8) : Bool :=
  match p[overlap wild p fed]? with
  | some a => wild a c
  | none => false

/-- `lastChar` when the search comes to the command `n`. -/
def lastMatched (commands : List (List UInt8)) (fed : List UInt8) (lastChar c : UInt8) :
    ℕ → UInt8
  | 0 => lastChar
  | n + 1 =>
      if matchesNext (commands.getD n []) fed c then c
      else lastMatched commands fed lastChar c n

/-- What the search goes back to at the command `i`. -/
def restart (commands : List (List UInt8)) (st : Recogniser) (c : UInt8) (i : ℕ) : ℕ :=
  if lastMatched commands st.fed st.lastChar c i = (commands.getD i []).getD 0 0 then 1 else 0

/-- At each command the byte is the next one, and the counter can count it, or what the stream has
of the command afterwards is what the search goes back to. -/
def Advances (commands : List (List UInt8)) (st : Recogniser) (i : UInt32 × UInt8) : Prop :=
  st.inst.process.state = .finish → ∀ j < commands.length,
    if matchesNext (commands.getD j []) st.fed i.2 then
      overlap wild (commands.getD j []) st.fed < 255
    else overlap wild (commands.getD j []) (i.2 :: st.fed) = restart commands st i.2 j

/-! ## One byte -/

section Step

variable {p fed : List UInt8} {c : UInt8}

lemma overlap_of_matchesNext (h : matchesNext p fed c = true) :
    overlap wild p (c :: fed) = overlap wild p fed + 1 := by
  rw [matchesNext] at h
  cases ha : p[overlap wild p fed]? with
  | none =>
      rw [ha] at h
      exact absurd h Bool.false_ne_true
  | some a =>
      rw [ha] at h
      exact overlap_cons_of_match ha h

lemma endsWith_length_iff :
    endsWith wild p p.length fed = true ↔ overlap wild p fed = p.length :=
  overlap_eq_length_iff.symm

variable {commands : List (List UInt8)} {q : SearchByte}

/-- The counters that the search starts from are what the stream has of the commands. -/
structure SearchTracks (commands : List (List UInt8)) (fed : List UInt8) (q : SearchByte) :
    Prop where
  commands_eq : q.commands = commands
  num_eq : ∀ i < commands.length, (q.num i).toNat = overlap wild (commands.getD i []) fed
  lt_length : ∀ i < commands.length,
    overlap wild (commands.getD i []) fed < (commands.getD i []).length

lemma SearchTracks.isNext (h : SearchTracks commands fed q) {i : ℕ} (hi : i < commands.length) :
    q.isNext i = matchesNext (commands.getD i []) fed q.c := by
  have hget := List.getElem?_eq_getElem (h.lt_length i hi)
  rw [SearchByte.isNext, h.commands_eq, h.num_eq i hi, matchesNext, hget,
    List.getD_eq_getElem?_getD, hget]
  rfl

lemma SearchTracks.last (h : SearchTracks commands fed q) :
    ∀ n ≤ commands.length, q.last n = lastMatched commands fed q.lastChar q.c n
  | 0, _ => rfl
  | n + 1, hn => by
      rw [SearchByte.last, lastMatched, h.isNext hn, h.last n (Nat.le_of_succ_le hn)]

/-- The counter of the command `i` after the byte. -/
lemma SearchTracks.count (h : SearchTracks commands fed q) {i : ℕ} (hi : i < commands.length) :
    (q.count i).toNat =
      if matchesNext (commands.getD i []) fed q.c then
        (overlap wild (commands.getD i []) fed + 1) % 256
      else if lastMatched commands fed q.lastChar q.c i = (commands.getD i []).getD 0 0 then 1
      else 0 := by
  rw [SearchByte.count, h.isNext hi, h.last i hi.le, h.commands_eq]
  split_ifs with hnext hfirst
  · rw [UInt8.toNat_add, h.num_eq i hi]
    rfl
  · rfl
  · rfl

end Step

section Search

variable {commands : List (List UInt8)} {st : Recogniser} {i : UInt32 × UInt8}

/-- The state of a search that has gone right so far. -/
structure SearchRight (commands : List (List UInt8)) (st : Recogniser) : Prop where
  max_eq : st.inst.process.strParserCntMax.toNat = commands.length
  counts : CountsOverlaps commands st
  recognises : Recognises commands st

/-- The search starts the byte from here. -/
def Recogniser.byte (commands : List (List UInt8)) (st : Recogniser) (c : UInt8) : SearchByte :=
  ⟨commands, st.inst.numCharParsed, st.lastChar, c⟩

lemma SearchRight.tracks (h : SearchRight commands st) (hst : st.inst.process.state = .finish)
    (c : UInt8) : SearchTracks commands st.fed (st.byte commands c) := by
  refine ⟨rfl, h.counts, fun j hj => ?_⟩
  have hnone : occurring commands st.fed = none := by
    rw [← h.recognises, recognised, hst]
    rfl
  have hnot := lastIndex_eq_none_iff.mp hnone j hj
  refine Nat.lt_of_le_of_ne (overlap_le _ _) fun heq => ?_
  rw [endsWith_length_iff.mpr heq] at hnot
  exact Bool.false_ne_true hnot.symm

variable {σ : Type*} {callback : ℕ → UInt16 → UInt8 → σ → UInt32 × σ} {w : σ}

variable (callback) in
/-- One byte of a search: the counters, and what it switches to. -/
lemma recogniserStep_spec (hst : st.inst.process.state = .finish)
    (hmax : st.inst.process.strParserCntMax.toNat = commands.length) :
    let q := st.byte commands i.2
    let st' := recogniserStep commands callback w st i
    st'.fed = i.2 :: st.fed ∧
      st'.inst.process.strParserCntMax = st.inst.process.strParserCntMax ∧
      (∀ j < commands.length, st'.inst.numCharParsed j = q.count j) ∧
      recognised st'.inst = lastIndex q.completes commands.length := by
  intro q st'
  have hfold := strSearch_fold commands i.2 (strParserCtl i.1 st.inst) st.lastChar commands.length
  have hctl : strParserCtl i.1 st.inst =
      { st.inst with process := { st.inst.process with timeout := i.1 } } := by
    rw [strParserCtl, if_pos hst]
  have hst' : st' =
      let r := (List.range commands.length).foldl (strSearch commands i.2)
        (strParserCtl i.1 st.inst, st.lastChar)
      ⟨r.1, r.2, i.2 :: st.fed⟩ := by
    simp only [st', recogniserStep, hst, if_true, strComnandParser, hctl, hmax]
  rw [hctl] at hfold hst'
  rw [hst']
  simp only at hfold ⊢
  obtain ⟨-, hnum, hprocess⟩ := hfold
  refine ⟨trivial, ?_, fun j hj => ?_, ?_⟩
  · rw [hprocess]
    split <;> rfl
  · rw [hnum, if_pos hj]
    rfl
  · rw [recognised, hprocess]
    show _ = lastIndex q.completes commands.length
    have hq : q = ⟨commands, st.inst.numCharParsed, st.lastChar, i.2⟩ := rfl
    rw [← hq]
    cases hlast : lastIndex q.completes commands.length with
    | none =>
        rw [hst]
        rfl
    | some j =>
        have hj : j < 256 := by
          have hlt := lastIndex_lt hlast
          have hbound := st.inst.process.strParserCntMax.toNat_lt
          omega
        simp only [if_true, Option.some.injEq]
        rw [Nat.toUInt8, UInt8.toNat_ofNat', Nat.mod_eq_of_lt hj]

/-- The counter of the command `j` after the byte. -/
lemma SearchRight.count (h : SearchRight commands st) (hst : st.inst.process.state = .finish)
    (i : UInt32 × UInt8) {j : ℕ} (hj : j < commands.length) :
    ((recogniserStep commands callback w st i).inst.numCharParsed j).toNat =
      if matchesNext (commands.getD j []) st.fed i.2 then
        (overlap wild (commands.getD j []) st.fed + 1) % 256
      else restart commands st i.2 j := by
  obtain ⟨-, -, hnum, -⟩ :=
    recogniserStep_spec (i := i) callback (w := w) hst h.max_eq
  rw [hnum j hj]
  exact (h.tracks hst i.2).count hj

/-- The condition is exactly that each counter follows its command. -/
lemma advances_iff (h : SearchRight commands st) (hst : st.inst.process.state = .finish) :
    Advances commands st i ↔
      CountsOverlaps commands (recogniserStep commands callback w st i) := by
  obtain ⟨hfed, -⟩ := recogniserStep_spec (i := i) callback (w := w) hst h.max_eq
  rw [Advances, CountsOverlaps, hfed, imp_iff_right hst]
  refine forall_congr' fun j => forall_congr' fun hj => ?_
  rw [h.count hst i hj]
  split_ifs with hnext
  · have hlt : (overlap wild (commands.getD j []) st.fed + 1) % 256 < 256 :=
      Nat.mod_lt _ (by decide)
    rw [overlap_of_matchesNext hnext]
    omega
  · exact eq_comm

/-- While the counters follow the commands, the search switches to the right one. -/
lemma SearchRight.completes (hnul : ∀ p ∈ commands, 0 ∉ p) (hlen : ∀ p ∈ commands, 2 ≤ p.length)
    (h : SearchRight commands st) (hst : st.inst.process.state = .finish)
    (hadv : Advances commands st i) {j : ℕ} (hj : j < commands.length) :
    (st.byte commands i.2).completes j =
      endsWith wild (commands.getD j []) (commands.getD j []).length (i.2 :: st.fed) := by
  have htracks := h.tracks hst i.2
  have hmem : commands.getD j [] ∈ commands := by
    rw [List.getD_eq_getElem?_getD, List.getElem?_eq_getElem hj]
    exact List.getElem_mem hj
  have hc := hadv hst j hj
  rw [Bool.eq_iff_iff, SearchByte.completes, htracks.isNext hj, Bool.and_eq_true_iff,
    endsWith_length_iff, decide_eq_true_iff, htracks.commands_eq, getD_eq_default_iff (hnul _ hmem)]
  show matchesNext _ _ i.2 = true ∧ _ ↔ _
  split_ifs at hc with hnext
  · have hnum : ((st.byte commands i.2).num j + 1).toNat =
        overlap wild (commands.getD j []) (i.2 :: st.fed) := by
      rw [UInt8.toNat_add, htracks.num_eq j hj, overlap_of_matchesNext hnext]
      exact Nat.mod_eq_of_lt (Nat.succ_lt_succ hc)
    rw [hnum, and_iff_right hnext]
    exact ⟨fun hle => Nat.le_antisymm (overlap_le _ _) hle, fun heq => heq.ge⟩
  · have hshort : restart commands st i.2 j < (commands.getD j []).length :=
      Nat.lt_of_le_of_lt (by unfold restart; split_ifs <;> decide) (hlen _ hmem)
    rw [hc]
    exact iff_of_false (fun hand => hnext hand.1) hshort.ne

theorem searchRight_step (hnul : ∀ p ∈ commands, 0 ∉ p) (hlen : ∀ p ∈ commands, 2 ≤ p.length)
    (h : SearchRight commands st) (hadv : Advances commands st i) :
    SearchRight commands (recogniserStep commands callback w st i) := by
  by_cases hst : st.inst.process.state = .finish
  · obtain ⟨hfed, hmax, -, hrec⟩ := recogniserStep_spec (i := i) callback (w := w) hst h.max_eq
    refine ⟨?_, (advances_iff h hst).mp hadv, ?_⟩
    · rw [hmax, h.max_eq]
    · rw [Recognises, hrec, hfed, occurring]
      exact lastIndex_congr fun j hj => h.completes hnul hlen hst hadv hj
  · rw [recogniserStep, if_neg hst]
    exact h

/-- **Where the string parser finds its commands.**  For every table of commands of two bytes or
more, every stream and whatever the other parser has left in `lastChar`: if at each byte, and for
each command, the byte is the next one and the counter can count it, or the command's part that is
there with the byte is the one that the search goes back to, then the parser switches at the first
byte with which the stream ends with a command, to the last of those commands, and never otherwise.
These are exactly the streams on which no counter ever departs from its command. -/
theorem strComnandParser_recognises (commands : List (List UInt8)) (hnul : ∀ p ∈ commands, 0 ∉ p)
    (hlen : ∀ p ∈ commands, 2 ≤ p.length) (callback : ℕ → UInt16 → UInt8 → σ → UInt32 × σ) (w : σ)
    (st : Recogniser) (hst : FreshRecogniser commands st) (s : List (UInt32 × UInt8)) :
    (StepsMeet (recogniserStep commands callback w) (Advances commands) st s →
      Throughout (recogniserStep commands callback w) (Recognises commands) st s) ∧
    (Throughout (recogniserStep commands callback w)
        (fun st => Recognises commands st ∧ CountsOverlaps commands st) st s ↔
      StepsMeet (recogniserStep commands callback w) (Advances commands) st s) := by
  have hstart : SearchRight commands st := by
    refine ⟨hst.max_eq, fun j hj => ?_, ?_⟩
    · rw [hst.counter_eq j hj, hst.fed_eq, overlap_nil]
      rfl
    · rw [Recognises, recognised, hst.state_eq, hst.fed_eq]
      refine (lastIndex_eq_none_iff.mpr fun j hj => ?_).symm
      have hmem : commands.getD j [] ∈ commands := by
        rw [List.getD_eq_getElem?_getD, List.getElem?_eq_getElem hj]
        exact List.getElem_mem hj
      have hpos := hlen _ hmem
      rw [← Bool.not_eq_true, endsWith_length_iff, overlap_nil]
      omega
  have hiff : Throughout (recogniserStep commands callback w)
        (fun st => Recognises commands st ∧ CountsOverlaps commands st) st s ↔
      StepsMeet (recogniserStep commands callback w) (Advances commands) st s :=
    throughout_iff_stepsMeet (I := SearchRight commands)
      (fun _ h => ⟨h.recognises, h.counts⟩)
      (fun _ _ h hadv => searchRight_step hnul hlen h hadv)
      (fun st i h hadv hP => by
        have hfinish : st.inst.process.state = .finish := by
          by_contra hnot
          exact hadv fun heq => absurd heq hnot
        exact hadv ((advances_iff h hfinish).mpr hP.2))
      hstart
  exact ⟨fun hmeet => (hiff.mpr hmeet).mono fun _ h => h.1, hiff⟩

end Search

/-! ### A byte between `R` and `I` -/

/-- A parser for `RING`. -/
def ringParser : Recogniser :=
  ⟨⟨⟨.finish, 0, 100, 1, 0, 0, 10000⟩, fun _ => 0⟩, 0, []⟩

/-- The bytes, all at one time. -/
def atOnce (s : String) : List (UInt32 × UInt8) := (bytesOf s).map fun c => (0, c)

lemma ringParser_fresh : FreshRecogniser [bytesOf "RING"] ringParser :=
  ⟨rfl, rfl, fun _ _ => rfl, rfl⟩

/-- The hypotheses are met by a table with one command. -/
theorem strComnandParser_recognises_ring :
    (StepsMeet (recogniserStep [bytesOf "RING"] (fun _ _ _ w => (0, w)) ())
        (Advances [bytesOf "RING"]) ringParser (atOnce "\r\nRING") →
      Throughout (recogniserStep [bytesOf "RING"] (fun _ _ _ w => (0, w)) ())
        (Recognises [bytesOf "RING"]) ringParser (atOnce "\r\nRING")) ∧
    (Throughout (recogniserStep [bytesOf "RING"] (fun _ _ _ w => (0, w)) ())
        (fun st => Recognises [bytesOf "RING"] st ∧ CountsOverlaps [bytesOf "RING"] st)
        ringParser (atOnce "\r\nRING") ↔
      StepsMeet (recogniserStep [bytesOf "RING"] (fun _ _ _ w => (0, w)) ())
        (Advances [bytesOf "RING"]) ringParser (atOnce "\r\nRING")) :=
  strComnandParser_recognises [bytesOf "RING"] (by decide) (by decide) (fun _ _ _ w => (0, w)) ()
    ringParser ringParser_fresh (atOnce "\r\nRING")

/-- `RING` is found in `RXING`. -/
theorem strComnandParser_not_recognises :
    ¬ ∀ (commands : List (List UInt8)) (callback : ℕ → UInt16 → UInt8 → Unit → UInt32 × Unit)
      (st : Recogniser) (s : List (UInt32 × UInt8)), (∀ p ∈ commands, 0 ∉ p) →
      (∀ p ∈ commands, 2 ≤ p.length) → FreshRecogniser commands st →
      Throughout (recogniserStep commands callback ()) (Recognises commands) st s := by
  intro h
  have hlast := (h [bytesOf "RING"] (fun _ _ _ w => (0, w)) ringParser (atOnce "RXING")
    (by decide) (by decide) ringParser_fresh).last
  have hswitched : recognised (run (recogniserStep [bytesOf "RING"] (fun _ _ _ w => (0, w)) ())
      ringParser (atOnce "RXING")).inst = some 0 := by
    decide
  have hnone : occurring [bytesOf "RING"] (run (recogniserStep [bytesOf "RING"]
      (fun _ _ _ w => (0, w)) ()) ringParser (atOnce "RXING")).fed = none := by
    decide
  exact Option.some_ne_none 0 (hswitched.symm.trans (hlast.trans hnone))

end Ampm

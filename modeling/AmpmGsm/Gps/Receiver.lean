import AmpmGsm.Gps.KeepsFix
import Mathlib.Data.List.GetD

/-!
# The receiver of sentences

What `GPS_Task` makes of a whole stream: sentences of the listed talkers, and other bytes between them.
The buffer of a sentence still holds the end of a longer one behind it.

* `overlay` — a buffer with other bytes in front.
* `GpsSentence`, `GpsItem` — what a receiver module sends.
* `Receiver`, `Receiver.take` — the four buffers and `gpsInfo`, and a sentence that is taken.
* **`gpsTask_sentences`** — the task takes every sentence once, in their order.
-/

namespace Ampm

open Function Runs

/-! ## Buffers -/

/-- The bytes in front of the rest of a buffer. -/
def overlay (front : List UInt8) (b : ℕ → UInt8) : ℕ → UInt8 := fun i => front.getD i (b i)

@[simp] lemma overlay_nil (b : ℕ → UInt8) : overlay [] b = b := by
  funext i
  rfl

/-- One more byte. -/
lemma overlay_concat (front : List UInt8) (b : ℕ → UInt8) (c : UInt8) :
    update (overlay front b) front.length c = overlay (front ++ [c]) b := by
  funext i
  rcases Nat.lt_trichotomy i front.length with hlt | rfl | hgt
  · rw [update_of_ne (Nat.ne_of_lt hlt), overlay, overlay, List.getD_append _ _ _ _ hlt]
  · rw [update_self, overlay, List.getD_append_right _ _ _ _ (Nat.le_refl _), Nat.sub_self,
      List.getD_cons_zero]
  · rw [update_of_ne (Nat.ne_of_gt hgt), overlay, overlay,
      List.getD_eq_default _ _ (Nat.le_of_lt hgt), List.getD_eq_default]
    rw [List.length_append, List.length_singleton]
    exact hgt

/-! ## The cells that the parser stores -/

section Cells

variable {gps : GpsParser} {cmd : GpsCmd} {x y : UInt8} {c : UInt8} {taken body : List UInt8} {len : ℕ}

lemma Filling.next_cells (h : Filling cmd x taken gps) (hflag : gps.gotDataFlag cmd = false)
    (hdollar : c ≠ 36) (hstar : c ≠ 42) (hlen : taken.length + 1 < 80) :
    (gpsComnandParser gps c).buff =
      update gps.buff cmd (update (gps.buff cmd) taken.length c) := by
  have htrack : trackCheckSum gps c = { gps with gpsCheckSum := gps.gpsCheckSum ^^^ c } := by
    rw [trackCheckSum_of_ne hdollar hstar, if_pos h.tracks]
  have hflag' : (trackCheckSum gps c).gotDataFlag cmd = false := by
    rw [htrack]
    exact hflag
  have hget' : (trackCheckSum gps c).gpsGetCheckSumFlag = 0 := by
    rw [htrack]
    exact h.get
  obtain ⟨y, hprocess⟩ := gpsProcess_body hflag' hget' hstar
  rw [gpsComnandParser_wait h.state, waitFinish_go (by rw [htrack]; exact h.num) hprocess
    (by rw [htrack]; show gps.gpsCmdRecvLength + 1 < 80; rw [h.stored]; exact hlen), htrack,
    ← h.stored]
  rfl

lemma Filling.star_cells (h : Filling cmd x body gps) (hflag : gps.gotDataFlag cmd = false)
    (hlen : body.length + 1 < 80) :
    (gpsComnandParser gps 42).buff =
      update gps.buff cmd (update (gps.buff cmd) body.length 42) := by
  have hflag' : (trackCheckSum gps 42).gotDataFlag cmd = false := hflag
  have hnum : (trackCheckSum gps 42).gpsNumCmd = cmd := h.num
  rw [gpsComnandParser_wait h.state, waitFinish_go hnum (gpsProcess_star hflag')
    (by show gps.gpsCmdRecvLength + 1 < 80; rw [h.stored]; exact hlen), trackCheckSum_star,
    ← h.stored]
  rfl

lemma Closing.first_cells (h : Closing cmd x body 1 y len gps) (hflag : gps.gotDataFlag cmd = false)
    (hdollar : c ≠ 36) (hstar : c ≠ 42) (hlen : len + 1 < 80) :
    (gpsComnandParser gps c).buff = update gps.buff cmd (update (gps.buff cmd) len c) := by
  have hlonger := h.longer
  have hpos : gps.gpsCmdRecvLength ≠ 0 := by
    rw [h.stored]
    omega
  rw [gpsComnandParser_wait h.state, h.trackCheckSum_eq hdollar hstar,
    waitFinish_go h.num (gpsProcess_first hflag hpos h.get hstar)
      (by show gps.gpsCmdRecvLength + 1 < 80; rw [h.stored]; exact hlen), ← h.stored]
  rfl

/-- The bytes of the body come in front of what was there. -/
lemma Filling.run_cells {bytes : List UInt8} (b : GpsCmd → ℕ → UInt8) :
    ∀ {gps : GpsParser} {taken : List UInt8} {x : UInt8}, Filling cmd x taken gps →
      gps.gotDataFlag cmd = false → 36 ∉ bytes → 42 ∉ bytes → taken.length + bytes.length < 80 →
      gps.buff = update b cmd (overlay taken (b cmd)) →
      (Runs.run gpsComnandParser gps bytes).buff =
        update b cmd (overlay (taken ++ bytes) (b cmd)) := by
  induction bytes with
  | nil =>
      intro gps taken x _ _ _ _ _ hbuff
      rw [List.append_nil]
      exact hbuff
  | cons c cs ih =>
      intro gps taken x h hflag hdollar hstar hlen hbuff
      rw [List.length_cons] at hlen
      have hc := (List.ne_of_not_mem_cons hdollar).symm
      have hc' := (List.ne_of_not_mem_cons hstar).symm
      obtain ⟨hnext, hflags, -⟩ := h.next hflag hc hc' (by omega)
      have hcells := h.next_cells hflag hc hc' (by omega)
      rw [hbuff, update_self, update_idem, overlay_concat] at hcells
      have hrest := ih hnext (by rw [hflags]; exact hflag) (List.not_mem_of_not_mem_cons hdollar)
        (List.not_mem_of_not_mem_cons hstar)
        (by rw [List.length_append, List.length_singleton]; omega) hcells
      rwa [List.append_assoc] at hrest

end Cells

/-! ## Sentences -/

/-- A sentence of a listed talker; where the first field is the time, it has 15 bytes at most. -/
structure GpsSentence where
  talker : List UInt8
  cmd : GpsCmd
  body : List UInt8
  listed : talker ∈ talkers
  short : body.length ≤ 77
  noDollar : 36 ∉ body
  noStar : 42 ∉ body
  timely : cmd = .gprmc ∨ cmd = .gpgga → 44 ∈ body.take 16

namespace GpsSentence

/-- What is received. -/
def bytes (s : GpsSentence) : List UInt8 := sentence s.talker s.cmd s.body

/-- What is stored: the body, `'*'`, and the first digit of the checksum. -/
def stored (s : GpsSentence) : List UInt8 :=
  s.body ++ ([42] : List UInt8) ++ [upperHex (checkSumOf (payload s.talker s.cmd s.body) >>> 4)]

/-- All bytes but the last one. -/
def front (s : GpsSentence) : List UInt8 := s.bytes.dropLast

/-- The last one. -/
def last (s : GpsSentence) : UInt8 := upperHex (checkSumOf (payload s.talker s.cmd s.body) &&& 15)

lemma bytes_eq (s : GpsSentence) : s.bytes = s.front ++ [s.last] := by
  rw [front, bytes, sentence_eq, List.dropLast_concat]
  rfl

end GpsSentence

/-- The parser looks for a name. -/
structure Looking (gps : GpsParser) : Prop where
  state : gps.gpsCmdState = .finish
  cnt : ∀ cmd, gps.gpsCmdCnt cmd = 0

/-- **A whole sentence.**  Its flag is set at the last byte and not before, and its buffer has it in
front of what was there. -/
theorem Looking.receives {gps : GpsParser} (h : Looking gps) (s : GpsSentence)
    (hflag : gps.gotDataFlag s.cmd = false) :
    Throughout gpsComnandParser (fun g => g.gotDataFlag = gps.gotDataFlag) gps s.front ∧
      Looking (run gpsComnandParser gps s.bytes) ∧
      (run gpsComnandParser gps s.bytes).gotDataFlag = update gps.gotDataFlag s.cmd true ∧
      (run gpsComnandParser gps s.bytes).buff =
        update gps.buff s.cmd (overlay s.stored (gps.buff s.cmd)) := by
  obtain ⟨talker, cmd, body, htalker, hlen, hdollar, hstar, _⟩ := s
  have hsum : body.foldl (· ^^^ ·) (checkSumOf (talker ++ cmd.cmdInfo))
      = checkSumOf (payload talker cmd body) := by
    rw [payload, checkSumOf, checkSumOf, ← List.foldl_append]
  obtain ⟨hvalue, hd₁, hs₁, hd₂, hs₂⟩ := checkSumDigit_upperHex
    (checkSumOf (payload talker cmd body))
  -- the name, the body, and the three bytes behind it
  obtain ⟨hnamed, hthrough₀⟩ := named_of_talker cmd h.state h.cnt htalker
  have hflag₀ := hthrough₀.last.1
  obtain ⟨hfilled, hthrough₁⟩ := hnamed.run ((congrFun hflag₀ cmd).trans hflag) hdollar hstar
    (by rw [List.length_nil]; omega)
  have hbuff₁ := hnamed.run_cells gps.buff ((congrFun hflag₀ cmd).trans hflag) hdollar hstar
    (by rw [List.length_nil]; omega) (by rw [overlay_nil, update_eq_self]; exact hthrough₀.last.2)
  have hflag₁ := hthrough₁.last.1.trans hflag₀
  rw [hsum, List.nil_append] at hfilled
  rw [List.nil_append] at hbuff₁
  obtain ⟨hclosing, hflags₂, -⟩ := hfilled.star ((congrFun hflag₁ cmd).trans hflag) (by omega)
  have hbuff₂ := hfilled.star_cells ((congrFun hflag₁ cmd).trans hflag) (by omega)
  rw [hbuff₁, update_self, update_idem, overlay_concat] at hbuff₂
  have hflag₂ := hflags₂.trans hflag₁
  obtain ⟨hfirst, hflags₃, -⟩ := hclosing.first ((congrFun hflag₂ cmd).trans hflag) hd₁ hs₁
    (by omega)
  have hbuff₃ := hclosing.first_cells ((congrFun hflag₂ cmd).trans hflag) hd₁ hs₁ (by omega)
  have hlength : body.length + 1 = (body ++ [42]).length := by
    rw [List.length_append, List.length_singleton]
  rw [hbuff₂, update_self, update_idem, hlength, overlay_concat] at hbuff₃
  have hflag₃ := hflags₃.trans hflag₂
  obtain ⟨hfinish, hzero, hbuff₄, hflags₄⟩ :=
    hfirst.second ((congrFun hflag₃ cmd).trans hflag) hd₂ hs₂
  rw [UInt8.zero_or, hvalue, if_pos rfl, hflag₃] at hflags₄
  have hrun : run gpsComnandParser gps (sentence talker cmd body) = gpsComnandParser
      (gpsComnandParser (gpsComnandParser (run gpsComnandParser (run gpsComnandParser gps
        (36 :: (talker ++ cmd.letters) ++ [44])) body) 42)
        (upperHex (checkSumOf (payload talker cmd body) >>> 4)))
      (upperHex (checkSumOf (payload talker cmd body) &&& 15)) := by
    rw [sentence_eq]
    simp only [run_append]
    rfl
  simp only [GpsSentence.bytes, GpsSentence.front, GpsSentence.stored, hrun]
  rw [sentence_eq, List.dropLast_concat]
  refine ⟨?_, ⟨hfinish, hzero⟩, hflags₄, hbuff₄.trans hbuff₃⟩
  refine throughout_append (throughout_append (throughout_append
    (hthrough₀.mono fun _ hs => hs.1) (hthrough₁.mono fun _ hs => hs.1.trans hflag₀)) ?_) ?_
  · rw [run_append]
    exact ⟨hflag₁, hflag₂⟩
  · rw [run_append, run_append]
    exact ⟨hflag₂, hflag₃⟩

/-- A byte that begins no name leaves the parser as it is, but for the checksum. -/
lemma Looking.gap {gps : GpsParser} (h : Looking gps) {c : UInt8} (hr : c ≠ 82) (hg : c ≠ 71) :
    Looking (gpsComnandParser gps c) ∧ (gpsComnandParser gps c).gotDataFlag = gps.gotDataFlag ∧
      (gpsComnandParser gps c).buff = gps.buff := by
  have hfirst : ∀ cmd : GpsCmd, c ≠ cmd.cmdInfo.getD 0 0 := by
    intro cmd
    cases cmd
    · exact hr
    all_goals exact hg
  have htrack : (trackCheckSum gps c).gpsCmdState = gps.gpsCmdState ∧
      (trackCheckSum gps c).gpsCmdCnt = gps.gpsCmdCnt ∧
      (trackCheckSum gps c).gotDataFlag = gps.gotDataFlag ∧
      (trackCheckSum gps c).buff = gps.buff := by
    rw [trackCheckSum]
    split_ifs <;> exact ⟨rfl, rfl, rfl, rfl⟩
  obtain ⟨hstate, hcnt, hflag, hbuff⟩ := htrack
  have hzero : ∀ cmd, (trackCheckSum gps c).gpsCmdCnt cmd = 0 := fun cmd => by rw [hcnt, h.cnt cmd]
  have hnone : ∀ cmd : GpsCmd, ¬ cmd.Completes ((trackCheckSum gps c).gpsCmdCnt cmd) c := by
    intro cmd
    rw [hzero cmd]
    exact fun hdone => hfirst cmd hdone.1
  rw [gpsComnandParser_finish h.state, matchCmds_of_none hnone]
  refine ⟨⟨hstate.trans h.state, fun cmd => ?_⟩, hflag, hbuff⟩
  show cmd.nextCnt ((trackCheckSum gps c).gpsCmdCnt cmd) c = 0
  rw [hzero cmd, GpsCmd.nextCnt, if_neg (hfirst cmd)]

/-! ## The task -/

/-- What a receiver module sends, with what `time_buff` holds when `GPS_Task` has taken a byte: a
sentence, or a byte between two sentences that begins no name. -/
inductive GpsItem
  | sentence (s : GpsSentence) (timeBuffs : ℕ → GpsCmd → List UInt8)
  | gap (c : UInt8) (stack : GpsCmd → List UInt8) (hr : c ≠ 82) (hg : c ≠ 71)

/-- The bytes. -/
def GpsItem.received : GpsItem → List (UInt8 × (GpsCmd → List UInt8))
  | .sentence s timeBuffs => s.bytes.mapIdx fun k c => (c, timeBuffs k)
  | .gap c stack _ _ => [(c, stack)]

section Task

variable {D : Type} (ops : Doubles D)

/-- The four buffers, and `gpsInfo`. -/
structure Receiver (D : Type) where
  buff : GpsCmd → ℕ → UInt8
  info : NmeaInfo D

/-- A sentence is stored, and its packet is applied. -/
def Receiver.take (r : Receiver D) : GpsItem → Receiver D
  | .sentence s timeBuffs =>
      let buff := update r.buff s.cmd (overlay s.stored (r.buff s.cmd))
      { buff := buff
        info := ((parseApply ops s.cmd (timeBuffs s.front.length s.cmd)
          ((List.range gpsMsgMaxSize).map (buff s.cmd)) r.info).map Prod.snd).getD r.info }
  | .gap _ _ _ _ => r

/-- The task waits for a sentence, with this behind it. -/
structure Shows (gps : AmpmGps D) (r : Receiver D) : Prop where
  looking : Looking gps.toGpsParser
  flags : gps.gotDataFlag = fun _ => false
  buff : gps.buff = r.buff
  info : gps.gpsInfo = r.info

variable {gps : AmpmGps D} {r : Receiver D}

/-- The first field ends at a comma. -/
lemma length_firstField_le {text : List UInt8} {i : ℕ} (hi : i < text.length)
    (hcomma : text[i] = 44) : (firstField text).length ≤ i := by
  refine Nat.le_of_not_lt fun hlt => ?_
  have hin := List.all_eq_true.mp List.all_takeWhile _ (List.getElem_mem hlt)
  rw [show (firstField text)[i] = text[i] from (List.takeWhile_prefix _).getElem hlt, hcomma] at hin
  exact absurd hin (by decide)

/-- So it does in a buffer. -/
lemma firstField_overlay {front : List UInt8} {k n : ℕ} (b : ℕ → UInt8) (hcomma : 44 ∈ front.take k)
    (hn : k ≤ n) : (firstField ((List.range n).map (overlay front b))).length < k := by
  obtain ⟨i, hi, hget⟩ := List.getElem_of_mem hcomma
  obtain ⟨hik, hif⟩ : i < k ∧ i < front.length := by
    rw [List.length_take] at hi
    exact lt_min_iff.mp hi
  rw [List.getElem_take] at hget
  have hin : i < ((List.range n).map (overlay front b)).length := by
    rw [List.length_map, List.length_range]
    exact Nat.lt_of_lt_of_le hik hn
  refine Nat.lt_of_le_of_lt (length_firstField_le hin ?_) hik
  rw [List.getElem_map, List.getElem_range, overlay, List.getD_eq_getElem _ _ hif, hget]

/-- **A sentence is parsed** within the memory of the parse functions. -/
lemma GpsSentence.parseApply_stored (s : GpsSentence) (stack : List UInt8) (b : ℕ → UInt8)
    (info : NmeaInfo D) :
    ∃ r, parseApply ops s.cmd stack ((List.range gpsMsgMaxSize).map (overlay s.stored b)) info =
      some r := by
  have hfits : TimeFits s.cmd ((List.range gpsMsgMaxSize).map (overlay s.stored b)) := by
    intro hcmd
    have hcomma : 44 ∈ s.stored.take 16 := by
      rw [stored, List.append_assoc, List.take_append]
      exact List.mem_append_left _ (s.timely hcmd)
    exact Nat.le_of_lt_succ (firstField_overlay b hcomma (by decide))
  obtain ⟨info', hparse, -⟩ := parseApply_of_fits ops stack info hfits
  exact ⟨_, hparse⟩

/-- Without a flag nothing is parsed. -/
lemma run_takes_quiet (cmds : List GpsCmd) (stack : GpsCmd → List UInt8) {gps : AmpmGps D}
    (hflags : ∀ cmd ∈ cmds, gps.gotDataFlag cmd = false) :
    run (gpsTaskStep ops) (some gps) (cmds.map fun cmd => .take cmd (stack cmd)) = some gps := by
  induction cmds with
  | nil => rfl
  | cons cmd cmds ih =>
      have hclear : ¬ gps.gotDataFlag cmd = true := by
        rw [hflags cmd List.mem_cons_self]
        exact Bool.false_ne_true
      have hfirst : gpsTaskStep ops (some gps) (.take cmd (stack cmd)) = some gps := if_neg hclear
      rw [List.map_cons, run_cons, hfirst]
      exact ih fun other hother => hflags other (List.mem_cons_of_mem cmd hother)

/-- One flag, and one packet. -/
lemma run_takes_one (stack : GpsCmd → List UInt8) {cmd : GpsCmd} {res : ℤ} {info : NmeaInfo D}
    (hflags : gps.gotDataFlag = update (fun _ => false) cmd true)
    (hparse : parseApply ops cmd (stack cmd) (gps.sentence cmd) gps.gpsInfo = some (res, info)) :
    run (gpsTaskStep ops) (some gps) (GpsCmd.all.map fun cmd => .take cmd (stack cmd)) =
      some { gps with
        gpsInfo := info
        gotDataFlag := fun _ => false } := by
  obtain ⟨pre, post, hall, hpre, hpost⟩ : ∃ pre post, GpsCmd.all = pre ++ cmd :: post ∧
      cmd ∉ pre ∧ cmd ∉ post := by
    cases cmd
    · exact ⟨[], [.gpgga, .gpgsa, .gpgsv], rfl, by decide, by decide⟩
    · exact ⟨[.gprmc], [.gpgsa, .gpgsv], rfl, by decide, by decide⟩
    · exact ⟨[.gprmc, .gpgga], [.gpgsv], rfl, by decide, by decide⟩
    · exact ⟨[.gprmc, .gpgga, .gpgsa], [], rfl, by decide, by decide⟩
  have hbefore : ∀ other ∈ pre, gps.gotDataFlag other = false := fun other hother => by
    rw [hflags, update_of_ne (ne_of_mem_of_not_mem hother hpre)]
  have hset : gps.gotDataFlag cmd = true := by rw [hflags, update_self]
  have htake : gpsTaskStep ops (some gps) (.take cmd (stack cmd)) = some { gps with
      gpsInfo := info
      gotDataFlag := fun _ => false } := by
    have hstep : gpsTaskStep ops (some gps) (.take cmd (stack cmd)) = _ := if_pos hset
    rw [hstep, hparse, Option.map_some, hflags, update_idem, update_eq_self_iff.mpr rfl]
  rw [hall, List.map_append, run_append, run_takes_quiet ops pre stack hbefore, List.map_cons, run_cons,
    htake]
  exact run_takes_quiet ops post stack fun _ _ => rfl

/-- Bytes that set no flag. -/
lemma run_bytes_quiet (cs : List (UInt8 × (GpsCmd → List UInt8))) :
    ∀ {gps : AmpmGps D}, gps.gotDataFlag = (fun _ => false) →
      Throughout gpsComnandParser (fun g => g.gotDataFlag = fun _ => false) gps.toGpsParser
        (cs.map Prod.fst) →
      run (gpsTaskStep ops) (some gps) (cs.flatMap gpsTaskSteps) =
        some { gps with toGpsParser := run gpsComnandParser gps.toGpsParser (cs.map Prod.fst) } := by
  induction cs with
  | nil => exact fun _ _ => rfl
  | cons c cs ih =>
      intro gps hflags hthrough
      have hnext : (gpsComnandParser gps.toGpsParser c.1).gotDataFlag = fun _ => false :=
        (throughout_iff_starts _ _ _ _).mp hthrough.2 [] List.nil_prefix
      have hquiet : run (gpsTaskStep ops) (some gps) (gpsTaskSteps c) =
          some { gps with toGpsParser := gpsComnandParser gps.toGpsParser c.1 } :=
        run_takes_quiet ops GpsCmd.all c.2 fun cmd _ => congrFun hnext cmd
      rw [List.flatMap_cons, run_append, hquiet, ih hnext hthrough.2]
      rfl

lemma map_fst_received (bytes : List UInt8) (timeBuffs : ℕ → GpsCmd → List UInt8) :
    (bytes.mapIdx fun k c => (c, timeBuffs k)).map Prod.fst = bytes := by
  refine List.ext_getElem (by simp) fun i hi hi' => ?_
  simp

/-- **An item is taken.** -/
lemma Shows.item (h : Shows gps r) (item : GpsItem) :
    ∃ gps', run (gpsTaskStep ops) (some gps) (item.received.flatMap gpsTaskSteps) = some gps' ∧
      Shows gps' (r.take ops item) := by
  cases item with
  | sentence s timeBuffs =>
      obtain ⟨hthrough, hlooking, hflag, hbuff⟩ := h.looking.receives s (congrFun h.flags s.cmd)
      rw [h.flags] at hthrough hflag
      rw [h.buff] at hbuff
      have hreceived : (GpsItem.sentence s timeBuffs).received =
          (s.front.mapIdx fun k c => (c, timeBuffs k)) ++ [(s.last, timeBuffs s.front.length)] := by
        rw [GpsItem.received, s.bytes_eq, List.mapIdx_concat]
      have hfront : run (gpsTaskStep ops) (some gps)
          ((s.front.mapIdx fun k c => (c, timeBuffs k)).flatMap gpsTaskSteps) =
            some { gps with toGpsParser := run gpsComnandParser gps.toGpsParser s.front } := by
        have hmap := map_fst_received s.front timeBuffs
        have hquiet := run_bytes_quiet ops (s.front.mapIdx fun k c => (c, timeBuffs k)) h.flags
          (by rw [hmap]; exact hthrough)
        rwa [hmap] at hquiet
      have hlast : run (gpsTaskStep ops) (some gps) ((GpsItem.sentence s timeBuffs).received.flatMap
          gpsTaskSteps) = run (gpsTaskStep ops)
            (some { gps with toGpsParser := run gpsComnandParser gps.toGpsParser s.bytes })
            (GpsCmd.all.map fun cmd => .take cmd (timeBuffs s.front.length cmd)) := by
        rw [hreceived, List.flatMap_append, run_append, hfront, s.bytes_eq, run_append]
        rfl
      obtain ⟨⟨res, info⟩, hparse⟩ := s.parseApply_stored ops (timeBuffs s.front.length s.cmd)
        (r.buff s.cmd) r.info
      have htake : r.take ops (.sentence s timeBuffs) =
          ⟨update r.buff s.cmd (overlay s.stored (r.buff s.cmd)), info⟩ := by
        simp only [Receiver.take, update_self, hparse, Option.map_some, Option.getD_some]
      have hparsed : parseApply ops s.cmd (timeBuffs s.front.length s.cmd)
          ((List.range gpsMsgMaxSize).map ((run gpsComnandParser gps.toGpsParser s.bytes).buff s.cmd))
          gps.gpsInfo = some (res, info) := by
        rw [hbuff, update_self, h.info, hparse]
      refine ⟨_, hlast.trans (run_takes_one ops (timeBuffs s.front.length) hflag hparsed), ?_⟩
      rw [htake]
      exact ⟨⟨hlooking.state, hlooking.cnt⟩, rfl, hbuff, rfl⟩
  | gap c stack hr hg =>
      obtain ⟨hlooking, hflag, hbuff⟩ := h.looking.gap hr hg
      have hquiet : run (gpsTaskStep ops) (some gps)
          ((GpsItem.gap c stack hr hg).received.flatMap gpsTaskSteps) =
            some { gps with toGpsParser := gpsComnandParser gps.toGpsParser c } := by
        refine run_bytes_quiet ops [(c, stack)] h.flags ⟨h.flags, ?_⟩
        exact hflag.trans h.flags
      exact ⟨_, hquiet, hlooking, hflag.trans h.flags, hbuff.trans h.buff, h.info⟩

/-- All of them. -/
lemma Shows.items (items : List GpsItem) : ∀ {gps : AmpmGps D} {r : Receiver D}, Shows gps r →
    ∃ gps', run (gpsTaskStep ops) (some gps)
        ((items.flatMap GpsItem.received).flatMap gpsTaskSteps) = some gps' ∧
      Shows gps' (items.foldl (Receiver.take ops) r) := by
  induction items with
  | nil => exact fun h => ⟨_, rfl, h⟩
  | cons item items ih =>
      intro gps r h
      obtain ⟨gps', hrun, hshows⟩ := h.item ops item
      rw [List.flatMap_cons, List.flatMap_append, run_append, hrun]
      exact ih hshows

/-- The task makes the steps for the bytes of the items. -/
lemma gpsTask_items (v : ValidRingbuf) (hring : v.toRingbuf = gps.gpsRxRingBuff) (items : List GpsItem)
    (hcontents : v.contents = (items.flatMap GpsItem.received).map Prod.fst) :
    ∃ v' : ValidRingbuf, v'.contents = [] ∧ v'.size = v.size ∧
      gpsTask ops ((items.flatMap GpsItem.received).map Prod.snd) gps =
        (run (gpsTaskStep ops) (some gps)
          ((items.flatMap GpsItem.received).flatMap gpsTaskSteps)).map
            (AmpmGps.setRing v'.toRingbuf) := by
  have hlen : ((items.flatMap GpsItem.received).map Prod.snd).length = v.contents.length := by
    rw [hcontents, List.length_map, List.length_map]
  have hzip : v.contents.zip ((items.flatMap GpsItem.received).map Prod.snd) =
      items.flatMap GpsItem.received := by
    rw [hcontents, List.zip_map']
    exact List.map_id _
  have hrun := gpsTask_eq_run ops gps v hring hlen
  rwa [hzip] at hrun

/-- **The task takes every sentence once.**  When the ring holds sentences of the listed talkers, with
bytes between them that begin no name, `GPS_Task` empties it, stores each sentence in its buffer in
front of what was there, and applies its packet, in the order in which they were received. -/
theorem gpsTask_sentences (h : Shows gps r) (v : ValidRingbuf) (hring : v.toRingbuf = gps.gpsRxRingBuff)
    (items : List GpsItem)
    (hcontents : v.contents = (items.flatMap GpsItem.received).map Prod.fst) :
    ∃ gps', gpsTask ops ((items.flatMap GpsItem.received).map Prod.snd) gps = some gps' ∧
      Shows gps' (items.foldl (Receiver.take ops) r) ∧
      ∃ v' : ValidRingbuf, v'.contents = [] ∧ v'.size = v.size ∧
        gps'.gpsRxRingBuff = v'.toRingbuf := by
  obtain ⟨v', hempty, hsize, htask⟩ := gpsTask_items ops v hring items hcontents
  obtain ⟨gps', hrun, hshows⟩ := h.items ops items
  rw [hrun, Option.map_some] at htask
  exact ⟨gps'.setRing v'.toRingbuf, htask, ⟨hshows.looking, hshows.flags, hshows.buff, hshows.info⟩,
    v', hempty, hsize, rfl⟩

end Task

/-! ### A burst of sentences -/

/-- A ring in which these bytes are queued. -/
def queued (bytes : List UInt8) (h : bytes.length < 512) : ValidRingbuf where
  head := bytes.length
  tail := 0
  size := 512
  pt k := bytes.getD k 0
  two_le_size := by decide
  size_lt := by decide
  head_lt := h
  tail_lt := by decide

lemma queued_contents {bytes : List UInt8} (h : bytes.length < 512) :
    (queued bytes h).contents = bytes := by
  have hcontents : (queued bytes h).contents =
      (List.range bytes.length).map fun i => bytes.getD ((0 + i) % 512) 0 := rfl
  rw [hcontents]
  refine List.ext_getElem (by simp) fun i hi hi' => ?_
  rw [List.getElem_map, List.getElem_range, Nat.zero_add, Nat.mod_eq_of_lt (Nat.lt_trans hi' h),
    List.getD_eq_getElem _ _ hi']

/-- A fix at noon. -/
def fixSentence : GpsSentence where
  talker := bytesOf "GP"
  cmd := .gprmc
  body := bytesOf "123519,A,4807,N,01131,E,22,84,230394,3,W"
  listed := by decide
  short := by decide
  noDollar := by decide +kernel
  noStar := by decide +kernel
  timely := fun _ => by decide

/-- Its height. -/
def heightSentence : GpsSentence where
  talker := bytesOf "GN"
  cmd := .gpgga
  body := bytesOf "123520,4807,N,01131,E,1,05,1,545,M,46,M,,"
  listed := by decide
  short := by decide
  noDollar := by decide +kernel
  noStar := by decide +kernel
  timely := fun _ => by decide

/-- The last byte of a line. -/
def lineFeed : GpsItem := .gap 10 emptyStack (by decide) (by decide)

/-- A line end. -/
def lineEnd : List GpsItem := [.gap 13 emptyStack (by decide) (by decide), lineFeed]

/-- A line. -/
def lineOf (s : GpsSentence) : List GpsItem := .sentence s (fun _ => emptyStack) :: lineEnd

/-- The end of a line, two sentences, and the first one again. -/
def burst : List GpsItem :=
  lineEnd ++ lineOf fixSentence ++ lineOf heightSentence ++ lineOf fixSentence

lemma length_burst : ((burst.flatMap GpsItem.received).map Prod.fst).length < 512 := by
  decide +kernel

/-- A receiver behind a reset takes the burst. -/
theorem gpsTask_sentences_burst :
    let ring := queued _ length_burst
    let gps : AmpmGps ℤ := { gpsFix with gpsRxRingBuff := ring.toRingbuf }
    ∃ gps', gpsTask wholeDoubles ((burst.flatMap GpsItem.received).map Prod.snd) gps = some gps' ∧
      Shows gps' (burst.foldl (Receiver.take wholeDoubles) ⟨gps.buff, gps.gpsInfo⟩) ∧
      ∃ v' : ValidRingbuf, v'.contents = [] ∧ v'.size = 512 ∧ gps'.gpsRxRingBuff = v'.toRingbuf :=
  gpsTask_sentences wholeDoubles ⟨⟨rfl, fun _ => rfl⟩, rfl, rfl, rfl⟩ (queued _ length_burst) rfl
    burst (queued_contents length_burst)

end Ampm

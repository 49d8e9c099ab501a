import AmpmGsm.Flash.Volume

/-!
# Free sectors

What `ampm_f_getfree` counts before and after a file is created or unlinked.  `ampm_f_unlink` erases
two sectors at most; the others of the file are free because the sector that their headers name is.
A file that is created there later has them again, although it never wrote to them.

* `sectorsOf` — the sectors whose headers name a sector.
* `ampmFUnlink_frees`, `ampmFOpen_takes` — the two calls.
* **`volume_accounts`** — in every run.
-/

namespace Ampm

open NorFlash Runs Directories Function

/-! ## Counting -/

/-- The header of the sector names the sector `s`. -/
def leadsTo (mem : Memory) (s i : ℕ) : Bool := (headersOf mem i).map Prod.fst = some s

/-- The number of sectors whose headers name the sector `s`. -/
def sectorsOf (mem : Memory) (s : ℕ) : ℕ := (List.range diskSectorMax).countP (leadsTo mem s)

section Counting

variable {mem mem' : Memory} {s i : ℕ}

lemma leadsTo_iff : leadsTo mem s i = true ↔ ∃ n, headersOf mem i = some (s, n) := by
  rw [leadsTo, decide_eq_true_iff]
  cases headersOf mem i with
  | none => simp
  | some e =>
      obtain ⟨s', n⟩ := e
      simp

lemma countP_or {p q r : ℕ → Bool} {l : List ℕ} (hr : ∀ i ∈ l, r i = (p i || q i))
    (hpq : ∀ i ∈ l, p i = true → q i = false) : l.countP r = l.countP p + l.countP q := by
  induction l with
  | nil => rfl
  | cons i l ih =>
      have hrest := ih (fun j hj => hr j (List.mem_cons_of_mem i hj))
        fun j hj => hpq j (List.mem_cons_of_mem i hj)
      have hfirst := hr i List.mem_cons_self
      have hone := hpq i List.mem_cons_self
      rw [List.countP_cons, List.countP_cons, List.countP_cons, hrest, hfirst]
      cases hp : p i with
      | true =>
          rw [hone hp]
          simp only [Bool.or_false, if_true, Bool.false_eq_true, if_false]
          omega
      | false =>
          simp only [Bool.false_or, Bool.false_eq_true, if_false]
          omega

/-- The sectors that became free. -/
lemma getfree_add (h : ∀ i < diskSectorMax,
      sectorValid mem i = (sectorValid mem' i || leadsTo mem s i))
    (hnot : ∀ i < diskSectorMax, leadsTo mem s i = true → sectorValid mem' i = false) :
    ((List.range diskSectorMax).countP fun i => !sectorValid mem' i) =
      ((List.range diskSectorMax).countP fun i => !sectorValid mem i) + sectorsOf mem s := by
  refine countP_or (fun i hi => ?_) fun i hi hfree => ?_
  · have hlt := List.mem_range.mp hi
    have hstep := h i hlt
    have hleads := hnot i hlt
    cases hl : leadsTo mem s i with
    | true => simp [hleads hl]
    | false =>
        rw [hl, Bool.or_false] at hstep
        rw [hstep, Bool.or_false]
  · have hstep := h i (List.mem_range.mp hi)
    cases hl : leadsTo mem s i with
    | true => simp [hl, hstep] at hfree
    | false => rfl

end Counting

/-! ## Unlinking -/

section Unlink

variable {mem mem' : Memory} {s i : ℕ} {n : List UInt8}

/-- A file of which the first sector and one more have no headers any more. -/
lemma sectorValid_unlinked (hroot : Rooted (headersOf mem)) (hi : headersOf mem i = some (s, n))
    (hs : ∃ m, Begins (headersOf mem) m s) (hs' : headersOf mem' s = none)
    (hi' : headersOf mem' i = none)
    (hother : ∀ t, t ≠ s → t ≠ i → headersOf mem' t = headersOf mem t) {j : ℕ}
    (hj : j < diskSectorMax) :
    sectorValid mem j = (sectorValid mem' j || leadsTo mem s j) ∧
      (leadsTo mem s j = true → sectorValid mem' j = false) := by
  have hle := Nat.le_of_lt hj
  obtain ⟨m, hbegins⟩ := hs
  have hold : ∀ {t e}, headersOf mem' t = some e → t ≠ s ∧ t ≠ i ∧ headersOf mem t = some e := by
    intro t e ht
    have hts : t ≠ s := fun heq => Option.some_ne_none e (ht.symm.trans (heq ▸ hs'))
    have hti : t ≠ i := fun heq => Option.some_ne_none e (ht.symm.trans (heq ▸ hi'))
    exact ⟨hts, hti, (hother t hts hti).symm.trans ht⟩
  have hleads : leadsTo mem s j = true → sectorValid mem' j = false := by
    intro hl
    obtain ⟨n', hn'⟩ := leadsTo_iff.mp hl
    rw [← Bool.not_eq_true]
    intro hvalid
    obtain ⟨t, m', e, ht, he⟩ := (sectorValid_iff hle).mp hvalid
    obtain ⟨rfl, -⟩ := Prod.mk.inj (Option.some.inj (hn'.symm.trans (hold ht).2.2))
    exact (hold he).1 rfl
  refine ⟨?_, hleads⟩
  rw [Bool.eq_iff_iff, Bool.or_eq_true, sectorValid_iff hle, sectorValid_iff hle, leadsTo_iff]
  constructor
  · rintro ⟨t, m', e, ht, he⟩
    by_cases hts : t = s
    · exact Or.inr ⟨m', hts ▸ ht⟩
    · have hjs : j ≠ s := by
        rintro rfl
        exact hts (Prod.mk.inj (Option.some.inj (ht.symm.trans hbegins))).1
      have hji : j ≠ i := by
        rintro rfl
        exact hts (Prod.mk.inj (Option.some.inj (ht.symm.trans hi))).1
      have hti : t ≠ i := by
        rintro rfl
        have hown := hroot j t m' ht _ hi
        exact hts hown.symm
      exact Or.inl ⟨t, m', e, (hother j hjs hji).trans ht, (hother t hts hti).trans he⟩
  · rintro (⟨t, m', e, ht, he⟩ | ⟨m', hm'⟩)
    · exact ⟨t, m', e, (hold ht).2.2, (hold he).2.2⟩
    · exact ⟨s, m', _, hm', hbegins⟩

end Unlink

/-- `ampm_f_unlink` gives back all sectors of the file. -/
lemma ampmFUnlink_frees {ff : Ff} {fileName : List UInt8} (hroot : Rooted (headersOf ff.flash.mem))
    (hret : (ampmFUnlink ff fileName).1 = .frOk) :
    ∃ s, Begins (headersOf ff.flash.mem) fileName s ∧
      (ampmFGetfree (ampmFUnlink ff fileName).2).1 =
        (ampmFGetfree ff).1 + sectorsOf ff.flash.mem s := by
  rcases ampmFUnlink_spec ff fileName with ⟨i, as, hi, hat, -, heq⟩ | ⟨-, as, heq⟩
  · obtain ⟨n, hleads, hbegins⟩ := headerAt_begins hroot (Nat.le_of_lt hi) hat.1
    have hlt := headerAt_start_lt hat.1
    rw [← hat.2] at hbegins
    refine ⟨(headerAt ff.flash.mem i).startSector, hbegins, ?_⟩
    have hmem : (ampmFUnlink ff fileName).2.flash.mem = FlashCommand.apply (FlashCommand.apply
        ff.flash.mem (.erase (ffAddr (headerAt ff.flash.mem i).startSector 0)))
          (.erase (ffAddr i 0)) := by
      rw [heq]
      rfl
    generalize (headerAt ff.flash.mem i).startSector = s at hleads hbegins hlt hmem ⊢
    obtain ⟨hnone, hother⟩ := headersOf_erase ff.flash.mem (Nat.le_of_lt hlt)
    obtain ⟨hnone', hother'⟩ := headersOf_erase
      (FlashCommand.apply ff.flash.mem (.erase (ffAddr s 0))) (Nat.le_of_lt hi)
    have hs' : headersOf (ampmFUnlink ff fileName).2.flash.mem s = none := by
      rw [hmem]
      by_cases hsi : s = i
      · rw [hsi] at hnone' ⊢
        exact hnone'
      · exact (hother' s hsi).trans hnone
    have hi' : headersOf (ampmFUnlink ff fileName).2.flash.mem i = none := by
      rw [hmem]
      exact hnone'
    have hrest : ∀ t, t ≠ s → t ≠ i → headersOf (ampmFUnlink ff fileName).2.flash.mem t =
        headersOf ff.flash.mem t := fun t hts hti => by
      rw [hmem, hother' t hti, hother t hts]
    simp only [ampmFGetfree_eq]
    exact getfree_add
      (fun j hj => (sectorValid_unlinked hroot hleads ⟨_, hbegins⟩ hs' hi' hrest hj).1)
      fun j hj => (sectorValid_unlinked hroot hleads ⟨_, hbegins⟩ hs' hi' hrest hj).2
  · rw [heq] at hret
    cases hret

/-! ## Creating -/

section Create

variable {mem mem' : Memory} {i : ℕ} {n : List UInt8}

/-- A file that begins in a free sector. -/
lemma sectorValid_created (hroot : Rooted (headersOf mem)) (hfree : sectorValid mem i = false)
    (hi : i < diskSectorMax) (hi' : Begins (headersOf mem') n i)
    (hother : ∀ t, t ≠ i → headersOf mem' t = headersOf mem t) {j : ℕ} (hj : j < diskSectorMax) :
    sectorValid mem' j = (sectorValid mem j || leadsTo mem' i j) ∧
      (leadsTo mem' i j = true → sectorValid mem j = false) := by
  have hle := Nat.le_of_lt hj
  -- nothing names the sector and finds a file there
  have hnot : ∀ {k m e}, headersOf mem k = some (i, m) → headersOf mem i ≠ some e := by
    intro k m e hk he
    have hbegins := hroot.begins hk he
    exact Bool.false_ne_true (hfree.symm.trans
      ((sectorValid_iff (Nat.le_of_lt hi)).mpr ⟨i, _, _, hbegins, hbegins⟩))
  have hleads : leadsTo mem' i j = true → sectorValid mem j = false := by
    intro hl
    by_cases hji : j = i
    · rw [hji, hfree]
    · obtain ⟨m, hm⟩ := leadsTo_iff.mp hl
      rw [hother j hji] at hm
      rw [← Bool.not_eq_true]
      intro hvalid
      obtain ⟨t, m', e, ht, he⟩ := (sectorValid_iff hle).mp hvalid
      obtain ⟨rfl, -⟩ := Prod.mk.inj (Option.some.inj (hm.symm.trans ht))
      exact hnot hm he
  refine ⟨?_, hleads⟩
  rw [Bool.eq_iff_iff, Bool.or_eq_true, sectorValid_iff hle, sectorValid_iff hle, leadsTo_iff]
  constructor
  · rintro ⟨t, m, e, ht, he⟩
    by_cases hti : t = i
    · exact Or.inr ⟨m, hti ▸ ht⟩
    · have hji : j ≠ i := by
        rintro rfl
        exact hti (Prod.mk.inj (Option.some.inj (ht.symm.trans hi'))).1
      exact Or.inl ⟨t, m, e, (hother j hji).symm.trans ht, (hother t hti).symm.trans he⟩
  · rintro (⟨t, m, e, ht, he⟩ | ⟨m, hm⟩)
    · have hti : t ≠ i := fun heq => hnot (heq ▸ ht) (heq ▸ he)
      have hji : j ≠ i := by
        rintro rfl
        exact Bool.false_ne_true (hfree.symm.trans ((sectorValid_iff hle).mpr ⟨t, m, e, ht, he⟩))
      exact ⟨t, m, e, (hother j hji).trans ht, (hother t hti).trans he⟩
    · exact ⟨i, m, _, hm, hi'⟩

/-- The sectors that name the first one afterwards: itself, and those that did before. -/
lemma sectorsOf_created (hfree : sectorValid mem i = false) (hi : i < diskSectorMax)
    (hi' : Begins (headersOf mem') n i)
    (hother : ∀ t, t ≠ i → headersOf mem' t = headersOf mem t) :
    sectorsOf mem' i = 1 + sectorsOf mem i := by
  have hone : (List.range diskSectorMax).countP (fun j => decide (j = i)) = 1 := by
    have hcount := List.count_eq_one_of_mem List.nodup_range (List.mem_range.mpr hi)
    simpa [List.count, beq_eq_decide] using hcount
  rw [sectorsOf, sectorsOf, ← hone]
  refine countP_or (fun j _ => ?_) fun j hj hji => ?_
  · by_cases hji : j = i
    · subst hji
      simpa using leadsTo_iff.mpr ⟨n, hi'⟩
    · simp [hji, leadsTo, hother j hji]
  · obtain rfl := of_decide_eq_true hji
    rw [← Bool.not_eq_true, leadsTo_iff]
    rintro ⟨m, hm⟩
    exact Bool.false_ne_true (hfree.symm.trans
      ((sectorValid_iff (Nat.le_of_lt hi)).mpr ⟨j, m, _, hm, hm⟩))

end Create

/-- `ampm_f_open` takes one sector for a new file, and those that are left of an unlinked one. -/
lemma ampmFOpen_takes {ff : Ff} {fil : AmpmFil} {fileName : List UInt8} {mode : UInt8}
    (hf : ff.flash.Faultless) (hroot : Rooted (headersOf ff.flash.mem)) (hname : FileName fileName)
    (hcreated : (ampmFOpen ff fil fileName mode).created = true)
    (hinside : (ampmFOpen ff fil fileName mode).fil.startSector < diskSectorMax) :
    (ampmFGetfree ff).1 = (ampmFGetfree (ampmFOpen ff fil fileName mode).ff).1 + 1 +
      sectorsOf ff.flash.mem (ampmFOpen ff fil fileName mode).fil.startSector := by
  obtain ⟨i, as, r, ff', -, hfree, hw, heq⟩ := ampmFOpen_created hcreated
  have hi : i < diskSectorMax := by
    rw [heq] at hinside
    exact hinside
  have hstart : (ampmFOpen ff fil fileName mode).fil.startSector = i := by
    rw [heq]
    rfl
  have hmem : (ampmFOpen ff fil fileName mode).ff.flash.mem =
      run FlashCommand.apply ff.flash.mem
        (pageCommands (ffAddr i 0) (newFil (headerAt ff.flash.mem i) fileName i).bytes) := by
    have hcommands := (ampmFOpen_commanded hf fil fileName mode).mem
    simp only [openCommands, heq, if_true] at hcommands ⊢
    exact hcommands
  rw [pageCommands_header] at hmem
  have hle := Nat.le_of_lt hi
  have hword : (newFil (headerAt ff.flash.mem i) fileName i).startSector < 2 ^ 32 :=
    Nat.lt_trans hi (by decide)
  have hnamed := hname.setName_named (headerAt ff.flash.mem i)
  have hnameLength := hname.nameLength_lt (headerAt ff.flash.mem i)
  have hheader : WellFormed (newFil (headerAt ff.flash.mem i) fileName i) :=
    ⟨hnamed, hi, hi, hi, (checksum_seal _).symm, rfl, Nat.le_refl 0,
      show 0 < 100000 by decide, show 2 ≤ 0xff by decide, hnameLength⟩
  have hstored := storedAt_header ff.flash.mem (newFil (headerAt ff.flash.mem i) fileName i) hle
  have hchanged : ChangedAt i
      ((newFil (headerAt ff.flash.mem i) fileName i).startSector,
        (newFil (headerAt ff.flash.mem i) fileName i).name)
      (headersOf ff.flash.mem) (headersOf (FlashCommand.apply
        (FlashCommand.apply ff.flash.mem (.erase (ffAddr i 0)))
          (.program (ffAddr i 0) (newFil (headerAt ff.flash.mem i) fileName i).bytes))) :=
    headersOf_header ff.flash.mem hle hword
  have hbegins : ∃ n, Begins (headersOf (ampmFOpen ff fil fileName mode).ff.flash.mem) n i := by
    have hcheck := hstored.formatCheck hi (by decide) hheader
    have hentry := hchanged.entry _ (headersOf_eq_some.mpr ⟨hle, hcheck, rfl, rfl⟩)
    rw [hmem]
    exact ⟨_, headersOf_eq_some.mpr ⟨hle, hcheck, (Prod.mk.inj hentry).1, rfl⟩⟩
  obtain ⟨n, hn⟩ := hbegins
  have hother : ∀ t, t ≠ i → headersOf (ampmFOpen ff fil fileName mode).ff.flash.mem t =
      headersOf ff.flash.mem t := fun t ht => by
    rw [hmem]
    exact hchanged.other t ht
  have hcount := getfree_add (fun j hj => (sectorValid_created hroot hfree hi hn hother hj).1)
    fun j hj => (sectorValid_created hroot hfree hi hn hother hj).2
  rw [ampmFGetfree_eq, ampmFGetfree_eq, hstart]
  simp only
  rw [hcount, sectorsOf_created hfree hi hn hother, Nat.add_assoc]

/-! ## Every run -/

/-- How the number of free sectors changes: an unlinked file gives back all its sectors, and a file
that is created takes one, and those whose headers still name it. -/
def VolumeOp.Accounts (v : Volume) (op : VolumeOp) : Prop :=
  let mem := v.ff.flash.mem
  let free := (ampmFGetfree v.ff).1
  let free' := (ampmFGetfree (v.step op).ff).1
  match op with
  | .fUnlink fileName =>
      if (ampmFUnlink v.ff fileName.1).1 = .frOk then
        ∃ s, Begins v.headers fileName.1 s ∧ free' = free + sectorsOf mem s
      else free' = free
  | .fOpen h fileName mode =>
      let o := ampmFOpen v.ff (v.fils h) fileName.1 mode
      if o.created then
        FileName fileName.1 → o.fil.startSector < diskSectorMax →
          free = free' + 1 + sectorsOf mem o.fil.startSector
      else free' = free
  | _ => True

/-- **Free sectors.**  In every run from a formatted disk whose calls keep the names apart, unlinking
a file gives back exactly its sectors, and creating one takes exactly one sector and those whose
headers name it since before. -/
theorem volume_accounts {v : Volume} (hv : Formatted v) {ops : List VolumeOp}
    (h : StepsMeet Volume.step (fun v op => op.Sane v) v ops) :
    StepsMeet Volume.step (fun v op => op.Accounts v) v ops := by
  refine stepsMeet_of_invariant (fun _ _ hv hop => hv.step hop) (fun v op hv hop => ?_)
    hv.consistent h
  cases op with
  | fOpen k fileName mode =>
      simp only [VolumeOp.Accounts, Volume.step]
      split_ifs with hcreated
      · exact fun hname hinside => ampmFOpen_takes hop.1 hv.rooted hname hcreated hinside
      · obtain ⟨as, heq⟩ := ampmFOpen_quiet (by simpa using hcreated)
        rw [heq, ampmFGetfree_eq, ampmFGetfree_eq]
        rfl
  | fWrite k fuel buff => trivial
  | fClose k => trivial
  | fUnlink fileName =>
      simp only [VolumeOp.Accounts, Volume.step]
      split_ifs with hret
      · exact ampmFUnlink_frees hv.rooted hret
      · rcases ampmFUnlink_spec v.ff fileName.1 with ⟨i, as, -, -, -, heq⟩ | ⟨-, as, heq⟩
        · exact absurd (congrArg Prod.fst heq) hret
        · rw [heq, ampmFGetfree_eq, ampmFGetfree_eq]
          rfl

/-- A file is created and unlinked: it takes one sector, and gives it back. -/
theorem volume_accounts_one :
    StepsMeet Volume.step (fun v op => op.Accounts v) blankVolume
      [.fOpen 0 nameA 0x08, .fUnlink nameA] := by
  have hf : blankVolume.ff.flash.Faultless := fun _ => rfl
  have hopened := step_faultless hf (.fOpen 0 nameA 0x08)
  exact volume_accounts blankVolume_formatted
    ⟨⟨hf, fun i _ _ j => blankVolume_formatted.not_begins _ j⟩, ⟨hopened, trivial⟩, trivial⟩

end Ampm

import AmpmGsm.Flash.Sectors
import Mathlib.Data.List.Nodup
import Mathlib.Data.List.GetD

/-!
# The sectors of a file

A file is a chain of sectors.  Each has a header that `ampm_f_find_free_sector` takes for valid, all
but the last have a link to the next one, and the bytes are in the data areas behind the headers.

* `cellOf` — where a byte of the file is.
* `Owned` — the sectors of a chain are in use.
* `FileCells` — the cells of a file of which the first bytes are on the flash, and nothing behind.
* `storedBytes`, `ClosedFile` — what is read from a file that was closed, and when that is `bs`.
-/

namespace Ampm

open NorFlash

/-! ## Places -/

/-- The cell of the byte `k`. -/
def cellOf (chain : List ℕ) (k : ℕ) : ℕ :=
  sectorStart (chain.getD (k / diskSectorSize) 0) + (256 + k % diskSectorSize)

/-- The chain's sectors are left alone. -/
def SameSectors (chain : List ℕ) (mem mem' : Memory) : Prop := ∀ s ∈ chain, SameSector s mem mem'

/-- Each sector of the chain has a valid header, which names a first sector in the chain. -/
def Owned (mem : Memory) (chain : List ℕ) : Prop :=
  ∀ s ∈ chain, s < diskSectorMax ∧ formatCheck (filAt mem s 0) = true ∧
    (filAt mem s 0).startSector ∈ chain

/-- The links from each sector to the next one. -/
def Linked (mem : Memory) (chain : List ℕ) : Prop :=
  ∀ i, i + 1 < chain.length → formatCheck (filAt mem (chain.getD i 0) sizeofAmpmFil) = true ∧
    (filAt mem (chain.getD i 0) sizeofAmpmFil).nextSector = chain.getD (i + 1) 0

/-- The cells of a file of which `flushed` bytes of `bs` are on the flash. -/
structure FileCells (mem : Memory) (chain : List ℕ) (bs : List UInt8) (flushed : ℕ) : Prop where
  nodup : chain.Nodup
  owned : Owned mem chain
  linked : Linked mem chain
  data : ∀ k < flushed, mem (cellOf chain k) = bs.getD k 0
  blank : ∀ k, flushed ≤ k → k < chain.length * diskSectorSize → mem (cellOf chain k) = 0xFF

section Places

variable {mem mem' : Memory} {chain : List ℕ} {bs : List UInt8} {flushed : ℕ}

lemma getD_mem {i : ℕ} (hi : i < chain.length) : chain.getD i 0 ∈ chain := by
  rw [List.getD_eq_getElem?_getD, List.getElem?_eq_getElem hi, Option.getD_some]
  exact List.getElem_mem hi

lemma getD_inj (h : chain.Nodup) {i j : ℕ} (hi : i < chain.length) (hj : j < chain.length)
    (heq : chain.getD i 0 = chain.getD j 0) : i = j := by
  rw [List.getD_eq_getElem?_getD, List.getD_eq_getElem?_getD, List.getElem?_eq_getElem hi,
    List.getElem?_eq_getElem hj, Option.getD_some, Option.getD_some] at heq
  exact (List.Nodup.getElem_inj_iff h).mp heq

lemma div_lt_of_lt_mul {k n : ℕ} (h : k < n * diskSectorSize) : k / diskSectorSize < n :=
  Nat.div_lt_of_lt_mul (Nat.mul_comm n _ ▸ h)

lemma mod_add_lt (k : ℕ) : 256 + k % diskSectorSize < 4096 := by
  unfold diskSectorSize
  omega

/-- A byte is where it was if its sector was left alone. -/
lemma cellOf_same {k : ℕ} (h : SameSector (chain.getD (k / diskSectorSize) 0) mem mem') :
    mem' (cellOf chain k) = mem (cellOf chain k) := h _ (mod_add_lt k)

lemma SameSectors.cellOf_eq (h : SameSectors chain mem mem') {k : ℕ}
    (hk : k < chain.length * diskSectorSize) : mem' (cellOf chain k) = mem (cellOf chain k) :=
  cellOf_same (h _ (getD_mem (div_lt_of_lt_mul hk)))

lemma cellOf_append (more : List ℕ) {k : ℕ} (hk : k < chain.length * diskSectorSize) :
    cellOf (chain ++ more) k = cellOf chain k := by
  rw [cellOf, cellOf, List.getD_append _ _ _ _ (div_lt_of_lt_mul hk)]

/-- A sector in use is not free. -/
lemma Owned.sectorValid (h : Owned mem chain) {s : ℕ} (hs : s ∈ chain) :
    sectorValid mem s = true := by
  obtain ⟨-, hcheck, hstart⟩ := h s hs
  rw [Ampm.sectorValid, hcheck, (h _ hstart).2.1]
  rfl

lemma Owned.congr (h : Owned mem chain) (hsame : SameSectors chain mem mem') :
    Owned mem' chain := by
  intro s hs
  obtain ⟨hlt, hcheck, hstart⟩ := h s hs
  rw [(hsame s hs).filAt_eq hlt (by decide)]
  exact ⟨hlt, hcheck, hstart⟩

lemma Linked.congr (h : Linked mem chain) (hlt : ∀ s ∈ chain, s < diskSectorMax)
    (hsame : SameSectors chain mem mem') : Linked mem' chain := by
  intro i hi
  have hmem := getD_mem (Nat.lt_of_succ_lt hi)
  rw [(hsame _ hmem).filAt_eq (hlt _ hmem) (by decide)]
  exact h i hi

lemma FileCells.lt (h : FileCells mem chain bs flushed) : ∀ s ∈ chain, s < diskSectorMax :=
  fun s hs => (h.owned s hs).1

end Places

/-! ## Steps of a writer -/

section Steps

variable {mem mem' : Memory} {chain : List ℕ} {bs buf : List UInt8} {flushed : ℕ}

/-- Headers and links are not touched by a write behind them. -/
lemma WroteAt.filAt_eq {s off : ℕ} (h : WroteAt s off buf mem mem') (hpos : 0 < off)
    (hoff : off ≤ 4096) {t place : ℕ} (ht : t < diskSectorMax)
    (hplace : place + sizeofAmpmFil ≤ off) : filAt mem' t place = filAt mem t place := by
  by_cases hts : t = s
  · subst hts
    refine filAt_congr ht (Nat.le_trans hplace hoff) fun k hk => ?_
    exact h.outside (Nat.ne_of_gt hpos) _ (by omega) (Or.inl (by omega))
  · exact (h.other t hts).filAt_eq ht (Nat.le_trans hplace hoff)

/-- A write behind the header does not make a sector valid or free. -/
lemma WroteAt.sectorValid_eq {s off : ℕ} (h : WroteAt s off buf mem mem')
    (hlow : sizeofAmpmFil ≤ off) (hoff : off ≤ 4096) {t : ℕ} (ht : t < diskSectorMax) :
    sectorValid mem' t = sectorValid mem t := by
  have hpos : 0 < off := Nat.lt_of_lt_of_le (by decide) hlow
  have hplace : 0 + sizeofAmpmFil ≤ off := (Nat.zero_add _).symm ▸ hlow
  unfold sectorValid
  rw [h.filAt_eq hpos hoff ht hplace]
  cases hcheck : formatCheck (filAt mem t 0) with
  | false => rfl
  | true =>
      have hstart := ((formatCheck_iff _).mp hcheck).start_lt
      rw [h.filAt_eq hpos hoff hstart hplace]

/-- A write behind the headers keeps them. -/
lemma Owned.wroteBehind (h : Owned mem chain) {s off : ℕ} (hw : WroteAt s off buf mem mem')
    (hlow : sizeofAmpmFil ≤ off) (hoff : off ≤ 4096) : Owned mem' chain := by
  have hsizeof : sizeofAmpmFil = 68 := rfl
  intro t ht
  rw [hw.filAt_eq (by omega) hoff (h t ht).1 (by omega)]
  exact h t ht

/-- A write behind the links keeps them. -/
lemma Linked.wroteBehind (h : Linked mem chain) (hlt : ∀ s ∈ chain, s < diskSectorMax) {s off : ℕ}
    (hw : WroteAt s off buf mem mem') (hlow : 2 * sizeofAmpmFil ≤ off) (hoff : off ≤ 4096) :
    Linked mem' chain := by
  have hsizeof : sizeofAmpmFil = 68 := rfl
  intro i hi
  rw [hw.filAt_eq (by omega) hoff (hlt _ (getD_mem (Nat.lt_of_succ_lt hi))) (by omega)]
  exact h i hi

/-- A write behind the links keeps the headers and the links. -/
lemma FileCells.wroteBehind (h : FileCells mem chain bs flushed) {s off : ℕ}
    (hw : WroteAt s off buf mem mem') (hlow : 2 * sizeofAmpmFil ≤ off) (hoff : off ≤ 4096) :
    Owned mem' chain ∧ Linked mem' chain :=
  ⟨h.owned.wroteBehind hw (Nat.le_trans (by decide) hlow) hoff,
    h.linked.wroteBehind h.lt hw hlow hoff⟩

/-- The bytes of the other blocks stay where they are. -/
lemma WroteAt.cellOf_eq (hnodup : chain.Nodup) (hlen : buf.length = 256)
    (hblock : flushed % 256 = 0)
    (hfit : flushed < chain.length * diskSectorSize)
    (hw : WroteAt (chain.getD (flushed / diskSectorSize) 0) (256 + flushed % diskSectorSize) buf
      mem mem') {k : ℕ} (hk : k < chain.length * diskSectorSize)
    (hout : k < flushed ∨ flushed + 256 ≤ k) : mem' (cellOf chain k) = mem (cellOf chain k) := by
  by_cases hsector : k / diskSectorSize = flushed / diskSectorSize
  · rw [cellOf, hsector]
    refine hw.outside (by omega) _ (mod_add_lt k) ?_
    unfold diskSectorSize at hsector ⊢
    omega
  · exact cellOf_same (hw.other _ fun heq =>
      hsector (getD_inj hnodup (div_lt_of_lt_mul hk) (div_lt_of_lt_mul hfit) heq))

/-- Where the bytes of a block are. -/
lemma cellOf_block (hblock : flushed % 256 = 0) {j : ℕ} (hj : j < 256) :
    cellOf chain (flushed + j) =
      sectorStart (chain.getD (flushed / diskSectorSize) 0) +
        (256 + flushed % diskSectorSize + j) := by
  have hsector : (flushed + j) / diskSectorSize = flushed / diskSectorSize := by
    unfold diskSectorSize
    omega
  have hplace : (flushed + j) % diskSectorSize = flushed % diskSectorSize + j := by
    unfold diskSectorSize
    omega
  rw [cellOf, hsector, hplace, Nat.add_assoc 256]

/-- A block was written. -/
lemma FileCells.writeBlock (h : FileCells mem chain bs flushed) (hlen : buf.length = 256)
    (hblock : flushed % 256 = 0) (hfit : flushed < chain.length * diskSectorSize)
    (hw : WroteAt (chain.getD (flushed / diskSectorSize) 0) (256 + flushed % diskSectorSize) buf
      mem mem')
    (hstored : StoredAt (chain.getD (flushed / diskSectorSize) 0) (256 + flushed % diskSectorSize)
      buf mem')
    (hbuf : ∀ j < 256, buf.getD j 0 = bs.getD (flushed + j) 0) :
    FileCells mem' chain bs (flushed + 256) := by
  have hkeep := h.wroteBehind hw (show 2 * sizeofAmpmFil ≤ _ by unfold sizeofAmpmFil; omega)
    (Nat.le_of_lt (mod_add_lt flushed))
  refine ⟨h.nodup, hkeep.1, hkeep.2, fun k hk => ?_, fun k hk hlt => ?_⟩
  · rcases Nat.lt_or_ge k flushed with hold | hnew
    · rw [hw.cellOf_eq h.nodup hlen hblock hfit (Nat.lt_trans hold hfit) (Or.inl hold)]
      exact h.data k hold
    · obtain ⟨j, rfl⟩ := Nat.exists_eq_add_of_le hnew
      have hj : j < 256 := by omega
      rw [cellOf_block hblock hj, hstored j (by omega)]
      exact hbuf j hj
  · rw [hw.cellOf_eq h.nodup hlen hblock hfit hlt (Or.inr hk)]
    exact h.blank k (Nat.le_trans (Nat.le_add_right _ _) hk) hlt

/-- More bytes are to come. -/
lemma FileCells.append (h : FileCells mem chain bs flushed) (hle : flushed ≤ bs.length)
    (cs : List UInt8) : FileCells mem chain (bs ++ cs) flushed :=
  ⟨h.nodup, h.owned, h.linked, fun k hk => by
    rw [h.data k hk, List.getD_append _ _ _ _ (Nat.lt_of_lt_of_le hk hle)], h.blank⟩

lemma getD_append_self (chain : List ℕ) (t : ℕ) : (chain ++ [t]).getD chain.length 0 = t := by
  rw [List.getD_append_right _ _ _ _ (Nat.le_refl _), Nat.sub_self]
  rfl

/-- The last sector was full: it got a link to the sector `t`, which is not in the chain, and that
one a header. -/
structure AddsSector (chain : List ℕ) (t : ℕ) (link hdr : AmpmFil) (mem mem' mem'' : Memory) :
    Prop where
  nonempty : 0 < chain.length
  wellFormed : WellFormed link
  next : link.nextSector = t
  wroteLink : WroteAt (chain.getD (chain.length - 1) 0) sizeofAmpmFil link.bytes mem mem'
  storedLink : StoredAt (chain.getD (chain.length - 1) 0) sizeofAmpmFil link.bytes mem'
  header : WellFormed hdr
  start : hdr.startSector ∈ chain
  fresh : t ∉ chain
  lt : t < diskSectorMax
  wroteHeader : WroteAt t 0 hdr.bytes mem' mem''
  storedHeader : StoredAt t 0 hdr.bytes mem''

namespace AddsSector

variable {mem'' : Memory} {link hdr : AmpmFil} {t : ℕ}

lemma sameSectors (h : AddsSector chain t link hdr mem mem' mem'') :
    SameSectors chain mem' mem'' := fun _ hs => h.wroteHeader.other _ fun heq => h.fresh (heq ▸ hs)

lemma nodup (h : AddsSector chain t link hdr mem mem' mem'') (hnodup : chain.Nodup) :
    (chain ++ [t]).Nodup :=
  List.Nodup.append hnodup (List.nodup_singleton t) (List.disjoint_singleton.mpr h.fresh)

lemma owned (h : AddsSector chain t link hdr mem mem' mem'') (howned : Owned mem chain) :
    Owned mem'' (chain ++ [t]) := by
  have howned' := (howned.wroteBehind h.wroteLink (Nat.le_refl _) (by decide)).congr h.sameSectors
  intro s hs
  rcases List.mem_append.mp hs with hold | hnew
  · obtain ⟨hslt, hcheck, hfirst⟩ := howned' s hold
    exact ⟨hslt, hcheck, List.mem_append_left _ hfirst⟩
  · obtain rfl := List.mem_singleton.mp hnew
    have hfirst := h.storedHeader.word_eq h.lt (by decide) (j := 0) (by decide)
      (Nat.lt_trans h.header.start_lt (by decide))
    refine ⟨h.lt, h.storedHeader.formatCheck h.lt (by decide) h.header,
      List.mem_append_left _ ?_⟩
    rw [show (filAt mem'' s 0).startSector = hdr.startSector from hfirst]
    exact h.start

lemma linked (h : AddsSector chain t link hdr mem mem' mem'') (hnodup : chain.Nodup)
    (hlt : ∀ s ∈ chain, s < diskSectorMax) (hlinked : Linked mem chain) :
    Linked mem'' (chain ++ [t]) := by
  have hmax : diskSectorMax < 2 ^ 32 := by decide
  have hpos := h.nonempty
  intro i hi
  rw [List.length_append, List.length_singleton, Nat.add_lt_add_iff_right] at hi
  have hmem := getD_mem hi
  rw [List.getD_append _ _ _ _ hi, (h.sameSectors _ hmem).filAt_eq (hlt _ hmem) (by decide)]
  by_cases hlast : i + 1 < chain.length
  · have hother : SameSector (chain.getD i 0) mem mem' := by
      refine h.wroteLink.other _ fun heq => ?_
      have hidx := getD_inj hnodup hi (by omega) heq
      omega
    rw [hother.filAt_eq (hlt _ hmem) (by decide), List.getD_append _ _ _ _ hlast]
    exact hlinked i hlast
  · obtain rfl : i = chain.length - 1 := by omega
    have hcur := hlt _ hmem
    have hword := h.storedLink.word_eq hcur (by decide) (j := 3) (by decide)
      (show link.nextSector < 2 ^ 32 from h.next ▸ Nat.lt_trans h.lt hmax)
    rw [Nat.sub_add_cancel hpos, getD_append_self]
    exact ⟨h.storedLink.formatCheck hcur (by decide) h.wellFormed, hword.trans h.next⟩

/-- The bytes stay where they are. -/
lemma cellOf_eq (h : AddsSector chain t link hdr mem mem' mem'') {k : ℕ}
    (hk : k < chain.length * diskSectorSize) :
    mem'' (cellOf (chain ++ [t]) k) = mem (cellOf chain k) := by
  have hplace : sizeofAmpmFil + link.bytes.length ≤ 256 + k % diskSectorSize := by
    rw [length_bytes]
    exact Nat.le_trans (by decide) (Nat.le_add_right _ _)
  rw [cellOf_append _ hk, h.sameSectors.cellOf_eq hk]
  by_cases hsector : chain.getD (k / diskSectorSize) 0 = chain.getD (chain.length - 1) 0
  · rw [cellOf, hsector]
    exact h.wroteLink.outside (by decide) _ (mod_add_lt k) (Or.inr hplace)
  · exact cellOf_same (h.wroteLink.other _ hsector)

/-- The new sector is erased behind its header. -/
lemma blank (h : AddsSector chain t link hdr mem mem' mem'') {k : ℕ}
    (hk : chain.length * diskSectorSize ≤ k) (hbound : k < (chain.length + 1) * diskSectorSize) :
    mem'' (cellOf (chain ++ [t]) k) = 0xFF := by
  have hsector : k / diskSectorSize = chain.length := Nat.div_eq_of_lt_le hk hbound
  rw [cellOf, hsector, getD_append_self]
  refine h.wroteHeader.erased rfl _ (mod_add_lt k) ?_
  rw [length_bytes]
  exact Nat.le_trans (by decide) (Nat.le_add_right _ _)

end AddsSector

/-- The file with one sector more. -/
lemma FileCells.addSector {mem'' : Memory} {link hdr : AmpmFil} {t : ℕ}
    (h : FileCells mem chain bs (chain.length * diskSectorSize))
    (hadds : AddsSector chain t link hdr mem mem' mem'') :
    FileCells mem'' (chain ++ [t]) bs (chain.length * diskSectorSize) := by
  refine ⟨hadds.nodup h.nodup, hadds.owned h.owned, hadds.linked h.nodup h.lt h.linked,
    fun k hk => (hadds.cellOf_eq hk).trans (h.data k hk), fun k hk hbound => hadds.blank hk ?_⟩
  rwa [List.length_append, List.length_singleton] at hbound

end Steps

/-! ## Closed files -/

/-- The first `n` sectors that the links lead to. -/
def chainFrom (mem : Memory) : ℕ → ℕ → List ℕ
  | 0, _ => []
  | n + 1, s => s :: chainFrom mem n (filAt mem s sizeofAmpmFil).nextSector

/-- What the sectors from `start` on hold, cut to the size that was written when the file was
closed. -/
def storedBytes (mem : Memory) (start : ℕ) : List UInt8 :=
  let fileSize := (filAt mem start (2 * sizeofAmpmFil)).fileSize
  ((chainFrom mem (fileSize / diskSectorSize + 1) start).flatMap fun s =>
    cells mem s 256 diskSectorSize).take fileSize

/-- A file that was closed: its sectors, and its bytes. -/
structure ClosedFile (mem : Memory) (start : ℕ) (chain : List ℕ) (bs : List UInt8) : Prop where
  head : chain.getD 0 0 = start
  length : chain.length = bs.length / diskSectorSize + 1
  lt : ∀ s ∈ chain, s < diskSectorMax
  linked : Linked mem chain
  data : ∀ k < bs.length, mem (cellOf chain k) = bs.getD k 0
  size : (filAt mem start (2 * sizeofAmpmFil)).fileSize = bs.length

section Closed

variable {mem mem' : Memory} {chain : List ℕ} {bs : List UInt8} {start : ℕ}

lemma ClosedFile.start_mem (h : ClosedFile mem start chain bs) : start ∈ chain := by
  have hpos : 0 < chain.length := h.length ▸ Nat.succ_pos _
  exact h.head ▸ getD_mem hpos

lemma ClosedFile.congr (h : ClosedFile mem start chain bs) (hsame : SameSectors chain mem mem') :
    ClosedFile mem' start chain bs := by
  have hstart := h.start_mem
  refine ⟨h.head, h.length, h.lt, h.linked.congr h.lt hsame, fun k hk => ?_, ?_⟩
  · rw [hsame.cellOf_eq, h.data k hk]
    have hlen := h.length
    unfold diskSectorSize at hlen ⊢
    omega
  · rw [(hsame _ hstart).filAt_eq (h.lt _ hstart) (by decide), h.size]

/-- The links lead through the chain. -/
lemma chainFrom_eq_drop (hlinked : Linked mem chain) (n : ℕ) :
    ∀ i, i + n = chain.length → chainFrom mem n (chain.getD i 0) = chain.drop i := by
  induction n with
  | zero =>
      intro i hi
      rw [chainFrom, List.drop_eq_nil_of_le (by omega)]
  | succ n ih =>
      intro i hi
      have hlt : i < chain.length := by omega
      have hget : chain.getD i 0 = chain[i] := List.getD_eq_getElem _ _ hlt
      rw [chainFrom, List.drop_eq_getElem_cons hlt, hget]
      refine congrArg _ ?_
      cases n with
      | zero => rw [chainFrom, List.drop_eq_nil_of_le (by omega)]
      | succ n =>
          rw [← hget, (hlinked i (by omega)).2]
          exact ih (i + 1) (by omega)

/-- The byte `k` of equal parts in a row. -/
lemma getD_flatMap {f : ℕ → List UInt8} {n : ℕ} (hn : 0 < n) (hf : ∀ s, (f s).length = n) :
    ∀ (l : List ℕ) (k : ℕ), k < l.length * n →
      (l.flatMap f).getD k 0 = (f (l.getD (k / n) 0)).getD (k % n) 0
  | [], k, hk => by
      rw [List.length_nil, Nat.zero_mul] at hk
      exact absurd hk (Nat.not_lt_zero k)
  | s :: l, k, hk => by
      rw [List.flatMap_cons]
      rcases Nat.lt_or_ge k n with hlt | hge
      · rw [List.getD_append _ _ _ _ (by rwa [hf]), Nat.div_eq_of_lt hlt, Nat.mod_eq_of_lt hlt]
        rfl
      · have hrest : k - n < l.length * n := by
          rw [List.length_cons, Nat.succ_mul] at hk
          omega
        have hdiv : k / n = (k - n) / n + 1 := by
          rw [← Nat.add_div_right _ hn, Nat.sub_add_cancel hge]
        have hmod : k % n = (k - n) % n := Nat.mod_eq_sub_mod hge
        rw [List.getD_append_right _ _ _ _ (by rwa [hf]), hf, getD_flatMap hn hf l _ hrest, hdiv,
          hmod]
        rfl

/-- What is read from a closed file along its links. -/
theorem ClosedFile.storedBytes_eq (h : ClosedFile mem start chain bs) :
    storedBytes mem start = bs := by
  have hpos : 0 < diskSectorSize := by decide
  have hlen := h.length
  have hle : bs.length ≤ chain.length * diskSectorSize := by
    unfold diskSectorSize at hlen ⊢
    omega
  have hchain : chainFrom mem (bs.length / diskSectorSize + 1) start = chain := by
    rw [← h.length, ← h.head, chainFrom_eq_drop h.linked _ 0 (Nat.zero_add _), List.drop_zero]
  have hpart : ∀ s, (cells mem s 256 diskSectorSize).length = diskSectorSize := fun s =>
    length_read _ _ _
  have htotal : (chain.flatMap fun s => cells mem s 256 diskSectorSize).length =
      chain.length * diskSectorSize := by
    rw [List.length_flatMap, List.map_congr_left fun s _ => hpart s, List.map_const',
      List.sum_replicate_nat]
  simp only [storedBytes, h.size, hchain]
  refine List.ext_getElem ?_ fun k hk hk' => ?_
  · rw [List.length_take, htotal, Nat.min_eq_left hle]
  · have hbound := Nat.lt_of_lt_of_le hk' hle
    have hsector := h.lt _ (getD_mem (div_lt_of_lt_mul hbound))
    rw [List.getElem_take, ← List.getD_eq_getElem _ 0 (htotal ▸ hbound),
      getD_flatMap hpos hpart _ _ hbound, cells, getD_read (Nat.mod_lt k hpos),
      devAddr_ffAddr hsector (by decide), Nat.add_assoc, ← List.getD_eq_getElem _ 0 hk',
      ← h.data k hk']
    rfl

end Closed

end Ampm

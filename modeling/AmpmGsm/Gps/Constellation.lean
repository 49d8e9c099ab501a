import AmpmGsm.Gps.GsvScan
import AmpmGsm.Gps.InUse
import AmpmGsm.Gps.Receiver

/-!
# The constellation

The satellites that a receiver module sees come in GSV messages of four, between sentences of the
other kinds.  What `gpsInfo` shows behind any run of messages.

* `Constellation`, `IsMessage`, `GsvMessage` — the satellites, and a message of them.
* `SkyItem`, `LastNumberFits` — what is received, and the condition on the last number.
* `gsv_found` — what is parsed of a message.
* `ShowsSky` — what `gpsInfo` shows of the messages that were received.
* **`gpsTask_constellation`** — it shows them behind every run of `GPS_Task`.
-/

namespace Ampm

open Function Runs

/-! ## Messages -/

/-- The satellites in view, at most as many as the table has entries. -/
structure Constellation where
  sats : List SatGroup
  few : sats.length ≤ 12

/-- The message with the index `i`, from zero on. -/
structure IsMessage (c : Constellation) (i : ℕ) (body : GsvBody) : Prop where
  inside : 4 * i < c.sats.length
  packCount : body.packCount.value = Int32.ofNat ((c.sats.length + 3) / 4)
  packIndex : body.packIndex.value = Int32.ofNat (i + 1)
  satCount : body.satCount.value = Int32.ofNat c.sats.length
  sats : body.sats = (c.sats.drop (4 * i)).take 4

namespace IsMessage

variable {c : Constellation} {i : ℕ} {body : GsvBody}

lemma length_sats (h : IsMessage c i body) :
    body.sats.length = min 4 (c.sats.length - 4 * i) := by
  rw [h.sats, List.length_take, List.length_drop]

lemma getElem_sats (h : IsMessage c i body) {k : ℕ} (hk : k < body.sats.length) :
    ∃ hk' : 4 * i + k < c.sats.length, body.sats[k] = c.sats[4 * i + k] := by
  have hlen := h.length_sats
  refine ⟨by omega, ?_⟩
  simp only [h.sats, List.getElem_take, List.getElem_drop]

/-- The message has as many satellites as are due. -/
lemma due (h : IsMessage c i body) :
    satsDue body.packIndex.value.toInt body.satCount.value.toInt = body.sats.length := by
  have hfew := c.few
  have hinside := h.inside
  rw [h.length_sats, h.packIndex, h.satCount, Int32.toInt_ofNat_of_lt (by omega),
    Int32.toInt_ofNat_of_lt (by omega), satsDue]
  split_ifs <;> omega

end IsMessage

/-! ## What is parsed of a message -/

/-- The number of messages is kept. -/
lemma fill_packCount (packCount packIndex satCount : List UInt8) (more : List (UInt8 × List UInt8)) :
    (fillTargets gpgsvTargets
      ([packCount, packIndex, satCount].map (Prod.mk 100) ++ more) nmeaGpgsvZero).packCount =
        nmeaAtoi packCount := by
  have htargets : ∀ target ∈ (List.range' 0 4).flatMap groupTargets, ∀ text (p : NmeaGpgsv),
      (target text p).packCount = p.packCount := by
    intro target htarget text p
    obtain ⟨j, -, hin⟩ := List.mem_flatMap.mp htarget
    simp only [groupTargets, List.mem_cons, List.not_mem_nil, or_false] at hin
    rcases hin with rfl | rfl | rfl | rfl <;> rfl
  have htrans : ∀ p q r : NmeaGpgsv, q.packCount = p.packCount → r.packCount = q.packCount →
      r.packCount = p.packCount := fun _ _ _ h h' => h'.trans h
  have hkeeps := fillTargets_keeps (R := fun p q : NmeaGpgsv => q.packCount = p.packCount)
    (fun _ => rfl) htrans htargets more
    { nmeaGpgsvZero with
      packCount := nmeaAtoi packCount
      packIndex := nmeaAtoi packIndex
      satCount := nmeaAtoi satCount }
  rw [gpgsvTargets_eq 4 0 rfl, fillTargets_append rfl, fill_counts]
  simpa using hkeeps

/-- A satellite as it is in the table; its signal may be missing. -/
def ShowsSat (sat : NmeaSatellite) (g : SatGroup) (whole : Prop) : Prop :=
  sat.id = g.id.value ∧ sat.elv = g.elv.value ∧ sat.azimuth = g.azimuth.value ∧
    (whole → sat.sig = g.sig.value)

lemma seenSats_shows (sats : List SatGroup) (g : SatGroup) (sig : List UInt8) (k : ℕ)
    (hk : k < (seenSats sats g sig).length) (hk' : k < (sats ++ [g]).length) :
    ShowsSat (seenSats sats g sig)[k].sat (sats ++ [g])[k]
      (k < sats.length ∨ nmeaAtoi sig = g.sig.value) := by
  simp only [seenSats]
  rcases Nat.lt_or_ge k sats.length with hfront | hlast
  · have hholds := sats[k].holds_texts
    rw [List.getElem_append_left (by rwa [List.length_map]), List.getElem_append_left hfront,
      List.getElem_map]
    exact ⟨hholds.1, hholds.2.1, hholds.2.2.1, fun _ => hholds.2.2.2⟩
  · have hholds := g.holds_texts
    rw [List.getElem_append_right (by rwa [List.length_map]), List.getElem_append_right hlast]
    simp only [List.length_map, List.getElem_singleton]
    exact ⟨hholds.1, hholds.2.1, hholds.2.2.1, fun h => h.resolve_left (Nat.not_lt_of_ge hlast)⟩

/-- **What is parsed of a message**: the counts, and its satellites; the signal of the last one if the
message is full, or if it fits. -/
lemma gsv_found {c : Constellation} {i : ℕ} {body : GsvBody} (h : IsMessage c i body) {d : UInt8}
    (hd : d ≠ 44) (leftover : List UInt8) :
    let p := (nmeaParseGpgsv (body.bytes ++ 42 :: d :: leftover)).2
    p.packCount = body.packCount.value ∧ p.packIndex = body.packIndex.value ∧
      p.satCount = body.satCount.value ∧ ∀ k (hk : k < body.sats.length),
        ShowsSat (p.satData k) body.sats[k]
          (k + 1 < body.sats.length ∨ LastFits body leftover) := by
  have hlength := h.length_sats
  have hinside := h.inside
  obtain ⟨sats, g, hsats⟩ : ∃ sats g, body.sats = sats ++ [g] := by
    rcases List.eq_nil_or_concat body.sats with hnone | ⟨sats, g, hsats⟩
    · rw [hnone, List.length_nil] at hlength
      omega
    · exact ⟨sats, g, hsats.trans List.concat_eq_append⟩
  have hlength' : body.sats.length = sats.length + 1 := by
    rw [hsats, List.length_append, List.length_singleton]
  have hfields : body.fields = ([body.packCount.text, body.packIndex.text, body.satCount.text] ++
      sats.flatMap GsvBody.groupFields ++ [g.id.text, g.elv.text, g.azimuth.text]) ++
      [g.sig.text] := by
    rw [GsvBody.fields, hsats, List.flatMap_append, List.append_assoc, List.append_assoc]
    rfl
  obtain ⟨more, htokens⟩ := GsvBody.tokens hfields hd (n := 16 - 4 * body.sats.length)
    (by simp [List.length_flatMap, GsvBody.groupFields, List.map_const']; omega) leftover
  have hatoi := atoi_lastToken (16 - 4 * body.sats.length) g.sig d leftover
  generalize lastToken (16 - 4 * body.sats.length) g.sig.text d leftover = sig at htokens hatoi
  have hseen : (seenSats sats g sig).length = body.sats.length := by
    rw [seenSats_length, hsats]
  have htokens' : nmeaScanf (gsvFormat 18) none (body.bytes ++ 42 :: d :: leftover) =
      ([body.packCount.text, body.packIndex.text, body.satCount.text] ++
        (seenSats sats g sig).flatMap SatTexts.fields).map (Prod.mk 100) ++ more := by
    rw [htokens, seenSats_fields]
    simp only [List.append_assoc]
  have hfour : (seenSats sats g sig).length ≤ 4 := by omega
  obtain ⟨hindex, hcount, hfound⟩ := fill_scanned body.packCount.text body.packIndex.text
    body.satCount.text hfour more
  have hpackCount := fill_packCount body.packCount.text body.packIndex.text body.satCount.text
    (((seenSats sats g sig).flatMap SatTexts.fields).map (Prod.mk 100) ++ more)
  rw [← List.append_assoc, ← List.map_append, ← htokens'] at hpackCount
  rw [← htokens'] at hindex hcount hfound
  rw [atoi_number] at hpackCount hindex hcount
  simp only [nmeaParseGpgsv, gsvFormat_eq]
  refine ⟨hpackCount, hindex, hcount, fun k hk => ?_⟩
  have hk' : k < (seenSats sats g sig).length := by rwa [hseen]
  have hshows := seenSats_shows sats g sig k hk' (by rw [← hsats]; exact hk)
  rw [hfound k hk']
  simp only [hsats]
  refine ⟨hshows.1, hshows.2.1, hshows.2.2.1, fun hwhole => hshows.2.2.2 ?_⟩
  rcases hwhole with hfront | hfits
  · rw [List.length_append, List.length_singleton] at hfront
    exact Or.inl (Nat.lt_of_succ_lt_succ hfront)
  · refine Or.inr ?_
    rw [hatoi]
    split_ifs with hshort
    · rfl
    · obtain ⟨hmany, hlong⟩ := not_or.mp hshort
      have hlast : g ∈ body.sats.getLast? := by
        rw [hsats, List.getLast?_concat]
        rfl
      rcases hfits g hlast (by omega) with hzero | hlt
      · exact hzero.symm
      · exact absurd hlt hlong

/-! ## What is put into the table -/

section Table

variable {D : Type}

lemma ofNat_eq_iff {j k : ℕ} (hj : j < 2 ^ 31) (hk : k < 2 ^ 31) :
    Int32.ofNat j = Int32.ofNat k ↔ j = k := by
  rw [← Int32.toInt_inj, Int32.toInt_ofNat_of_lt hj, Int32.toInt_ofNat_of_lt hk, Int.ofNat_inj]

/-- What the packet of a message does to the table. -/
lemma gsv2info_message {c : Constellation} {i : ℕ} {body : GsvBody} (h : IsMessage c i body)
    {p : NmeaGpgsv} (hcount : p.packCount = body.packCount.value)
    (hindex : p.packIndex = body.packIndex.value) (hsats : p.satCount = body.satCount.value)
    (info : NmeaInfo D) :
    (nmeaGpgsv2info p info).1.satinfo.inview = Int32.ofNat c.sats.length ∧
      ∀ j < 12, satAt (nmeaGpgsv2info p info).1 j =
        if 4 * i ≤ j ∧ j < 4 * i + body.sats.length then
          { p.satData (j - 4 * i) with inUse := (satAt info j).inUse }
        else satAt info j := by
  have hfew := c.few
  have hinside := h.inside
  have hlength := h.length_sats
  have hindex' : p.packIndex.toInt = i + 1 := by
    rw [hindex, h.packIndex, Int32.toInt_ofNat_of_lt (by omega)]
    rfl
  have hone : (1 : Int32).toInt = 1 := rfl
  have hfour : nmeaSatinpack.toInt = 4 := rfl
  have htwelve : nmeaMaxsat.toInt = 12 := rfl
  have hnot : ¬ refusedGsv p := by
    rw [refusedGsv, not_or, gt_iff_lt, gt_iff_lt, Int32.not_lt, Int32.not_lt,
      Int32.le_iff_toInt_le, Int32.le_iff_toInt_le, Int32.toInt_mul, hindex', hfour, htwelve, hcount,
      h.packCount, Int32.toInt_ofNat_of_lt (by omega), bmod_small (by omega) (by omega)]
    omega
  have hentry : firstEntry p = 4 * i := by
    rw [firstEntry, if_neg (by rw [Int32.lt_iff_toInt_lt, hindex', hone]; omega), hindex',
      bmod_small (by omega) (by omega)]
    omega
  have hfirst : gsvFirst p = Int32.ofNat (4 * i) := by
    rw [← Int32.toInt_inj, gsvFirst_toInt, hentry, Int32.toInt_ofNat_of_lt (by omega)]
    rfl
  have hnsat : (gsvNsat p).toInt.toNat = body.sats.length := by
    rw [gsvNsat_toInt, hentry, hsats, h.satCount, Int32.toInt_ofNat_of_lt (by omega),
      bmod_small (by omega) (by omega), bmod_small (by omega) (by omega)]
    split_ifs <;> omega
  have hsmall : body.sats.length ≤ 2 ^ 31 := by omega
  obtain ⟨hwritten, hother⟩ := gsvStores p (Int32.ofNat (4 * i)) info.satinfo.sat hsmall
  rw [gsv_accepted_eq hnot, hnsat, hfirst]
  refine ⟨hsats.trans h.satCount, fun j hj => ?_⟩
  simp only [satAt]
  split_ifs with hin
  · have hat := hwritten (j - 4 * i) (by omega)
    rwa [← Int32.ofNat_add, Nat.add_sub_cancel' hin.1] at hat
  · refine hother (Int32.ofNat j) fun k hk heq => hin ?_
    rw [← Int32.ofNat_add, ofNat_eq_iff (by omega) (by omega)] at heq
    omega

/-- The same satellites, perhaps with other marks. -/
structure SameSky (info info' : NmeaInfo D) : Prop where
  inview : info'.satinfo.inview = info.satinfo.inview
  sats : ∀ j, (satAt info' j).id = (satAt info j).id ∧ (satAt info' j).elv = (satAt info j).elv ∧
    (satAt info' j).azimuth = (satAt info j).azimuth ∧ (satAt info' j).sig = (satAt info j).sig

lemma SameSky.of_satinfo {info info' : NmeaInfo D} (h : info'.satinfo = info.satinfo) :
    SameSky info info' := by
  refine ⟨congrArg NmeaSatinfo.inview h, fun j => ?_⟩
  rw [satAt, satAt, h]
  exact ⟨rfl, rfl, rfl, rfl⟩

/-- A GSA packet only marks satellites. -/
lemma gsa2info_sameSky (pack : NmeaGpgsa D) (info : NmeaInfo D) :
    SameSky info (nmeaGpgsa2info pack info).1 := by
  obtain ⟨-, hinview, -, hsat⟩ := gsaVisits pack info (gsaPairs info)
  have hloops : _ = (gsaPairs info).foldl (fun s v => gsaVisit (pack.satPrn v.1) s v.2)
      (info.satinfo, 0, []) :=
    gsaLoops_eq pack.satPrn info.satinfo.inview.toInt.toNat (List.range 12) (info.satinfo, 0, [])
  refine ⟨?_, fun j => ?_⟩
  · rw [nmeaGpgsa2info, hloops]
    exact hinview
  · simp only [nmeaGpgsa2info, satAt, hloops, hsat]
    split_ifs <;> exact ⟨rfl, rfl, rfl, rfl⟩

/-- So does every packet but that of a GSV sentence. -/
lemma parseApply_sameSky (ops : Doubles D) {cmd : GpsCmd} (hcmd : cmd ≠ .gpgsv)
    {stack buff : List UInt8} {info : NmeaInfo D} {r : ℤ × NmeaInfo D}
    (hparse : parseApply ops cmd stack buff info = some r) : SameSky info r.2 := by
  cases cmd with
  | gprmc =>
      obtain ⟨p, -, rfl⟩ := Option.map_eq_some_iff.mp hparse
      refine SameSky.of_satinfo ?_
      simp only [nmeaGprmc2info]
      split_ifs <;> rfl
  | gpgga =>
      obtain ⟨p, -, rfl⟩ := Option.map_eq_some_iff.mp hparse
      exact SameSky.of_satinfo rfl
  | gpgsa =>
      obtain rfl := Option.some.inj hparse
      exact gsa2info_sameSky (nmeaParseGpgsa ops buff).2 info
  | gpgsv => exact absurd rfl hcmd

end Table

/-! ## What is received -/

/-- A message is made of digits and commas. -/
lemma GsvBody.plain (body : GsvBody) : ∀ b ∈ body.bytes, isDigit b = true ∨ b = 44 := by
  have hfields : ∀ field ∈ body.fields, ∀ b ∈ field, isDigit b = true := by
    intro field hfield
    rcases List.mem_append.mp hfield with hcount | hsat
    · simp only [List.mem_cons, List.not_mem_nil, or_false] at hcount
      rcases hcount with rfl | rfl | rfl
      · exact body.packCount.digits
      · exact body.packIndex.digits
      · exact body.satCount.digits
    · obtain ⟨g, -, hg⟩ := List.mem_flatMap.mp hsat
      simp only [GsvBody.groupFields, List.mem_cons, List.not_mem_nil, or_false] at hg
      rcases hg with rfl | rfl | rfl | rfl
      · exact g.id.digits
      · exact g.elv.digits
      · exact g.azimuth.digits
      · exact g.sig.digits
  intro b hb
  rcases List.eq_nil_or_concat body.fields with hnone | ⟨fields, last, hconcat⟩
  · rw [GsvBody.bytes, hnone] at hb
    exact absurd hb List.not_mem_nil
  · rw [List.concat_eq_append] at hconcat
    rw [GsvBody.bytes, hconcat, intercalate_concat, List.mem_append] at hb
    rcases hb with hfront | hlast
    · obtain ⟨field, hfield, hin⟩ := List.mem_flatMap.mp hfront
      rcases List.mem_append.mp hin with hdigit | hcomma
      · exact Or.inl (hfields field (by rw [hconcat]; exact List.mem_append_left _ hfield) b hdigit)
      · exact Or.inr (List.mem_singleton.mp hcomma)
    · exact Or.inl (hfields last (by rw [hconcat]; exact List.mem_append_right _ (by simp)) b hlast)

/-- A message in a sentence. -/
structure GsvMessage (c : Constellation) where
  talker : List UInt8
  index : ℕ
  body : GsvBody
  listed : talker ∈ talkers
  short : body.bytes.length ≤ 77
  message : IsMessage c index body

/-- An item that is no GSV sentence. -/
def GpsItem.NotGsv : GpsItem → Prop
  | .sentence s _ => s.cmd ≠ .gpgsv
  | .gap _ _ _ _ => True

/-- What is received of a constellation: messages, and other items between them. -/
inductive SkyItem (c : Constellation)
  | gsv (m : GsvMessage c) (timeBuffs : ℕ → GpsCmd → List UInt8)
  | other (item : GpsItem) (h : item.NotGsv)

section Sky

variable {c : Constellation}

namespace GsvMessage

/-- The sentence. -/
def gpsSentence (m : GsvMessage c) : GpsSentence where
  talker := m.talker
  cmd := .gpgsv
  body := m.body.bytes
  listed := m.listed
  short := m.short
  noDollar h := absurd (m.body.plain 36 h) (by decide)
  noStar h := absurd (m.body.plain 42 h) (by decide)
  timely h := absurd h (by decide)

/-- What the buffer still holds behind it. -/
def leftover (m : GsvMessage c) (buff : GpsCmd → ℕ → UInt8) : List UInt8 :=
  ((List.range gpsMsgMaxSize).drop m.gpsSentence.stored.length).map (buff .gpgsv)

end GsvMessage

namespace SkyItem

/-- The item as it is received. -/
def item : SkyItem c → GpsItem
  | .gsv m timeBuffs => .sentence m.gpsSentence timeBuffs
  | .other item _ => item

/-- The index of a message. -/
def index : SkyItem c → Option ℕ
  | .gsv m _ => some m.index
  | .other _ _ => none

end SkyItem

variable {D : Type} (ops : Doubles D)

/-- The last number of a message fits with what the buffer holds behind it. -/
def LastNumberFits (r : Receiver D) : SkyItem c → Prop
  | .gsv m _ => LastFits m.body (m.leftover r.buff)
  | .other _ _ => True

/-- `gpsInfo` shows the messages with these indices; the signal of the last satellite in view if the
last numbers fit. -/
structure ShowsSky (c : Constellation) (whole : Prop) (seen : List ℕ) (info : NmeaInfo D) : Prop where
  inview : seen ≠ [] → info.satinfo.inview = Int32.ofNat c.sats.length
  sats : ∀ j (hj : j < c.sats.length), j / 4 ∈ seen →
    ShowsSat (satAt info j) c.sats[j] (j + 1 < c.sats.length ∨ whole)

lemma map_overlay {front : List UInt8} {n : ℕ} (b : ℕ → UInt8) (hlen : front.length ≤ n) :
    (List.range n).map (overlay front b) = front ++ ((List.range n).drop front.length).map b := by
  refine List.ext_getElem (by simp; omega) fun i hi hi' => ?_
  rw [List.getElem_map, List.getElem_range, overlay, List.getElem_append]
  split_ifs with hfront
  · exact List.getD_eq_getElem _ _ hfront
  · rw [List.getD_eq_default _ _ (Nat.le_of_not_lt hfront), List.getElem_map, List.getElem_drop,
      List.getElem_range, Nat.add_sub_cancel' (Nat.le_of_not_lt hfront)]

/-- The buffer behind a message. -/
lemma GsvMessage.buffer (m : GsvMessage c) (buff : GpsCmd → ℕ → UInt8) :
    ∃ d : UInt8, d ≠ 44 ∧
      (List.range gpsMsgMaxSize).map (overlay m.gpsSentence.stored (buff .gpgsv)) =
        m.body.bytes ++ 42 :: d :: m.leftover buff := by
  have hcomma : ∀ x : UInt8, upperHex (x >>> 4) ≠ 44 := by
    have h : ∀ n : Fin 256, upperHex (UInt8.ofNat n >>> 4) ≠ 44 := by decide +kernel
    intro x
    have hx := h ⟨x.toNat, x.toNat_lt⟩
    rwa [UInt8.ofNat_toNat] at hx
  have hshort := m.short
  have hstored : m.gpsSentence.stored.length = m.body.bytes.length + 2 := by
    simp [GpsSentence.stored, gpsSentence]
  have hmap := map_overlay (buff .gpgsv)
    (show m.gpsSentence.stored.length ≤ gpsMsgMaxSize from Nat.le_trans (by omega) (Nat.le_refl 80))
  refine ⟨_, hcomma (checkSumOf (payload m.talker .gpgsv m.body.bytes)), ?_⟩
  rw [hmap, GsvMessage.leftover]
  simp [GpsSentence.stored, gpsSentence]

/-- A message is shown. -/
lemma ShowsSky.gsv {whole : Prop} {seen : List ℕ} {r : Receiver D} (h : ShowsSky c whole seen r.info)
    (m : GsvMessage c) (timeBuffs : ℕ → GpsCmd → List UInt8)
    (hfits : whole → LastFits m.body (m.leftover r.buff)) :
    ShowsSky c whole (m.index :: seen) (r.take ops (.sentence m.gpsSentence timeBuffs)).info := by
  obtain ⟨d, hd, hbuffer⟩ := m.buffer r.buff
  obtain ⟨hcount, hindex, hsats, hfound⟩ := gsv_found m.message hd (m.leftover r.buff)
  have hinfo : (r.take ops (.sentence m.gpsSentence timeBuffs)).info =
      (nmeaGpgsv2info (nmeaParseGpgsv (m.body.bytes ++ 42 :: d :: m.leftover r.buff)).2 r.info).1 := by
    rw [← hbuffer]
    simp only [Receiver.take, GsvMessage.gpsSentence, parseApply, update_self, Option.map_some,
      Option.getD_some]
  rw [hinfo]
  generalize (nmeaParseGpgsv (m.body.bytes ++ 42 :: d :: m.leftover r.buff)).2 = p
    at hcount hindex hsats hfound ⊢
  obtain ⟨hinview, htable⟩ := gsv2info_message m.message hcount hindex hsats r.info
  have hfew := c.few
  have hlength := m.message.length_sats
  refine ⟨fun _ => hinview, fun j hj hin => ?_⟩
  rw [htable j (by omega)]
  split_ifs with hblock
  · have hk : j - 4 * m.index < m.body.sats.length := by omega
    obtain ⟨hk', hsame⟩ := m.message.getElem_sats hk
    obtain ⟨hid, helv, hazimuth, hsig⟩ := hfound _ hk
    simp only [hsame, Nat.add_sub_cancel' hblock.1] at hid helv hazimuth hsig
    refine ⟨hid, helv, hazimuth, fun hwhole => hsig ?_⟩
    -- the last satellite of a full message is not the last number of a short one
    rcases Nat.lt_or_ge (j - 4 * m.index + 1) m.body.sats.length with hfront | hlast
    · exact Or.inl hfront
    · refine Or.inr fun g hg hless => ?_
      rcases hwhole with hmore | hwhole
      · omega
      · exact hfits hwhole g hg hless
  · refine h.sats j hj ?_
    rcases List.mem_cons.mp hin with hnew | hold
    · omega
    · exact hold

/-- The same satellites are shown. -/
lemma ShowsSky.same {whole : Prop} {seen : List ℕ} {info info' : NmeaInfo D}
    (h : ShowsSky c whole seen info) (hsame : SameSky info info') : ShowsSky c whole seen info' := by
  refine ⟨fun hne => hsame.inview.trans (h.inview hne), fun j hj hin => ?_⟩
  obtain ⟨hid, helv, hazimuth, hsig⟩ := hsame.sats j
  obtain ⟨hid', helv', hazimuth', hsig'⟩ := h.sats j hj hin
  exact ⟨hid.trans hid', helv.trans helv', hazimuth.trans hazimuth', fun hwhole =>
    hsig.trans (hsig' hwhole)⟩

/-- Other items leave the satellites alone. -/
lemma Receiver.take_sameSky (r : Receiver D) {item : GpsItem} (hitem : item.NotGsv) :
    SameSky r.info (r.take ops item).info := by
  cases item with
  | sentence s timeBuffs =>
      obtain ⟨p, hparse⟩ := s.parseApply_stored ops (timeBuffs s.front.length s.cmd)
        (r.buff s.cmd) r.info
      have htake : (r.take ops (.sentence s timeBuffs)).info = p.2 := by
        simp only [Receiver.take, update_self, hparse, Option.map_some, Option.getD_some]
      rw [htake]
      exact parseApply_sameSky ops hitem hparse
  | gap b stack hr hg => exact SameSky.of_satinfo rfl

/-- The step of a receiver. -/
def skyStep (r : Receiver D) (item : SkyItem c) : Receiver D := r.take ops item.item

/-- **A run of items**: every message in it is shown, whatever came behind it. -/
lemma ShowsSky.items {whole : Prop} (items : List (SkyItem c)) :
    ∀ {seen : List ℕ} {r : Receiver D}, ShowsSky c whole seen r.info →
      (whole → StepsMeet (skyStep ops) LastNumberFits r items) →
      ShowsSky c whole ((items.filterMap SkyItem.index).reverse ++ seen)
        (run (skyStep ops) r items).info := by
  induction items with
  | nil => exact fun h _ => h
  | cons item items ih =>
      intro seen r h hfits
      cases item with
      | gsv m timeBuffs =>
          have hnext := ih (h.gsv ops m timeBuffs fun hwhole => (hfits hwhole).1)
            fun hwhole => (hfits hwhole).2
          have hseen : (SkyItem.gsv m timeBuffs :: items).filterMap SkyItem.index =
              m.index :: items.filterMap SkyItem.index := rfl
          rw [hseen, List.reverse_cons, List.append_assoc]
          exact hnext
      | other item hitem =>
          have hnext := ih (h.same (r.take_sameSky ops hitem)) fun hwhole => (hfits hwhole).2
          exact hnext

/-- **The satellites are shown.**  The ring holds messages of a constellation, in any order and as
often as they may come, between items of other kinds.  When `GPS_Task` has taken them, `gpsInfo` has
the number of satellites in view, and every satellite of every message that was there, with its signal
unless it is the last one in view and some last number did not fit. -/
theorem gpsTask_constellation {gps : AmpmGps D} {r : Receiver D} (h : Shows gps r) (v : ValidRingbuf)
    (hring : v.toRingbuf = gps.gpsRxRingBuff) (items : List (SkyItem c))
    (hcontents : v.contents =
      ((items.map SkyItem.item).flatMap GpsItem.received).map Prod.fst) :
    ∃ gps', gpsTask ops (((items.map SkyItem.item).flatMap GpsItem.received).map Prod.snd) gps =
        some gps' ∧
      ShowsSky c (StepsMeet (skyStep ops) LastNumberFits r items) (items.filterMap SkyItem.index)
        gps'.gpsInfo := by
  obtain ⟨v', -, -, htask⟩ := gpsTask_items ops v hring (items.map SkyItem.item) hcontents
  obtain ⟨gps', hrun, hshows⟩ := h.items ops (items.map SkyItem.item)
  rw [hrun, Option.map_some] at htask
  have hfold : (items.map SkyItem.item).foldl (Receiver.take ops) r = run (skyStep ops) r items := by
    rw [List.foldl_map]
    rfl
  have hinfo := hshows.info
  rw [hfold] at hinfo
  have hnone : ShowsSky c (StepsMeet (skyStep ops) LastNumberFits r items) [] r.info :=
    ⟨fun hne => absurd rfl hne, fun j _ hin => absurd hin List.not_mem_nil⟩
  have hsky := hnone.items ops items id
  rw [List.append_nil, ← hinfo] at hsky
  exact ⟨gps'.setRing v'.toRingbuf, htask, fun hne => hsky.inview (by simpa using hne),
    fun j hj hin => hsky.sats j hj (List.mem_reverse.mpr hin)⟩

end Sky

/-! ### Five satellites -/

lemma twoDigits_isDigit (a b : Fin 10) :
    [48 + a.1.toUInt8, 48 + b.1.toUInt8].all isDigit = true ∧
      [48 + a.1.toUInt8, 48 + b.1.toUInt8].length ≤ 8 := by
  revert a b
  decide

/-- A number of two digits. -/
def twoDigits (a b : Fin 10) : GsvNumber :=
  gsvNumber [48 + a.1.toUInt8, 48 + b.1.toUInt8] (twoDigits_isDigit a b)

/-- A satellite low in the sky. -/
def lowSat (a b : Fin 10) : SatGroup := ⟨twoDigits a b, twoDigits 1 0, twoDigits 2 3, twoDigits 4 5⟩

/-- Five of them. -/
def fiveSats : Constellation where
  sats := [lowSat 0 1, lowSat 0 4, lowSat 0 7, lowSat 1 1, lowSat 3 0]
  few := by decide

lemma gp_mem_talkers : bytesOf "GP" ∈ talkers := by decide

/-- The first message has four. -/
def firstMessage : GsvMessage fiveSats where
  talker := bytesOf "GP"
  index := 0
  body := ⟨twoDigits 0 2, twoDigits 0 1, twoDigits 0 5, fiveSats.sats.take 4⟩
  listed := gp_mem_talkers
  short := by decide +kernel
  message := ⟨by decide, by decide, by decide, by decide, rfl⟩

/-- The second one has the last. -/
def secondMessage : GsvMessage fiveSats where
  talker := bytesOf "GP"
  index := 1
  body := ⟨twoDigits 0 2, twoDigits 0 2, twoDigits 0 5, fiveSats.sats.drop 4⟩
  listed := gp_mem_talkers
  short := by decide +kernel
  message := ⟨by decide, by decide, by decide, by decide, rfl⟩

lemma fixSentence_notGsv : (GpsItem.sentence fixSentence fun _ => emptyStack).NotGsv :=
  show GpsCmd.gprmc ≠ .gpgsv by decide

/-- The messages in the wrong order, and the first one again behind a sentence with a fix. -/
def skyBurst : List (SkyItem fiveSats) :=
  [.other lineFeed trivial,
    .gsv secondMessage fun _ => emptyStack,
    .gsv firstMessage fun _ => emptyStack,
    .other (.sentence fixSentence fun _ => emptyStack) fixSentence_notGsv,
    .gsv firstMessage fun _ => emptyStack]

lemma length_skyBurst :
    (((skyBurst.map SkyItem.item).flatMap GpsItem.received).map Prod.fst).length < 512 := by
  decide +kernel

/-- They are shown by a receiver whose buffers hold other sentences. -/
theorem gpsTask_constellation_burst :
    let gps : AmpmGps ℤ := { gpsFix with
      gpsRxRingBuff := (queued _ length_skyBurst).toRingbuf
      buff := fun _ _ => 44 }
    ∃ gps', gpsTask wholeDoubles
        (((skyBurst.map SkyItem.item).flatMap GpsItem.received).map Prod.snd) gps = some gps' ∧
      ShowsSky fiveSats
        (StepsMeet (skyStep wholeDoubles) LastNumberFits ⟨gps.buff, gps.gpsInfo⟩ skyBurst) [1, 0, 0]
        gps'.gpsInfo :=
  gpsTask_constellation wholeDoubles ⟨⟨rfl, fun _ => rfl⟩, rfl, rfl, rfl⟩
    (queued _ length_skyBurst) rfl skyBurst (queued_contents length_skyBurst)

end Ampm

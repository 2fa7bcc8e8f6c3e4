import ShipServer.FieldReads
import ShipServer.QuestTransfer

set_option autoImplicit false

/-! The reader of quest files that are made of packets, with the bytes that it reads. -/

namespace ShipServer.QstFiles

open TracedReads Probe StringReads FieldReads
open QuestTransfer (lastDot dat)

/-- The kinds of such files. -/
inductive QstKind where
  | dc
  | pc
  | gc
  | bb
  deriving DecidableEq

/-- Where the fields stand in a packet that announces a file and in one with a chunk. `base` is the
place of the first chunk, and `step` the way to the next one. -/
structure Layout where
  nameAt : ℕ
  lengthAt : ℕ
  hdrSize : ℕ
  typeAt : ℕ
  typeSize : ℕ
  lenAt : ℕ
  pktLen : ℕ
  chunkName : ℕ
  chunkData : ℕ
  chunkLength : ℕ
  chunkSize : ℕ
  base : ℕ
  step : ℕ

/-- `dc_quest_file_pkt` and `dc_quest_chunk_pkt`. -/
def dcLayout : Layout where
  nameAt := 39
  lengthAt := 56
  hdrSize := 0x3C
  typeAt := 0
  typeSize := 1
  lenAt := 2
  pktLen := 0x0418
  chunkName := 4
  chunkData := 20
  chunkLength := 1044
  chunkSize := 1048
  base := 120
  step := 0x0418

/-- `pc_quest_file_pkt`, and a chunk with the header of the PC. -/
def pcLayout : Layout :=
  { dcLayout with nameAt := 40, typeAt := 2, lenAt := 0 }

/-- The size comes from `pc_quest_file_pkt`, the chunks have the header of the Dreamcast. -/
def gcLayout : Layout :=
  { dcLayout with nameAt := 40 }

/-- `bb_quest_file_pkt` and `bb_quest_chunk_pkt`. -/
def bbLayout : Layout where
  nameAt := 44
  lengthAt := 60
  hdrSize := 0x58
  typeAt := 2
  typeSize := 2
  lenAt := 0
  pktLen := 0x041C
  chunkName := 8
  chunkData := 24
  chunkLength := 1048
  chunkSize := 1052
  base := 176
  step := 0x0420

def QstKind.layout : QstKind → Layout
  | .dc => dcLayout
  | .pc => pcLayout
  | .gc => gcLayout
  | .bb => bbLayout

namespace Layout

variable (L : Layout)

/-- The length in a packet that announces the .dat file. -/
def announced (at_ : ℕ) : Probe ℕ UInt8 (Option ℕ) := do
  let fn ← text 16 (at_ + L.nameAt)
  if lastDot fn = some dat then do
    let length ← number 4 (at_ + L.lengthAt)
    pure (some length)
  else pure none

/-- `qst_dat_size`. -/
def qstDatSize : Probe ℕ UInt8 ℕ := do
  match ← L.announced 0 with
  | some length => pure length
  | none =>
    match ← L.announced L.hdrSize with
    | some length => pure length
    | none => pure 0

/-- The checks of a chunk: whether it is of the .dat file, and its length. -/
def chunkHead (ptr : ℕ) : Probe ℕ UInt8 (Option (Bool × ℕ)) := do
  let type ← number L.typeSize (ptr + L.typeAt)
  if type ≠ 0x13 then pure none
  else do
    let len ← number 2 (ptr + L.lenAt)
    if len ≠ L.pktLen then pure none
    else do
      let fn ← text 16 (ptr + L.chunkName)
      let clen ← number 4 (ptr + L.chunkLength)
      match lastDot fn with
      | none => pure none
      | some ext => if 1024 < clen then pure none else pure (some (decide (ext = dat), clen))

/-- `copy_dc_qst_dat`, `copy_pc_qst_dat` and `copy_bb_qst_dat`. The offsets are numbers of 32 bits,
so that the loop may be endless: it is given up when there is no fuel left. The inner result is what
has been copied, or nothing where the file is damaged. -/
def copyQstDat (sz dsz : ℕ) : ℕ → ℕ → List UInt8 → Probe ℕ UInt8 (Option (Option (List UInt8)))
  | 0, _, _ => pure none
  | fuel + 1, ptr, out =>
    if ptr < sz then do
      match ← L.chunkHead ptr with
      | none => pure (some none)
      | some (true, clen) =>
        if dsz < (out.length + clen) % 2 ^ 32 then pure (some none)
        else do
          let data ← bytes clen (ptr + L.chunkData)
          copyQstDat sz dsz fuel ((ptr + L.step) % 2 ^ 32) (out ++ data)
      | some (false, _) => copyQstDat sz dsz fuel ((ptr + L.step) % 2 ^ 32) out
    else pure (some (if out.length % 2 ^ 32 = dsz then some out else none))

/-- `read_and_dec_qst` with a file of a size, up to the decompression. -/
def readQst (sz fuel : ℕ) : Probe ℕ UInt8 (Option (Option (List UInt8))) :=
  if sz < 120 then pure (some none)
  else do
    let dsz ← L.qstDatSize
    if dsz = 0 then pure (some none) else L.copyQstDat sz dsz fuel L.base []

/-- What all layouts have in common. -/
structure Sound : Prop where
  name : L.nameAt + 16 ≤ L.lengthAt
  length : L.lengthAt + 4 ≤ L.hdrSize
  first : L.lengthAt + 4 ≤ 120
  base : L.base = 2 * L.hdrSize
  base_le : L.base ≤ 176
  type : L.typeAt + L.typeSize ≤ L.chunkName
  len : L.lenAt + 2 ≤ L.chunkName
  data : L.chunkName + 16 = L.chunkData
  chunk : L.chunkData + 1024 = L.chunkLength
  size : L.chunkLength + 4 = L.chunkSize
  size_le : L.chunkSize ≤ L.step
  step_le : L.step ≤ 1056
  -- the packets are not so long that the last one of a short file leads over the end of the offsets
  lands : ∀ k, L.base + k * L.step < 2 ^ 32 ∨ 2 ^ 32 + (L.step - L.chunkSize) ≤ L.base + k * L.step

end Layout

theorem sound (v : QstKind) : v.layout.Sound := by
  cases v
  all_goals
    constructor
    all_goals try decide
    intro k
    simp only [QstKind.layout, dcLayout, pcLayout, gcLayout, bbLayout]
    omega

namespace Layout

variable (L : Layout)

/-- The place of a chunk. -/
def chunkAt (k : ℕ) : ℕ := L.base + k * L.step

/-- The number of chunks that begin in a file of a size. -/
def chunkCount (sz : ℕ) : ℕ := (sz - L.base + L.step - 1) / L.step

/-- What a chunk has of the .dat file. -/
def datPart (m : ℕ → UInt8) (ptr : ℕ) : List UInt8 :=
  match (L.chunkHead ptr).result m with
  | some (true, clen) => (bytes clen (ptr + L.chunkData)).result m
  | _ => []

/-- What so many chunks from one on have of the .dat file. -/
def datParts (m : ℕ → UInt8) (k : ℕ) : ℕ → List UInt8
  | 0 => []
  | n + 1 => L.datPart m (L.chunkAt k) ++ datParts m (k + 1) n

@[simp]
theorem chunkAt_zero : L.chunkAt 0 = L.base := by
  rw [chunkAt, Nat.zero_mul, Nat.add_zero]

theorem chunkAt_succ (k : ℕ) : L.chunkAt k + L.step = L.chunkAt (k + 1) := by
  rw [chunkAt, chunkAt, Nat.succ_mul, Nat.add_assoc]

theorem chunkAt_le {k n : ℕ} (h : k ≤ n) : L.chunkAt k ≤ L.chunkAt n :=
  Nat.add_le_add_left (Nat.mul_le_mul_right _ h) _

end Layout

/-- What a file is read to: it fails, or gives a buffer of the declared length that has been filled
from the chunks of the .dat file, after some turns of the loop; and all that is read is in the
file, whatever is in the memory behind it. -/
structure SafelyRead (L : Layout) (file : List UInt8) (junk : ℕ → UInt8) : Prop where
  inside : ∀ fuel, Within (memory file junk) (· < file.length) (L.readQst file.length fuel)
  outcome : ∃ n, ∀ fuel, n ≤ fuel →
    (L.readQst file.length fuel).result (memory file junk) = some none ∨
    ∃ out, (L.readQst file.length fuel).result (memory file junk) = some (some out) ∧
      out.length = (L.qstDatSize).result (memory file junk) ∧
      out = L.datParts (memory file junk) 0 (L.chunkCount file.length)

def SafelyReads (v : QstKind) (file : List UInt8) : Prop :=
  ∀ junk, SafelyRead v.layout file junk

/-- Files that are too short to be looked at, and files of less than 2^32 bytes that have both
packets in front, as far as their length goes, and are not over in the middle of a chunk. -/
def SizeOk (v : QstKind) (sz : ℕ) : Prop :=
  sz < 120 ∨ sz < 2 ^ 32 ∧ v.layout.hdrSize + v.layout.lengthAt + 4 ≤ sz ∧
    (sz ≤ v.layout.base ∨ (sz - v.layout.base) % v.layout.step = 0 ∨
      v.layout.chunkSize ≤ (sz - v.layout.base) % v.layout.step)

section Reading

variable {L : Layout} {m : ℕ → UInt8} {S : ℕ → Prop}

theorem chunkHead_clen {ptr clen : ℕ} {isDat : Bool}
    (h : (L.chunkHead ptr).result m = some (isDat, clen)) : clen ≤ 1024 := by
  unfold Layout.chunkHead at h
  rw [result_bind, result_ite] at h
  split at h
  · cases h
  · rw [result_bind, result_ite] at h
    split at h
    · cases h
    · rw [result_bind, result_bind] at h
      split at h
      · cases h
      · rw [result_ite] at h
        split at h
        · cases h
        · cases h
          omega

theorem within_chunkHead (hL : L.Sound) {ptr : ℕ}
    (h : ∀ j, ptr ≤ j → j < ptr + L.chunkSize → S j) : Within m S (L.chunkHead ptr) := by
  have htype := hL.type
  have hlen := hL.len
  have hdata := hL.data
  have hchunk := hL.chunk
  have hsize := hL.size
  have hfield {i n : ℕ} (hi : i + n ≤ L.chunkSize) :
      ∀ j, ptr + i ≤ j → j < ptr + i + n → S j :=
    fun j hij hj => h j (by omega) (by omega)
  refine (within_number (hfield (by omega))).bind (Within.ite (fun _ => within_pure _) fun _ => ?_)
  refine (within_number (hfield (by omega))).bind (Within.ite (fun _ => within_pure _) fun _ => ?_)
  refine (within_text (hfield (by omega))).bind ?_
  refine (within_number (hfield (by omega))).bind ?_
  split
  · exact within_pure _
  · exact Within.ite (fun _ => within_pure _) fun _ => within_pure _

theorem within_announced (hL : L.Sound) {place : ℕ}
    (h : ∀ j, place ≤ j → j < place + L.lengthAt + 4 → S j) : Within m S (L.announced place) := by
  have hname := hL.name
  refine (within_text fun j hij hj => h j (by omega) (by omega)).bind ?_
  refine Within.ite (fun _ => ?_) fun _ => within_pure _
  exact (within_number fun j hij hj => h j (by omega) (by omega)).bind (within_pure _)

theorem within_qstDatSize (hL : L.Sound)
    (h : ∀ j, j < L.hdrSize + L.lengthAt + 4 → S j) : Within m S L.qstDatSize := by
  have hlength := hL.length
  refine (within_announced hL fun j _ hj => h j (by omega)).bind ?_
  split
  · exact within_pure _
  · refine (within_announced hL fun j _ hj => h j (by omega)).bind ?_
    split <;> exact within_pure _

/-- A loop over whole chunks, from one of them on. -/
theorem copyQstDat_whole (hL : L.Sound) {sz dsz count : ℕ}
    (hcount : ∀ k, L.chunkAt k < sz ↔ k < count)
    (hwhole : ∀ k < count, L.chunkAt k + L.chunkSize ≤ sz)
    (hnext : ∀ k < count, L.chunkAt (k + 1) < 2 ^ 32) (fuel : ℕ) {k n : ℕ} (hk : k + n = count)
    {out : List UInt8} (hout : out.length ≤ 1024 * k) :
    Within m (· < sz) (L.copyQstDat sz dsz fuel (L.chunkAt k) out) ∧
      (n < fuel →
        (L.copyQstDat sz dsz fuel (L.chunkAt k) out).result m = some none ∨
        (L.copyQstDat sz dsz fuel (L.chunkAt k) out).result m =
            some (some (out ++ L.datParts m k n)) ∧
          (out ++ L.datParts m k n).length = dsz) := by
  have hdata := hL.data
  have hchunk := hL.chunk
  have hsize := hL.size
  have hsizele := hL.size_le
  induction fuel generalizing k n out with
  | zero => exact ⟨within_pure _, fun h => absurd h (Nat.not_lt_zero n)⟩
  | succ fuel ih =>
    rw [Layout.copyQstDat]
    cases n with
    | zero =>
      have hend : ¬L.chunkAt k < sz := by
        rw [hcount]
        omega
      have hsmall : out.length % 2 ^ 32 = out.length := by
        rcases Nat.eq_zero_or_pos k with rfl | hpos
        · rw [Nat.le_zero.mp hout, Nat.zero_mod]
        · have hlast := hnext (k - 1) (by omega)
          rw [Nat.sub_add_cancel hpos, Layout.chunkAt] at hlast
          have hmul : k * 1024 ≤ k * L.step := Nat.mul_le_mul_left k (by omega)
          exact Nat.mod_eq_of_lt (by omega)
      rw [if_neg hend, hsmall]
      refine ⟨within_pure _, fun _ => ?_⟩
      rw [result_pure, Layout.datParts, List.append_nil]
      split
      · exact Or.inr ⟨rfl, ‹_›⟩
      · exact Or.inl rfl
    | succ n =>
      have hlt : k < count := by omega
      have hstep : (L.chunkAt k + L.step) % 2 ^ 32 = L.chunkAt (k + 1) := by
        rw [Layout.chunkAt_succ]
        exact Nat.mod_eq_of_lt (hnext k hlt)
      have hin := hwhole k hlt
      have hhead : Within m (· < sz) (L.chunkHead (L.chunkAt k)) :=
        within_chunkHead hL fun j _ hj => lt_of_lt_of_le hj hin
      rw [if_pos ((hcount k).mpr hlt)]
      cases hresult : (L.chunkHead (L.chunkAt k)).result m with
      | none =>
        refine ⟨hhead.bind ?_, fun _ => Or.inl ?_⟩
        · rw [hresult]
          exact within_pure _
        · rw [result_bind, hresult]
          rfl
      | some head =>
        obtain ⟨isDat, clen⟩ := head
        have hclen := chunkHead_clen hresult
        have hparts : L.datParts m k (n + 1) =
            L.datPart m (L.chunkAt k) ++ L.datParts m (k + 1) n := rfl
        cases isDat with
        | false =>
          obtain ⟨hwithin, houtcome⟩ := @ih (k + 1) n (by omega) out (by omega)
          have hpart : L.datPart m (L.chunkAt k) = [] := by
            rw [Layout.datPart, hresult]
          rw [hparts, hpart, List.nil_append, result_bind, hresult]
          dsimp only
          rw [hstep]
          refine ⟨hhead.bind ?_, fun h => houtcome (by omega)⟩
          rw [hresult]
          exact hwithin
        | true =>
          have hpart : L.datPart m (L.chunkAt k) =
              (bytes clen (L.chunkAt k + L.chunkData)).result m := by
            rw [Layout.datPart, hresult]
          have hlength := length_bytes (m := m) clen (L.chunkAt k + L.chunkData)
          have hsum : (out.length + clen) % 2 ^ 32 = out.length + clen := by
            have hlast := hnext k hlt
            rw [Layout.chunkAt, Nat.succ_mul] at hlast
            have hmul : k * 1024 ≤ k * L.step := Nat.mul_le_mul_left k (by omega)
            exact Nat.mod_eq_of_lt (by omega)
          rw [result_bind, hresult]
          dsimp only
          rw [result_ite, hsum]
          by_cases hfits : dsz < out.length + clen
          · refine ⟨hhead.bind ?_, fun _ => Or.inl (if_pos hfits)⟩
            rw [hresult]
            dsimp only
            rw [hsum, if_pos hfits]
            exact within_pure _
          · obtain ⟨hwithin, houtcome⟩ := @ih (k + 1) n (by omega)
              (out ++ (bytes clen (L.chunkAt k + L.chunkData)).result m)
              (by rw [List.length_append, hlength]; omega)
            rw [if_neg hfits, result_bind, hstep, hparts, hpart, ← List.append_assoc]
            refine ⟨hhead.bind ?_, fun h => houtcome (by omega)⟩
            rw [hresult]
            refine Within.ite (fun h => ?_) fun _ => ?_
            · rw [hsum] at h
              exact absurd h hfits
            · refine (within_bytes fun j _ hj => ?_).bind ?_
              · omega
              · exact hwithin

theorem lt_chunkCount (hL : L.Sound) {sz : ℕ} (k : ℕ) : L.chunkAt k < sz ↔ k < L.chunkCount sz := by
  have hstep : 0 < L.step := by
    have hsize := hL.size
    have hsizele := hL.size_le
    omega
  rw [Layout.chunkAt, Layout.chunkCount, ← Nat.succ_le_iff (m := k), Nat.le_div_iff_mul_le hstep,
    Nat.succ_mul]
  omega

/-- No chunk is cut off by the end of the file. -/
theorem chunk_whole (hL : L.Sound) {sz : ℕ}
    (h : sz ≤ L.base ∨ (sz - L.base) % L.step = 0 ∨ L.chunkSize ≤ (sz - L.base) % L.step) {k : ℕ}
    (hk : L.chunkAt k < sz) : L.chunkAt k + L.chunkSize ≤ sz := by
  have hsizele := hL.size_le
  have hdiv := Nat.div_add_mod' (sz - L.base) L.step
  set q := (sz - L.base) / L.step with hq
  set r := (sz - L.base) % L.step with hr
  have hrlt : r < L.step := Nat.mod_lt _ (by have hsize := hL.size; omega)
  rw [Layout.chunkAt] at hk ⊢
  rcases Nat.lt_trichotomy k q with hkq | hkq | hkq
  · have hmul := Nat.mul_le_mul_right L.step (Nat.succ_le_of_lt hkq)
    rw [Nat.succ_mul] at hmul
    omega
  · rw [hkq] at hk ⊢
    omega
  · have hmul := Nat.mul_le_mul_right L.step (Nat.succ_le_of_lt hkq)
    rw [Nat.succ_mul] at hmul
    omega

/-- The offset of the next chunk is never over the end of the offsets. -/
theorem chunk_next (hL : L.Sound) {sz k : ℕ} (hsz : sz < 2 ^ 32)
    (hk : L.chunkAt k + L.chunkSize ≤ sz) : L.chunkAt (k + 1) < 2 ^ 32 := by
  have hsizele := hL.size_le
  rcases hL.lands (k + 1) with h | h
  · exact h
  · rw [Nat.succ_mul] at h
    rw [Layout.chunkAt] at hk
    omega

end Reading

theorem safelyRead_of_short {L : Layout} {file : List UInt8} (h : file.length < 120)
    (junk : ℕ → UInt8) : SafelyRead L file junk where
  inside fuel := by
    rw [Layout.readQst, if_pos h]
    exact within_pure _
  outcome := by
    refine ⟨0, fun fuel _ => Or.inl ?_⟩
    rw [Layout.readQst, if_pos h]
    rfl

theorem safelyRead_of_size {L : Layout} (hL : L.Sound) {file : List UInt8}
    (hsz : file.length < 2 ^ 32) (hheads : L.hdrSize + L.lengthAt + 4 ≤ file.length)
    (hlast : file.length ≤ L.base ∨ (file.length - L.base) % L.step = 0 ∨
      L.chunkSize ≤ (file.length - L.base) % L.step) (junk : ℕ → UInt8) :
    SafelyRead L file junk := by
  by_cases hshort : file.length < 120
  · exact safelyRead_of_short hshort junk
  · have hwhole : ∀ k < L.chunkCount file.length, L.chunkAt k + L.chunkSize ≤ file.length :=
      fun k hk => chunk_whole hL hlast ((lt_chunkCount hL k).mpr hk)
    have hcopy (fuel : ℕ) :=
      @copyQstDat_whole L (memory file junk) hL _ (L.qstDatSize.result (memory file junk)) _
        (lt_chunkCount hL) hwhole (fun k hk => chunk_next hL hsz (hwhole k hk)) fuel _ _
        (Nat.zero_add _) [] (Nat.zero_le _)
    rw [Layout.chunkAt_zero] at hcopy
    constructor
    · intro fuel
      rw [Layout.readQst, if_neg hshort]
      refine (within_qstDatSize hL fun j hj => lt_of_lt_of_le hj hheads).bind ?_
      exact Within.ite (fun _ => within_pure _) fun _ => (hcopy fuel).1
    · refine ⟨L.chunkCount file.length + 1, fun fuel hfuel => ?_⟩
      rw [Layout.readQst, if_neg hshort, result_bind, result_ite]
      split
      · exact Or.inl rfl
      · rcases (hcopy fuel).2 (Nat.lt_of_succ_le hfuel) with hnone | ⟨hsome, hlength⟩
        · exact Or.inl hnone
        · rw [List.nil_append] at hsome hlength
          exact Or.inr ⟨_, hsome, hlength, rfl⟩

theorem safelyReads_of_sizeOk {v : QstKind} {file : List UInt8} (h : SizeOk v file.length) :
    SafelyReads v file := by
  intro junk
  rcases h with hshort | ⟨hsz, hheads, hlast⟩
  · exact safelyRead_of_short hshort junk
  · exact safelyRead_of_size (sound v) hsz hheads hlast junk

end ShipServer.QstFiles

import ShipServer.PartialOrbits
import ShipServer.QuestMapCache
import ShipServer.TracedReads

set_option autoImplicit false

/-! The walk over the sections of a decompressed quest file, byte by byte. -/

namespace ShipServer.QuestSections

open PartialOrbits QuestMapCache TracedReads

/-- Where the fields of a section header are, in front of the data of the section. -/
structure QuestDatHdr where
  objType : ℕ
  nextHdr : ℕ
  area : ℕ
  size : ℕ
  data : ℕ
  objType_fits : objType + 4 ≤ data
  nextHdr_fits : nextHdr + 4 ≤ data
  area_fits : area + 4 ≤ data
  size_fits : size + 4 ≤ data

/-- `quest_dat_hdr_t`. -/
def datHdr : QuestDatHdr where
  objType := 0
  nextHdr := 4
  area := 8
  size := 12
  data := 16
  objType_fits := Nat.le_of_ble_eq_true rfl
  nextHdr_fits := Nat.le_of_ble_eq_true rfl
  area_fits := Nat.le_of_ble_eq_true rfl
  size_fits := Nat.le_of_ble_eq_true rfl

/-- The memory from the start of the buffer on. -/
abbrev Buffer := ℕ → UInt8

/-- The 32-bit field at an address. -/
def field (mem : Buffer) (a : ℕ) : BitVec 32 :=
  readLe32 [mem a, mem (a + 1), mem (a + 2), mem (a + 3)]

/-- An assignment to `ptrs`: the table, the area and the header. -/
structure Store where
  table : ℕ
  area : BitVec 32
  hdr : BitVec 32
  deriving DecidableEq

/-- The local variables of `parse_quest_objects`, with the assignments to `ptrs` so far. -/
structure Walk where
  ptr : BitVec 32
  objCount : BitVec 32
  stores : List Store

def Walk.start : Walk := ⟨0, 0, []⟩

/-- One turn of the loop, or its end. `sizeof(map_object_t)` is 68. -/
def turn (hdr : QuestDatHdr) (len : BitVec 32) (s : Walk) : Probe ℕ (BitVec 32) (Option Walk) :=
  if s.ptr < len then do
    let objType ← Probe.cell (s.ptr.toNat + hdr.objType)
    if objType = 1 then do
      let area ← Probe.cell (s.ptr.toNat + hdr.area)
      let size ← Probe.cell (s.ptr.toNat + hdr.size)
      let nextHdr ← Probe.cell (s.ptr.toNat + hdr.nextHdr)
      return some ⟨s.ptr + nextHdr, s.objCount + size / 68, s.stores ++ [⟨0, area, s.ptr⟩]⟩
    else if objType = 2 then do
      let area ← Probe.cell (s.ptr.toNat + hdr.area)
      let nextHdr ← Probe.cell (s.ptr.toNat + hdr.nextHdr)
      return some ⟨s.ptr + nextHdr, s.objCount, s.stores ++ [⟨1, area, s.ptr⟩]⟩
    else if objType = 3 then do
      let nextHdr ← Probe.cell (s.ptr.toNat + hdr.nextHdr)
      return some { s with ptr := s.ptr + nextHdr }
    else
      -- padding at the end of the file
      return some { s with ptr := len }
  else return none

section Walking

variable (hdr : QuestDatHdr) (mem : Buffer) (len : BitVec 32)

/-- `parse_quest_objects` after some turns. -/
def walk (n : ℕ) : Option Walk :=
  orbit (fun s => (turn hdr len s).result (field mem)) .start n

/-- The four bytes of a field lie in the buffer. -/
def Inside (a : ℕ) : Prop :=
  ∀ k < 4, a + k < len.toNat

/-- The walk comes to an end, reads only inside the buffer, and stores only for the areas that
there are. -/
def WalksSafely : Prop :=
  (∃ n, walk hdr mem len n = none) ∧
    ∀ n s, walk hdr mem len n = some s →
      Probe.Within (field mem) (Inside len) (turn hdr len s) ∧ ∀ store ∈ s.stores, store.area < 17

/-- Where the header at a position leads to. -/
def follow (p : BitVec 32) : Option (BitVec 32) :=
  if p < len then
    if field mem (p.toNat + hdr.objType) ∈ [1, 2, 3] then
      some (p + field mem (p.toNat + hdr.nextHdr))
    else some len
  else none

/-- The part of a header that counts, by its type. -/
def headerLength (objType : BitVec 32) : ℕ :=
  if objType = 1 then
    max (hdr.objType + 4) (max (hdr.area + 4) (max (hdr.size + 4) (hdr.nextHdr + 4)))
  else if objType = 2 then max (hdr.objType + 4) (max (hdr.area + 4) (hdr.nextHdr + 4))
  else if objType = 3 then max (hdr.objType + 4) (hdr.nextHdr + 4)
  else hdr.objType + 4

/-- The header at a position fits into the buffer, and its area into the tables. -/
def HeaderFits (p : BitVec 32) : Prop :=
  let objType := field mem (p.toNat + hdr.objType)
  p.toNat + headerLength hdr objType ≤ len.toNat ∧
    (objType = 1 ∨ objType = 2 → field mem (p.toNat + hdr.area) < 17)

end Walking

section Safety

variable {hdr : QuestDatHdr} {mem : Buffer} {len : BitVec 32}

theorem inside_iff {a : ℕ} : Inside len a ↔ a + 4 ≤ len.toNat := by
  constructor
  · intro h
    have hlast := h 3 (by omega)
    omega
  · intro h k hk
    omega

/-- A turn looks at the part of the header that counts. -/
theorem within_turn_iff {s : Walk} (hs : s.ptr < len) :
    Probe.Within (field mem) (Inside len) (turn hdr len s) ↔
      s.ptr.toNat + headerLength hdr (field mem (s.ptr.toNat + hdr.objType)) ≤ len.toNat := by
  rw [turn, if_pos hs, Probe.within_step_iff, inside_iff, headerLength]
  split_ifs
  · simp only [Probe.within_step_iff, Probe.within_pure, inside_iff, and_true]
    omega
  · simp only [Probe.within_step_iff, Probe.within_pure, inside_iff, and_true]
    omega
  · simp only [Probe.within_step_iff, Probe.within_pure, inside_iff, and_true]
    omega
  · simp only [Probe.within_pure, and_true]
    omega

theorem within_turn_of_le {s : Walk} (hs : ¬s.ptr < len) :
    Probe.Within (field mem) (Inside len) (turn hdr len s) := by
  rw [turn, if_neg hs]
  exact Probe.within_pure _

theorem turn_of_le {s : Walk} (hs : ¬s.ptr < len) :
    (turn hdr len s).result (field mem) = none := by
  rw [turn, if_neg hs, Probe.result_pure]

/-- What a turn does with the header at its position. -/
theorem turn_of_lt {s : Walk} (hs : s.ptr < len) :
    (turn hdr len s).result (field mem) =
      let objType := field mem (s.ptr.toNat + hdr.objType)
      let area := field mem (s.ptr.toNat + hdr.area)
      let next := s.ptr + field mem (s.ptr.toNat + hdr.nextHdr)
      if objType = 1 then
        some ⟨next, s.objCount + field mem (s.ptr.toNat + hdr.size) / 68,
          s.stores ++ [⟨0, area, s.ptr⟩]⟩
      else if objType = 2 then some ⟨next, s.objCount, s.stores ++ [⟨1, area, s.ptr⟩]⟩
      else if objType = 3 then some ⟨next, s.objCount, s.stores⟩
      else some ⟨len, s.objCount, s.stores⟩ := by
  rw [turn, if_pos hs, Probe.result_bind, Probe.result_cell]
  dsimp only
  split_ifs <;> rfl

/-- The positions go their way without regard to what is counted and stored. -/
theorem follow_ptr (s : Walk) :
    follow hdr mem len s.ptr = ((turn hdr len s).result (field mem)).map Walk.ptr := by
  by_cases hs : s.ptr < len
  · rw [turn_of_lt hs, follow, if_pos hs]
    dsimp only
    split_ifs with hin hone htwo hthree hone htwo hthree
    all_goals first | rfl | simp_all
  · rw [turn_of_le hs, follow, if_neg hs]
    rfl

theorem orbit_follow (n : ℕ) :
    orbit (follow hdr mem len) 0 n = (walk hdr mem len n).map Walk.ptr :=
  orbit_map follow_ptr Walk.start n

/-- A turn adds the store of its header, if it has one. -/
theorem stores_turn {s s' : Walk} (hs : s.ptr < len)
    (h : (turn hdr len s).result (field mem) = some s') :
    s'.stores = s.stores ++
      if field mem (s.ptr.toNat + hdr.objType) = 1 then
        [⟨0, field mem (s.ptr.toNat + hdr.area), s.ptr⟩]
      else if field mem (s.ptr.toNat + hdr.objType) = 2 then
        [⟨1, field mem (s.ptr.toNat + hdr.area), s.ptr⟩]
      else [] := by
  rw [turn_of_lt hs] at h
  dsimp only at h
  split_ifs at h ⊢ <;> cases h <;> simp

/-- The headers that the offsets lead to from the start fit, and none of them is led to again. -/
def ChainsSoundly (hdr : QuestDatHdr) (mem : Buffer) (len : BitVec 32) : Prop :=
  ∀ n p, orbit (follow hdr mem len) 0 n = some p →
    (p < len → HeaderFits hdr mem len p) ∧
      ∀ m, 0 < m → orbit (follow hdr mem len) p m ≠ some p

/-- The stores of a run are sound when those of its headers are. -/
theorem stores_walk (h : ∀ n p, orbit (follow hdr mem len) 0 n = some p →
    p < len → HeaderFits hdr mem len p) {n : ℕ} {s : Walk} (hs : walk hdr mem len n = some s) :
    ∀ store ∈ s.stores, store.area < 17 := by
  induction n generalizing s with
  | zero =>
    cases hs
    exact fun _ hstore => absurd hstore List.not_mem_nil
  | succ n ih =>
    obtain ⟨s₀, hwalk, hturn⟩ := Option.bind_eq_some_iff.mp hs
    have hs₀ : walk hdr mem len n = some s₀ := hwalk
    have hold := ih hs₀
    by_cases hin : s₀.ptr < len
    · have hpos : orbit (follow hdr mem len) 0 n = some s₀.ptr := by
        rw [orbit_follow, hs₀, Option.map_some]
      have harea := (h n s₀.ptr hpos hin).2
      rw [stores_turn hin hturn]
      intro store hstore
      rcases List.mem_append.mp hstore with hmem | hmem
      · exact hold store hmem
      · split_ifs at hmem with hone htwo
        · cases List.mem_singleton.mp hmem
          exact harea (.inl hone)
        · cases List.mem_singleton.mp hmem
          exact harea (.inr htwo)
        · cases hmem
    · rw [turn_of_le hin] at hturn
      cases hturn

/-- What was stored at a header stays stored. -/
theorem area_of_stores {n : ℕ} {s : Walk} (hs : walk hdr mem len n = some s) (hin : s.ptr < len)
    (h : ∀ n s, walk hdr mem len n = some s → ∀ store ∈ s.stores, store.area < 17)
    (htype : field mem (s.ptr.toNat + hdr.objType) = 1 ∨
      field mem (s.ptr.toNat + hdr.objType) = 2) :
    field mem (s.ptr.toNat + hdr.area) < 17 := by
  obtain ⟨s', hs'⟩ : ∃ s', (turn hdr len s).result (field mem) = some s' := by
    rw [turn_of_lt hin]
    dsimp only
    split_ifs <;> exact ⟨_, rfl⟩
  have hnext : walk hdr mem len (n + 1) = some s' := by
    rw [walk, orbit, ← walk, hs, Option.bind_some, hs']
  have hstores := stores_turn hin hs'
  rcases htype with hone | htwo
  · rw [if_pos hone] at hstores
    exact h _ _ hnext ⟨0, _, s.ptr⟩
      (hstores ▸ List.mem_append_right _ (List.mem_singleton.mpr rfl))
  · rw [if_neg (by rw [htwo]; decide), if_pos htwo] at hstores
    exact h _ _ hnext ⟨1, _, s.ptr⟩
      (hstores ▸ List.mem_append_right _ (List.mem_singleton.mpr rfl))

theorem walk_none_iff (n : ℕ) :
    walk hdr mem len n = none ↔ orbit (follow hdr mem len) 0 n = none := by
  rw [orbit_follow, Option.map_eq_none_iff]

/-- The walk is safe exactly when the chain of headers is sound. -/
theorem walksSafely_iff : WalksSafely hdr mem len ↔ ChainsSoundly hdr mem len := by
  have hstops : (∃ n, walk hdr mem len n = none) ↔ _ :=
    (exists_congr walk_none_iff).trans stops_iff
  rw [WalksSafely, hstops]
  constructor
  · rintro ⟨hreturn, hsafe⟩ n p hp
    refine ⟨fun hin => ?_, hreturn n p hp⟩
    rw [orbit_follow] at hp
    obtain ⟨s, hs, rfl⟩ := Option.map_eq_some_iff.mp hp
    exact ⟨(within_turn_iff hin).mp (hsafe n s hs).1,
      area_of_stores hs hin fun n s hs => (hsafe n s hs).2⟩
  · intro h
    refine ⟨fun n p hp => (h n p hp).2, fun n s hs => ?_⟩
    refine ⟨?_, stores_walk (fun n p hp => (h n p hp).1) hs⟩
    by_cases hin : s.ptr < len
    · have hpos : orbit (follow hdr mem len) 0 n = some s.ptr := by
        rw [orbit_follow, hs, Option.map_some]
      exact (within_turn_iff hin).mpr ((h n s.ptr hpos).1 hin).1
    · exact within_turn_of_le hin

end Safety

section WellFormed

def typeCode : ObjType → BitVec 32
  | .objects => 1
  | .enemies => 2
  | .other => 3

/-- A section with its header and its data at an address. -/
structure SectionAt (hdr : QuestDatHdr) (mem : Buffer) (p : ℕ) (sec : QuestDat) : Prop where
  objType : field mem (p + hdr.objType) = typeCode sec.objType
  nextHdr : (field mem (p + hdr.nextHdr)).toNat = hdr.data + sec.data.length
  area : field mem (p + hdr.area) = BitVec.ofNat 32 sec.area
  size : (field mem (p + hdr.size)).toNat = sec.data.length
  data : ∀ i < sec.data.length, sec.data[i]? = some (mem (p + hdr.data + i))

/-- Sections one after the other, with their addresses, up to the end of the buffer or to some
padding. -/
inductive Sections (hdr : QuestDatHdr) (mem : Buffer) (len : BitVec 32) :
    ℕ → List (ℕ × QuestDat) → Prop where
  | finish : Sections hdr mem len len.toNat []
  | padding {p : ℕ} (hfits : p + hdr.objType + 4 ≤ len.toNat)
      (htype : field mem (p + hdr.objType) ∉ [1, 2, 3]) : Sections hdr mem len p []
  | more {p : ℕ} {sec : QuestDat} {rest : List (ℕ × QuestDat)} (hsec : SectionAt hdr mem p sec)
      (hfits : p + (hdr.data + sec.data.length) ≤ len.toNat)
      (hrest : Sections hdr mem len (p + (hdr.data + sec.data.length)) rest) :
      Sections hdr mem len p ((p, sec) :: rest)

/-- The whole objects of a section with objects. -/
def objectCount (sec : QuestDat) : ℕ :=
  if sec.objType = .objects then sec.data.length / 68 else 0

/-- The assignment to `ptrs` for a section at an address. -/
def storeOf (q : ℕ × QuestDat) : Option Store :=
  match q.2.objType with
  | .objects => some ⟨0, BitVec.ofNat 32 q.2.area, BitVec.ofNat 32 q.1⟩
  | .enemies => some ⟨1, BitVec.ofNat 32 q.2.area, BitVec.ofNat 32 q.1⟩
  | .other => none

variable {hdr : QuestDatHdr} {mem : Buffer} {len : BitVec 32}

theorem toNat_lt_of_header {p : ℕ} {sec : QuestDat}
    (hfits : p + (hdr.data + sec.data.length) ≤ len.toNat) : p < len.toNat := by
  have hdata := hdr.objType_fits
  omega

/-- One turn takes one section. -/
theorem turn_section {s : Walk} {p : ℕ} {sec : QuestDat} (hp : s.ptr.toNat = p)
    (hcount : s.objCount.toNat ≤ p) (hsec : SectionAt hdr mem p sec)
    (hfits : p + (hdr.data + sec.data.length) ≤ len.toNat) :
    ∃ s', (turn hdr len s).result (field mem) = some s' ∧
      s'.ptr.toNat = p + (hdr.data + sec.data.length) ∧
      s'.objCount.toNat = s.objCount.toNat + objectCount sec ∧
      s'.stores = s.stores ++ (storeOf (p, sec)).toList := by
  have hlen := len.isLt
  have hptr : s.ptr = BitVec.ofNat 32 p := by
    rw [← hp, BitVec.ofNat_toNat, BitVec.setWidth_eq]
  have hin : s.ptr < len := by
    rw [BitVec.lt_def, hp]
    exact toNat_lt_of_header hfits
  have hnext : (s.ptr + field mem (p + hdr.nextHdr)).toNat = p + (hdr.data + sec.data.length) := by
    rw [BitVec.toNat_add, hp, hsec.nextHdr, Nat.mod_eq_of_lt (by omega)]
  have hobjects : (s.objCount + field mem (p + hdr.size) / 68).toNat =
      s.objCount.toNat + sec.data.length / 68 := by
    have hquot : (field mem (p + hdr.size) / 68).toNat = sec.data.length / 68 := by
      rw [BitVec.toNat_udiv, hsec.size]
      rfl
    have hsmall := Nat.div_le_self sec.data.length 68
    rw [BitVec.toNat_add, hquot, Nat.mod_eq_of_lt (by omega)]
  rw [turn_of_lt hin, hp, hsec.objType]
  cases htype : sec.objType with
  | objects =>
    refine ⟨_, if_pos rfl, hnext, ?_, ?_⟩
    · rw [objectCount, if_pos htype]
      exact hobjects
    · rw [storeOf, htype, hptr, hsec.area]
      rfl
  | enemies =>
    refine ⟨_, rfl, hnext, ?_, ?_⟩
    · rw [objectCount, htype]
      rfl
    · rw [storeOf, htype, hptr, hsec.area]
      rfl
  | other =>
    refine ⟨_, rfl, hnext, ?_, ?_⟩
    · rw [objectCount, htype]
      rfl
    · rw [storeOf, htype]
      exact (List.append_nil _).symm

/-- The loop, from any of its states on. -/
def loop (hdr : QuestDatHdr) (mem : Buffer) (len : BitVec 32) (s : Walk) (n : ℕ) : Option Walk :=
  orbit (fun s => (turn hdr len s).result (field mem)) s n

theorem loop_succ {s s' : Walk} (h : (turn hdr len s).result (field mem) = some s') (n : ℕ) :
    loop hdr mem len s (n + 1) = loop hdr mem len s' n := by
  rw [loop, orbit_succ', h, Option.bind_some, loop]

theorem loop_one {s : Walk} (h : ¬s.ptr < len) : loop hdr mem len s 1 = none :=
  turn_of_le h

/-- What the loop has done when it ends: each section was visited once, in order, its store was
made, and its objects were counted. -/
structure Visits (hdr : QuestDatHdr) (mem : Buffer) (len : BitVec 32) (s : Walk)
    (secs : List (ℕ × QuestDat)) (n : ℕ) (last : Walk) : Prop where
  turns : n = secs.length ∨ n = secs.length + 1
  reaches : loop hdr mem len s n = some last
  ends : loop hdr mem len s (n + 1) = none
  positions : (List.range secs.length).map (fun k => (loop hdr mem len s k).map Walk.ptr) =
    secs.map fun q => some (BitVec.ofNat 32 q.1)
  stores : last.stores = s.stores ++ secs.filterMap storeOf
  objects : last.objCount.toNat = s.objCount.toNat + (secs.map fun q => objectCount q.2).sum

/-- A section in front of others is one turn in front of theirs. -/
theorem Visits.cons {s s' last : Walk} {p n : ℕ} {sec : QuestDat} {rest : List (ℕ × QuestDat)}
    (h : Visits hdr mem len s' rest n last) (hp : s.ptr.toNat = p)
    (hturn : (turn hdr len s).result (field mem) = some s')
    (hcount : s'.objCount.toNat = s.objCount.toNat + objectCount sec)
    (hstores : s'.stores = s.stores ++ (storeOf (p, sec)).toList) :
    Visits hdr mem len s ((p, sec) :: rest) (n + 1) last where
  turns := by
    rw [List.length_cons]
    exact h.turns.imp (congrArg (· + 1)) (congrArg (· + 1))
  reaches := by
    rw [loop_succ hturn]
    exact h.reaches
  ends := by
    rw [loop_succ hturn]
    exact h.ends
  positions := by
    have hptr : s.ptr = BitVec.ofNat 32 p := by
      rw [← hp, BitVec.ofNat_toNat, BitVec.setWidth_eq]
    rw [List.length_cons, List.range_succ_eq_map, List.map_cons, List.map_map, List.map_cons,
      ← h.positions]
    refine congrArg₂ List.cons ?_ (List.map_congr_left fun k _ => ?_)
    · exact congrArg some hptr
    · exact congrArg (Option.map Walk.ptr) (loop_succ hturn k)
  stores := by
    rw [h.stores, hstores, List.append_assoc, List.filterMap_cons]
    cases storeOf (p, sec) <;> rfl
  objects := by
    rw [h.objects, hcount, List.map_cons, List.sum_cons, Nat.add_assoc]

theorem ptr_lt_iff {s : Walk} {p : ℕ} (hp : s.ptr.toNat = p) : s.ptr < len ↔ p < len.toNat := by
  rw [BitVec.lt_def, hp]

/-- The loop visits the sections that lie in front of it, one by one. -/
theorem Sections.visits {p : ℕ} {secs : List (ℕ × QuestDat)} (h : Sections hdr mem len p secs)
    {s : Walk} (hp : s.ptr.toNat = p) (hcount : s.objCount.toNat ≤ p) :
    ∃ n last, Visits hdr mem len s secs n last := by
  induction h generalizing s with
  | finish =>
    have hend : ¬s.ptr < len := fun hlt => (Nat.lt_irrefl _ ((ptr_lt_iff hp).mp hlt)).elim
    exact ⟨0, s, .inl rfl, rfl, loop_one hend, rfl, (List.append_nil _).symm, rfl⟩
  | @padding p hfits htype =>
    have hin : s.ptr < len := (ptr_lt_iff hp).mpr (by omega)
    have hturn : (turn hdr len s).result (field mem) = some { s with ptr := len } := by
      simp only [List.mem_cons, List.not_mem_nil, or_false, not_or] at htype
      rw [turn_of_lt hin, hp]
      dsimp only
      rw [if_neg htype.1, if_neg htype.2.1, if_neg htype.2.2]
    have hend : ¬len < len := BitVec.lt_irrefl len
    refine ⟨1, { s with ptr := len }, .inr rfl, hturn, ?_, rfl, (List.append_nil _).symm, rfl⟩
    rw [loop_succ hturn]
    exact loop_one hend
  | @more p sec rest hsec hfits hrest ih =>
    obtain ⟨s', hturn, hptr, hcount', hstores⟩ := turn_section hp hcount hsec hfits
    have hobjects : objectCount sec ≤ sec.data.length := by
      unfold objectCount
      split_ifs
      · exact Nat.div_le_self _ _
      · exact Nat.zero_le _
    obtain ⟨n, last, hvisits⟩ := ih hptr (by omega)
    exact ⟨n + 1, last, hvisits.cons hp hturn hcount' hstores⟩

end WellFormed

section Refinement

/-- The last section of a type for an area, with its address. -/
def lastOf (ty : ObjType) (area : Fin 17) (secs : List (ℕ × QuestDat)) : Option (ℕ × QuestDat) :=
  (secs.filter fun q => q.2.objType = ty ∧ q.2.area = area).getLast?

/-- What is in a table after some assignments. -/
def entryOf (table : ℕ) (area : Fin 17) (stores : List Store) : Option (BitVec 32) :=
  ((stores.filter fun store =>
    store.table = table ∧ store.area = BitVec.ofNat 32 area).getLast?).map Store.hdr

theorem lastOf_concat (ty : ObjType) (area : Fin 17) (secs : List (ℕ × QuestDat))
    (q : ℕ × QuestDat) :
    lastOf ty area (secs ++ [q]) =
      if q.2.objType = ty ∧ q.2.area = area then some q else lastOf ty area secs := by
  rw [lastOf, List.filter_append, List.filter_singleton]
  by_cases h : q.2.objType = ty ∧ q.2.area = area
  · simp [h]
  · simp [h, lastOf]

theorem area_eq_iff (a b : Fin 17) : BitVec.ofNat 32 a = BitVec.ofNat 32 b ↔ a = b := by
  rw [← BitVec.toNat_inj, BitVec.toNat_ofNat, BitVec.toNat_ofNat, Fin.ext_iff]
  have ha := a.isLt
  have hb := b.isLt
  omega

theorem entryOf_concat (table : ℕ) (area : Fin 17) (stores : List Store) (store : Store) :
    entryOf table area (stores ++ [store]) =
      if store.table = table ∧ store.area = BitVec.ofNat 32 area then some store.hdr
      else entryOf table area stores := by
  rw [entryOf, List.filter_append, List.filter_singleton]
  by_cases h : store.table = table ∧ store.area = BitVec.ofNat 32 area
  · simp [h]
  · simp [h, entryOf]

/-- The walk over the bytes and the fold over the sections agree: in what they count, and in which
section each of them leaves in the tables. -/
theorem parseQuestObjects_refines (secs : List (ℕ × QuestDat)) :
    (parseQuestObjects (secs.map Prod.snd)).1 =
        BitVec.ofNat 32 (secs.map fun q => objectCount q.2).sum ∧
      ∀ area,
        (parseQuestObjects (secs.map Prod.snd)).2.objects area =
            (lastOf .objects area secs).map Prod.snd ∧
          entryOf 0 area (secs.filterMap storeOf) =
            (lastOf .objects area secs).map (BitVec.ofNat 32 ·.1) ∧
          (parseQuestObjects (secs.map Prod.snd)).2.enemies area =
            (lastOf .enemies area secs).map Prod.snd ∧
          entryOf 1 area (secs.filterMap storeOf) =
            (lastOf .enemies area secs).map (BitVec.ofNat 32 ·.1) := by
  induction secs using List.reverseRecOn with
  | nil => exact ⟨rfl, fun _ => ⟨rfl, rfl, rfl, rfl⟩⟩
  | append_singleton secs q ih =>
    obtain ⟨hcount, htables⟩ := ih
    have hparse : parseQuestObjects ((secs ++ [q]).map Prod.snd) =
        parseSection (parseQuestObjects (secs.map Prod.snd)) q.2 := by
      rw [List.map_append, parseQuestObjects, List.foldl_append]
      rfl
    rw [hparse, List.map_append, List.sum_append, List.filterMap_append]
    refine ⟨?_, fun area => ?_⟩
    · cases htype : q.2.objType <;>
        simp [parseSection, htype, objectCount, hcount, BitVec.ofNat_add]
    · obtain ⟨hobjects, hfirst, henemies, hsecond⟩ := htables area
      rw [lastOf_concat, lastOf_concat]
      by_cases harea : q.2.area = area
      · subst harea
        cases htype : q.2.objType <;>
          simp [parseSection, htype, storeOf, entryOf_concat, hobjects, hfirst, henemies, hsecond]
      · have hother : area ≠ q.2.area := fun h => harea h.symm
        cases htype : q.2.objType <;>
          simp [parseSection, htype, storeOf, entryOf_concat, area_eq_iff, harea, hother, hobjects,
            hfirst, henemies, hsecond]

end Refinement

/-- For every buffer, the walk over it is safe exactly when the headers that the offsets lead to,
from the start of the buffer, lie in it, have an area that there is, and never lead back to one of
them. Well-formed sections are each visited once, and their objects counted. -/
theorem parseQuestObjects_walk (mem : Buffer) (len : BitVec 32) :
    (WalksSafely datHdr mem len ↔ ChainsSoundly datHdr mem len) ∧
      ∀ secs, Sections datHdr mem len 0 secs →
        ∃ n last, Visits datHdr mem len .start secs n last :=
  ⟨walksSafely_iff, fun _ h => h.visits rfl le_rfl⟩

/-- A section with one object, and nothing else. -/
def oneObject : Buffer
  | 0 => 1
  | 4 => 84
  | 12 => 68
  | _ => 0

theorem oneObject_sections :
    Sections datHdr oneObject 84 0 [(0, ⟨.objects, 0, List.replicate 68 0⟩)] := by
  refine .more ⟨rfl, rfl, rfl, rfl, fun i hi => ?_⟩ le_rfl .finish
  rw [List.length_replicate] at hi
  rw [List.getElem?_replicate_of_lt hi]
  refine congrArg some ?_
  have hfar : 0 + datHdr.data + i = i + 13 + 3 := by
    change 0 + 16 + i = _
    omega
  rw [hfar]
  rfl

theorem oneObject_walk :
    ∃ n last, Visits datHdr oneObject 84 .start [(0, ⟨.objects, 0, List.replicate 68 0⟩)] n last :=
  (parseQuestObjects_walk oneObject 84).2 _ oneObject_sections

/-- A header of a section to be skipped that does not say where the next one is. -/
def standing : Buffer :=
  fun a => if a = 0 then 3 else 0

theorem loop_standing (n : ℕ) : walk datHdr standing 16 n = some .start := by
  induction n with
  | zero => rfl
  | succ n ih =>
    rw [walk, orbit, ← walk, ih, Option.bind_some]
    rfl

/-- The walk stands still at such a header. -/
theorem not_walksSafely : ¬ ∀ mem len, WalksSafely datHdr mem len := by
  intro h
  obtain ⟨⟨n, hn⟩, -⟩ := h standing 16
  rw [loop_standing] at hn
  cases hn

end ShipServer.QuestSections

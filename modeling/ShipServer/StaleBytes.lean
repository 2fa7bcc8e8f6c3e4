import ShipServer.ListPackets

set_option autoImplicit false

/-! Which list packets hold bytes of an earlier packet. -/

namespace ShipServer.StaleBytes

open BufferWrites Versions QuestLists ListPackets

variable {ic : Iconv} {s : ServerState} {c : Viewer} {p : ListPacket} {q : ℕ}

/-- The packet is the same whatever was in the buffer before. -/
def NoStale (p : ListPacket) : Prop :=
  ∀ buf buf', p.bytes buf = p.bytes buf'

theorem noStale_iff_covered (p : ListPacket) :
    NoStale p ↔ ∀ q < p.len, Covered p.writes q := by
  have : Nontrivial UInt8 := ⟨0, 1, by decide⟩
  exact packet_eq_iff p.writes p.len

theorem covered_writes (p : ListPacket) (q : ℕ) :
    Covered p.writes q ↔ Covered p.head q ∨ Covered (p.layout.writes 0 p.start p.slots) q ∨
      (p.header.flagsField p.slots.length).Covers q ∨ (p.header.lenField p.len).Covers q := by
  have htail : Covered [p.header.flagsField p.slots.length, p.header.lenField p.len] q ↔
      (p.header.flagsField p.slots.length).Covers q ∨ (p.header.lenField p.len).Covers q := by
    simp [Covered]
  rw [ListPacket.writes, covered_append, covered_append, htail, or_assoc]

/-- The fields of a header are all of it. -/
theorem header_covers (h : Header) (type flags len : ℕ) :
    (h.typeField type).Covers q ∨ (h.flagsField flags).Covers q ∨ (h.lenField len).Covers q ↔
      q < h.size := by
  cases h with
  | dc =>
    simp only [Write.Covers, Header.typeField, Header.flagsField, Header.lenField, Header.size,
      put, le16, List.length_cons, List.length_nil]
    omega
  | pc =>
    simp only [Write.Covers, Header.typeField, Header.flagsField, Header.lenField, Header.size,
      put, le16, List.length_cons, List.length_nil]
    omega
  | bb =>
    simp only [Write.Covers, Header.typeField, Header.flagsField, Header.lenField, Header.size,
      put, le16, le32, List.length_append, List.length_cons, List.length_nil]
    omega

theorem covered_head (p : ListPacket) (q : ℕ) :
    Covered p.head q ↔ q < p.cleared ∨ (p.header.typeField p.type).Covers q ∨
      Covered (p.first.map fun f => f.shift p.header.size) q := by
  have hclear : (put 0 (zeros p.cleared)).Covers q ↔ q < p.cleared := by
    simp [Write.Covers, put, zeros]
  rw [ListPacket.head, covered_cons, covered_cons, hclear]

theorem covered_of_lt_size (p : ListPacket) (hq : q < p.header.size) : Covered p.writes q := by
  rw [covered_writes, covered_head]
  rcases (header_covers p.header p.type p.slots.length p.len).mpr hq with h | h | h
  · exact Or.inl (Or.inr (Or.inl h))
  · exact Or.inr (Or.inr (Or.inl h))
  · exact Or.inr (Or.inr (Or.inr h))

@[simp] theorem inOrder_length (k : ℕ) (fs : List (List (Write UInt8))) :
    (inOrder k fs).length = fs.length := by
  induction fs generalizing k with
  | nil => rfl
  | cons f fs ih => rw [inOrder, List.length_cons, ih, List.length_cons]

theorem inOrder_getElem? (k j : ℕ) (fs : List (List (Write UInt8))) :
    (inOrder k fs)[j]? = fs[j]?.map fun f => ⟨k + j, f⟩ := by
  induction fs generalizing k j with
  | nil => rfl
  | cons f fs ih =>
    cases j with
    | zero => rfl
    | succ j =>
      rw [inOrder, List.getElem?_cons_succ, ih, List.getElem?_cons_succ, Nat.add_right_comm,
        Nat.add_assoc]

theorem inOrder_clearAt {k j : ℕ} {fs : List (List (Write UInt8))} {slot : Slot UInt8}
    (h : (inOrder k fs)[j]? = some slot) : slot.clearAt = k + j := by
  rw [inOrder_getElem?] at h
  obtain ⟨f, -, rfl⟩ := Option.map_eq_some_iff.mp h
  rfl

/-- Entries that are cleared where they are written leave nothing, if what comes before them does
not either. -/
theorem noStale_of_inOrder {fs : List (List (Write UInt8))} (hslots : p.slots = inOrder p.start fs)
    (hclear : p.clearLen = p.stride)
    (hhead : ∀ q, p.header.size ≤ q → q < p.layout.place p.start → Covered p.head q) :
    NoStale p := by
  rw [noStale_iff_covered]
  intro q hq
  by_cases hsize : q < p.header.size
  · exact covered_of_lt_size p hsize
  · rw [ShipServer.StaleBytes.covered_writes]
    by_cases hplace : q < p.layout.place p.start
    · exact Or.inl (hhead q (by omega) hplace)
    · refine Or.inr (Or.inl (Layout.covered_writes hclear p.slots ?_ (by omega) hq))
      intro j slot hslot
      rw [hslots] at hslot
      exact inOrder_clearAt hslot

/-- The first entry is cleared with the header. -/
theorem noStale_of_cleared {fs : List (List (Write UInt8))} (hslots : p.slots = inOrder 1 fs)
    (hstart : p.start = 1) (hclear : p.clearLen = p.stride)
    (hcleared : p.header.size + p.stride ≤ p.cleared) : NoStale p := by
  refine noStale_of_inOrder (hstart ▸ hslots) hclear fun q _ hq => ?_
  rw [covered_head]
  rw [hstart] at hq
  simp only [Layout.place, ListPacket.layout, Nat.mul_one] at hq
  exact Or.inl (by omega)

/-- The first entry is cleared by itself. -/
theorem noStale_of_first {fs : List (List (Write UInt8))} (hslots : p.slots = inOrder 1 fs)
    (hstart : p.start = 1) (hclear : p.clearLen = p.stride)
    (hfirst : put 0 (zeros p.stride) ∈ p.first) : NoStale p := by
  refine noStale_of_inOrder (hstart ▸ hslots) hclear fun q hsize hq => ?_
  rw [hstart] at hq
  simp only [Layout.place, ListPacket.layout, Nat.mul_one] at hq
  rw [covered_head]
  refine Or.inr (Or.inr ⟨_, List.mem_map_of_mem hfirst, ?_⟩)
  simp only [Write.Covers, Write.shift, put, zeros, List.length_replicate]
  omega

section Menus

variable {h : Header} {cleared stride clearLen : ℕ}

theorem noStale_questMenu (fs : List (List (Write UInt8))) :
    NoStale (questMenu h cleared stride stride (inOrder 0 fs)) := by
  refine noStale_of_inOrder rfl rfl fun q hsize hq => ?_
  change h.size ≤ q at hsize
  change q < h.size + stride * 0 at hq
  omega

/-- A byte of an entry is new if the entry with that number is cleared that far, or if a field of
the entry has it. -/
theorem noStale_questMenu_iff (hcleared : cleared ≤ h.size) (hclear : clearLen ≤ stride)
    (slots : List (Slot UInt8))
    (hfields : ∀ slot ∈ slots, ∀ f ∈ slot.fields, f.offset + f.bytes.length ≤ stride) :
    NoStale (questMenu h cleared stride clearLen slots) ↔
      ∀ k slot, slots[k]? = some slot → ∀ r < stride,
        (r < clearLen ∧ ∃ other ∈ slots, other.clearAt = k) ∨ Covered slot.fields r := by
  have hentry : ∀ k slot, slots[k]? = some slot → ∀ r < stride,
      (Covered (questMenu h cleared stride clearLen slots).writes (h.size + stride * k + r) ↔
        (r < clearLen ∧ ∃ other ∈ slots, other.clearAt = k) ∨ Covered slot.fields r) := by
    intro k slot hslot r hr
    have hheader (type flags len : ℕ) : ¬((h.typeField type).Covers (h.size + stride * k + r) ∨
        (h.flagsField flags).Covers (h.size + stride * k + r) ∨
        (h.lenField len).Covers (h.size + stride * k + r)) := by
      rw [header_covers]
      omega
    have hslots : Covered ((⟨h.size, stride, clearLen⟩ : Layout).writes (0 : UInt8) 0 slots)
        (h.size + stride * k + r) ↔ _ := Layout.covered_writes_iff hclear slots hfields hr
    rw [ShipServer.StaleBytes.covered_writes, covered_head]
    change ((_ < cleared ∨ _ ∨ Covered [] _) ∨
      Covered ((⟨h.size, stride, clearLen⟩ : Layout).writes 0 0 slots) _ ∨ _) ↔ _
    rw [hslots]
    constructor
    · rintro ((hlt | htype | hnil) | (hwipe | ⟨j, other, hother, rfl, hcovered⟩) | hrest)
      · omega
      · exact absurd (Or.inl htype) (hheader _ 0 0)
      · exact absurd hnil covered_nil
      · exact Or.inl hwipe
      · rw [Nat.zero_add, hother, Option.some_inj] at hslot
        exact Or.inr (hslot ▸ hcovered)
      · exact absurd (Or.inr hrest) (hheader 0 _ _)
    · rintro (hwipe | hcovered)
      · exact Or.inr (Or.inl (Or.inl hwipe))
      · exact Or.inr (Or.inl (Or.inr ⟨k, slot, hslot, Nat.zero_add k, hcovered⟩))
  rw [noStale_iff_covered]
  change (∀ q < h.size + stride * (0 + slots.length), _) ↔ _
  constructor
  · intro hall k slot hslot r hr
    obtain ⟨hk, -⟩ := List.getElem?_eq_some_iff.mp hslot
    refine (hentry k slot hslot r hr).mp (hall _ ?_)
    have hmul : stride * k + stride ≤ stride * slots.length := by
      rw [← Nat.mul_succ]
      exact Nat.mul_le_mul_left stride hk
    rw [Nat.zero_add]
    omega
  · intro hall q hq
    rw [Nat.zero_add] at hq
    by_cases hsize : q < h.size
    · exact covered_of_lt_size _ hsize
    · have hpos : 0 < stride := by
        rcases Nat.eq_zero_or_pos stride with hzero | hpos
        · rw [hzero, Nat.zero_mul] at hq
          omega
        · exact hpos
      have hdiv := Nat.div_add_mod (q - h.size) stride
      have hr := Nat.mod_lt (q - h.size) hpos
      have hk : (q - h.size) / stride < slots.length := by
        rw [Nat.div_lt_iff_lt_mul hpos, Nat.mul_comm]
        omega
      have hplace : q = h.size + stride * ((q - h.size) / stride) + (q - h.size) % stride := by
        omega
      rw [hplace, hentry _ _ (List.getElem?_eq_getElem hk) _ hr]
      exact hall _ _ (List.getElem?_eq_getElem hk) _ hr

end Menus

section Texts

/-- Bytes up to a place are all written if the texts before it fill their room. -/
theorem covered_wideEntry (menu item : ℕ) (name desc : List UInt8) (room : ℕ) :
    (∀ r < 72 + room, Covered (wideEntry ic menu item name desc room) r) ↔
      (ic.convert (.fromUtf8 .utf16) 64 name).length = 64 ∧
        (ic.convert (.fromUtf8 .utf16) room desc).length = room := by
  have hname := ic.length_le (.fromUtf8 .utf16) 64 name
  have hdesc := ic.length_le (.fromUtf8 .utf16) room desc
  have hcovered : ∀ r, Covered (wideEntry ic menu item name desc room) r ↔ r < 8 ∨
      (8 ≤ r ∧ r < 8 + (ic.convert (.fromUtf8 .utf16) 64 name).length) ∨
      (72 ≤ r ∧ r < 72 + (ic.convert (.fromUtf8 .utf16) room desc).length) := by
    intro r
    simp only [wideEntry, menuItem, Covered, Write.Covers, put, le32, le16,
      List.mem_cons, List.not_mem_nil, or_false, exists_eq_or_imp, exists_eq_left,
      List.length_cons, List.length_nil, List.cons_append, List.nil_append]
    omega
  simp only [hcovered]
  constructor
  · intro h
    have h71 := h 71 (by omega)
    refine ⟨by omega, ?_⟩
    by_contra hne
    have hlast := h (72 + room - 1) (by omega)
    omega
  · rintro ⟨h64, hroom⟩ r hr
    omega

/-- The end of an entry for Xbox. -/
theorem covered_markedEntry (menu item : ℕ) (e : Encoding) (name desc : List UInt8) :
    (∀ r < 0xA8, r < 0x98 ∨ Covered (markedEntry ic menu item e name desc 126) r) ↔
      (ic.convert (.fromUtf8 e) 126 desc).length = 126 := by
  have hname := ic.length_le (.fromUtf8 e) 30 name
  have hdesc := ic.length_le (.fromUtf8 e) 126 desc
  have hmark : (ascii (if e = .sjis then "\tJ" else "\tE")).length = 2 := by
    split_ifs <;> rfl
  have hcovered : ∀ r, 0x98 ≤ r → (Covered (markedEntry ic menu item e name desc 126) r ↔
      r < 42 + (ic.convert (.fromUtf8 e) 126 desc).length) := by
    intro r hr
    simp only [markedEntry, markedText, menuItem, Covered, Write.Covers, put, le32, le16, hmark,
      List.mem_cons, List.not_mem_nil, or_false, exists_eq_or_imp, exists_eq_left,
      List.length_cons, List.length_nil, List.cons_append, List.nil_append]
    omega
  constructor
  · intro h
    have hlast := (h 0xA7 (by omega)).resolve_left (by omega)
    rw [hcovered _ (by omega)] at hlast
    omega
  · intro h r hr
    by_cases hlow : r < 0x98
    · exact Or.inl hlow
    · exact Or.inr ((hcovered r (by omega)).mpr (by omega))

theorem wideEntry_inside {menu item : ℕ} {name desc : List UInt8} {room : ℕ} {f : Write UInt8}
    (hf : f ∈ wideEntry ic menu item name desc room) : f.offset + f.bytes.length ≤ 72 + room := by
  have hname := ic.length_le (.fromUtf8 .utf16) 64 name
  have hdesc := ic.length_le (.fromUtf8 .utf16) room desc
  simp only [wideEntry, menuItem, List.cons_append, List.nil_append, List.mem_cons,
    List.not_mem_nil, or_false] at hf
  rcases hf with rfl | rfl | rfl | rfl
  · change 0 + 4 ≤ 72 + room
    omega
  · change 4 + 4 ≤ 72 + room
    omega
  · change 8 + (ic.convert (.fromUtf8 .utf16) 64 name).length ≤ 72 + room
    omega
  · exact Nat.add_le_add_left hdesc 72

theorem markedEntry_inside {menu item : ℕ} {e : Encoding} {name desc : List UInt8} {room : ℕ}
    {f : Write UInt8} (hf : f ∈ markedEntry ic menu item e name desc room) :
    f.offset + f.bytes.length ≤ 42 + room := by
  have hname := ic.length_le (.fromUtf8 e) 30 name
  have hdesc := ic.length_le (.fromUtf8 e) room desc
  have hmark : (ascii (if e = .sjis then "\tJ" else "\tE")).length = 2 := by
    split_ifs <;> rfl
  simp only [markedEntry, markedText, menuItem, List.cons_append, List.nil_append, List.mem_cons,
    List.not_mem_nil, or_false] at hf
  rcases hf with rfl | rfl | rfl | rfl | rfl | rfl
  · change 0 + 4 ≤ 42 + room
    omega
  · change 4 + 4 ≤ 42 + room
    omega
  · change 10 + (ic.convert (.fromUtf8 e) 30 name).length ≤ 42 + room
    omega
  · change 8 + (ascii _).length ≤ 42 + room
    omega
  · exact Nat.add_le_add_left hdesc 42
  · change 40 + (ascii _).length ≤ 42 + room
    omega

end Texts

section Lists

theorem gameList_noStale (ic : Iconv) (s : ServerState) (c : Viewer) :
    NoStale (sendGameList ic s c) := by
  unfold sendGameList
  cases c.version with
  | dcv1 | dcv2 | gc | xbox | ep3 => exact noStale_of_cleared rfl rfl rfl (Nat.le_refl 0x20)
  | pc => exact noStale_of_cleared rfl rfl rfl (Nat.le_refl 0x30)
  | bb => exact noStale_of_cleared rfl rfl rfl (Nat.le_refl 0x34)

theorem blockList_noStale (s : ServerState) (c : Viewer) : NoStale (sendBlockList s c) := by
  unfold sendBlockList
  cases c.version with
  | dcv1 | dcv2 | gc | ep3 | xbox | pc | bb =>
    exact noStale_of_first rfl rfl rfl List.mem_cons_self

theorem infoList_noStale (hp : sendInfoList ic s c = some p) : NoStale p := by
  have hdc (v : ClientVersion) : NoStale (sendDcInfoList s c v) :=
    noStale_of_first rfl rfl rfl List.mem_cons_self
  unfold sendInfoList at hp
  cases hv : c.version with
  | dcv1 | dcv2 =>
    rw [hv] at hp
    exact Option.some_inj.mp hp ▸ hdc _
  | gc | xbox =>
    rw [hv] at hp
    change (if c.gcMsgBoxes then some (sendDcInfoList s c .gc) else none) = some p at hp
    split_ifs at hp
    exact Option.some_inj.mp hp ▸ hdc _
  | pc =>
    rw [hv] at hp
    refine Option.some_inj.mp hp ▸ noStale_of_cleared rfl rfl rfl (Nat.le_refl 0x30)
  | ep3 | bb =>
    rw [hv] at hp
    cases hp

/-- The last bytes of the first entry of the list for Blue Burst are never written. -/
theorem bbShipList_stale (ic : Iconv) (s : ServerState) (c : Viewer) (menuCode : ℕ) :
    ¬NoStale (sendBbShipList ic s c menuCode) := by
  rw [noStale_iff_covered]
  intro hall
  have hlen : 0x30 < (sendBbShipList ic s c menuCode).len := by
    change 0x30 < 8 + 0x2C * (1 + _)
    omega
  have hcovered := hall 0x30 hlen
  rw [ShipServer.StaleBytes.covered_writes, covered_head] at hcovered
  have hheader := header_covers (q := 0x30) .bb
  rcases hcovered with (hlt | htype | hfirst) | hslots | hflags | hend
  · exact absurd hlt (Nat.lt_irrefl 0x30)
  · exact absurd ((hheader _ 0 0).mp (Or.inl htype)) (by decide)
  · revert hfirst
    change ¬Covered ((put 0 (zeros 0x1C) ::
      shipFields menuIdShip 0 4 [put 10 (widen (ascii "SHIP/US"))]).map fun f => f.shift 8) 0x30
    simp [Covered, shipFields, menuItem, Write.Covers, Write.shift, put, zeros, le32, le16, widen,
      ascii]
  · have hplace : 8 + 0x2C * 1 ≤ 0x30 := by
      refine Layout.place_le_of_covered _ (Nat.le_refl 1) ?_ hslots
      intro slot hslot
      obtain ⟨j, hj⟩ := List.getElem?_of_mem hslot
      have hown : slot.clearAt = 1 + j := inOrder_clearAt hj
      omega
    exact absurd hplace (by decide)
  · exact absurd ((hheader 0 _ 0).mp (Or.inr (Or.inl hflags))) (by decide)
  · exact absurd ((hheader 0 0 _).mp (Or.inr (Or.inr hend))) (by decide)

theorem shipList_noStale_iff (ic : Iconv) (s : ServerState) (c : Viewer) (menuCode : ℕ) :
    NoStale (sendShipList ic s c menuCode) ↔ c.version ≠ .bb := by
  unfold sendShipList
  cases hv : c.version with
  | dcv1 | dcv2 | gc | ep3 | xbox =>
    exact iff_of_true (noStale_of_cleared rfl rfl rfl (Nat.le_refl 0x20)) nofun
  | pc => exact iff_of_true (noStale_of_cleared rfl rfl rfl (Nat.le_refl 0x30)) nofun
  | bb => exact iff_of_false (bbShipList_stale ic s c menuCode) fun h => h rfl

/-- Every entry is cleared for some category, or its texts fill it. -/
def EntriesFilled (ic : Iconv) (c : Viewer) (room : ℕ) (cats : List CategoryInfo) : Prop :=
  ∀ (k : ℕ) (cat : CategoryInfo × ℕ), (shownCategories c cats)[k]? = some cat →
    (∃ other, cats[k]? = some other ∧ listsCategory c other = true) ∨
      ((ic.convert (.fromUtf8 .utf16) 64 cat.1.name).length = 64 ∧
        (ic.convert (.fromUtf8 .utf16) room cat.1.desc).length = room)

theorem mem_shownCategories {cats : List CategoryInfo} {cat : CategoryInfo} {k : ℕ} :
    (cat, k) ∈ shownCategories c cats ↔ cats[k]? = some cat ∧ listsCategory c cat = true := by
  rw [shownCategories, List.mem_filter, List.mem_zipIdx_iff_getElem?]

theorem exists_cleared_iff (found : Lang × List CategoryInfo) (room k : ℕ) :
    (∃ slot ∈ wideCategories ic c found room, slot.clearAt = k) ↔
      ∃ other, found.2[k]? = some other ∧ listsCategory c other = true := by
  constructor
  · rintro ⟨slot, hslot, rfl⟩
    obtain ⟨⟨cat, k⟩, hcat, rfl⟩ := List.mem_map.mp hslot
    exact ⟨cat, mem_shownCategories.mp hcat⟩
  · rintro ⟨other, hother⟩
    exact ⟨_, List.mem_map_of_mem (mem_shownCategories.mpr hother), rfl⟩

/-- The lists that clear the entry with the number of the category. -/
theorem wideCategories_noStale_iff (ic : Iconv) (c : Viewer) {h : Header} {cleared : ℕ}
    (hcleared : cleared ≤ h.size) (found : Lang × List CategoryInfo) (room : ℕ) :
    NoStale (questMenu h cleared (72 + room) (72 + room) (wideCategories ic c found room)) ↔
      EntriesFilled ic c room found.2 := by
  rw [noStale_questMenu_iff hcleared (Nat.le_refl _)]
  · constructor
    · intro hall k cat hcat
      by_cases hother : ∃ other, found.2[k]? = some other ∧ listsCategory c other = true
      · exact Or.inl hother
      · refine Or.inr ((covered_wideEntry (categoryMenu found.1) cat.2 _ _ _).mp fun r hr => ?_)
        have hslot : (wideCategories ic c found room)[k]? = some ⟨cat.2,
            wideEntry ic (categoryMenu found.1) cat.2 cat.1.name cat.1.desc room⟩ := by
          rw [wideCategories, List.getElem?_map, hcat, Option.map_some]
        refine (hall k _ hslot r hr).resolve_left fun hwipe => hother ?_
        exact (exists_cleared_iff found room k).mp hwipe.2
    · intro hfilled k slot hslot r hr
      rw [wideCategories, List.getElem?_map] at hslot
      obtain ⟨cat, hcat, rfl⟩ := Option.map_eq_some_iff.mp hslot
      rcases hfilled k cat hcat with hother | hfull
      · exact Or.inl ⟨hr, (exists_cleared_iff found room k).mpr hother⟩
      · exact Or.inr ((covered_wideEntry (categoryMenu found.1) cat.2 _ _ _).mpr hfull r hr)
  · intro slot hslot f hf
    obtain ⟨cat, -, rfl⟩ := List.mem_map.mp hslot
    exact wideEntry_inside hf

/-- The list that clears less of an entry than it sends. -/
theorem xboxOffers_noStale_iff (offers : List Offer) :
    NoStale (questMenu .dc 4 0xA8 0x98 (inOrder 0 (offers.map (byteOffer ic 126)))) ↔
      ∀ o ∈ offers, (ic.convert (.fromUtf8 o.encoding) 126 o.desc).length = 126 := by
  have hget (k : ℕ) : (inOrder 0 (offers.map (byteOffer ic 126)))[k]? =
      offers[k]?.map fun o => ⟨k, byteOffer ic 126 o⟩ := by
    rw [inOrder_getElem?, List.getElem?_map, Option.map_map, Nat.zero_add]
    rfl
  rw [noStale_questMenu_iff (Nat.le_refl 4) (by decide)]
  · constructor
    · intro hall o ho
      obtain ⟨k, hk⟩ := List.getElem?_of_mem ho
      refine (covered_markedEntry (questMenuId o) o.qid.toNat _ o.name _).mp fun r hr => ?_
      exact (hall k ⟨k, byteOffer ic 126 o⟩ (by rw [hget, hk, Option.map_some]) r hr).imp_left
        And.left
    · intro hfull k slot hslot r hr
      have hself : slot.clearAt = k := (inOrder_clearAt hslot).trans (Nat.zero_add k)
      have hmem := List.mem_of_getElem? hslot
      rw [hget] at hslot
      obtain ⟨o, ho, rfl⟩ := Option.map_eq_some_iff.mp hslot
      refine ((covered_markedEntry (questMenuId o) o.qid.toNat _ o.name _).mpr
        (hfull o (List.mem_of_getElem? ho)) r hr).imp_left fun hlt => ?_
      exact ⟨hlt, _, hmem, hself⟩
  · intro slot hslot f hf
    obtain ⟨k, hk⟩ := List.getElem?_of_mem hslot
    rw [hget] at hk
    obtain ⟨o, -, rfl⟩ := Option.map_eq_some_iff.mp hk
    exact markedEntry_inside hf

theorem offerMenu_noStale_iff (ic : Iconv) (c : Viewer) (offers : List Offer) :
    NoStale (offerMenu ic c offers) ↔ (c.version = .xbox →
      ∀ o ∈ offers, (ic.convert (.fromUtf8 o.encoding) 126 o.desc).length = 126) := by
  unfold offerMenu
  cases hv : c.version with
  | dcv1 | dcv2 | gc | ep3 | pc | bb => exact iff_of_true (noStale_questMenu _) nofun
  | xbox => exact (xboxOffers_noStale_iff offers).trans ⟨fun h _ => h, fun h => h rfl⟩

end Lists

/-- When nothing of an earlier packet is in a list. -/
def Written (ic : Iconv) (s : ServerState) (c : Viewer) : Request → Prop
  | .games | .blocks | .infos => True
  | .ships _ => c.version ≠ .bb
  | .categories lang => ∀ h : categoryLang c lang < 8,
    match c.version with
    | .pc => EntriesFilled ic c 224 (pcCategoryList s c ⟨categoryLang c lang, h⟩).2
    | .bb => EntriesFilled ic c 244 (bbCategoryList s ⟨categoryLang c lang, h⟩).2
    | _ => True
  | .quests now cn langCode => c.version = .xbox →
    ∀ offers, sendQuestList s.quests c.lobby c.toMember now cn langCode = .sent offers →
      ∀ o ∈ offers, (ic.convert (.fromUtf8 o.encoding) 126 o.desc).length = 126

theorem categories_noStale_iff (ic : Iconv) (s : ServerState) (c : Viewer) (lang : ℤ) :
    (∀ p, sendQuestCategories ic s c lang = some p → NoStale p) ↔
      Written ic s c (.categories lang) := by
  unfold sendQuestCategories
  simp only [Written]
  by_cases h : categoryLang c lang < 8
  · rw [dif_pos h]
    unfold listCategories
    cases hv : c.version with
    | dcv1 | dcv2 | gc | ep3 | xbox =>
      exact iff_of_true (fun p hp => Option.some_inj.mp hp ▸ noStale_questMenu _) fun _ => trivial
    | pc =>
      have hpc := wideCategories_noStale_iff ic c (h := .pc) (Nat.le_refl 4)
        (pcCategoryList s c ⟨categoryLang c lang, h⟩) 224
      exact ⟨fun hall _ => hpc.mp (hall _ rfl),
        fun hw p hp => Option.some_inj.mp hp ▸ hpc.mpr (hw h)⟩
    | bb =>
      have hbb := wideCategories_noStale_iff ic c (h := .bb) (Nat.zero_le 8)
        (bbCategoryList s ⟨categoryLang c lang, h⟩) 244
      change (∀ p, sendBbQuestCategories ic s c ⟨categoryLang c lang, h⟩ = some p → _) ↔ _
      unfold sendBbQuestCategories
      split_ifs with hempty
      · refine iff_of_true nofun fun _ k cat hcat => ?_
        have hnil := List.eq_nil_of_length_eq_zero hempty
        change (shownCategories c (bbCategoryList s ⟨categoryLang c lang, h⟩).2)[k]? = _ at hcat
        rw [hnil] at hcat
        cases hcat
      · exact ⟨fun hall _ => hbb.mp (hall _ rfl),
          fun hw p hp => Option.some_inj.mp hp ▸ hbb.mpr (hw h)⟩
  · rw [dif_neg h]
    exact iff_of_true nofun fun h' => absurd h' h

/-- No byte of an earlier packet is sent exactly in these cases. -/
theorem noStale_iff (ic : Iconv) (s : ServerState) (c : Viewer) (r : Request) :
    (∀ p, listPacket ic s c r = some p → NoStale p) ↔ Written ic s c r := by
  cases r with
  | games =>
    exact iff_of_true (fun p hp => Option.some_inj.mp hp ▸ gameList_noStale ic s c) trivial
  | blocks => exact iff_of_true (fun p hp => Option.some_inj.mp hp ▸ blockList_noStale s c) trivial
  | infos => exact iff_of_true (fun p hp => infoList_noStale hp) trivial
  | ships menuCode =>
    refine Iff.trans ?_ (shipList_noStale_iff ic s c menuCode)
    exact ⟨fun h => h _ rfl, fun h p hp => Option.some_inj.mp hp ▸ h⟩
  | categories lang => exact categories_noStale_iff ic s c lang
  | quests now cn langCode =>
    change (∀ p, sendQuestMenu ic s c now cn langCode = some p → NoStale p) ↔ (_ → ∀ _, _ → _)
    unfold sendQuestMenu
    cases sendQuestList s.quests c.lobby c.toMember now cn langCode with
    | refused | outside => exact iff_of_true nofun fun _ _ => nofun
    | sent offers =>
      have hiff := offerMenu_noStale_iff ic c offers
      constructor
      · intro hall hv offers' hsent
        cases hsent
        exact hiff.mp (hall _ rfl) hv
      · intro hw p hp
        exact Option.some_inj.mp hp ▸ hiff.mpr fun hv => hw hv offers rfl

/-- What `iconv` does with ASCII texts. -/
def asciiConvert (cd : Conversion) (out : ℕ) (text : List UInt8) : List UInt8 :=
  match cd with
  | .fromUtf8 .sjis | .fromUtf8 .iso8859 => text.take out
  | .fromUtf8 .utf16 | .latinToUtf16 => (widen text).take out

theorem asciiConvert_length_le (cd : Conversion) (out : ℕ) (text : List UInt8) :
    (asciiConvert cd out text).length ≤ out := by
  cases cd with
  | fromUtf8 e => cases e <;> exact List.length_take_le _ _
  | latinToUtf16 => exact List.length_take_le _ _

def asciiIconv : Iconv where
  convert := asciiConvert
  length_le := asciiConvert_length_le

/-- A ship with one block, no games and no quests, that knows itself only. -/
def loneShip : ServerState where
  shipName := ascii "Ship"
  running := [true]
  infoFiles := []
  ships := [⟨1, 1, 0, ⟨ascii "Ship" ++ zeros 8, zeros 16, 0, 5278, 1, 0, 0, 0⟩⟩]
  menuCodes := [0]
  behind _ := [1]
  lobbies := []
  quests := ⟨fun _ _ => [], fun _ _ _ => none⟩
  categories _ _ := []

def bbClient : Viewer where
  version := .bb
  qLang := 1
  languageCode := 1
  privilege := 0
  loggedIn := false
  nte := false
  showDcpcOnGc := false
  gcMsgBoxes := false
  lobby := ⟨.bb, true, 0, 1, false, 0, []⟩
  battle := false

/-- Blue Burst clients get four old bytes with every list of ships. -/
theorem noStale_not : ¬∀ (ic : Iconv) (s : ServerState) (c : Viewer) (r : Request) (p : ListPacket),
    listPacket ic s c r = some p → NoStale p := fun h =>
  bbShipList_stale asciiIconv loneShip bbClient 0
    (h asciiIconv loneShip bbClient (.ships 0) _ rfl)

end ShipServer.StaleBytes

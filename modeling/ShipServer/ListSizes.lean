import ShipServer.StaleBytes

set_option autoImplicit false

/-! How long the lists can be that are built in the send buffer. -/

namespace ShipServer.ListSizes

open BufferWrites Versions QuestLists ShipList ListPackets StaleBytes

variable {ic : Iconv} {s : ServerState} {c : Viewer} {p : ListPacket}

def sendbufSize : ℕ := 65536

/-- The number that some bytes stand for, the lowest first. -/
def fromLe : List UInt8 → ℕ
  | [] => 0
  | b :: bs => b.toNat + 256 * fromLe bs

def declaredLen (p : ListPacket) : ℕ :=
  fromLe (p.header.lenField p.len).bytes

def declaredCount (p : ListPacket) : ℕ :=
  fromLe (p.header.flagsField p.slots.length).bytes

/-- A packet is built inside the buffer, and its header says how long it is and how many entries
it has. -/
structure WellFormed (p : ListPacket) : Prop where
  inside : Inside sendbufSize p.writes
  length : declaredLen p = p.len
  count : declaredCount p = p.slots.length

theorem fromLe_le16 (n : ℕ) : fromLe (le16 n) = n % 2 ^ 16 := by
  simp only [le16, fromLe, UInt8.toNat_ofNat']
  omega

theorem fromLe_le32 (n : ℕ) : fromLe (le32 n) = n % 2 ^ 32 := by
  simp only [le32, le16, List.cons_append, List.nil_append, fromLe, UInt8.toNat_ofNat']
  omega

theorem declaredLen_eq (p : ListPacket) : declaredLen p = p.len % 2 ^ 16 := by
  unfold declaredLen
  cases p.header with
  | dc | pc | bb => exact fromLe_le16 p.len

theorem declaredCount_eq (p : ListPacket) :
    declaredCount p = p.slots.length % p.header.flagsLimit := by
  have hbyte (n : ℕ) : fromLe [UInt8.ofNat n] = n % 2 ^ 8 := by
    simp only [fromLe, UInt8.toNat_ofNat']
    omega
  unfold declaredCount
  cases p.header with
  | dc | pc => exact hbyte _
  | bb => exact fromLe_le32 _

theorem tail_inside (p : ListPacket) :
    Inside sendbufSize [p.header.flagsField p.slots.length, p.header.lenField p.len] := by
  have hfields (h : Header) (flags len : ℕ) :
      Inside sendbufSize [h.flagsField flags, h.lenField len] := by
    cases h with
    | dc | pc | bb =>
      simp [Inside, Header.flagsField, Header.lenField, put, le16, le32, sendbufSize]
  exact hfields p.header p.slots.length p.len

/-- The entries of a list that clears them where it writes them are well formed up to some number
of them, if the first entry and the fields of all others are inside. -/
theorem wellFormed_iff_head {fs : List (List (Write UInt8))} {max : ℕ}
    (hslots : p.slots = inOrder p.start fs) (hclear : p.clearLen ≤ p.stride)
    (hmax : ∀ n, n ≤ max ↔
      n < p.header.flagsLimit ∧ p.header.size + p.stride * (p.start + n) < sendbufSize) :
    WellFormed p ↔ fs.length ≤ max ∧ Inside sendbufSize p.head ∧
      ∀ j fields, fs[j]? = some fields → ∀ f ∈ fields,
        p.header.size + p.stride * (p.start + j) + f.offset + f.bytes.length ≤ sendbufSize := by
  have hlimit : 0 < p.header.flagsLimit := by
    cases p.header <;> decide
  have hlength : p.slots.length = fs.length := by
    rw [hslots, inOrder_length]
  have hdeclared : declaredLen p = p.len ∧ declaredCount p = p.slots.length ↔
      fs.length ≤ max := by
    rw [declaredLen_eq, declaredCount_eq, hmax, ← hlength, Nat.mod_eq_iff_lt (by decide),
      Nat.mod_eq_iff_lt hlimit.ne']
    exact And.comm
  have hinside : fs.length ≤ max → (Inside sendbufSize p.writes ↔ Inside sendbufSize p.head ∧
      ∀ j fields, fs[j]? = some fields → ∀ f ∈ fields,
        p.header.size + p.stride * (p.start + j) + f.offset + f.bytes.length ≤ sendbufSize) := by
    intro hle
    have hend := ((hmax _).mp hle).2
    rw [ListPacket.writes, inside_append, inside_append, Layout.inside_writes_iff]
    constructor
    · rintro ⟨⟨hhead, hslot⟩, -⟩
      refine ⟨hhead, fun j fields hj => (hslot j ⟨p.start + j, fields⟩ ?_).2⟩
      rw [hslots, inOrder_getElem?, hj, Option.map_some]
    · rintro ⟨hhead, hall⟩
      refine ⟨⟨hhead, fun j slot hj => ?_⟩, tail_inside p⟩
      rw [hslots, inOrder_getElem?] at hj
      obtain ⟨fields, hget, rfl⟩ := Option.map_eq_some_iff.mp hj
      refine ⟨?_, hall j fields hget⟩
      obtain ⟨hlt, -⟩ := List.getElem?_eq_some_iff.mp hget
      have hmul : p.stride * (p.start + j) + p.stride ≤ p.stride * (p.start + fs.length) := by
        rw [← Nat.mul_succ]
        exact Nat.mul_le_mul_left p.stride (by omega)
      change p.header.size + p.stride * (p.start + j) + p.clearLen ≤ sendbufSize
      omega
  constructor
  · intro h
    have hle := hdeclared.mp ⟨h.length, h.count⟩
    exact ⟨hle, (hinside hle).mp h.inside⟩
  · rintro ⟨hle, h⟩
    obtain ⟨hlen, hcount⟩ := hdeclared.mpr hle
    exact ⟨(hinside hle).mpr h, hlen, hcount⟩

/-- Fields inside their entries are inside the buffer. -/
theorem wellFormed_iff_of_fields {fs : List (List (Write UInt8))} {max : ℕ}
    (hslots : p.slots = inOrder p.start fs) (hclear : p.clearLen ≤ p.stride)
    (hmax : ∀ n, n ≤ max ↔
      n < p.header.flagsLimit ∧ p.header.size + p.stride * (p.start + n) < sendbufSize)
    (hfields : ∀ fields ∈ fs, ∀ f ∈ fields, f.offset + f.bytes.length ≤ p.stride) :
    WellFormed p ↔ fs.length ≤ max ∧ Inside sendbufSize p.head := by
  rw [wellFormed_iff_head hslots hclear hmax, ← and_assoc, and_iff_left_iff_imp]
  rintro ⟨hle, -⟩ j fields hj f hf
  have hend := ((hmax _).mp hle).2
  have hentry := hfields fields (List.mem_of_getElem? hj) f hf
  obtain ⟨hlt, -⟩ := List.getElem?_eq_some_iff.mp hj
  have hmul : p.stride * (p.start + j) + p.stride ≤ p.stride * (p.start + fs.length) := by
    rw [← Nat.mul_succ]
    exact Nat.mul_le_mul_left p.stride (by omega)
  omega

theorem istrncpy_inside {cd : Conversion} {offset n : ℕ} {text : List UInt8} {f : Write UInt8}
    (hf : f ∈ istrncpy ic cd offset text n) : f.offset + f.bytes.length ≤ offset + n := by
  have hle := ic.length_le cd n text
  simp only [istrncpy, List.mem_cons, List.not_mem_nil, or_false] at hf
  rcases hf with rfl | rfl
  · simp [put, zeros]
  · exact Nat.add_le_add_left hle offset

section Games

theorem gameFields_inside {l : ListedLobby} {f : Write UInt8} (hf : f ∈ gameFields l) :
    f.offset + f.bytes.length ≤ 10 := by
  simp only [gameFields, menuItem, List.cons_append, List.nil_append, List.mem_cons,
    List.not_mem_nil, or_false] at hf
  rcases hf with rfl | rfl | rfl | rfl <;> simp [put, le32, le16]

theorem byteName_inside {l : ListedLobby} {f : Write UInt8} (hf : f ∈ byteName ic l) :
    f.offset + f.bytes.length ≤ 0x1C := by
  unfold byteName at hf
  split_ifs at hf <;> exact (istrncpy_inside hf).trans (by decide)

theorem dcGameEntry_inside {l : ListedLobby} {f : Write UInt8} (hf : f ∈ dcGameEntry ic l) :
    f.offset + f.bytes.length ≤ 0x1C := by
  rw [dcGameEntry, List.mem_append, List.mem_append, List.mem_append, List.mem_singleton] at hf
  rcases hf with ((hf | rfl) | hf) | hf
  · exact (gameFields_inside hf).trans (by decide)
  · exact Nat.le_refl 0x1C
  · split_ifs at hf
    · exact (istrncpy_inside hf).trans (by decide)
    · cases hf
  · exact byteName_inside hf

theorem gcGameEntry_inside {l : ListedLobby} {f : Write UInt8} (hf : f ∈ gcGameEntry ic l) :
    f.offset + f.bytes.length ≤ 0x1C := by
  rw [gcGameEntry, List.mem_append, List.mem_append, List.mem_singleton] at hf
  rcases hf with (hf | rfl) | hf
  · exact (gameFields_inside hf).trans (by decide)
  · exact Nat.le_refl 0x1C
  · exact byteName_inside hf

/-- An entry with a name in UTF-16 and two bytes behind it. -/
theorem wideGameEntry_inside {l : ListedLobby} {a b : UInt8} {n : ℕ} (hn : n ≤ 0x20)
    {f : Write UInt8} (hf : f ∈ gameFields l ++ [put 42 [a], put 43 [b]] ++
      istrncpy ic (.fromUtf8 .utf16) 10 l.name n) : f.offset + f.bytes.length ≤ 0x2C := by
  rw [List.mem_append, List.mem_append, List.mem_pair] at hf
  rcases hf with (hf | rfl | rfl) | hf
  · exact (gameFields_inside hf).trans (by decide)
  · exact Nat.le_succ 0x2B
  · exact Nat.le_refl 0x2C
  · exact (istrncpy_inside hf).trans (by omega)

theorem byteGameList_iff {entries : List (List (Write UInt8))}
    (hfields : ∀ fields ∈ entries, ∀ f ∈ fields, f.offset + f.bytes.length ≤ 0x1C) :
    WellFormed (byteGameList s entries) ↔ entries.length ≤ 255 ∧ s.shipName.length < 0xFFF2 := by
  have hmax (n : ℕ) : n ≤ 255 ↔ n < 2 ^ 8 ∧ 4 + 0x1C * (1 + n) < sendbufSize := by
    rw [sendbufSize]
    omega
  have hhead : Inside sendbufSize (byteGameList s entries).head ↔ s.shipName.length < 0xFFF2 := by
    simp [Inside, ListPacket.head, byteGameList, Header.typeField, Header.size, menuItem,
      Write.shift, put, zeros, strcpy, le32, le16, sendbufSize]
    omega
  rw [wellFormed_iff_of_fields rfl (Nat.le_refl 0x1C) hmax hfields, hhead]

theorem wideGameList_head (ic : Iconv) (s : ServerState) (h : Header)
    (entries : List (List (Write UInt8))) :
    Inside sendbufSize (wideGameList ic s h entries).head := by
  have hname := ic.length_le .latinToUtf16 0x20 s.shipName
  cases h <;>
  · simp [Inside, ListPacket.head, wideGameList, Header.typeField, Header.size, menuItem,
      Write.shift, put, zeros, istrncpy, le32, le16, sendbufSize]
    omega

theorem pcGameList_iff {entries : List (List (Write UInt8))}
    (hfields : ∀ fields ∈ entries, ∀ f ∈ fields, f.offset + f.bytes.length ≤ 0x2C) :
    WellFormed (wideGameList ic s .pc entries) ↔ entries.length ≤ 255 := by
  have hmax (n : ℕ) : n ≤ 255 ↔ n < 2 ^ 8 ∧ 4 + 0x2C * (1 + n) < sendbufSize := by
    rw [sendbufSize]
    omega
  rw [wellFormed_iff_of_fields rfl (Nat.le_refl 0x2C) hmax hfields]
  exact and_iff_left (wideGameList_head ic s .pc entries)

theorem bbGameList_iff {entries : List (List (Write UInt8))}
    (hfields : ∀ fields ∈ entries, ∀ f ∈ fields, f.offset + f.bytes.length ≤ 0x2C) :
    WellFormed (wideGameList ic s .bb entries) ↔ entries.length ≤ 1488 := by
  have hmax (n : ℕ) : n ≤ 1488 ↔ n < 2 ^ 32 ∧ 8 + 0x2C * (1 + n) < sendbufSize := by
    rw [sendbufSize]
    omega
  rw [wellFormed_iff_of_fields rfl (Nat.le_refl 0x2C) hmax hfields]
  exact and_iff_left (wideGameList_head ic s .bb entries)

/-- The games that a client's list shows. -/
def shownGames (s : ServerState) (c : Viewer) : List ListedLobby :=
  s.lobbies.filter fun l =>
    match c.version with
    | .dcv1 | .dcv2 => listsOnDc c l
    | .pc => listsOnPc c l
    | .gc | .xbox => listsOnGc c l
    | .ep3 => listsOnEp3 l
    | .bb => listsOnBb l

/-- A list of games is well formed up to this number of them. -/
def maxGames : ClientVersion → ℕ
  | .bb => 1488
  | _ => 255

/-- Versions whose texts have one byte per character. -/
def byteTexts : ClientVersion → Bool
  | .pc | .bb => false
  | _ => true

theorem gameList_iff (ic : Iconv) (s : ServerState) (c : Viewer) :
    WellFormed (sendGameList ic s c) ↔ (shownGames s c).length ≤ maxGames c.version ∧
      (byteTexts c.version = true → s.shipName.length < 0xFFF2) := by
  have hfields {entry : ListedLobby → List (Write UInt8)} {n : ℕ} {shown : List ListedLobby}
      (h : ∀ l, ∀ f ∈ entry l, f.offset + f.bytes.length ≤ n) :
      ∀ fields ∈ shown.map entry, ∀ f ∈ fields, f.offset + f.bytes.length ≤ n :=
    List.forall_mem_map.mpr fun l _ => h l
  unfold sendGameList shownGames
  cases c.version with
  | dcv1 | dcv2 =>
    refine (byteGameList_iff (hfields fun l f => dcGameEntry_inside)).trans ?_
    rw [List.length_map]
    exact and_congr_right' ⟨fun h _ => h, fun h => h rfl⟩
  | gc | xbox | ep3 =>
    refine (byteGameList_iff (hfields fun l f => gcGameEntry_inside)).trans ?_
    rw [List.length_map]
    exact and_congr_right' ⟨fun h _ => h, fun h => h rfl⟩
  | pc =>
    refine (pcGameList_iff (hfields fun l f => wideGameEntry_inside (by decide))).trans ?_
    rw [List.length_map]
    exact (and_iff_left fun h => absurd h Bool.false_ne_true).symm
  | bb =>
    refine (bbGameList_iff (hfields fun l f => wideGameEntry_inside (by decide))).trans ?_
    rw [List.length_map]
    exact (and_iff_left fun h => absurd h Bool.false_ne_true).symm

end Games

section Ships

/-- The ships that a client's list shows. -/
def shownShips (s : ServerState) (c : Viewer) (menuCode : ℕ) : List Miniship :=
  s.ships.filter fun i =>
    match c.version with
    | .pc => listsOnPcShip c menuCode i
    | .bb => listsOnBbShip c menuCode i
    | _ => listsOnDcShip c menuCode i

/-- The text of every ship ends inside the buffer. -/
def ShipTextsEnd (s : ServerState) (menuCode : ℕ) (ships : List Miniship) : Prop :=
  ∀ j i, ships[j]? = some i → 15 + 0x1C * (1 + j) + (shipText s menuCode i).length ≤ sendbufSize

theorem shipEntries_length (text : List UInt8 → List (Write UInt8)) (lists : Miniship → Bool)
    (menuCode : ℕ) : (shipEntries s c text lists menuCode).length =
      (s.ships.filter lists).length + (otherMenus s c menuCode).length := by
  rw [shipEntries, List.length_append, List.length_map, List.length_map]

theorem shipFields_inside {menu item flags n : ℕ} {text : List (Write UInt8)} (hn : 10 ≤ n)
    (htext : ∀ f ∈ text, f.offset + f.bytes.length ≤ n) {f : Write UInt8}
    (hf : f ∈ shipFields menu item flags text) : f.offset + f.bytes.length ≤ n := by
  rw [shipFields, List.mem_append, List.mem_append, List.mem_singleton] at hf
  rcases hf with (hf | rfl) | hf
  · rw [menuItem, List.mem_pair] at hf
    rcases hf with rfl | rfl
    · exact (by decide : 0 + 4 ≤ 10).trans hn
    · exact (by decide : 4 + 4 ≤ 10).trans hn
  · exact (by decide : 8 + 2 ≤ 10).trans hn
  · exact htext f hf

theorem wideShipEntries_inside {lists : Miniship → Bool} {menuCode : ℕ} :
    ∀ fields ∈ shipEntries s c (fun text => istrncpy ic .latinToUtf16 10 text 0x22) lists menuCode,
      ∀ f ∈ fields, f.offset + f.bytes.length ≤ 0x2C := by
  intro fields hfields f hf
  rw [shipEntries, List.mem_append] at hfields
  rcases hfields with hfields | hfields
  · obtain ⟨i, -, rfl⟩ := List.mem_map.mp hfields
    exact shipFields_inside (by decide) (fun g hg => istrncpy_inside hg) hf
  · obtain ⟨code, -, rfl⟩ := List.mem_map.mp hfields
    exact shipFields_inside (by decide) (fun g hg => istrncpy_inside hg) hf

theorem wideShipList_head (ic : Iconv) (s : ServerState) (c : Viewer) (h : Header)
    (lists : Miniship → Bool) (menuCode : ℕ) :
    Inside sendbufSize (wideShipList ic s c h lists menuCode).head := by
  cases h <;>
  · simp [Inside, ListPacket.head, wideShipList, shipFields, Header.typeField, Header.size,
      menuItem, Write.shift, put, zeros, widen, ascii, le32, le16, sendbufSize]

theorem pcShipList_iff (ic : Iconv) (s : ServerState) (c : Viewer) (menuCode : ℕ) :
    WellFormed (sendPcShipList ic s c menuCode) ↔
      (s.ships.filter (listsOnPcShip c menuCode)).length +
        (otherMenus s c menuCode).length ≤ 255 := by
  have hmax (n : ℕ) : n ≤ 255 ↔ n < 2 ^ 8 ∧ 4 + 0x2C * (1 + n) < sendbufSize := by
    rw [sendbufSize]
    omega
  rw [sendPcShipList, wellFormed_iff_of_fields rfl (Nat.le_refl 0x2C) hmax wideShipEntries_inside,
    shipEntries_length]
  exact and_iff_left (wideShipList_head ic s c .pc _ menuCode)

theorem bbShipList_iff (ic : Iconv) (s : ServerState) (c : Viewer) (menuCode : ℕ) :
    WellFormed (sendBbShipList ic s c menuCode) ↔
      (s.ships.filter (listsOnBbShip c menuCode)).length +
        (otherMenus s c menuCode).length ≤ 1488 := by
  have hmax (n : ℕ) : n ≤ 1488 ↔ n < 2 ^ 32 ∧ 8 + 0x2C * (1 + n) < sendbufSize := by
    rw [sendbufSize]
    omega
  rw [sendBbShipList, wellFormed_iff_of_fields rfl (Nat.le_refl 0x2C) hmax wideShipEntries_inside,
    shipEntries_length]
  exact and_iff_left (wideShipList_head ic s c .bb _ menuCode)

/-- Menus have short texts. -/
theorem menuText_length_le (code : ℕ) : (menuText code).length ≤ 9 := by
  unfold menuText
  split_ifs
  · simp [ascii, codeText, le16]
  · simp [ascii]

theorem dcShipList_head (s : ServerState) (c : Viewer) (menuCode : ℕ) :
    Inside sendbufSize (sendDcShipList s c menuCode).head := by
  simp [Inside, ListPacket.head, sendDcShipList, shipFields, Header.typeField, Header.size,
    menuItem, Write.shift, put, zeros, strcpy, ascii, le32, le16, sendbufSize]

/-- Fields of an entry whose only text is a string. -/
theorem byteShipFields_inside_iff {menu item place : ℕ} {text : List UInt8} :
    (∀ f ∈ shipFields menu item 0 [strcpy 10 text],
      place + f.offset + f.bytes.length ≤ sendbufSize) ↔
        place + 11 + text.length ≤ sendbufSize := by
  simp only [shipFields, menuItem, strcpy, put, le32, le16, List.cons_append, List.nil_append,
    List.forall_mem_cons, List.length_append, List.length_cons, List.length_nil]
  constructor
  · rintro ⟨-, -, -, h, -⟩
    omega
  · intro h
    refine ⟨by omega, by omega, by omega, by omega, List.forall_mem_nil _⟩

theorem dcShipList_iff (s : ServerState) (c : Viewer) (menuCode : ℕ) :
    WellFormed (sendDcShipList s c menuCode) ↔
      (s.ships.filter (listsOnDcShip c menuCode)).length +
        (otherMenus s c menuCode).length ≤ 255 ∧
      ShipTextsEnd s menuCode (s.ships.filter (listsOnDcShip c menuCode)) := by
  have hmax (n : ℕ) : n ≤ 255 ↔ n < 2 ^ 8 ∧ 4 + 0x1C * (1 + n) < sendbufSize := by
    rw [sendbufSize]
    omega
  rw [wellFormed_iff_head rfl (Nat.le_refl 0x1C) hmax, shipEntries_length,
    and_iff_right (dcShipList_head s c menuCode)]
  refine and_congr_right fun hle => ?_
  change (∀ j fields, _ → ∀ f ∈ fields, 4 + 0x1C * (1 + j) + _ + _ ≤ _) ↔ _
  constructor
  · intro hall j i hi
    have hentry := hall j (shipFields menuIdShip i.shipId 0 [strcpy 10 (shipText s menuCode i)]) (by
      obtain ⟨hlt, -⟩ := List.getElem?_eq_some_iff.mp hi
      rw [shipEntries, List.getElem?_append_left (by simpa using hlt), List.getElem?_map, hi]
      rfl)
    have hend := byteShipFields_inside_iff.mp hentry
    omega
  · intro htexts j fields hj
    by_cases hlt : j < (s.ships.filter (listsOnDcShip c menuCode)).length
    · rw [shipEntries, List.getElem?_append_left (by simpa using hlt), List.getElem?_map] at hj
      obtain ⟨i, hi, rfl⟩ := Option.map_eq_some_iff.mp hj
      have hend := htexts j i hi
      exact byteShipFields_inside_iff.mpr (by omega)
    · have hbound : j < 255 := by
        obtain ⟨hlt', -⟩ := List.getElem?_eq_some_iff.mp hj
        rw [shipEntries_length] at hlt'
        omega
      rw [shipEntries, List.getElem?_append_right (by simpa using hlt), List.getElem?_map] at hj
      obtain ⟨code, -, rfl⟩ := Option.map_eq_some_iff.mp hj
      have hshort := menuText_length_le code
      refine byteShipFields_inside_iff.mpr ?_
      rw [sendbufSize]
      omega

/-- A list of ships and menus is well formed up to this number of them. -/
def maxShips : ClientVersion → ℕ
  | .bb => 1488
  | _ => 255

theorem shipList_iff (ic : Iconv) (s : ServerState) (c : Viewer) (menuCode : ℕ) :
    WellFormed (sendShipList ic s c menuCode) ↔
      (shownShips s c menuCode).length + (otherMenus s c menuCode).length ≤ maxShips c.version ∧
      (byteTexts c.version = true → ShipTextsEnd s menuCode (shownShips s c menuCode)) := by
  unfold sendShipList shownShips
  cases c.version with
  | dcv1 | dcv2 | gc | ep3 | xbox =>
    refine (dcShipList_iff s c menuCode).trans ?_
    exact and_congr_right' ⟨fun h _ => h, fun h => h rfl⟩
  | pc => exact (pcShipList_iff ic s c menuCode).trans (and_iff_left fun h => absurd h Bool.false_ne_true).symm
  | bb => exact (bbShipList_iff ic s c menuCode).trans (and_iff_left fun h => absurd h Bool.false_ne_true).symm

end Ships

section Quests

/-- A quest list is well formed up to this number of quests. -/
def maxQuests : ClientVersion → ℕ
  | .pc => 221
  | .bb => 207
  | _ => 255

theorem questMenu_head {h : Header} {cleared stride clearLen : ℕ} (hcleared : cleared ≤ 4)
    (slots : List (Slot UInt8)) :
    Inside sendbufSize (questMenu h cleared stride clearLen slots).head := by
  cases h <;>
  · simp [Inside, ListPacket.head, questMenu, Header.typeField, put, zeros, le16, sendbufSize]
    omega

theorem offerMenu_iff (ic : Iconv) (c : Viewer) (offers : List Offer) :
    WellFormed (offerMenu ic c offers) ↔ offers.length ≤ maxQuests c.version := by
  unfold offerMenu
  cases c.version with
  | dcv1 | dcv2 | gc | ep3 =>
    have hmax (n : ℕ) : n ≤ 255 ↔ n < 2 ^ 8 ∧ 4 + 0x98 * (0 + n) < sendbufSize := by
      rw [sendbufSize]
      omega
    refine (wellFormed_iff_of_fields rfl (Nat.le_refl 0x98) hmax (List.forall_mem_map.mpr
      fun o _ f hf => markedEntry_inside hf)).trans ?_
    rw [List.length_map]
    exact and_iff_left (questMenu_head (Nat.le_refl 4) _)
  | xbox =>
    have hmax (n : ℕ) : n ≤ 255 ↔ n < 2 ^ 8 ∧ 4 + 0xA8 * (0 + n) < sendbufSize := by
      rw [sendbufSize]
      omega
    refine (wellFormed_iff_of_fields rfl (by decide : 0x98 ≤ 0xA8) hmax (List.forall_mem_map.mpr
      fun o _ f hf => markedEntry_inside hf)).trans ?_
    rw [List.length_map]
    exact and_iff_left (questMenu_head (Nat.le_refl 4) _)
  | pc =>
    have hmax (n : ℕ) : n ≤ 221 ↔ n < 2 ^ 8 ∧ 4 + 0x128 * (0 + n) < sendbufSize := by
      rw [sendbufSize]
      omega
    refine (wellFormed_iff_of_fields rfl (Nat.le_refl 0x128) hmax (List.forall_mem_map.mpr
      fun o _ f hf => wideEntry_inside hf)).trans ?_
    rw [List.length_map]
    exact and_iff_left (questMenu_head (Nat.le_refl 4) _)
  | bb =>
    have hmax (n : ℕ) : n ≤ 207 ↔ n < 2 ^ 32 ∧ 8 + 0x13C * (0 + n) < sendbufSize := by
      rw [sendbufSize]
      omega
    refine (wellFormed_iff_of_fields rfl (Nat.le_refl 0x13C) hmax (List.forall_mem_map.mpr
      fun o _ f hf => wideEntry_inside hf)).trans ?_
    rw [List.length_map]
    exact and_iff_left (questMenu_head (Nat.zero_le 4) _)

end Quests

section Shipgate

/-- A client in the list for the shipgate. Names are the arrays that they are read from. -/
structure OnlineClient where
  guildcard : ℕ
  version : ClientVersion
  dlobby : ℕ
  v1Name : List UInt8
  bbName : List UInt8
  lobby : Option (ℕ × List UInt8)

/-- The shipgate has the highest byte first. -/
def be16 (n : ℕ) : List UInt8 :=
  (le16 n).reverse

def be32 (n : ℕ) : List UInt8 :=
  (le32 n).reverse

/-- An array that is copied as it is. -/
def memcpy (offset : ℕ) (array : List UInt8) (n : ℕ) : Write UInt8 :=
  put offset (array.take n ++ zeros (n - array.length))

/-- Clients without a name have not been announced. -/
def announced (cl : OnlineClient) : Bool :=
  cl.v1Name.headI ≠ 0

def clientFields (cl : OnlineClient) : List (Write UInt8) :=
  [put 0 (be32 cl.guildcard), put 8 (be32 cl.dlobby),
    if cl.version ≠ .bb then strncpy 16 (cString cl.v1Name) 32 else memcpy 16 cl.bbName 32] ++
  match cl.lobby with
  | some (id, name) => [put 4 (be32 id), memcpy 48 name 31, put 79 [0]]
  | none => [put 4 (be32 0), put 48 (zeros 32)]

def clientLayout : Layout where
  base := 16
  stride := 80
  clearLen := 0

/-- A list for the shipgate: `size` has 16 bits. -/
structure ClientList where
  writes : List (Write UInt8)
  size : ℕ
  count : ℕ

/-- `shipgate_send_clients`, for one block. Nothing is cleared. -/
def shipgateSendClients (block : ℕ) (clients : List OnlineClient) : Option ClientList :=
  let listed := clients.filter announced
  let size := (16 + 80 * listed.length) % 2 ^ 16
  if listed = [] then none
  else some
    { writes := put 12 (be32 block) ::
        clientLayout.writes 0 0 (inOrder 0 (listed.map clientFields)) ++
        [put 0 (be16 size), put 2 (be16 0x20), put 4 [0, 0], put 6 [0, 0],
          put 8 (be32 listed.length)]
      size := size
      count := listed.length % 2 ^ 32 }

/-- `send_crypt`: how many bytes are sent. -/
def sendCrypt (len : ℕ) : Option ℕ :=
  if len < 8 then none else some len

/-- The list is built inside the buffer, and what is sent is what the header says and all of the
entries that are declared. -/
structure Complete (l : ClientList) (listed : List OnlineClient) : Prop where
  inside : Inside sendbufSize l.writes
  sent : sendCrypt l.size = some (16 + 80 * listed.length)
  count : l.count = listed.length

theorem strncpy_length (offset n : ℕ) (text : List UInt8) :
    (strncpy offset text n).bytes.length = n := by
  simp only [strncpy, put, zeros, List.length_append, List.length_take, List.length_replicate]
  omega

theorem clientFields_inside {cl : OnlineClient} {f : Write UInt8} (hf : f ∈ clientFields cl) :
    f.offset + f.bytes.length ≤ 80 := by
  have hcopy (offset n : ℕ) (array : List UInt8) :
      (memcpy offset array n).offset + (memcpy offset array n).bytes.length = offset + n :=
    congrArg (offset + ·) (strncpy_length offset n array)
  rw [clientFields, List.mem_append] at hf
  rcases hf with hf | hf
  · simp only [List.mem_cons, List.not_mem_nil, or_false] at hf
    rcases hf with rfl | rfl | rfl
    · exact (by decide : 0 + 4 ≤ 80)
    · exact (by decide : 8 + 4 ≤ 80)
    · split_ifs
      · rw [strncpy_length]
        exact (by decide : 16 + 32 ≤ 80)
      · rw [hcopy]
        decide
  · cases hlobby : cl.lobby with
    | none =>
      rw [hlobby, List.mem_pair] at hf
      rcases hf with rfl | rfl
      · exact (by decide : 4 + 4 ≤ 80)
      · exact (by decide : 48 + 32 ≤ 80)
    | some lobby =>
      rw [hlobby] at hf
      simp only [List.mem_cons, List.not_mem_nil, or_false] at hf
      rcases hf with rfl | rfl | rfl
      · exact (by decide : 4 + 4 ≤ 80)
      · rw [hcopy]
        decide
      · exact (by decide : 79 + 1 ≤ 80)

theorem clientList_iff {block : ℕ} {clients : List OnlineClient} {l : ClientList}
    (hl : shipgateSendClients block clients = some l) :
    Complete l (clients.filter announced) ↔ (clients.filter announced).length ≤ 818 := by
  unfold shipgateSendClients at hl
  dsimp only at hl
  split_ifs at hl
  cases hl
  set listed := clients.filter announced
  constructor
  · rintro ⟨-, hsent, -⟩
    simp only [sendCrypt] at hsent
    split_ifs at hsent
    have hsize := Option.some_inj.mp hsent
    omega
  · intro hle
    refine ⟨?_, ?_, Nat.mod_eq_of_lt (by omega)⟩
    · rw [inside_append, inside_cons, Layout.inside_writes_iff]
      refine ⟨⟨(by decide : 12 + 4 ≤ sendbufSize), fun j slot hslot => ?_⟩, ?_⟩
      · rw [inOrder_getElem?, List.getElem?_map] at hslot
        obtain ⟨fields, hfields, rfl⟩ := Option.map_eq_some_iff.mp hslot
        obtain ⟨cl, hcl, rfl⟩ := Option.map_eq_some_iff.mp hfields
        obtain ⟨hj, -⟩ := List.getElem?_eq_some_iff.mp hcl
        change 16 + 80 * (0 + j) + 0 ≤ 65536 ∧
          ∀ f ∈ clientFields cl, 16 + 80 * (0 + j) + f.offset + f.bytes.length ≤ 65536
        refine ⟨by omega, fun f hf => ?_⟩
        have hentry := clientFields_inside hf
        omega
      · simp [Inside, put, be16, be32, le16, le32, sendbufSize]
    · simp only [sendCrypt]
      rw [Nat.mod_eq_of_lt (by omega), if_neg (by omega)]

end Shipgate

/-- How long each of the lists can be. -/
theorem wellFormed_iff (ic : Iconv) (s : ServerState) (c : Viewer)
    (menuCode now cn langCode block : ℕ) (clients : List OnlineClient) :
    (WellFormed (sendGameList ic s c) ↔ (shownGames s c).length ≤ maxGames c.version ∧
      (byteTexts c.version = true → s.shipName.length < 0xFFF2)) ∧
    (WellFormed (sendShipList ic s c menuCode) ↔
      (shownShips s c menuCode).length + (otherMenus s c menuCode).length ≤ maxShips c.version ∧
      (byteTexts c.version = true → ShipTextsEnd s menuCode (shownShips s c menuCode))) ∧
    (∀ offers, sendQuestList s.quests c.lobby c.toMember now cn langCode = .sent offers →
      ∃ p, sendQuestMenu ic s c now cn langCode = some p ∧
        (WellFormed p ↔ offers.length ≤ maxQuests c.version)) ∧
    ∀ l, shipgateSendClients block clients = some l →
      (Complete l (clients.filter announced) ↔ (clients.filter announced).length ≤ 818) := by
  refine ⟨gameList_iff ic s c, shipList_iff ic s c menuCode, fun offers hoffers => ?_,
    fun l hl => clientList_iff hl⟩
  refine ⟨offerMenu ic c offers, ?_, offerMenu_iff ic c offers⟩
  rw [sendQuestMenu, hoffers]

/-- A game that all Dreamcast clients can see. -/
def openGame : ListedLobby where
  type := .game
  episode := 0
  v2 := false
  version := .dcv1
  lobbyId := 21
  difficulty := 0
  numClients := 1
  maxClients := 4
  challenge := false
  battle := false
  hasPasswd := false
  name := ascii "\tEgame"
  v1only := false
  dconly := false
  pconly := false
  singleplayer := false
  nte := false
  gcAllowed := false

/-- A block with so many games that their number does not fit into the header. -/
def crowdedShip : ServerState :=
  { loneShip with lobbies := List.replicate 256 openGame }

def dcClient : Viewer :=
  { bbClient with version := .dcv2 }

/-- A list of 256 games says that it has none. -/
theorem wellFormed_not : ¬∀ (ic : Iconv) (s : ServerState) (c : Viewer),
    WellFormed (sendGameList ic s c) := by
  intro h
  have hle := ((gameList_iff asciiIconv crowdedShip dcClient).mp (h _ _ _)).1
  have hmany : (shownGames crowdedShip dcClient).length = 256 := by
    rw [shownGames, crowdedShip, List.filter_replicate_of_pos rfl, List.length_replicate]
  rw [hmany] at hle
  exact absurd hle (by decide)

end ShipServer.ListSizes

import ShipServer.LobbyRooms

set_option autoImplicit false

/-! How a player looks to the others in a lobby. -/

namespace ShipServer.PlayerEntries

open Versions LobbyRooms

/-- The character data in the form that a version has for it: the inventory and the rest. -/
structure DispData where
  inv : List ℕ
  char : List ℕ
  deriving DecidableEq

/-- The character data of a client, and the conversions from one version to another. -/
structure Conversions (α : Type*) where
  v1 : α → DispData
  bb : α → DispData
  itemCount : α → ℕ
  gcToDcpc : α → DispData
  gcxbToXbgc : α → DispData
  dcpcgcToBb : α → DispData
  bbToDcpcgc : α → DispData

/-- A client: 16 bytes of name, or 16 UTF-16 units with the two units that follow them in the
Blue Burst character data. A trial user is on Dreamcast, of version 1, or on PC. -/
structure Player (α : Type*) where
  version : ClientVersion
  isNte : Bool
  guildcard : ℕ
  clientId : Slot
  v1Name : Vector ℕ 16
  bbName : Vector ℕ 18
  xblIp : List ℕ
  pl : α
  trial : isNte = true → version = .dcv1 ∨ version = .pc

inductive Address where
  | ip (addr : ℕ)
  | xbox (xboxIp : List ℕ) (d1 d2 d3 : ℕ)
  | unk (zeros : List ℕ)
  deriving DecidableEq

/-- The entry of a player. `unk2` is the end of a Blue Burst header, in units of 16 bits. -/
structure Entry where
  tag : ℕ
  guildcard : ℕ
  address : Address
  clientId : ℕ
  name : List ℕ
  unk2 : List ℕ
  data : DispData
  deriving DecidableEq

/-- An entry, and whether everything has been written inside the field that it is for. -/
structure Built where
  entry : Entry
  inside : Bool

variable {α : Type*}

/-- The units that fit, and zeros after them, as `memset` leaves them. -/
def padded (n : ℕ) (units : List ℕ) : List ℕ :=
  units.take n ++ List.replicate (n - units.length) 0

/-- `istrncpy16_raw` from UTF-16 to 16 bytes of ASCII. The conversion stops at the first unit that
is not ASCII. -/
def asciiName (units : List ℕ) : List ℕ :=
  padded 16 ((units.take 16).takeWhile fun u => u ≠ 0 ∧ u < 128)

/-- `istrncpy` from ISO-8859-1 to 32 bytes of UTF-16. A name without an end fills them. -/
def utf16Name (name : Vector ℕ 16) : List ℕ :=
  padded 16 (name.toList.takeWhile (· ≠ 0))

/-- `make_disp_data`, and whether it stays in the inventory of `MAX_PLAYER_INV` items. -/
def makeDispData (conv : Conversions α) (s : Player α) (vd : ClientVersion) : DispData × Bool :=
  match s.version, vd with
  | .dcv1, .bb | .dcv2, .bb | .pc, .bb => (conv.dcpcgcToBb s.pl, true)
  | .dcv1, _ | .dcv2, _ | .pc, _ => (conv.v1 s.pl, true)
  | .gc, .dcv1 | .gc, .dcv2 | .gc, .pc | .ep3, .dcv1 | .ep3, .dcv2 | .ep3, .pc =>
    (conv.gcToDcpc s.pl, true)
  | .gc, .gc | .gc, .ep3 | .ep3, .gc | .ep3, .ep3 => (conv.v1 s.pl, true)
  | .gc, .xbox | .ep3, .xbox => (conv.gcxbToXbgc s.pl, conv.itemCount s.pl ≤ 30)
  | .gc, .bb | .ep3, .bb => (conv.dcpcgcToBb s.pl, true)
  | .xbox, .dcv1 | .xbox, .dcv2 | .xbox, .pc => (conv.gcToDcpc s.pl, true)
  | .xbox, .gc | .xbox, .ep3 => (conv.gcxbToXbgc s.pl, conv.itemCount s.pl ≤ 30)
  | .xbox, .xbox => (conv.v1 s.pl, true)
  | .xbox, .bb => (conv.dcpcgcToBb s.pl, true)
  | .bb, .bb => (conv.bb s.pl, true)
  | .bb, _ => (conv.bbToDcpcgc s.pl, true)

/-- The trial edition gets the inventories of its own players only. -/
def trialData (x : Player α) (d : DispData) : DispData :=
  if x.isNte = false ∨ x.version ≠ .dcv1 then { d with inv := List.replicate 844 0 } else d

/-- An entry with a header of the Dreamcast or PC versions. -/
def dcEntry (conv : Conversions α) (c x : Player α) (clientId : ℕ) (name : List ℕ) : Built where
  entry :=
    { tag := 0x00010000, guildcard := x.guildcard, address := .ip 0xFFFFFFFF
      clientId := clientId, name := name, unk2 := [], data := (makeDispData conv x c.version).1 }
  inside := (makeDispData conv x c.version).2

/-- The name of a player for the versions with names of 16 bytes. The name of a Blue Burst
character is read from the given unit on. -/
def byteName (x : Player α) (start : ℕ) : List ℕ :=
  if x.version = .bb then asciiName (x.bbName.toList.drop start) else x.v1Name.toList

/-- The name of a player for PC. -/
def pcName (x : Player α) : List ℕ :=
  if x.version = .bb then (x.bbName.toList.drop 2).take 14 ++ [0, 0] else utf16Name x.v1Name

/-- An entry of `send_dc_lobby_join`. -/
def joinDc (conv : Conversions α) (c : Player α) (i : Slot) (x : Player α) : Built :=
  dcEntry conv c x i (byteName x 0)

/-- An entry of `send_dcnte_lobby_join`. -/
def joinDcnte (conv : Conversions α) (c : Player α) (i : Slot) (x : Player α) : Built :=
  let built := dcEntry conv c x i (byteName x 0)
  { built with entry := { built.entry with data := trialData x built.entry.data } }

/-- An entry of `send_pc_lobby_join`. -/
def joinPc (conv : Conversions α) (c : Player α) (i : Slot) (x : Player α) : Built :=
  dcEntry conv c x i (pcName x)

/-- The address of a player that is not on Xbox, with an account id or without, in the words of
an `xbox_ip_t`. -/
def madeUpIp (accountId : ℕ) : List ℕ :=
  [0x12345678, 0x87654321, 1234, 0x12, 0x12, 0x12, 0x12, 0x12, 0x12, 0x90807060, 0x12345678,
    accountId, 0]

/-- An entry with a header of the Xbox version. -/
def xboxEntry (conv : Conversions α) (c x : Player α) (clientId accountId start : ℕ) : Built where
  entry :=
    { tag := 0x00010000
      guildcard := x.guildcard
      address := .xbox (if x.version = .xbox then x.xblIp else madeUpIp accountId)
        0x01010101 0x01010101 1
      clientId := clientId
      name := byteName x start
      unk2 := []
      data := (makeDispData conv x c.version).1 }
  inside := (makeDispData conv x c.version).2

/-- An entry of `send_xbox_lobby_join`. -/
def joinXbox (conv : Conversions α) (c : Player α) (i : Slot) (x : Player α) : Built :=
  xboxEntry conv c x i (0xAE00000000000000 ||| x.guildcard) 0

/-- An entry with a header of the Blue Burst version. -/
def bbEntry (conv : Conversions α) (c x : Player α) (clientId : ℕ) (name unk2 : List ℕ)
    (nameInside : Bool) : Built where
  entry :=
    { tag := 0x00010000, guildcard := x.guildcard, address := .unk [0, 0, 0, 0, 0]
      clientId := clientId, name := name, unk2 := unk2
      data := (makeDispData conv x c.version).1 }
  inside := nameInside && (makeDispData conv x c.version).2

/-- An entry of `send_bb_lobby_join`. -/
def joinBb (conv : Conversions α) (c : Player α) (i : Slot) (x : Player α) : Built :=
  bbEntry conv c x i
    (if x.version = .bb then x.bbName.toList.take 16 else utf16Name x.v1Name) [0, 0] true

/-- The entry of `send_dc_lobby_add_player`. -/
def addDc (conv : Conversions α) (c x : Player α) : Built :=
  dcEntry conv c x x.clientId (byteName x 2)

/-- The entry of `send_dcnte_lobby_add_player`. -/
def addDcnte (conv : Conversions α) (c x : Player α) : Built :=
  let built := dcEntry conv c x x.clientId (byteName x 2)
  { built with entry := { built.entry with data := trialData x built.entry.data } }

/-- The entry of `send_pc_lobby_add_player`. -/
def addPc (conv : Conversions α) (c x : Player α) : Built :=
  dcEntry conv c x x.clientId (pcName x)

/-- The entry of `send_xbox_lobby_add_player`, which sets no account id. -/
def addXbox (conv : Conversions α) (c x : Player α) : Built :=
  xboxEntry conv c x x.clientId 0 2

/-- The entry of `send_bb_lobby_add_player`. It writes 32 bytes from the third unit of the name
on, the last four of them behind the name. -/
def addBb (conv : Conversions α) (c x : Player α) : Built :=
  if x.version = .bb then bbEntry conv c x x.clientId (x.bbName.toList.take 16) [0, 0] true
  else
    let text := utf16Name x.v1Name
    bbEntry conv c x x.clientId ('J'.toNat :: 0 :: text.take 14) (text.drop 14)
      (decide (2 + text.length ≤ 16))

/-- The entry of a player that `send_lobby_join` sends to a client. -/
def joinEntry (conv : Conversions α) (c : Player α) (i : Slot) (x : Player α) : Built :=
  match c.version with
  | .dcv1 => if c.isNte then joinDcnte conv c i x else joinDc conv c i x
  | .dcv2 | .gc | .ep3 => joinDc conv c i x
  | .pc => joinPc conv c i x
  | .xbox => joinXbox conv c i x
  | .bb => joinBb conv c i x

/-- The entry of a player that `send_lobby_add_player` sends to a client. -/
def addEntry (conv : Conversions α) (c x : Player α) : Built :=
  match c.version with
  | .dcv1 | .dcv2 | .gc | .ep3 => if c.isNte then addDcnte conv c x else addDc conv c x
  | .pc => addPc conv c x
  | .xbox => addXbox conv c x
  | .bb => addBb conv c x

/-- The clients of a lobby, each in the slot that it thinks it is in. -/
structure SeatedPlayers (α : Type*) where
  maxClients : ℕ
  clients : Slot → Option (Player α)
  seated : ∀ i x, clients i = some x → x.clientId = i ∧ (i : ℕ) < maxClients

/-- The entries of the packet that `send_lobby_join` sends to a client. -/
def joinPacket (conv : Conversions α) (c : Player α) (l : SeatedPlayers α) : List Built :=
  ((List.finRange 12).filter fun i : Slot => (i : ℕ) < l.maxClients).filterMap fun i =>
    (l.clients i).map (joinEntry conv c i)

/-- The packets about a player in a slot agree: the one that announces it to a client has the
entry that the client has for the slot in its own packet, and both are well written. -/
def SameEntry (conv : Conversions α) (c x : Player α) (l : SeatedPlayers α) (i : Slot) : Prop :=
  ∃ built, (joinPacket conv c l).filter (fun b => b.entry.clientId = (i : ℕ)) = [built] ∧
    built.entry = (addEntry conv c x).entry ∧ built.inside = true ∧
      (addEntry conv c x).inside = true

/-- When the packets agree: a Blue Burst name has to begin with the same text at its third
character as at its first, Xbox and Blue Burst clients can only agree about their own kind, and an
Xbox inventory that is converted has no more than 30 items. -/
def Agrees (conv : Conversions α) (c x : Player α) : Prop :=
  match c.version with
  | .dcv1 | .dcv2 | .gc | .ep3 =>
    (x.version = .bb → asciiName x.bbName.toList = asciiName (x.bbName.toList.drop 2)) ∧
      (x.version = .xbox → c.version = .gc ∨ c.version = .ep3 → conv.itemCount x.pl ≤ 30)
  | .pc => True
  | .xbox => x.version = .xbox
  | .bb => x.version = .bb

variable {conv : Conversions α} {c x : Player α} {i : Slot}

theorem joinEntry_clientId (conv : Conversions α) (c : Player α) (i : Slot) (x : Player α) :
    (joinEntry conv c i x).entry.clientId = i := by
  rw [joinEntry]
  split
  · split_ifs <;> rfl
  all_goals rfl

/-- A slot has one entry in the packet about all of them. -/
theorem filter_joinPacket (conv : Conversions α) (c : Player α) {l : SeatedPlayers α}
    (hx : l.clients i = some x) :
    (joinPacket conv c l).filter (fun b => b.entry.clientId = (i : ℕ)) =
      [joinEntry conv c i x] := by
  have hall : ∀ is : List Slot, is.Nodup →
      (is.filterMap fun j => (l.clients j).map (joinEntry conv c j)).filter
        (fun b => b.entry.clientId = (i : ℕ)) = if i ∈ is then [joinEntry conv c i x] else [] := by
    intro is
    induction is with
    | nil => exact fun _ => rfl
    | cons j is ih =>
      intro hnodup
      obtain ⟨hj, hrest⟩ := List.nodup_cons.mp hnodup
      have htail := ih hrest
      by_cases hji : j = i
      · subst hji
        rw [if_neg hj] at htail
        have hself : decide ((joinEntry conv c j x).entry.clientId = (j : ℕ)) = true :=
          decide_eq_true (joinEntry_clientId conv c j x)
        rw [List.filterMap_cons, hx, if_pos List.mem_cons_self, Option.map_some]
        exact (List.filter_cons_of_pos (p := fun b : Built => b.entry.clientId = (j : ℕ))
          hself).trans (congrArg _ htail)
      · have hmem : i ∈ j :: is ↔ i ∈ is := by
          rw [List.mem_cons, or_iff_right (Ne.symm hji)]
        rw [if_congr hmem rfl rfl, ← htail, List.filterMap_cons]
        cases hclient : l.clients j with
        | none => rfl
        | some y =>
          rw [Option.map_some]
          refine List.filter_cons_of_neg ?_
          rw [decide_eq_true_eq, joinEntry_clientId]
          exact fun heq => hji (Fin.ext heq)
  rw [joinPacket, hall _ ((List.nodup_finRange 12).filter _), if_pos]
  rw [List.mem_filter, decide_eq_true_eq]
  exact ⟨List.mem_finRange i, (l.seated i x hx).2⟩

/-- The inventory is only left when it is converted between Gamecube and Xbox. -/
theorem inside_iff (conv : Conversions α) (c x : Player α) (hc : c.version ≠ .xbox) :
    (makeDispData conv x c.version).2 = true ↔
      (x.version = .xbox → c.version = .gc ∨ c.version = .ep3 → conv.itemCount x.pl ≤ 30) := by
  cases hvx : x.version <;> cases hvc : c.version <;> rw [hvc] at hc <;>
    simp [makeDispData, hvx] at hc ⊢

theorem byteName_eq_iff (x : Player α) :
    byteName x 0 = byteName x 2 ↔
      (x.version = .bb → asciiName x.bbName.toList = asciiName (x.bbName.toList.drop 2)) := by
  rw [byteName, byteName]
  split_ifs with hbb
  · rw [List.drop_zero, forall_prop_of_true hbb]
  · exact ⟨fun _ h => absurd h hbb, fun _ => rfl⟩

theorem dcEntry_eq_iff (k : ℕ) (name name' : List ℕ) :
    (dcEntry conv c x k name).entry = (dcEntry conv c x k name').entry ↔ name = name' := by
  constructor
  · exact fun h => congrArg Entry.name h
  · rintro rfl
    rfl

theorem trialEntry_eq_iff (k : ℕ) (name name' : List ℕ) :
    ({ (dcEntry conv c x k name).entry with
        data := trialData x (dcEntry conv c x k name).entry.data } : Entry) =
      { (dcEntry conv c x k name').entry with
        data := trialData x (dcEntry conv c x k name').entry.data } ↔ name = name' := by
  constructor
  · exact fun h => congrArg Entry.name h
  · rintro rfl
    rfl

/-- The last 32 bits of an Xbox account id are not all of it. -/
theorem madeUpIp_ne (guildcard : ℕ) : madeUpIp (0xAE00000000000000 ||| guildcard) ≠ madeUpIp 0 := by
  intro h
  rw [madeUpIp, madeUpIp] at h
  simp at h

theorem length_utf16Name (name : Vector ℕ 16) : (utf16Name name).length = 16 := by
  rw [utf16Name, padded, List.length_append, List.length_take, List.length_replicate]
  omega

/-- The two packets, for a player in the slot that it thinks it is in. -/
def SameBuilt (conv : Conversions α) (c x : Player α) : Prop :=
  (joinEntry conv c x.clientId x).entry = (addEntry conv c x).entry ∧
    (joinEntry conv c x.clientId x).inside = true ∧ (addEntry conv c x).inside = true

theorem sameEntry_iff {l : SeatedPlayers α} (hx : l.clients i = some x) :
    SameEntry conv c x l i ↔ SameBuilt conv c x := by
  obtain ⟨hslot, -⟩ := l.seated i x hx
  rw [SameEntry, SameBuilt, filter_joinPacket conv c hx, hslot]
  constructor
  · rintro ⟨built, hbuilt, hsame⟩
    rw [(List.singleton_inj.mp hbuilt)]
    exact hsame
  · intro hsame
    exact ⟨_, rfl, hsame⟩

theorem dc_same_iff (hc : c.version ≠ .xbox) :
    (joinDc conv c x.clientId x).entry = (addDc conv c x).entry ∧
        (joinDc conv c x.clientId x).inside = true ∧ (addDc conv c x).inside = true ↔
      (x.version = .bb → asciiName x.bbName.toList = asciiName (x.bbName.toList.drop 2)) ∧
        (x.version = .xbox → c.version = .gc ∨ c.version = .ep3 → conv.itemCount x.pl ≤ 30) := by
  rw [joinDc, addDc, dcEntry_eq_iff, byteName_eq_iff]
  change _ ∧ (makeDispData conv x c.version).2 = true ∧ _ ↔ _
  change _ ∧ _ ∧ (makeDispData conv x c.version).2 = true ↔ _
  rw [and_self, inside_iff conv c x hc]

theorem dcnte_same_iff (hc : c.version ≠ .xbox) :
    (joinDcnte conv c x.clientId x).entry = (addDcnte conv c x).entry ∧
        (joinDcnte conv c x.clientId x).inside = true ∧ (addDcnte conv c x).inside = true ↔
      (x.version = .bb → asciiName x.bbName.toList = asciiName (x.bbName.toList.drop 2)) ∧
        (x.version = .xbox → c.version = .gc ∨ c.version = .ep3 → conv.itemCount x.pl ≤ 30) := by
  rw [joinDcnte, addDcnte, trialEntry_eq_iff, byteName_eq_iff]
  change _ ∧ (makeDispData conv x c.version).2 = true ∧ _ ↔ _
  change _ ∧ _ ∧ (makeDispData conv x c.version).2 = true ↔ _
  rw [and_self, inside_iff conv c x hc]

/-- A player on PC looks the same in both packets, whatever its version. -/
theorem pc_same (hc : c.version = .pc) :
    (joinPc conv c x.clientId x).entry = (addPc conv c x).entry ∧
      (joinPc conv c x.clientId x).inside = true ∧ (addPc conv c x).inside = true := by
  have hinside : (makeDispData conv x c.version).2 = true := by
    refine (inside_iff conv c x ?_).mpr fun _ hconsole => ?_
    · rw [hc]
      decide
    · rw [hc] at hconsole
      rcases hconsole with h | h <;> cases h
  exact ⟨rfl, hinside, hinside⟩

theorem xbox_same_iff (hc : c.version = .xbox) :
    (joinXbox conv c x.clientId x).entry = (addXbox conv c x).entry ∧
        (joinXbox conv c x.clientId x).inside = true ∧ (addXbox conv c x).inside = true ↔
      x.version = .xbox := by
  constructor
  · rintro ⟨hentry, -⟩
    by_contra hx
    have haddress := congrArg Entry.address hentry
    simp only [joinXbox, addXbox, xboxEntry, if_neg hx, Address.xbox.injEq, and_true] at haddress
    exact madeUpIp_ne x.guildcard haddress
  · intro hx
    have hinside : (makeDispData conv x c.version).2 = true := by
      simp [makeDispData, hx, hc]
    refine ⟨?_, hinside, hinside⟩
    rw [joinXbox, addXbox, xboxEntry, xboxEntry]
    simp [byteName, hx]

theorem bb_same_iff (hc : c.version = .bb) :
    (joinBb conv c x.clientId x).entry = (addBb conv c x).entry ∧
        (joinBb conv c x.clientId x).inside = true ∧ (addBb conv c x).inside = true ↔
      x.version = .bb := by
  constructor
  · rintro ⟨-, -, hadd⟩
    by_contra hx
    -- 32 bytes do not fit behind the first two characters of a name
    rw [addBb, if_neg hx] at hadd
    simp [bbEntry, length_utf16Name] at hadd
  · intro hx
    have hinside : (makeDispData conv x c.version).2 = true := by
      simp [makeDispData, hx, hc]
    rw [joinBb, addBb, if_pos hx, if_pos hx]
    simp [bbEntry, hinside]

/-- The packets about a player agree for each client of a lobby exactly when the versions and the
name of the player let them. -/
theorem entries_agree (conv : Conversions α) (c x : Player α) (l : SeatedPlayers α) (i : Slot)
    (hx : l.clients i = some x) : SameEntry conv c x l i ↔ Agrees conv c x := by
  rw [sameEntry_iff hx, SameBuilt, joinEntry, addEntry, Agrees]
  cases hc : c.version with
  | dcv1 =>
    cases hnte : c.isNte with
    | true => exact (dcnte_same_iff (by rw [hc]; decide)).trans (by rw [hc])
    | false => exact (dc_same_iff (by rw [hc]; decide)).trans (by rw [hc])
  | dcv2 | gc | ep3 =>
    have hnte : c.isNte = false := by
      rw [← Bool.not_eq_true]
      intro h
      rcases c.trial h with hv | hv <;> rw [hc] at hv <;> cases hv
    rw [hnte]
    exact (dc_same_iff (by rw [hc]; decide)).trans (by rw [hc])
  | pc => exact iff_true_intro (pc_same hc)
  | xbox => exact xbox_same_iff hc
  | bb => exact bb_same_iff hc

/-- Character data of no use. -/
def noConversion : Conversions Unit where
  v1 _ := ⟨[], []⟩
  bb _ := ⟨[], []⟩
  itemCount _ := 0
  gcToDcpc _ := ⟨[], []⟩
  gcxbToXbgc _ := ⟨[], []⟩
  dcpcgcToBb _ := ⟨[], []⟩
  bbToDcpcgc _ := ⟨[], []⟩

/-- A client of a version, called Ash on Gamecube and "\tEAsh" on Blue Burst. -/
def ash (version : ClientVersion) : Player Unit where
  version := version
  isNte := false
  guildcard := 42000001
  clientId := 0
  v1Name := #v[65, 115, 104, 0, 0, 0, 0, 0, 0, 0, 0, 0, 0, 0, 0, 0]
  bbName := #v[9, 69, 65, 115, 104, 0, 0, 0, 0, 0, 0, 0, 0, 0, 0, 0, 0, 0]
  xblIp := []
  pl := ()
  trial := fun h => nomatch h

/-- A lobby with one client in it. -/
def ashOnly (version : ClientVersion) : SeatedPlayers Unit where
  maxClients := 12
  clients i := if i = 0 then some (ash version) else none
  seated := by
    intro i x hx
    split_ifs at hx with hi
    cases hx
    rw [hi]
    exact ⟨rfl, by decide⟩

theorem entries_agree_gamecube :
    SameEntry noConversion (ash .gc) (ash .gc) (ashOnly .gc) 0 ↔
      Agrees noConversion (ash .gc) (ash .gc) :=
  entries_agree noConversion (ash .gc) (ash .gc) (ashOnly .gc) 0 rfl

theorem entries_not_agree :
    ¬∀ (c x : Player Unit) (l : SeatedPlayers Unit) (i : Slot), l.clients i = some x →
      SameEntry noConversion c x l i := by
  intro h
  obtain ⟨built, hbuilt, hsame, -⟩ := h (ash .gc) (ash .bb) (ashOnly .bb) 0 rfl
  have hname := congrArg (fun bs => bs.map fun b : Built => b.entry.name) hbuilt
  rw [List.map_singleton, hsame] at hname
  exact absurd hname (by decide)

end ShipServer.PlayerEntries

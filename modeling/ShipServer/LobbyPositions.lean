import ShipServer.LabelledRuns
import ShipServer.StringReads
import ShipServer.Versions

set_option autoImplicit false

/-! Where the members of a lobby are: what the server keeps of it, and what the members are sent.
The packets are taken without their headers, which differ between the versions. Packets other than
those that say where somebody is or goes change nothing here, unless they are passed on as they
are. -/

namespace ShipServer.LobbyPositions

open LabelledRuns Versions
open StringReads (memory)

abbrev Byte := BitVec 8

/-- `w`, `x`, `y` and `z`, the bytes of numbers that are only copied. -/
structure Position where
  w : BitVec 32
  x : BitVec 32
  y : BitVec 32
  z : BitVec 32
  deriving DecidableEq

/-- The place that a client shows another one at. -/
structure Spot where
  x : BitVec 32
  z : BitVec 32
  deriving DecidableEq

/-- Four bytes of a packet. -/
def word (m : ℕ → Byte) (off : ℕ) : BitVec 32 :=
  m (off + 3) ++ m (off + 2) ++ m (off + 1) ++ m off

def bytes (v : BitVec 32) : List Byte :=
  [v.extractLsb' 0 8, v.extractLsb' 8 8, v.extractLsb' 16 8, v.extractLsb' 24 8]

/-- A client in a lobby. `view` is where its own screen shows the others; the server does not know
it. -/
structure Member where
  version : ClientVersion
  isNte : Bool
  curArea : Byte
  position : Position
  view : Fin 12 → Option Spot

/-- The test for a client of the Network Trial Edition. -/
def Member.nte (c : Member) : Bool :=
  c.version = .dcv1 && c.isNte

def Member.spot (c : Member) : Spot :=
  ⟨c.position.x, c.position.z⟩

/-- A lobby that is not a game. -/
abbrev Lobby := Fin 12 → Option Member

/-- The new types of `subcmd_translate_dc_to_nte` and `subcmd_translate_bb_to_nte`. -/
def dcToNte (type : Byte) : Option Byte :=
  if type = 0x21 then some 0x1D
  else if type = 0x23 then some 0x1F
  else if type = 0x3F then some 0x36
  else if type = 0x40 then some 0x37
  else if type = 0x42 then some 0x39
  else if type = 0x52 then some 0x46
  else none

/-- The new types of `subcmd_translate_nte_to_dc`. -/
def nteToDc (type : Byte) : Option Byte :=
  if type = 0x1D then some 0x21
  else if type = 0x1F then some 0x23
  else if type = 0x36 then some 0x3F
  else if type = 0x37 then some 0x40
  else if type = 0x39 then some 0x42
  else if type = 0x46 then some 0x52
  else none

/-- A packet with its type replaced, if there is another one. -/
def translate (table : Byte → Option Byte) : List Byte → Option (List Byte)
  | [] => none
  | type :: rest => (table type).map fun newtype => newtype :: rest

/-- What a packet tells its receiver: whose place it shows, and where. The layouts are those of
`subcmd_set_pos_t` and `subcmd_move_t`. -/
def told (m : ℕ → Byte) (type : Byte) : Option (Byte × Spot) :=
  if type = 0x20 then some (m 2, ⟨word m 8, word m 16⟩)
  else if type = 0x3E ∨ type = 0x3F then some (m 2, ⟨word m 12, word m 20⟩)
  else if type = 0x40 ∨ type = 0x42 then some (m 2, ⟨word m 4, word m 8⟩)
  else none

/-- The type by which a client of the trial edition knows what other clients call so. -/
def Member.typeOf (c : Member) (type : Byte) : Option Byte :=
  if c.nte = false then some type
  else if type = 0x1C then some 0x20
  else nteToDc type

def Member.receive (c : Member) (pkt : List Byte) : Member :=
  let m := memory pkt fun _ => 0
  match (c.typeOf (m 0)).bind (told m) with
  | none => c
  | some (who, spot) =>
    { c with view := fun i => if who.toNat = i.val then some spot else c.view i }

def Lobby.deliver (l : Lobby) (pkts : Fin 12 → Member → Option (List Byte)) : Lobby :=
  fun i => (l i).map fun d => ((pkts i d).map d.receive).getD d

/-- A packet of a client that is not of the trial edition, as another one is sent it. -/
def passDc (pkt : List Byte) (d : Member) : Option (List Byte) :=
  if d.nte = false then some pkt else translate dcToNte pkt

def passDcnte (pkt : List Byte) (d : Member) : Option (List Byte) :=
  if d.nte then some pkt else translate nteToDc pkt

/-- A packet for every client but the sender. -/
def Lobby.send (l : Lobby) (c : Fin 12) (pass : Member → Option (List Byte)) : Lobby :=
  l.deliver fun i d => if i = c then none else pass d

/-- `subcmd_send_lobby_dc` and `subcmd_send_lobby_bb`, which do the same to what follows the
header. -/
def subcmdSendLobbyDc (l : Lobby) (c : Fin 12) (pkt : List Byte) : Lobby :=
  l.send c (passDc pkt)

def subcmdSendLobbyDcnte (l : Lobby) (c : Fin 12) (pkt : List Byte) : Lobby :=
  l.send c (passDcnte pkt)

/-- `subcmd_send_pos`. -/
def subcmdSendPos (dst src : Member) (id : Fin 12) : List Byte :=
  [if dst.nte then 0x1C else 0x20, 6, BitVec.ofNat 8 id.val, 0] ++ bytes 0xF ++
    bytes src.position.x ++ bytes 0 ++ bytes src.position.z ++ bytes 0

/-- What a client is sent when it has finished loading: the place of every other one. -/
def sendPositions (l : Lobby) (c : Fin 12) : Lobby :=
  fun i => if i = c then
    (l c).map fun dst => (List.finRange 12).foldl (fun dst j =>
      if j = c then dst
      else match l j with
        | none => dst
        | some src => dst.receive (subcmdSendPos dst src j)) dst
  else l i

/-- The position after `handle_set_pos`, `handle_bb_set_pos`. -/
def setPosition (m : ℕ → Byte) : Position where
  w := word m 8
  x := word m 12
  y := word m 16
  z := word m 20

/-- The position after `handle_move`. -/
def movePosition (m : ℕ → Byte) (p : Position) : Position :=
  { p with x := word m 4, z := word m 8 }

/-- The position after `handle_bb_move`. The packet of `subcmd_bb_move_t` has no type, so that all
of its fields are one byte too early. -/
def bbMovePosition (m : ℕ → Byte) (p : Position) : Position :=
  { p with x := word m 3, z := word m 7 }

/-- A change of the client in a place. -/
def Lobby.modify (l : Lobby) (c : Fin 12) (f : Member → Member) : Lobby :=
  fun i => if i = c then (l i).map f else l i

/-- The handlers save what a packet says if it is about the client itself. -/
def save (l : Lobby) (c : Fin 12) (id : Byte) (f : Member → Member) : Lobby :=
  if id.toNat = c.val then l.modify c f else l

/-- `subcmd_handle_bcast` in a lobby, for a client that is not of the trial edition. -/
def subcmdHandleBcast (l : Lobby) (c : Fin 12) (pkt : List Byte) (junk : ℕ → Byte) : Lobby × ℤ :=
  let m := memory pkt junk
  if m 0 = 0x1F ∨ m 0 = 0x21 then
    if 17 < m 4 then (l, -1)
    else (subcmdSendLobbyDc (save l c (m 2) fun d => { d with curArea := m 4 }) c pkt, 0)
  else if m 0 = 0x3E ∨ m 0 = 0x3F then
    (subcmdSendLobbyDc (save l c (m 2) fun d => { d with position := setPosition m }) c pkt, 0)
  else if m 0 = 0x40 ∨ m 0 = 0x42 then
    (subcmdSendLobbyDc
      (save l c (m 2) fun d => { d with position := movePosition m d.position }) c pkt, 0)
  else if m 0 = 0x23 then (subcmdSendLobbyDc (sendPositions l c) c pkt, 0)
  else (subcmdSendLobbyDc l c pkt, 0)

/-- `subcmd_bb_handle_bcast`, whose handlers of areas and positions do the same. -/
def subcmdBbHandleBcast (l : Lobby) (c : Fin 12) (pkt : List Byte) (junk : ℕ → Byte) :
    Lobby × ℤ :=
  let m := memory pkt junk
  if m 0 = 0x40 ∨ m 0 = 0x42 then
    (subcmdSendLobbyDc
      (save l c (m 1) fun d => { d with position := bbMovePosition m d.position }) c pkt, 0)
  else subcmdHandleBcast l c pkt junk

def subcmdDcnteHandleBcast (l : Lobby) (c : Fin 12) (pkt : List Byte) (junk : ℕ → Byte) :
    Lobby × ℤ :=
  let m := memory pkt junk
  if m 0 = 0x1D then
    if 17 < m 4 then (l, -1)
    else (subcmdSendLobbyDcnte (save l c (m 2) fun d => { d with curArea := m 4 }) c pkt, 0)
  else if m 0 = 0x36 then
    (subcmdSendLobbyDcnte (save l c (m 2) fun d => { d with position := setPosition m }) c pkt, 0)
  else if m 0 = 0x37 ∨ m 0 = 0x39 then
    (subcmdSendLobbyDcnte
      (save l c (m 2) fun d => { d with position := movePosition m d.position }) c pkt, 0)
  else if m 0 = 0x1F then (subcmdSendLobbyDcnte (sendPositions l c) c pkt, 0)
  else (subcmdSendLobbyDcnte l c pkt, 0)

/-- A broadcast of the client in the place `c`. -/
def broadcast (l : Lobby) (c : Fin 12) (pkt : List Byte) (junk : ℕ → Byte) : Lobby × ℤ :=
  match l c with
  | none => (l, 0)
  | some d =>
    if d.version = .bb then subcmdBbHandleBcast l c pkt junk
    else if d.nte then subcmdDcnteHandleBcast l c pkt junk
    else subcmdHandleBcast l c pkt junk

inductive Event where
  | join (c : Fin 12) (version : ClientVersion) (isNte : Bool) (curArea : Byte)
      (position : Position)
  | leave (c : Fin 12)
  | broadcast (c : Fin 12) (pkt : List Byte) (junk : ℕ → Byte)

/-- The others forget where the client in a place was. -/
def forget (l : Lobby) (c : Fin 12) : Lobby :=
  fun i => (l i).map fun d => { d with view := fun j => if j = c then none else d.view j }

/-- A client that joins brings its last position with it, of which the others know nothing. -/
def next (l : Lobby) : Event → Lobby
  | .join c version isNte curArea position =>
    Function.update (forget l c) c (some ⟨version, isNte, curArea, position, fun _ => none⟩)
  | .leave c => Function.update (forget l c) c none
  | .broadcast c pkt junk => (broadcast l c pkt junk).1

section Agreement

variable {l : Lobby} {c : Fin 12} {d e : Member}

/-- Whatever place a member shows another one at is where the server has it. -/
def Agree (l : Lobby) : Prop :=
  ∀ i j, i ≠ j → ∀ c d, l i = some c → l j = some d → ∀ p, d.view i = some p → p = c.spot

/-- The length, without the header, of a packet that says where its sender is. -/
def placing (nte : Bool) (type : Byte) : Option ℕ :=
  if nte then
    if type = 0x36 then some 24 else if type = 0x37 ∨ type = 0x39 then some 12 else none
  else if type = 0x3E ∨ type = 0x3F then some 24
  else if type = 0x40 ∨ type = 0x42 then some 12
  else none

/-- A packet that a client sends about itself, whole, and that all members can be told of. -/
structure Honest (l : Lobby) (c : Fin 12) (d : Member) (pkt : List Byte) : Prop where
  typed : pkt ≠ []
  own : ∀ n, placing d.nte (pkt.getD 0 0) = some n →
    (pkt.getD 2 0).toNat = c.val ∧ n ≤ pkt.length
  unplaced : pkt.getD 0 0 ≠ if d.nte then 0x1C else 0x20
  notMove : d.version = .bb → pkt.getD 0 0 ≠ 0x40 ∧ pkt.getD 0 0 ≠ 0x42
  known : pkt.getD 0 0 = 0x3E → ∀ j e, l j = some e → e.nte = false

/-- The broadcasts are honest ones. -/
def Sound (l : Lobby) : Event → Prop
  | .broadcast c pkt _ => ∀ d, l c = some d → Honest l c d pkt
  | _ => True

theorem receive_spot (d : Member) (pkt : List Byte) : (d.receive pkt).spot = d.spot := by
  unfold Member.receive
  dsimp only
  split <;> rfl

theorem word_bytes (v : BitVec 32) (m : ℕ → Byte) (off : ℕ)
    (h : ∀ k (hk : k < 4), m (off + k) = (bytes v).get ⟨k, hk⟩) : word m off = v := by
  have h0 : m off = v.extractLsb' 0 8 := h 0 (by decide)
  have h1 : m (off + 1) = v.extractLsb' 8 8 := h 1 (by decide)
  have h2 : m (off + 2) = v.extractLsb' 16 8 := h 2 (by decide)
  have h3 : m (off + 3) = v.extractLsb' 24 8 := h 3 (by decide)
  unfold word
  rw [h0, h1, h2, h3]
  ext i hi
  simp only [BitVec.getElem_append, BitVec.getElem_extractLsb']
  split_ifs
  all_goals
    rw [← BitVec.getLsbD_eq_getElem]
    congr 1
    omega

/-- What the packet of `subcmd_send_pos` tells. -/
theorem told_subcmdSendPos (dst src : Member) (id : Fin 12) :
    (dst.typeOf (memory (subcmdSendPos dst src id) (fun _ => 0) 0)).bind
      (told (memory (subcmdSendPos dst src id) fun _ => 0)) =
      some (BitVec.ofNat 8 id.val, src.spot) := by
  have htype : dst.typeOf (memory (subcmdSendPos dst src id) (fun _ => 0) 0) = some 0x20 := by
    change dst.typeOf (if dst.nte then 0x1C else 0x20) = some 0x20
    unfold Member.typeOf
    cases dst.nte <;> rfl
  have hx : word (memory (subcmdSendPos dst src id) fun _ => 0) 8 = src.position.x :=
    word_bytes _ _ _ fun k hk => by interval_cases k <;> rfl
  have hz : word (memory (subcmdSendPos dst src id) fun _ => 0) 16 = src.position.z :=
    word_bytes _ _ _ fun k hk => by interval_cases k <;> rfl
  rw [htype, Option.bind_some, told, if_pos rfl, hx, hz]
  rfl

/-- What a packet tells a client. -/
def Member.hears (d : Member) (pkt : List Byte) : Option (Byte × Spot) :=
  (d.typeOf (memory pkt (fun _ => 0) 0)).bind (told (memory pkt fun _ => 0))

theorem receive_some {pkt : List Byte} {who : Byte} {p : Spot} (h : d.hears pkt = some (who, p)) :
    d.receive pkt =
      { d with view := fun i => if who.toNat = i.val then some p else d.view i } := by
  unfold Member.receive
  dsimp only
  rw [show (d.typeOf (memory pkt (fun _ => 0) 0)).bind (told (memory pkt fun _ => 0)) = _ from h]

theorem receive_none {pkt : List Byte} (h : d.hears pkt = none) : d.receive pkt = d := by
  unfold Member.receive
  dsimp only
  rw [show (d.typeOf (memory pkt (fun _ => 0) 0)).bind (told (memory pkt fun _ => 0)) = _ from h]

theorem toNat_ofNat_val (i : Fin 12) : (BitVec.ofNat 8 i.val).toNat = i.val := by
  rw [BitVec.toNat_ofNat]
  exact Nat.mod_eq_of_lt (i.isLt.trans (by decide))

/-- One of the packets for a client that has finished loading. -/
def showOne (l : Lobby) (c : Fin 12) (dst : Member) (j : Fin 12) : Member :=
  if j = c then dst
  else match l j with
    | none => dst
    | some src => dst.receive (subcmdSendPos dst src j)

theorem showOne_spot (l : Lobby) (c : Fin 12) (dst : Member) (j : Fin 12) :
    (showOne l c dst j).spot = dst.spot := by
  unfold showOne
  split
  · rfl
  · split
    · rfl
    · exact receive_spot dst _

theorem showOne_view (l : Lobby) (c : Fin 12) (dst : Member) (j i : Fin 12) :
    (showOne l c dst j).view i =
      if i = j ∧ j ≠ c ∧ l j ≠ none then (l j).map Member.spot else dst.view i := by
  unfold showOne
  split
  next hj => rw [if_neg fun h => h.2.1 hj]
  next hj =>
    split
    next hnone => rw [if_neg fun h => h.2.2 hnone]
    next src hsome =>
      rw [receive_some (told_subcmdSendPos dst src j)]
      by_cases hij : i = j
      · rw [if_pos ⟨hij, hj, by rw [hsome]; exact Option.some_ne_none _⟩, hsome]
        exact if_pos (by rw [toNat_ofNat_val, hij])
      · rw [if_neg fun h => hij h.1]
        exact if_neg fun h => hij (Fin.ext (by rw [← h, toNat_ofNat_val]))

/-- A client that has finished loading knows where everybody is. -/
theorem foldl_showOne (l : Lobby) (c : Fin 12) (js : List (Fin 12)) (dst : Member) :
    (js.foldl (showOne l c) dst).spot = dst.spot ∧
      ∀ i, (js.foldl (showOne l c) dst).view i =
        if i ∈ js ∧ i ≠ c ∧ l i ≠ none then (l i).map Member.spot else dst.view i := by
  induction js generalizing dst with
  | nil => exact ⟨rfl, fun i => by simp⟩
  | cons j js ih =>
    obtain ⟨hspot, hview⟩ := ih (showOne l c dst j)
    refine ⟨hspot.trans (showOne_spot l c dst j), fun i => ?_⟩
    rw [List.foldl_cons, hview i, showOne_view]
    by_cases hrest : i ≠ c ∧ l i ≠ none
    · by_cases hmem : i ∈ js
      · rw [if_pos ⟨hmem, hrest⟩, if_pos ⟨List.mem_cons_of_mem j hmem, hrest⟩]
      · rw [if_neg fun h => hmem h.1]
        by_cases hij : i = j
        · subst hij
          rw [if_pos ⟨rfl, hrest⟩, if_pos ⟨List.mem_cons_self, hrest⟩]
        · rw [if_neg fun h => hij h.1, if_neg fun h => (List.mem_cons.mp h.1).elim hij hmem]
    · have hj : ¬(i = j ∧ j ≠ c ∧ l j ≠ none) := by
        rintro ⟨rfl, hj⟩
        exact hrest hj
      rw [if_neg fun h => hrest h.2, if_neg hj, if_neg fun h => hrest h.2]

theorem sendPositions_self {dst : Member} (h : l c = some dst) :
    ∃ d, sendPositions l c c = some d ∧ d.spot = dst.spot ∧
      ∀ i, d.view i = if i ≠ c ∧ l i ≠ none then (l i).map Member.spot else dst.view i := by
  obtain ⟨hspot, hview⟩ := foldl_showOne l c (List.finRange 12) dst
  refine ⟨(List.finRange 12).foldl (showOne l c) dst, ?_, hspot, fun i => ?_⟩
  · rw [sendPositions, if_pos rfl, h]
    rfl
  · rw [hview i]
    simp only [List.mem_finRange, true_and]

theorem sendPositions_other {i : Fin 12} (h : i ≠ c) : sendPositions l c i = l i :=
  if_neg h

theorem sendPositions_spot (i : Fin 12) :
    (sendPositions l c i).map Member.spot = (l i).map Member.spot := by
  by_cases hi : i = c
  · subst hi
    cases hl : l i with
    | none => rw [sendPositions, if_pos rfl, hl]; rfl
    | some dst =>
      obtain ⟨d, hd, hspot, -⟩ := sendPositions_self hl
      rw [hd, Option.map_some, Option.map_some, hspot]
  · rw [sendPositions_other hi]

/-- The views agree with the places when the members are looked at without the rest. -/
theorem agree_iff : Agree l ↔ ∀ i j, i ≠ j → ∀ d, l j = some d → ∀ p, d.view i = some p →
    ∀ q, (l i).map Member.spot = some q → p = q := by
  constructor
  · intro h i j hij d hd p hp q hq
    obtain ⟨e, he, rfl⟩ := Option.map_eq_some_iff.mp hq
    exact h i j hij e d he hd p hp
  · intro h i j hij e d he hd p hp
    exact h i j hij d hd p hp _ (by rw [he]; rfl)

theorem sendPositions_agree (h : Agree l) : Agree (sendPositions l c) := by
  rw [agree_iff] at h ⊢
  intro i j hij d hd p hp q hq
  rw [sendPositions_spot] at hq
  by_cases hj : j = c
  · subst hj
    cases hl : l j with
    | none =>
      rw [sendPositions, if_pos rfl, hl] at hd
      cases hd
    | some dst =>
      obtain ⟨d', hd', -, hview⟩ := sendPositions_self hl
      rw [hd'] at hd
      cases hd
      rw [hview i] at hp
      split at hp
      · rw [hq] at hp
        exact (Option.some.inj hp).symm
      · exact h i j hij dst hl p hp q hq
  · rw [sendPositions_other hj] at hd
    exact h i j hij d hd p hp q hq

/-- What no packet changes is left as it is. -/
theorem deliver_map {α : Type*} {g : Member → α} (hg : ∀ d pkt, g (d.receive pkt) = g d)
    (l : Lobby) (pkts : Fin 12 → Member → Option (List Byte)) (i : Fin 12) :
    (l.deliver pkts i).map g = (l i).map g := by
  unfold Lobby.deliver
  cases l i with
  | none => rfl
  | some d =>
    cases hp : pkts i d with
    | none => simp [hp]
    | some pkt => simp [hp, hg]

theorem deliver_spot (l : Lobby) (pkts : Fin 12 → Member → Option (List Byte)) (i : Fin 12) :
    (l.deliver pkts i).map Member.spot = (l i).map Member.spot :=
  deliver_map receive_spot l pkts i

/-- Packets that tell nobody anything change nothing. -/
theorem deliver_quiet {pkts : Fin 12 → Member → Option (List Byte)}
    (h : ∀ j d, l j = some d → ∀ pkt, pkts j d = some pkt → d.hears pkt = none) :
    l.deliver pkts = l := by
  funext j
  unfold Lobby.deliver
  cases hl : l j with
  | none => rfl
  | some d =>
    cases hp : pkts j d with
    | none => simp [hp]
    | some pkt => simp [hp, receive_none (h j d hl pkt hp)]

/-- A member whose place has changed tells all the others. -/
theorem deliver_agree {pkts : Fin 12 → Member → Option (List Byte)} {f : Member → Member} {p : Spot}
    (h : Agree l) (hview : ∀ d, (f d).view = d.view) (hspot : ∀ d, l c = some d → (f d).spot = p)
    (hself : ∀ d, pkts c d = none)
    (htold : ∀ j d, j ≠ c → l j = some d →
      ∃ pkt, pkts j d = some pkt ∧ d.hears pkt = some (BitVec.ofNat 8 c.val, p)) :
    Agree ((l.modify c f).deliver pkts) := by
  rw [agree_iff] at h ⊢
  intro i j hij d hd q hq r hr
  rw [deliver_spot] at hr
  by_cases hj : j = c
  · -- the sender is told nothing
    subst hj
    rw [Lobby.modify, if_neg hij] at hr
    unfold Lobby.deliver Lobby.modify at hd
    rw [if_pos rfl] at hd
    cases hl : l j with
    | none =>
      rw [hl] at hd
      cases hd
    | some e =>
      rw [hl] at hd
      simp only [Option.map_some, hself, Option.map_none, Option.getD_none] at hd
      rw [← Option.some.inj hd, hview] at hq
      exact h i j hij e hl q hq r hr
  · unfold Lobby.deliver at hd
    rw [Lobby.modify, if_neg hj] at hd
    cases hl : l j with
    | none =>
      rw [hl] at hd
      cases hd
    | some e =>
      obtain ⟨pkt, hpkt, hhears⟩ := htold j e hj hl
      rw [hl] at hd
      simp only [Option.map_some, hpkt, Option.getD_some] at hd
      rw [← Option.some.inj hd, receive_some hhears] at hq
      dsimp only at hq
      rw [toNat_ofNat_val] at hq
      by_cases hi : i = c
      · subst hi
        rw [if_pos rfl] at hq
        rw [Lobby.modify, if_pos rfl] at hr
        cases hli : l i with
        | none =>
          rw [hli] at hr
          cases hr
        | some b =>
          rw [hli, Option.map_some, Option.map_some, hspot b hli] at hr
          exact (Option.some.inj hq).symm.trans (Option.some.inj hr)
      · rw [if_neg fun hc => hi (Fin.ext hc.symm)] at hq
        rw [Lobby.modify, if_neg hi] at hr
        exact h i j hij e hl q hq r hr

/-- Where a member's place and view stay, nothing changes for the views. -/
theorem modify_agree {f : Member → Member} (h : Agree l) (hview : ∀ d, (f d).view = d.view)
    (hspot : ∀ d, (f d).spot = d.spot) : Agree (l.modify c f) := by
  have hkeep : ∀ i, (l.modify c f i).map Member.spot = (l i).map Member.spot := by
    intro i
    unfold Lobby.modify
    split
    · rw [Option.map_map]
      exact congrArg (fun g => (l i).map g) (funext hspot)
    · rfl
  rw [agree_iff] at h ⊢
  intro i j hij d hd p hp q hq
  rw [hkeep] at hq
  unfold Lobby.modify at hd
  split at hd
  · obtain ⟨e, he, rfl⟩ := Option.map_eq_some_iff.mp hd
    rw [hview] at hp
    exact h i j hij e he p hp q hq
  · exact h i j hij d hd p hp q hq

/-- Where a packet for a client other than one of the trial edition is not about places. -/
theorem told_eq_none {m : ℕ → Byte} {type : Byte} (hset : type ≠ 0x20)
    (hplace : placing false type = none) : told m type = none := by
  unfold placing at hplace
  unfold told
  grind

theorem typeOf_dc (h : d.nte = false) (type : Byte) : d.typeOf type = some type :=
  if_pos h

/-- The types of the two editions belong together. -/
theorem nteToDc_of_dcToNte {type newtype : Byte} (h : dcToNte type = some newtype) :
    nteToDc newtype = some type ∧ newtype ≠ 0x1C := by
  unfold dcToNte at h
  split_ifs at h with h1 h2 h3 h4 h5 h6
  all_goals
    cases h
    subst type
    exact ⟨rfl, by decide⟩

theorem dcToNte_of_nteToDc {type newtype : Byte} (h : nteToDc type = some newtype) :
    dcToNte newtype = some type := by
  unfold nteToDc at h
  split_ifs at h with h1 h2 h3 h4 h5 h6
  all_goals
    cases h
    subst type
    rfl

theorem placing_nte (type : Byte) : placing true type = (nteToDc type).bind (placing false) := by
  unfold nteToDc
  split_ifs with h1 h2 h3 h4 h5 h6
  all_goals try (subst type; rfl)
  rw [placing, if_pos rfl, if_neg h3, if_neg (not_or.mpr ⟨h4, h5⟩)]
  rfl

section Packets

variable {pkt : List Byte} {junk : ℕ → Byte}

theorem memory_eq {i : ℕ} (h : i < pkt.length) : memory pkt junk i = pkt.getD i 0 := by
  rw [memory, List.getD_eq_getElem _ _ h, List.getD_eq_getElem _ _ h]

theorem word_memory (junk : ℕ → Byte) (off : ℕ) (h : off + 4 ≤ pkt.length) :
    word (memory pkt junk) off = word (memory pkt fun _ => 0) off := by
  unfold word
  rw [memory_eq (by omega), memory_eq (by omega), memory_eq (by omega), memory_eq (by omega),
    memory_eq (by omega), memory_eq (by omega), memory_eq (by omega), memory_eq (by omega)]

theorem memory_type (h : pkt ≠ []) : memory pkt junk 0 = pkt.getD 0 0 :=
  memory_eq (List.length_pos_of_ne_nil h)

/-- The type is not among what a packet tells. -/
theorem told_retype (type newtype : Byte) (rest : List Byte) (known : Byte) :
    told (memory (newtype :: rest) fun _ => 0) known =
      told (memory (type :: rest) fun _ => 0) known := by
  have hsame : ∀ i, memory (newtype :: rest) (fun _ => 0) (i + 1) =
      memory (type :: rest) (fun _ => 0) (i + 1) := fun i => rfl
  have hword : ∀ i, word (memory (newtype :: rest) fun _ => 0) (i + 1) =
      word (memory (type :: rest) fun _ => 0) (i + 1) := fun i => rfl
  unfold told
  rw [hsame 1, hword 7, hword 15, hword 11, hword 19, hword 3]

/-- Whoever is sent a packet of a client that is not of the trial edition is told the same. -/
theorem hears_passDc (hpkt : pkt ≠ []) {pkt' : List Byte} (h : passDc pkt d = some pkt') :
    d.hears pkt' = told (memory pkt fun _ => 0) (pkt.getD 0 0) := by
  unfold passDc at h
  split at h
  next hdc =>
    cases h
    rw [Member.hears, typeOf_dc hdc, Option.bind_some, memory_type hpkt]
  next hnte =>
    cases pkt with
    | nil => cases h
    | cons type rest =>
      obtain ⟨newtype, hnew, rfl⟩ := Option.map_eq_some_iff.mp h
      obtain ⟨hold, hne⟩ := nteToDc_of_dcToNte hnew
      have htype : d.typeOf newtype = some type := by
        rw [Member.typeOf, if_neg hnte, if_neg hne, hold]
      change (d.typeOf newtype).bind _ = told _ type
      rw [htype, Option.bind_some, told_retype type]

theorem hears_passDcnte (hpkt : pkt ≠ []) (hplace : pkt.getD 0 0 ≠ 0x1C) {pkt' : List Byte}
    (h : passDcnte pkt d = some pkt') :
    d.hears pkt' = (nteToDc (pkt.getD 0 0)).bind (told (memory pkt fun _ => 0)) := by
  unfold passDcnte at h
  split at h
  next hnte =>
    cases h
    rw [Member.hears, memory_type hpkt, Member.typeOf, if_neg (by simp [hnte]), if_neg hplace]
  next hdc =>
    cases pkt with
    | nil => cases h
    | cons type rest =>
      obtain ⟨newtype, hnew, rfl⟩ := Option.map_eq_some_iff.mp h
      change (d.typeOf newtype).bind _ = (nteToDc type).bind _
      rw [typeOf_dc (by simpa using hdc), hnew, Option.bind_some, Option.bind_some,
        told_retype type]

/-- The places that packets about their senders tell of. -/
theorem told_setPosition (hlen : 24 ≤ pkt.length) {type : Byte} (ht : type = 0x3E ∨ type = 0x3F)
    (hid : (pkt.getD 2 0).toNat = c.val) :
    told (memory pkt fun _ => 0) type = some (BitVec.ofNat 8 c.val,
      ⟨(setPosition (memory pkt junk)).x, (setPosition (memory pkt junk)).z⟩) := by
  have hid' : memory pkt (fun _ => 0) 2 = BitVec.ofNat 8 c.val := by
    rw [memory_eq (by omega), ← hid, BitVec.ofNat_toNat, BitVec.setWidth_eq]
  unfold told
  rw [if_neg (by rcases ht with rfl | rfl <;> decide), if_pos ht, hid']
  simp only [setPosition]
  rw [word_memory junk 12 (by omega), word_memory junk 20 (by omega)]

theorem told_movePosition (hlen : 12 ≤ pkt.length) {type : Byte} (ht : type = 0x40 ∨ type = 0x42)
    (hid : (pkt.getD 2 0).toNat = c.val) (p : Position) :
    told (memory pkt fun _ => 0) type = some (BitVec.ofNat 8 c.val,
      ⟨(movePosition (memory pkt junk) p).x, (movePosition (memory pkt junk) p).z⟩) := by
  have hid' : memory pkt (fun _ => 0) 2 = BitVec.ofNat 8 c.val := by
    rw [memory_eq (by omega), ← hid, BitVec.ofNat_toNat, BitVec.setWidth_eq]
  have hnot : ¬(type = 0x3E ∨ type = 0x3F) := by rcases ht with rfl | rfl <;> decide
  unfold told
  rw [if_neg (by rcases ht with rfl | rfl <;> decide), if_neg hnot, if_pos ht, hid']
  simp only [movePosition]
  rw [word_memory junk 4 (by omega), word_memory junk 8 (by omega)]

end Packets

theorem send_agree {pass : Member → Option (List Byte)} {f : Member → Member} {p : Spot}
    (h : Agree l) (hview : ∀ d, (f d).view = d.view) (hspot : ∀ d, l c = some d → (f d).spot = p)
    (htold : ∀ j d, l j = some d →
      ∃ pkt, pass d = some pkt ∧ d.hears pkt = some (BitVec.ofNat 8 c.val, p)) :
    Agree ((l.modify c f).send c pass) := by
  refine deliver_agree h hview hspot (fun d => if_pos rfl) ?_
  intro j d hj hl
  obtain ⟨pkt, hpkt, hhears⟩ := htold j d hl
  exact ⟨pkt, (if_neg hj).trans hpkt, hhears⟩

theorem send_quiet {pass : Member → Option (List Byte)}
    (h : ∀ d pkt, pass d = some pkt → d.hears pkt = none) : l.send c pass = l := by
  refine deliver_quiet fun j d _ pkt hpkt => ?_
  split at hpkt
  · cases hpkt
  · exact h d pkt hpkt

theorem save_agree {f : Member → Member} (h : Agree l) (id : Byte)
    (hview : ∀ d, (f d).view = d.view) (hspot : ∀ d, (f d).spot = d.spot) :
    Agree (save l c id f) := by
  unfold save
  split
  · exact modify_agree h hview hspot
  · exact h

section Handlers

variable {pkt : List Byte} (junk : ℕ → Byte)

theorem passDc_quiet (hpkt : pkt ≠ []) (hset : pkt.getD 0 0 ≠ 0x20)
    (hplace : placing false (pkt.getD 0 0) = none) :
    ∀ d pkt', passDc pkt d = some pkt' → d.hears pkt' = none := by
  intro d pkt' h
  rw [hears_passDc hpkt h]
  exact told_eq_none hset hplace

theorem passDcnte_quiet (hpkt : pkt ≠ []) (hset : pkt.getD 0 0 ≠ 0x1C)
    (hplace : placing true (pkt.getD 0 0) = none) :
    ∀ d pkt', passDcnte pkt d = some pkt' → d.hears pkt' = none := by
  intro d pkt' h
  rw [hears_passDcnte hpkt hset h]
  rw [placing_nte] at hplace
  cases hnew : nteToDc (pkt.getD 0 0) with
  | none => rfl
  | some type =>
    rw [hnew, Option.bind_some] at hplace
    refine told_eq_none ?_ hplace
    rintro rfl
    cases dcToNte_of_nteToDc hnew

/-- Everybody can be told of a packet with a type of either edition. -/
theorem passDc_some (hpkt : pkt ≠ []) (d : Member)
    (h : d.nte = true → dcToNte (pkt.getD 0 0) ≠ none) : ∃ pkt', passDc pkt d = some pkt' := by
  unfold passDc
  split
  next => exact ⟨pkt, rfl⟩
  next hnte =>
    cases pkt with
    | nil => exact absurd rfl hpkt
    | cons type rest =>
      obtain ⟨newtype, hnew⟩ := Option.ne_none_iff_exists'.mp (h (by simpa using hnte))
      exact ⟨newtype :: rest, by rw [translate, show dcToNte type = some newtype from hnew]; rfl⟩

theorem passDcnte_some (hpkt : pkt ≠ []) (d : Member) {type : Byte}
    (h : nteToDc (pkt.getD 0 0) = some type) : ∃ pkt', passDcnte pkt d = some pkt' := by
  unfold passDcnte
  split
  next => exact ⟨pkt, rfl⟩
  next =>
    cases pkt with
    | nil => exact absurd rfl hpkt
    | cons old rest =>
      exact ⟨type :: rest, by rw [translate, show nteToDc old = some type from h]; rfl⟩

/-- A packet by which a client sets its place. -/
theorem sendDc_agree (h : Agree l) (hpkt : Honest l c d pkt) {n : ℕ}
    (hdc : d.nte = false) (hplace : placing false (pkt.getD 0 0) = some n)
    {f : Member → Member} (hview : ∀ d, (f d).view = d.view) {p : Spot}
    (hspot : ∀ d, (f d).spot = p)
    (htold : told (memory pkt fun _ => 0) (pkt.getD 0 0) = some (BitVec.ofNat 8 c.val, p)) :
    Agree (subcmdSendLobbyDc (save l c (memory pkt junk 2) f) c pkt) := by
  obtain ⟨hid, hlen⟩ := hpkt.own n (by rwa [hdc])
  have htypes : pkt.getD 0 0 = 0x3E ∨ dcToNte (pkt.getD 0 0) ≠ none := by
    unfold placing at hplace
    rw [if_neg (by decide)] at hplace
    split at hplace
    next hset =>
      rcases hset with ha | ha
      · exact .inl ha
      · exact .inr (by rw [ha]; decide)
    next =>
      split at hplace
      next hmove => exact .inr (by rcases hmove with ha | ha <;> rw [ha] <;> decide)
      next => cases hplace
  have hthree : 2 < pkt.length := by
    unfold placing at hplace
    split_ifs at hplace <;> cases hplace <;> omega
  rw [save, if_pos (by rwa [memory_eq hthree])]
  refine send_agree h hview (fun d _ => hspot d) fun j e hj => ?_
  obtain ⟨pkt', hpass⟩ := passDc_some hpkt.typed e fun hnte => by
    rcases htypes with ha | ha
    · rw [hpkt.known ha j e hj] at hnte
      cases hnte
    · exact ha
  exact ⟨pkt', hpass, (hears_passDc hpkt.typed hpass).trans htold⟩

theorem subcmdHandleBcast_agree (h : Agree l) (hdc : d.nte = false) (hpkt : Honest l c d pkt) :
    Agree (subcmdHandleBcast l c pkt junk).1 := by
  have hplaced := hpkt.unplaced
  rw [hdc] at hplaced
  have hquiet : placing false (pkt.getD 0 0) = none → ∀ k : Lobby, k.send c (passDc pkt) = k :=
    fun hplace k => send_quiet (passDc_quiet hpkt.typed hplaced hplace)
  unfold subcmdHandleBcast
  dsimp only
  rw [memory_type hpkt.typed]
  split
  next harea =>
    split
    · exact h
    · have hplace : placing false (pkt.getD 0 0) = none := by
        rcases harea with ha | ha <;> rw [ha] <;> rfl
      rw [subcmdSendLobbyDc, hquiet hplace]
      exact save_agree h _ (fun _ => rfl) (fun _ => rfl)
  next =>
    split
    next hset =>
      have hplace : placing false (pkt.getD 0 0) = some 24 := by
        rcases hset with ha | ha <;> rw [ha] <;> rfl
      obtain ⟨hid, hlen⟩ := hpkt.own 24 (by rwa [hdc])
      exact sendDc_agree junk h hpkt hdc hplace (fun _ => rfl) (fun _ => rfl)
        (told_setPosition hlen hset hid)
    next hset =>
      split
      next hmove =>
        have hplace : placing false (pkt.getD 0 0) = some 12 := by
          rcases hmove with ha | ha <;> rw [ha] <;> rfl
        obtain ⟨hid, hlen⟩ := hpkt.own 12 (by rwa [hdc])
        exact sendDc_agree junk h hpkt hdc hplace (fun _ => rfl) (fun _ => rfl)
          (told_movePosition hlen hmove hid d.position)
      next hmove =>
        have hplace : placing false (pkt.getD 0 0) = none := by
          unfold placing
          rw [if_neg (by decide), if_neg hset, if_neg hmove]
        split
        · rw [subcmdSendLobbyDc, hquiet hplace]
          exact sendPositions_agree h
        · rw [subcmdSendLobbyDc, hquiet hplace]
          exact h

theorem subcmdBbHandleBcast_agree (h : Agree l) (hbb : d.version = .bb)
    (hpkt : Honest l c d pkt) : Agree (subcmdBbHandleBcast l c pkt junk).1 := by
  have hdc : d.nte = false := by rw [Member.nte, hbb]; rfl
  obtain ⟨hslow, hfast⟩ := hpkt.notMove hbb
  unfold subcmdBbHandleBcast
  dsimp only
  rw [memory_type hpkt.typed, if_neg (not_or.mpr ⟨hslow, hfast⟩)]
  exact subcmdHandleBcast_agree junk h hdc hpkt

/-- A packet by which a client of the trial edition sets its place. -/
theorem sendDcnte_agree (h : Agree l) (hpkt : Honest l c d pkt) {n : ℕ} (hnte : d.nte = true)
    (hplace : placing true (pkt.getD 0 0) = some n) (hlen : 2 < pkt.length)
    {f : Member → Member} (hview : ∀ d, (f d).view = d.view) {p : Spot}
    (hspot : ∀ d, (f d).spot = p) {type : Byte} (htype : nteToDc (pkt.getD 0 0) = some type)
    (htold : told (memory pkt fun _ => 0) type = some (BitVec.ofNat 8 c.val, p)) :
    Agree (subcmdSendLobbyDcnte (save l c (memory pkt junk 2) f) c pkt) := by
  obtain ⟨hid, -⟩ := hpkt.own n (by rwa [hnte])
  have hplaced := hpkt.unplaced
  rw [hnte] at hplaced
  rw [save, if_pos (by rwa [memory_eq hlen])]
  refine send_agree h hview (fun d _ => hspot d) fun j e hj => ?_
  obtain ⟨pkt', hpass⟩ := passDcnte_some hpkt.typed e htype
  refine ⟨pkt', hpass, ?_⟩
  rw [hears_passDcnte hpkt.typed hplaced hpass, htype]
  exact htold

theorem subcmdDcnteHandleBcast_agree (h : Agree l) (hnte : d.nte = true)
    (hpkt : Honest l c d pkt) : Agree (subcmdDcnteHandleBcast l c pkt junk).1 := by
  have hplaced := hpkt.unplaced
  rw [hnte] at hplaced
  have hquiet : placing true (pkt.getD 0 0) = none → ∀ k : Lobby, k.send c (passDcnte pkt) = k :=
    fun hplace k => send_quiet (passDcnte_quiet hpkt.typed hplaced hplace)
  unfold subcmdDcnteHandleBcast
  dsimp only
  rw [memory_type hpkt.typed]
  split
  next harea =>
    split
    · exact h
    · rw [subcmdSendLobbyDcnte, hquiet (by rw [harea]; rfl)]
      exact save_agree h _ (fun _ => rfl) (fun _ => rfl)
  next =>
    split
    next hset =>
      have hplace : placing true (pkt.getD 0 0) = some 24 := by rw [hset]; rfl
      obtain ⟨hid, hlen⟩ := hpkt.own 24 (by rwa [hnte])
      exact sendDcnte_agree junk h hpkt hnte hplace (by omega) (fun _ => rfl) (fun _ => rfl)
        (by rw [hset]; rfl) (told_setPosition hlen (.inr rfl) hid)
    next hset =>
      split
      next hmove =>
        have hplace : placing true (pkt.getD 0 0) = some 12 := by
          rcases hmove with ha | ha <;> rw [ha] <;> rfl
        obtain ⟨hid, hlen⟩ := hpkt.own 12 (by rwa [hnte])
        obtain ⟨type, htype, hmoves⟩ : ∃ type, nteToDc (pkt.getD 0 0) = some type ∧
            (type = 0x40 ∨ type = 0x42) := by
          rcases hmove with ha | ha
          · exact ⟨0x40, by rw [ha]; rfl, .inl rfl⟩
          · exact ⟨0x42, by rw [ha]; rfl, .inr rfl⟩
        exact sendDcnte_agree junk h hpkt hnte hplace (by omega) (fun _ => rfl) (fun _ => rfl)
          htype (told_movePosition hlen hmoves hid d.position)
      next hmove =>
        have hplace : placing true (pkt.getD 0 0) = none := by
          unfold placing
          rw [if_pos rfl, if_neg hset, if_neg hmove]
        split
        · rw [subcmdSendLobbyDcnte, hquiet hplace]
          exact sendPositions_agree h
        · rw [subcmdSendLobbyDcnte, hquiet hplace]
          exact h

end Handlers

theorem forget_agree (h : Agree l) (c : Fin 12) (new : Option Member)
    (hnew : ∀ d, new = some d → d.view = fun _ => none) :
    Agree (Function.update (forget l c) c new) := by
  intro i j hij e d he hd p hp
  by_cases hj : j = c
  · subst hj
    rw [Function.update_self] at hd
    rw [hnew d hd] at hp
    cases hp
  · rw [Function.update_of_ne hj] at hd
    obtain ⟨d', hd', rfl⟩ := Option.map_eq_some_iff.mp hd
    dsimp only at hp
    by_cases hi : i = c
    · rw [if_pos hi] at hp
      cases hp
    · rw [if_neg hi] at hp
      rw [Function.update_of_ne hi] at he
      obtain ⟨e', he', rfl⟩ := Option.map_eq_some_iff.mp he
      exact h i j hij e' d' he' hd' p hp

theorem next_agree (h : Agree l) {e : Event} (he : Sound l e) : Agree (next l e) := by
  cases e with
  | join c version isNte curArea position =>
    exact forget_agree h c _ fun d hd => by cases hd; rfl
  | leave c => exact forget_agree h c _ fun d hd => by cases hd
  | broadcast c pkt junk =>
    rw [next.eq_def]
    dsimp only
    rw [broadcast.eq_def]
    cases hl : l c with
    | none => exact h
    | some d =>
      have hpkt := he d hl
      dsimp only
      split
      next hbb => exact subcmdBbHandleBcast_agree junk h hbb hpkt
      next =>
        split
        next hnte => exact subcmdDcnteHandleBcast_agree junk h hnte hpkt
        next hdc => exact subcmdHandleBcast_agree junk h (by simpa using hdc) hpkt

/-- The type of packet that a client sends when it has finished loading. -/
def Member.finishLoad (d : Member) : Byte :=
  if d.nte then 0x1F else 0x23

theorem send_self (pass : Member → Option (List Byte)) : l.send c pass c = l c := by
  unfold Lobby.send Lobby.deliver
  cases hl : l c with
  | none => rfl
  | some d => simp

/-- A client that has finished loading is shown everybody. -/
theorem finishLoad_shows {pkt : List Byte} (hl : l c = some d) (hpkt : pkt ≠ [])
    (htype : pkt.getD 0 0 = d.finishLoad) (junk : ℕ → Byte) :
    ∃ d', next l (.broadcast c pkt junk) c = some d' ∧
      ∀ i e, i ≠ c → l i = some e → d'.view i = some e.spot := by
  obtain ⟨d', hd', -, hview⟩ := sendPositions_self hl
  have hshown : ∀ i e, i ≠ c → l i = some e → d'.view i = some e.spot := by
    intro i e hi he
    rw [hview i, if_pos ⟨hi, by rw [he]; exact Option.some_ne_none e⟩, he]
    rfl
  refine ⟨d', ?_, hshown⟩
  rw [next.eq_def]
  dsimp only
  rw [broadcast.eq_def, hl]
  dsimp only
  have hdc : d.nte = false → (subcmdHandleBcast l c pkt junk).1 c = some d' := by
    intro hnte
    rw [Member.finishLoad, hnte, if_neg (by decide)] at htype
    have hbcast : (subcmdHandleBcast l c pkt junk).1 =
        subcmdSendLobbyDc (sendPositions l c) c pkt := by
      unfold subcmdHandleBcast
      dsimp only
      rw [memory_type hpkt, htype]
      rfl
    rw [hbcast, subcmdSendLobbyDc, send_self, hd']
  split
  next hbb =>
    have hnte : d.nte = false := by rw [Member.nte, hbb]; rfl
    have htype' := htype
    rw [Member.finishLoad, hnte, if_neg (by decide)] at htype'
    unfold subcmdBbHandleBcast
    dsimp only
    rw [memory_type hpkt, if_neg (by rw [htype']; decide)]
    exact hdc hnte
  next =>
    split
    next hnte =>
      rw [Member.finishLoad, if_pos hnte] at htype
      have hbcast : (subcmdDcnteHandleBcast l c pkt junk).1 =
          subcmdSendLobbyDcnte (sendPositions l c) c pkt := by
        unfold subcmdDcnteHandleBcast
        dsimp only
        rw [memory_type hpkt, htype]
        rfl
      rw [hbcast, subcmdSendLobbyDcnte, send_self, hd']
    next hnte => exact hdc (by simpa using hnte)

end Agreement

section BlueBurst

variable {k : Fin 12}

/-- The version and the position of a client. -/
def Member.kept (d : Member) : ClientVersion × Position :=
  (d.version, d.position)

theorem receive_kept (d : Member) (pkt : List Byte) : (d.receive pkt).kept = d.kept := by
  unfold Member.receive
  dsimp only
  split <;> rfl

theorem send_kept (l : Lobby) (c : Fin 12) (pass : Member → Option (List Byte)) (i : Fin 12) :
    (l.send c pass i).map Member.kept = (l i).map Member.kept :=
  deliver_map receive_kept l _ i

theorem sendPositions_kept (l : Lobby) (c i : Fin 12) :
    (sendPositions l c i).map Member.kept = (l i).map Member.kept := by
  have hone : ∀ (js : List (Fin 12)) (dst : Member),
      (js.foldl (showOne l c) dst).kept = dst.kept := by
    intro js dst
    induction js generalizing dst with
    | nil => rfl
    | cons j js ih =>
      rw [List.foldl_cons, ih]
      unfold showOne
      split
      · rfl
      · split
        · rfl
        · exact receive_kept dst _
  by_cases hi : i = c
  · rw [sendPositions, if_pos hi, hi, Option.map_map]
    exact congrArg (fun g => (l c).map g) (funext fun dst => hone _ dst)
  · rw [sendPositions_other hi]

/-- The position that a packet of the client in the place `k` sets. -/
def setting (k : Fin 12) : Event → Option Position
  | .broadcast c pkt junk =>
    let m := memory pkt junk
    if c = k ∧ (m 0 = 0x3E ∨ m 0 = 0x3F) ∧ (m 2).toNat = k.val then some (setPosition m) else none
  | _ => none

/-- The client in the place `k` stays there, and a move of it does not have its number for its
size. -/
def StaysAt (k : Fin 12) : Event → Prop
  | .join c _ _ _ _ => c ≠ k
  | .leave c => c ≠ k
  | .broadcast c pkt junk => c = k →
      (memory pkt junk 0 = 0x40 ∨ memory pkt junk 0 = 0x42) → (memory pkt junk 1).toNat ≠ k.val

theorem save_kept_ne {l : Lobby} {c i : Fin 12} (h : i ≠ c) (id : Byte) (f : Member → Member) :
    save l c id f i = l i := by
  unfold save
  split
  · exact if_neg h
  · rfl

/-- A broadcast of somebody else leaves a client's position alone. -/
theorem broadcast_kept_ne {l : Lobby} {c i : Fin 12} (h : i ≠ c) (pkt : List Byte)
    (junk : ℕ → Byte) : ((broadcast l c pkt junk).1 i).map Member.kept = (l i).map Member.kept := by
  have hdc : ((subcmdHandleBcast l c pkt junk).1 i).map Member.kept = (l i).map Member.kept := by
    unfold subcmdHandleBcast
    dsimp only [subcmdSendLobbyDc]
    split_ifs <;> simp only [send_kept, save_kept_ne h, sendPositions_kept]
  have hbb : ((subcmdBbHandleBcast l c pkt junk).1 i).map Member.kept =
      (l i).map Member.kept := by
    unfold subcmdBbHandleBcast
    dsimp only [subcmdSendLobbyDc]
    split
    · simp only [send_kept, save_kept_ne h]
    · exact hdc
  have hnte : ((subcmdDcnteHandleBcast l c pkt junk).1 i).map Member.kept =
      (l i).map Member.kept := by
    unfold subcmdDcnteHandleBcast subcmdSendLobbyDcnte
    dsimp only
    split_ifs <;> simp only [send_kept, save_kept_ne h, sendPositions_kept]
  rw [broadcast.eq_def]
  split
  · rfl
  · split_ifs
    · exact hbb
    · exact hnte
    · exact hdc

/-- A broadcast of a Blue Burst client sets its position, if at all, by `SUBCMD_SET_POS`. -/
theorem broadcast_kept_bb {l : Lobby} {d : Member} (hl : l k = some d) (hbb : d.version = .bb)
    {pkt : List Byte} {junk : ℕ → Byte} (h : StaysAt k (.broadcast k pkt junk)) :
    ((broadcast l k pkt junk).1 k).map Member.kept =
      some (.bb, (setting k (.broadcast k pkt junk)).getD d.position) := by
  have hkept : (l k).map Member.kept = some (.bb, d.position) := by
    rw [hl, Option.map_some, Member.kept, hbb]
  have hsave : ∀ (id : Byte) (f : Member → Member), (∀ d, (f d).kept = d.kept) →
      (save l k id f k).map Member.kept = some (.bb, d.position) := by
    intro id f hf
    unfold save
    split
    · rw [Lobby.modify, if_pos rfl, Option.map_map, ← hkept]
      exact congrArg (fun g => (l k).map g) (funext hf)
    · exact hkept
  have hrun : (broadcast l k pkt junk).1 = (subcmdBbHandleBcast l k pkt junk).1 := by
    rw [broadcast.eq_def, hl]
    dsimp only
    rw [if_pos hbb]
  rw [hrun]
  unfold subcmdBbHandleBcast
  dsimp only [subcmdSendLobbyDc]
  split
  next hmove =>
    have hnot : ¬(memory pkt junk 0 = 0x3E ∨ memory pkt junk 0 = 0x3F) := by
      rcases hmove with ha | ha <;> rw [ha] <;> decide
    rw [send_kept, save, if_neg (h rfl hmove), hkept, setting, if_neg fun hs => hnot hs.2.1]
    rfl
  next hmove =>
    unfold subcmdHandleBcast setting
    dsimp only [subcmdSendLobbyDc]
    by_cases hset : memory pkt junk 0 = 0x3E ∨ memory pkt junk 0 = 0x3F
    · have harea : ¬(memory pkt junk 0 = 0x1F ∨ memory pkt junk 0 = 0x21) := by
        rcases hset with ha | ha <;> rw [ha] <;> decide
      rw [if_neg harea, if_pos hset, send_kept]
      by_cases hid : (memory pkt junk 2).toNat = k.val
      · rw [save, if_pos hid, if_pos ⟨rfl, hset, hid⟩, Lobby.modify, if_pos rfl, hl,
          Option.map_some, Option.map_some, Member.kept, hbb]
        rfl
      · rw [save, if_neg hid, if_neg fun hs => hid hs.2.2, hkept]
        rfl
    · have hnone : (if k = k ∧ (memory pkt junk 0 = 0x3E ∨ memory pkt junk 0 = 0x3F) ∧
          (memory pkt junk 2).toNat = k.val then some (setPosition (memory pkt junk))
          else none) = none := if_neg fun hs => hset hs.2.1
      rw [hnone, Option.getD_none, if_neg hset, if_neg hmove]
      split_ifs
      · exact hkept
      · rw [send_kept]
        exact hsave _ (fun d => { d with curArea := memory pkt junk 4 }) fun _ => rfl
      · rw [send_kept, sendPositions_kept, hkept]
      · rw [send_kept, hkept]

/-- The position of a client after an event. -/
theorem next_kept {l : Lobby} {d : Member} (hl : l k = some d) (hbb : d.version = .bb) {e : Event}
    (h : StaysAt k e) :
    (next l e k).map Member.kept = some (.bb, (setting k e).getD d.position) := by
  have hkept : (l k).map Member.kept = some (.bb, d.position) := by
    rw [hl, Option.map_some, Member.kept, hbb]
  have hforget : ∀ c, (forget l c k).map Member.kept = some (.bb, d.position) := by
    intro c
    rw [forget, Option.map_map, ← hkept]
    rfl
  cases e with
  | join c version isNte curArea position =>
    rw [next, Function.update_of_ne (Ne.symm h)]
    exact hforget c
  | leave c =>
    rw [next, Function.update_of_ne (Ne.symm h)]
    exact hforget c
  | broadcast c pkt junk =>
    by_cases hc : c = k
    · subst hc
      exact broadcast_kept_bb hl hbb h
    · rw [next, broadcast_kept_ne (Ne.symm hc), hkept, setting, if_neg fun hs => hc hs.1]
      rfl

/-- However a Blue Burst client moves, the server has it where its last `SUBCMD_SET_POS` put it:
its moves are read one byte too early, and are taken for somebody else's. -/
theorem bb_moves_lost {l : Lobby} {d : Member} (hl : l k = some d) (hbb : d.version = .bb)
    {es : List Event} (h : ∀ e ∈ es, StaysAt k e) :
    ((es.foldl next l) k).map Member.kept =
      some (.bb, ((es.filterMap (setting k)).getLast?).getD d.position) := by
  induction es generalizing l d with
  | nil => rw [List.foldl_nil, hl, Option.map_some, Member.kept, hbb]; rfl
  | cons e es ih =>
    have hstep := next_kept hl hbb (h e List.mem_cons_self)
    obtain ⟨d', hl', hd'⟩ := Option.map_eq_some_iff.1 hstep
    have hbb' : d'.version = .bb := congrArg Prod.fst hd'
    have hpos : d'.position = (setting k e).getD d.position := congrArg Prod.snd hd'
    rw [List.foldl_cons, ih hl' hbb' fun e' he' => h e' (List.mem_cons_of_mem e he'), hpos]
    cases hset : setting k e with
    | none => rw [List.filterMap_cons_none hset]; rfl
    | some p =>
      rw [List.filterMap_cons_some hset, List.getLast?_cons]
      rfl

/-- It starts at the origin, is set elsewhere, and moves on. -/
theorem bb_moves_lost_walk :
    (([Event.broadcast 0
        [0x3F, 6, 0, 0, 15, 0, 0, 0, 7, 7, 7, 7, 1, 1, 1, 1, 5, 5, 5, 5, 2, 2, 2, 2] fun _ => 0,
      Event.broadcast 0 [0x40, 4, 0, 0, 3, 3, 3, 3, 4, 4, 4, 4, 0, 0, 0, 0] fun _ => 0].foldl next
      (Function.update (fun _ => none) 0
        (some ⟨.bb, false, 15, ⟨0, 0, 0, 0⟩, fun _ => none⟩)) 0).map Member.kept) =
      some (.bb, ⟨0x07070707, 0x01010101, 0x05050505, 0x02020202⟩) := by
  refine (bb_moves_lost rfl rfl fun e he => ?_).trans (by decide)
  rw [List.mem_cons, List.mem_singleton] at he
  rcases he with rfl | rfl
  · exact fun _ h => absurd h (by decide)
  · exact fun _ _ => by decide

end BlueBurst

end ShipServer.LobbyPositions

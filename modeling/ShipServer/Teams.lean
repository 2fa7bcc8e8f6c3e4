import ShipServer.LobbyRefinement

set_option autoImplicit false

namespace ShipServer.Teams

open Seatings Versions LobbyRooms LobbyFunctions LobbyRefinement

/-- A game lobby, with `c->client_id` of the clients whose `c->cur_lobby` it is. -/
structure Team extends Room where
  place : ClientId → Option Slot

namespace Team

/-- `lobby_add_client_locked` for a game. -/
def add (t : Team) (c : ClientId) : Option (Team × Slot) :=
  if (t.maxClients : ℤ) ≤ t.numClients then none
  else
    (freeSlot t.toRoom).map fun i =>
      ({ t.toRoom.enter c i with place := Function.update t.place c (some i) }, i)

/-- The game after the election of a new leader, which may end its being a cross-platform one. -/
def versionAfter (t : Team) (lastPreGc : Bool) : ClientVersion :=
  if lastPreGc then .gc else t.version

/-- `lobby_remove_client_locked` for a game. -/
def remove (t : Team) (c : ClientId) (lastPreGc : Bool) : Option (Team × Slot) :=
  (t.place c).bind fun i =>
    if t.clients i = some c then
      some ({ t.toRoom.release i (t.versionAfter lastPreGc) with
              place := Function.update t.place c none }, i)
    else none

/-- A game of at most `LOBBY_MAX_IN_TEAM` clients, each in the slot it thinks it is in. -/
structure Sound (t : Team) : Prop where
  room : t.toRoom.Sound
  game : t.type = .game
  size : t.maxClients ≤ 4
  seated : Seated t.clients t.place

theorem Sound.lt_four {t : Team} (h : t.Sound) {c : ClientId} {i : Slot} (hi : t.place c = some i) :
    (i : ℕ) < 4 := by
  have hbelow := h.room.below i c ((h.seated i c).mpr hi)
  have hsize := h.size
  omega

theorem add_eq_some {t t' : Team} {c : ClientId} {i : Slot} (h : t.add c = some (t', i)) :
    freeSlot t.toRoom = some i ∧
      t' = { t.toRoom.enter c i with place := Function.update t.place c (some i) } := by
  unfold add at h
  split_ifs at h
  obtain ⟨j, hj, heq⟩ := Option.map_eq_some_iff.mp h
  cases heq
  exact ⟨hj, rfl⟩

theorem remove_eq_some {t t' : Team} {c : ClientId} {lastPreGc : Bool} {i : Slot}
    (h : t.remove c lastPreGc = some (t', i)) :
    t.place c = some i ∧ t.clients i = some c ∧
      t' = { t.toRoom.release i (t.versionAfter lastPreGc) with
             place := Function.update t.place c none } := by
  obtain ⟨j, hj, hif⟩ := Option.bind_eq_some_iff.mp h
  split_ifs at hif with hc
  cases hif
  exact ⟨hj, hc, rfl⟩

/-- In a sound game everybody in it can be removed. -/
theorem Sound.remove_of_place {t : Team} (h : t.Sound) {c : ClientId} {i : Slot}
    (hi : t.place c = some i) (lastPreGc : Bool) :
    t.remove c lastPreGc =
      some ({ t.toRoom.release i (t.versionAfter lastPreGc) with
              place := Function.update t.place c none }, i) := by
  unfold remove
  rw [hi, Option.bind_some, if_pos ((h.seated i c).mpr hi)]

theorem Sound.add {t t' : Team} {c : ClientId} {i : Slot} (h : t.Sound) (hc : t.place c = none)
    (hadd : t.add c = some (t', i)) : t'.Sound ∧ t.clients i = none := by
  obtain ⟨hfree, rfl⟩ := add_eq_some hadd
  obtain ⟨hnone, hlt⟩ := freeSlot_spec h.room hfree
  refine ⟨⟨h.room.enter hnone hlt, h.game, h.size, ?_⟩, hnone⟩
  exact h.seated.sit hnone hc

theorem versionAfter_cases (t : Team) (lastPreGc : Bool) :
    t.versionAfter lastPreGc = t.version ∨ t.versionAfter lastPreGc = .gc := by
  cases lastPreGc with
  | false => exact Or.inl rfl
  | true => exact Or.inr rfl

theorem Sound.remove {t t' : Team} {c : ClientId} {lastPreGc : Bool} {i : Slot} (h : t.Sound)
    (hremove : t.remove c lastPreGc = some (t', i)) : t'.Sound := by
  obtain ⟨-, hi, rfl⟩ := remove_eq_some hremove
  have hv := t.versionAfter_cases lastPreGc
  exact ⟨h.room.release hi hv, h.game, h.size, h.seated.leave hi⟩

end Team

end ShipServer.Teams

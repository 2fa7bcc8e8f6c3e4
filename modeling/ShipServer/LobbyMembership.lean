import ShipServer.BlockInvariants

set_option autoImplicit false

namespace ShipServer.LobbyMembership

open LabelledRuns LobbyRooms LobbyState LobbyFunctions DeferredPackets LobbyRefinement
open BlockPackets BlockEffects BlockInvariants

/-- Packets, and direct calls of the functions that move clients. -/
inductive Call where
  | addToAny (c : ClientId) (req : Option LobbyHandle)
  | changeLobby (c : ClientId) (req : LobbyHandle)
  | removePlayer (c : ClientId)
  | packet (a : Action)

structure CallEvent where
  env : Env
  call : Call

/-- `lobby_add_to_any` has three callers; all test that the client is in no lobby. -/
def callNext (b : Block) (e : CallEvent) : Block :=
  match e.call with
  | .addToAny c req =>
    match (b.client c).curLobby with
    | none => (lobbyAddToAny b e.env.now c req).1
    | some _ => b
  | .changeLobby c req => (lobbyChangeLobby b e.env c req).1
  | .removePlayer c => (lobbyRemovePlayer b e.env c).1
  | .packet a => next b { env := e.env, action := a }

/-- The pointers between clients and lobbies agree, and the counts are right. -/
structure Consistent (b : Block) : Prop where
  count : ∀ l, (b.lobby l).numClients =
    (Finset.univ.filter (fun i => ((b.lobby l).clients i).isSome)).card
  below : ∀ l i c, (b.lobby l).clients i = some c → (i : ℕ) < (b.lobby l).maxClients
  once : ∀ c l l' i i', (b.lobby l).clients i = some c → (b.lobby l').clients i' = some c →
    l = l' ∧ i = i'
  present : ∀ c l, (b.client c).curLobby = some l →
    (b.lobby l).clients (b.client c).clientId = some c
  occupant : ∀ c l i, (b.lobby l).clients i = some c →
    (b.client c).curLobby = some l ∧ (b.client c).clientId = i
  absent : ∀ c, (∀ l i, (b.lobby l).clients i ≠ some c) → (b.client c).curLobby = none

/-- What `Seated` says about clients and lobbies. -/
theorem consistent_of_sound {b : Block} (h : b.rooms.Sound) : Consistent b where
  count l := by
    have hcount := (h.room l).count
    rwa [headcount_eq_card] at hcount
  below l i c hi := (h.room l).below i c hi
  once c l l' i i' hi hi' := by
    have hsame : ((l, i) : LobbyHandle × Slot) = (l', i') := h.seated.unique hi hi'
    rwa [Prod.mk.injEq] at hsame
  present c l hcur := h.clients_of_curLobby hcur
  occupant c l i hi := h.curLobby_of_clients hi
  absent c hc := by
    have hplace : (b.rooms.presence c).place = none :=
      h.seated.place_eq_none (fun p => hc p.1 p.2)
    exact Option.map_eq_none_iff.mp hplace

theorem callNext_sound {b : Block} (hb : BlockSound b) (e : CallEvent) :
    BlockSound (callNext b e) := by
  rw [callNext]
  cases e.call with
  | addToAny c req =>
    dsimp only
    cases hcur : (b.client c).curLobby with
    | none => exact lobbyAddToAny_sound hb e.env.now req hcur
    | some l => exact hb
  | changeLobby c req => exact lobbyChangeLobby_sound hb e.env c req
  | removePlayer c => exact lobbyRemovePlayer_sound hb e.env c
  | packet a => exact next_sound hb _

theorem callNext_capped {b : Block} (hb : BlockSound b) (hcap : Capped b.rooms) (e : CallEvent) :
    Capped (callNext b e).rooms := by
  rw [callNext]
  cases e.call with
  | addToAny c req =>
    dsimp only
    cases (b.client c).curLobby with
    | none =>
      rcases lobbyAddToAny_attempted hb.rooms e.env.now c req with ⟨-, hsame⟩ | ⟨-, hlounged⟩
      · rw [hsame]
        exact hcap
      · exact hcap.frame (frame_of_lounged hlounged)
    | some l => exact hcap
  | changeLobby c req => exact hcap.frame (frame_of_enter (lobbyChangeLobby_enter hb.rooms e.env c req))
  | removePlayer c => exact hcap.frame (frame_of_remove hb e.env c)
  | packet a => exact effect_capped (next_effect hb _) hb hcap

/-- Lobby membership is consistent after every sequence of calls and packets. -/
theorem lobbyMembership_consistent {b : Block} {calls : List CallEvent}
    (hrun : Run (StepOf callNext) Always Block.start calls b) : Consistent b := by
  have hsound : BlockSound b := by
    refine hrun.invariant BlockSound initial_invariant.toBlockSound ?_
    rintro b₀ e b₁ hb₀ - rfl
    exact callNext_sound hb₀ e
  exact consistent_of_sound hsound.rooms

/-- A client arrives in the first lobby, moves to the second and leaves. -/
def visit : List CallEvent :=
  [.addToAny 0 none, .changeLobby 0 1, .removePlayer 0].map (fun call => ⟨obligingEnv, call⟩)

theorem lobbyMembership_consistent_visit :
    ((visit.take 2).foldl callNext Block.start).rooms.place 0 = some (1, 0) ∧
      Consistent (visit.foldl callNext Block.start) := by
  have hrun : Run (StepOf callNext) Always Block.start visit (visit.foldl callNext Block.start) :=
    run_foldl callNext Block.start visit
  exact ⟨by decide, lobbyMembership_consistent hrun⟩

end ShipServer.LobbyMembership

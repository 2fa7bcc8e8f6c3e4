import Mathlib

set_option autoImplicit false

namespace ShipServer.Versions

/-- The `CLIENT_VERSION_*` values, in numeric order. -/
inductive ClientVersion where
  | dcv1
  | dcv2
  | pc
  | gc
  | ep3
  | bb
  | xbox
  deriving DecidableEq, Repr

def ClientVersion.code : ClientVersion → ℕ
  | .dcv1 => 0
  | .dcv2 => 1
  | .pc => 2
  | .gc => 3
  | .ep3 => 4
  | .bb => 5
  | .xbox => 6

instance : LT ClientVersion :=
  ⟨fun v w => v.code < w.code⟩

instance (v w : ClientVersion) : Decidable (v < w) :=
  inferInstanceAs (Decidable (v.code < w.code))

/-- The `LOBBY_TYPE_*` values. -/
inductive LobbyType where
  | lobby
  | game
  | ep3Game
  deriving DecidableEq, Repr

/-- A game has four places. -/
instance gamePlaces : NeZero 4 :=
  ⟨by decide⟩

/-- A lobby has twelve places. -/
instance lobbyPlaces : NeZero 12 :=
  ⟨by decide⟩

end ShipServer.Versions

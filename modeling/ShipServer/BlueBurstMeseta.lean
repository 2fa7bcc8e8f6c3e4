import ShipServer.BlueBurstMoves
import ShipServer.LabelledRuns

set_option autoImplicit false

namespace ShipServer.BlueBurstMeseta

open BoundedLists LabelledRuns Items Versions BlueBurstGame BlueBurstMoves

/-- `bb_subcmd_pkt_t`, as the medical centre reads it. -/
structure MedicPkt where
  pktLen : BitVec 16
  size : BitVec 8
  clientId : BitVec 8

/-- The checks that a visit to the medical centre passes. -/
abbrev ReachesMedic (c : BbClient) (l : GameLobby) (pkt : MedicPkt) : Prop :=
  l.type ≠ .lobby ∧ pkt.pktLen = 0x0C ∧ pkt.size = 0x01 ∧ pkt.clientId.toNat = c.clientId

def handleBbMedic (c : BbClient) (l : GameLobby) (pkt : MedicPkt) : Int × BbClient :=
  if l.type = .lobby then
    (-1, c)
  else if pkt.pktLen ≠ 0x0C ∨ pkt.size ≠ 0x01 ∨ pkt.clientId.toNat ≠ c.clientId then
    (-1, c)
  else
    (0, { c with meseta := c.meseta - 10, plMeseta := c.plMeseta - 10 })

/-- A client and the lobby it is in. -/
structure Purse where
  client : BbClient
  lobby : GameLobby

/-- Packets of the client, and whatever the others make of the lobby. -/
inductive Event where
  | packet (p : Packet)
  | medic (pkt : MedicPkt)
  | others (l : GameLobby)

def next (s : Purse) : Event → Purse
  | .packet p =>
    let (_, c, l) := handlePacket s.client s.lobby p
    { client := c, lobby := l }
  | .medic pkt => { s with client := (handleBbMedic s.client s.lobby pkt).2 }
  | .others l => { s with lobby := l }

/-- Both amounts are below the cap, and the copy of the carried one agrees with it. -/
structure Bounded (c : BbClient) : Prop where
  carried : c.meseta.toNat ≤ 999999
  banked : c.bankMeseta.toNat ≤ 999999
  mirrored : c.plMeseta = c.meseta

/-- A visit to the medical centre is paid for. -/
def Affordable (s : Purse) : Event → Prop
  | .medic pkt => ReachesMedic s.client s.lobby pkt → 10 ≤ s.client.meseta.toNat
  | _ => True

theorem handleBbMedic_of_reaches {c : BbClient} {l : GameLobby} {pkt : MedicPkt}
    (h : ReachesMedic c l pkt) :
    (handleBbMedic c l pkt).2 = { c with meseta := c.meseta - 10, plMeseta := c.plMeseta - 10 } := by
  obtain ⟨htype, hlen, hsize, hid⟩ := h
  unfold handleBbMedic
  rw [if_neg htype, if_neg (by simp [hlen, hsize, hid])]

theorem handleBbMedic_of_not_reaches {c : BbClient} {l : GameLobby} {pkt : MedicPkt}
    (h : ¬ReachesMedic c l pkt) : (handleBbMedic c l pkt).2 = c := by
  unfold handleBbMedic
  split_ifs with htype hbad
  · rfl
  · rfl
  · simp only [not_or, not_not] at hbad
    exact absurd ⟨htype, hbad⟩ h

/-- A visit that is not paid for leaves an amount above the cap. -/
theorem handleBbMedic_bounded {c : BbClient} {l : GameLobby} {pkt : MedicPkt} (h : Bounded c) :
    Bounded (handleBbMedic c l pkt).2 ↔ (ReachesMedic c l pkt → 10 ≤ c.meseta.toNat) := by
  by_cases hreach : ReachesMedic c l pkt
  · rw [handleBbMedic_of_reaches hreach]
    have hcarried := h.carried
    constructor
    · intro hafter _
      have hless : (c.meseta - 10).toNat ≤ 999999 := hafter.carried
      bv_omega
    · intro henough
      have hten := henough hreach
      refine ⟨?_, h.banked, ?_⟩
      · change (c.meseta - 10).toNat ≤ 999999
        bv_omega
      · change c.plMeseta - 10 = c.meseta - 10
        rw [h.mirrored]
  · rw [handleBbMedic_of_not_reaches hreach]
    exact ⟨fun _ hr => absurd hr hreach, fun _ => h⟩

/-- The other handlers check the cap and the amount that is there before they pay. -/
theorem moves_bounded {c c' : BbClient} {l l' : GameLobby} {p : Packet}
    (h : Moves c l p c' l') (hc : Bounded c) : Bounded c' := by
  have hcarried := hc.carried
  have hbanked := hc.banked
  cases h with
  | unchanged => exact hc
  | unequipped same => exact ⟨hc.carried, hc.banked, hc.mirrored⟩
  | dropped floor left => exact ⟨hc.carried, hc.banked, hc.mirrored⟩
  | noted => exact ⟨hc.carried, hc.banked, hc.mirrored⟩
  | counted raises => exact hc
  | splitDropped reaches isItem found => exact ⟨hc.carried, hc.banked, hc.mirrored⟩
  | @mesetaDropped pkt junk meseta plMeseta reaches isMeseta paid mirrored =>
    refine ⟨?_, hc.banked, mirrored hc.mirrored⟩
    change meseta.toNat ≤ 999999
    rw [paid]
    split_ifs
    · exact hcarried
    · bv_omega
  | @mesetaPickedUp pkt i meseta kind sum =>
    refine ⟨?_, hc.banked, rfl⟩
    change meseta.toNat ≤ 999999
    rw [sum]
    split_ifs with hmuch
    · exact le_rfl
    · bv_omega
  | itemPickedUp => exact ⟨hc.carried, hc.banked, hc.mirrored⟩
  | @mesetaDeposited pkt enough capped =>
    refine ⟨?_, ?_, rfl⟩
    · change (c.meseta - pkt.mesetaAmount).toNat ≤ 999999
      bv_omega
    · change (c.bankMeseta + pkt.mesetaAmount).toNat ≤ 999999
      bv_omega
  | @mesetaTaken pkt enough capped =>
    refine ⟨?_, ?_, rfl⟩
    · change (c.meseta + pkt.mesetaAmount).toNat ≤ 999999
      bv_omega
    · change (c.bankMeseta - pkt.mesetaAmount).toNat ≤ 999999
      bv_omega
  | itemDeposited reaches left => exact ⟨hc.carried, hc.banked, hc.mirrored⟩
  | itemTaken action taken => exact ⟨hc.carried, hc.banked, hc.mirrored⟩
  | itemReturned action taken => exact ⟨hc.carried, hc.banked, hc.mirrored⟩

theorem next_bounded {s : Purse} (e : Event) (h : Bounded s.client) :
    Bounded (next s e).client ↔ Affordable s e := by
  cases e with
  | packet p =>
    have hmoves := handlePacket_moves s.client s.lobby p
    exact ⟨fun _ => trivial, fun _ => moves_bounded hmoves h⟩
  | medic pkt => exact handleBbMedic_bounded h
  | others l => exact ⟨fun _ => trivial, fun _ => h⟩

/-- Both amounts stay in bounds in all states of a run exactly when every visit to the medical
centre is paid for. -/
theorem bbMeseta_bounded {s : Purse} (hs : Bounded s.client) (es : List Event) :
    Run (StepOf next) Affordable s es (es.foldl next s) ↔
      ∀ fs, fs <+: es → Bounded (fs.foldl next s).client :=
  run_iff_prefixes (fun s : Purse => Bounded s.client) (fun _ e h => next_bounded e h) hs es

/-- A client with some meseta in an empty game. -/
def patient (meseta : BitVec 32) : Purse where
  client :=
    { clientId := 0, inv := .nil, bank := .nil, meseta := meseta, plMeseta := meseta
      bankMeseta := 0, dropItem := 0, dropAmt := 0
      items := fun _ => { dataL0 := 0, dataL1 := 0, dataL2 := 0, itemId := 0, data2L := 0,
                          equipped := 0, tech := 0, flags := 0 } }
  lobby :=
    { type := .game, version := .bb, maxClients := 4, itemId := 0x00810000,
      highestItem := fun _ => 0, itemQueue := [] }

def visit : Event :=
  .medic { pktLen := 0x0C, size := 0x01, clientId := 0 }

/-- One visit leaves nothing of ten meseta, and the next one is not paid for. -/
theorem bbMeseta_bounded_patient :
    Run (StepOf next) Affordable (patient 10) [visit] ([visit].foldl next (patient 10)) ↔
      ∀ fs, fs <+: [visit] → Bounded (fs.foldl next (patient 10)).client :=
  bbMeseta_bounded ⟨by decide, by decide, rfl⟩ [visit]

/-- Somebody without meseta goes to the medical centre. -/
theorem bbMeseta_not_bounded :
    ¬ ∀ (s : Purse), Bounded s.client → ∀ es : List Event,
      Bounded (es.foldl next s).client := by
  intro h
  have hafter := h (patient 0) ⟨by decide, by decide, rfl⟩ [visit]
  have hcarried : (0 - 10 : BitVec 32).toNat ≤ 999999 := hafter.carried
  revert hcarried
  decide

end ShipServer.BlueBurstMeseta

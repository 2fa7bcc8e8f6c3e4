import ShipServer.LabelledRuns
import ShipServer.SortedCodes

set_option autoImplicit false

namespace ShipServer.ShipList

open LabelledRuns SortedCodes

/-- What is known of a ship besides its id, its number and its menu code. -/
structure ShipInfo where
  name : List UInt8
  shipAddr6 : List UInt8
  shipAddr : ℕ
  shipPort : ℕ
  clients : ℕ
  games : ℕ
  flags : ℕ
  privileges : ℕ

structure Miniship where
  shipId : ℕ
  shipNumber : ℕ
  menuCode : ℕ
  info : ShipInfo

structure ShipStatusPkt where
  status : ℕ
  shipId : ℕ
  shipNumber : ℕ
  menuCode : ℕ
  info : ShipInfo

/-- Whether there is memory for what a message asks for. -/
structure Memory where
  malloc : Bool
  realloc : Bool

/-- The list of ships and the codes of their menus. -/
structure Ship where
  ships : List Miniship
  menuCodes : List ℕ

/-- A ship starts without any code, not even its own. -/
def start : Ship :=
  { ships := [], menuCodes := [] }

def menuCodeExists (codes : List ℕ) (target : ℕ) : Bool :=
  let i := lowerBound (fun k => codes.getD k 0) target codes.length 0 codes.length
  i < codes.length ∧ codes.getD i 0 = target

/-- The list with a code in it, if there is memory for that. -/
def addCode (m : Memory) (codes : List ℕ) (code : ℕ) : Option (List ℕ) :=
  if menuCodeExists codes code then some codes
  else if m.realloc then some (insertionSort (codes ++ [code]))
  else none

/-- The list without a code. The last place is given back, or filled up if it cannot be. -/
def removeCode (m : Memory) (codes : List ℕ) (code : ℕ) : List ℕ :=
  let left := (shiftDown code codes).dropLast
  if m.realloc then left else left ++ [0xFFFF]

def removeShip (ships : List Miniship) (sid : ℕ) : List Miniship :=
  ships.eraseP fun i => i.shipId = sid

/-- A ship goes before the first one whose number is not smaller. -/
def insertShip (ships : List Miniship) (i : Miniship) : List Miniship :=
  ships.orderedInsert (fun a b => a.shipNumber ≤ b.shipNumber) i

def shipDown (m : Memory) (s : Ship) (sid : ℕ) : Ship :=
  match s.ships.find? fun i => i.shipId = sid with
  | none => s
  | some i =>
    let ships := removeShip s.ships sid
    if ships.any fun j => i.menuCode = j.menuCode then { s with ships := ships }
    else { ships := ships, menuCodes := removeCode m s.menuCodes i.menuCode }

def shipUp (m : Memory) (s : Ship) (p : ShipStatusPkt) : Ship :=
  let found := s.ships.any fun i => i.shipId = p.shipId
  let ships := removeShip s.ships p.shipId
  if found = false ∧ m.malloc = false then s
  else
    match addCode m s.menuCodes p.menuCode with
    | none => { s with ships := ships }
    | some codes =>
      { ships := insertShip ships ⟨p.shipId, p.shipNumber, p.menuCode, p.info⟩
        menuCodes := codes }

def handleSstatus (m : Memory) (s : Ship) (p : ShipStatusPkt) : Ship :=
  if p.status = 0 then shipDown m s p.shipId else shipUp m s p

/-- What happens to the list: a message of the shipgate, or a new connection to it. -/
inductive Event where
  | sstatus (m : Memory) (p : ShipStatusPkt)
  | reconnect

def next (s : Ship) : Event → Ship
  | .sstatus m p => handleSstatus m s p
  | .reconnect => { s with ships := [] }

/-- Some ship of the list has the code. -/
def Uses (ships : List Miniship) (code : ℕ) : Prop :=
  ∃ i ∈ ships, i.menuCode = code

structure Ordered (s : Ship) : Prop where
  ids : (s.ships.map Miniship.shipId).Nodup
  numbers : s.ships.Pairwise fun a b => a.shipNumber ≤ b.shipNumber

structure Listed (s : Ship) : Prop extends Ordered s where
  codes : s.menuCodes.Pairwise (· < ·)
  exact_ : ∀ c, c ∈ s.menuCodes ↔ Uses s.ships c ∨ c ∈ start.menuCodes

/-- A ship that goes down, or comes up under an id that is listed, leaves its old code to another
ship, or gives back the memory of the code or keeps the code. No ship is listed at a reconnect. -/
def Careful (s : Ship) : Event → Prop
  | .sstatus m p => ∀ i ∈ s.ships, i.shipId = p.shipId →
    Uses (removeShip s.ships p.shipId) i.menuCode ∨
      if p.status = 0 then m.realloc = true else p.menuCode = i.menuCode
  | .reconnect => s.ships = []

instance : Std.Total fun a b : Miniship => a.shipNumber ≤ b.shipNumber :=
  ⟨fun a b => le_total a.shipNumber b.shipNumber⟩

instance : IsTrans Miniship fun a b => a.shipNumber ≤ b.shipNumber :=
  ⟨fun _ _ _ h h' => h.trans h'⟩

theorem removeShip_eq_filter {ships : List Miniship} (sid : ℕ)
    (h : (ships.map Miniship.shipId).Nodup) :
    removeShip ships sid = ships.filter fun i => i.shipId ≠ sid := by
  induction ships with
  | nil => rfl
  | cons i rest ih =>
    obtain ⟨hnew, hrest⟩ := List.nodup_cons.mp h
    unfold removeShip at ih ⊢
    by_cases hi : i.shipId = sid
    · rw [List.eraseP_cons_of_pos (by simpa using hi), List.filter_cons_of_neg (by simpa using hi)]
      symm
      apply List.filter_eq_self.mpr
      intro j hj
      have hne : j.shipId ≠ i.shipId := by
        intro heq
        exact hnew (List.mem_map.mpr ⟨j, hj, heq⟩)
      simpa [← hi] using hne
    · rw [List.eraseP_cons_of_neg (by simpa using hi), List.filter_cons_of_pos (by simpa using hi),
        ih hrest]

theorem mem_removeShip {ships : List Miniship} {sid : ℕ} {i : Miniship}
    (h : (ships.map Miniship.shipId).Nodup) :
    i ∈ removeShip ships sid ↔ i ∈ ships ∧ i.shipId ≠ sid := by
  rw [removeShip_eq_filter sid h, List.mem_filter, decide_eq_true_iff]

theorem uses_insertShip (ships : List Miniship) (i : Miniship) (c : ℕ) :
    Uses (insertShip ships i) c ↔ Uses ships c ∨ c = i.menuCode := by
  unfold Uses insertShip
  constructor
  · rintro ⟨j, hj, rfl⟩
    rcases (List.mem_orderedInsert _).mp hj with rfl | hj
    · exact Or.inr rfl
    · exact Or.inl ⟨j, hj, rfl⟩
  · rintro (⟨j, hj, rfl⟩ | rfl)
    · exact ⟨j, (List.mem_orderedInsert _).mpr (Or.inr hj), rfl⟩
    · exact ⟨i, (List.mem_orderedInsert _).mpr (Or.inl rfl), rfl⟩

/-- The codes of the ships are those of the ones that stay and of the one removed. -/
theorem uses_iff {ships : List Miniship} (h : (ships.map Miniship.shipId).Nodup) (sid c : ℕ) :
    Uses ships c ↔
      Uses (removeShip ships sid) c ∨ ∃ i ∈ ships, i.shipId = sid ∧ i.menuCode = c := by
  constructor
  · rintro ⟨i, hi, hcode⟩
    by_cases hid : i.shipId = sid
    · exact Or.inr ⟨i, hi, hid, hcode⟩
    · exact Or.inl ⟨i, (mem_removeShip h).mpr ⟨hi, hid⟩, hcode⟩
  · rintro (⟨i, hi, hcode⟩ | ⟨i, hi, -, hcode⟩)
    · exact ⟨i, ((mem_removeShip h).mp hi).1, hcode⟩
    · exact ⟨i, hi, hcode⟩

theorem Ordered.remove {s : Ship} (h : Ordered s) (sid : ℕ) (codes : List ℕ) :
    Ordered ⟨removeShip s.ships sid, codes⟩ where
  ids := h.ids.sublist ((List.eraseP_sublist).map _)
  numbers := h.numbers.sublist List.eraseP_sublist

theorem Ordered.insert {s : Ship} (h : Ordered s) (i : Miniship) (codes : List ℕ) :
    Ordered ⟨insertShip (removeShip s.ships i.shipId) i, codes⟩ where
  ids := by
    have hperm := (List.perm_orderedInsert (fun a b : Miniship => a.shipNumber ≤ b.shipNumber) i
      (removeShip s.ships i.shipId)).map Miniship.shipId
    refine hperm.nodup_iff.mpr (List.nodup_cons.mpr ⟨?_, (h.remove i.shipId codes).ids⟩)
    rintro hmem
    obtain ⟨j, hj, hid⟩ := List.mem_map.mp hmem
    exact ((mem_removeShip h.ids).mp hj).2 hid
  numbers := (h.remove i.shipId codes).numbers.orderedInsert _ _

theorem next_ordered {s : Ship} (h : Ordered s) (e : Event) : Ordered (next s e) := by
  cases e with
  | reconnect => exact ⟨List.nodup_nil, List.Pairwise.nil⟩
  | sstatus m p =>
    rw [next, handleSstatus]
    split_ifs with hdown
    · rw [shipDown]
      cases s.ships.find? fun i => i.shipId = p.shipId with
      | none => exact h
      | some i =>
        dsimp only
        split_ifs
        · exact h.remove p.shipId s.menuCodes
        · exact h.remove p.shipId _
    · rw [shipUp]
      split_ifs
      · exact h
      · cases addCode m s.menuCodes p.menuCode with
        | none => exact h.remove p.shipId s.menuCodes
        | some codes => exact h.insert ⟨p.shipId, p.shipNumber, p.menuCode, p.info⟩ codes

theorem menuCodeExists_iff {codes : List ℕ} (h : codes.Pairwise (· ≤ ·)) (target : ℕ) :
    menuCodeExists codes target = true ↔ target ∈ codes := by
  have hmono : ∀ a b, 0 ≤ a → a ≤ b → b < codes.length → codes.getD a 0 ≤ codes.getD b 0 := by
    intro a b _ hab hb
    rw [List.getD_eq_getElem _ _ (hab.trans_lt hb), List.getD_eq_getElem _ _ hb]
    rcases hab.eq_or_lt with rfl | hab
    · exact le_rfl
    · exact List.pairwise_iff_getElem.mp h a b _ hb hab
  obtain ⟨-, hfirst, hlast⟩ := lowerBound_spec (x := target) (n := codes.length)
    (Nat.zero_le codes.length) (by omega) hmono
  unfold menuCodeExists
  dsimp only
  generalize lowerBound (fun k => codes.getD k 0) target codes.length 0 codes.length = i at *
  rw [decide_eq_true_iff]
  constructor
  · rintro ⟨hi, heq⟩
    rw [List.getD_eq_getElem _ _ hi] at heq
    exact heq ▸ List.getElem_mem hi
  · intro hmem
    obtain ⟨k, hk, heq⟩ := List.getElem_of_mem hmem
    rw [← List.getD_eq_getElem _ 0 hk] at heq
    have hik : i ≤ k := by
      by_contra hki
      exact absurd (hfirst k (Nat.zero_le k) (not_le.mp hki)) (by omega)
    have hi : i < codes.length := hik.trans_lt hk
    have hge := hlast i le_rfl hi
    have hle := hmono i k (Nat.zero_le i) hik hk
    exact ⟨hi, by omega⟩

theorem addCode_spec {m : Memory} {codes codes' : List ℕ} {code : ℕ}
    (h : codes.Pairwise (· < ·)) (hadd : addCode m codes code = some codes') :
    codes'.Pairwise (· < ·) ∧ ∀ c, c ∈ codes' ↔ c ∈ codes ∨ c = code := by
  unfold addCode at hadd
  split_ifs at hadd with hexists hrealloc
  · cases hadd
    refine ⟨h, fun c => ⟨Or.inl, ?_⟩⟩
    rintro (hc | rfl)
    · exact hc
    · exact (menuCodeExists_iff (h.imp le_of_lt) c).mp hexists
  · cases hadd
    have hnew : code ∉ codes :=
      fun hmem => hexists ((menuCodeExists_iff (h.imp le_of_lt) code).mpr hmem)
    constructor
    · apply insertionSort_lt
      have hnodup : codes.Nodup := h.imp fun hlt => ne_of_lt hlt
      exact hnodup.append (List.nodup_singleton code) (by simpa using hnew)
    · intro c
      rw [(insertionSort_perm _).mem_iff, List.mem_append, List.mem_singleton]

theorem addCode_none {m : Memory} {codes : List ℕ} {code : ℕ} (h : codes.Pairwise (· < ·))
    (hadd : addCode m codes code = none) : code ∉ codes := by
  intro hmem
  rw [addCode, if_pos ((menuCodeExists_iff (h.imp le_of_lt) code).mpr hmem)] at hadd
  cases hadd

theorem removeCode_spec {m : Memory} {codes : List ℕ} {code : ℕ} (h : codes.Pairwise (· < ·))
    (hcode : code ∈ codes) (hrealloc : m.realloc = true) :
    (removeCode m codes code).Pairwise (· < ·) ∧
      ∀ c, c ∈ removeCode m codes code ↔ c ∈ codes ∧ c ≠ code := by
  unfold removeCode
  rw [if_pos hrealloc, dropLast_shiftDown (h.imp le_of_lt) hcode]
  refine ⟨h.sublist List.erase_sublist, fun c => ?_⟩
  have hnodup : codes.Nodup := h.imp fun hlt => ne_of_lt hlt
  rw [hnodup.mem_erase_iff]
  exact and_comm

/-- A code whose memory is not given back is one too many. -/
theorem removeCode_wrong {m : Memory} {codes : List ℕ} {code : ℕ} (h : codes.Pairwise (· < ·))
    (hcode : code ∈ codes) (hrealloc : m.realloc = false) :
    ¬((removeCode m codes code).Pairwise (· < ·) ∧
      ∀ c, c ∈ removeCode m codes code ↔ c ∈ codes ∧ c ≠ code) := by
  unfold removeCode
  rw [if_neg (by rw [hrealloc]; decide), dropLast_shiftDown (h.imp le_of_lt) hcode]
  rintro ⟨hsorted, hmem⟩
  obtain ⟨hin, hne⟩ := (hmem 0xFFFF).mp (List.mem_append_right _ (List.mem_singleton_self _))
  have herase : 0xFFFF ∈ codes.erase code := (List.mem_erase_of_ne hne).mpr hin
  have hlt := (List.pairwise_append.mp hsorted).2.2 0xFFFF herase 0xFFFF
    (List.mem_singleton_self _)
  exact lt_irrefl _ hlt

theorem Listed.mem_iff {s : Ship} (h : Listed s) (c : ℕ) :
    c ∈ s.menuCodes ↔ Uses s.ships c := by
  rw [h.exact_ c]
  exact or_iff_left List.not_mem_nil

theorem listed_iff {s : Ship} (h : Ordered s) :
    Listed s ↔ s.menuCodes.Pairwise (· < ·) ∧ ∀ c, c ∈ s.menuCodes ↔ Uses s.ships c := by
  constructor
  · intro hs
    exact ⟨hs.codes, hs.mem_iff⟩
  · rintro ⟨hcodes, hmem⟩
    refine { h with codes := hcodes, exact_ := fun c => ?_ }
    rw [hmem c]
    exact (or_iff_left List.not_mem_nil).symm

theorem shipDown_listed_iff {s : Ship} (h : Listed s) (m : Memory) (sid : ℕ) :
    Listed (shipDown m s sid) ↔ ∀ i ∈ s.ships, i.shipId = sid →
      Uses (removeShip s.ships sid) i.menuCode ∨ m.realloc = true := by
  rw [shipDown]
  cases hfind : s.ships.find? fun i => i.shipId = sid with
  | none =>
    have hnone : ∀ i ∈ s.ships, ¬i.shipId = sid := by simpa using hfind
    exact iff_of_true h fun i hi hid => absurd hid (hnone i hi)
  | some i =>
    have hid : i.shipId = sid := by simpa using List.find?_some hfind
    have hi : i ∈ s.ships := List.mem_of_find?_eq_some hfind
    have hsame : ∀ j ∈ s.ships, j.shipId = sid → j = i := by
      intro j hj hjd
      exact List.inj_on_of_nodup_map h.ids hj hi (hjd.trans hid.symm)
    have huses := uses_iff h.ids sid
    have hcode : i.menuCode ∈ s.menuCodes := (h.mem_iff _).mpr ⟨i, hi, rfl⟩
    have hgoal : (∀ j ∈ s.ships, j.shipId = sid →
        Uses (removeShip s.ships sid) j.menuCode ∨ m.realloc = true) ↔
        Uses (removeShip s.ships sid) i.menuCode ∨ m.realloc = true := by
      constructor
      · exact fun hall => hall i hi hid
      · intro hone j hj hjd
        rw [hsame j hj hjd]
        exact hone
    rw [hgoal]
    dsimp only
    split_ifs with hshared
    · have hused : Uses (removeShip s.ships sid) i.menuCode := by
        obtain ⟨j, hj, heq⟩ := List.any_eq_true.mp hshared
        exact ⟨j, hj, (by simpa using heq : i.menuCode = j.menuCode).symm⟩
      refine iff_of_true ((listed_iff (h.remove sid s.menuCodes)).mpr ⟨h.codes, fun c => ?_⟩)
        (Or.inl hused)
      rw [h.mem_iff, huses c]
      constructor
      · rintro (hc | ⟨j, hj, hjd, rfl⟩)
        · exact hc
        · rw [hsame j hj hjd]
          exact hused
      · exact Or.inl
    · have hunused : ¬Uses (removeShip s.ships sid) i.menuCode := by
        rintro ⟨j, hj, heq⟩
        exact hshared (List.any_eq_true.mpr ⟨j, hj, by simpa using heq.symm⟩)
      -- the codes that are still in use are the old ones without that of the ship
      have hleft : ∀ c, Uses (removeShip s.ships sid) c ↔ c ∈ s.menuCodes ∧ c ≠ i.menuCode := by
        intro c
        rw [h.mem_iff, huses c]
        constructor
        · intro hc
          refine ⟨Or.inl hc, ?_⟩
          rintro rfl
          exact hunused hc
        · rintro ⟨hc | ⟨j, hj, hjd, rfl⟩, hne⟩
          · exact hc
          · exact absurd (congrArg Miniship.menuCode (hsame j hj hjd)) hne
      rw [listed_iff (h.remove sid _), or_iff_right hunused]
      dsimp only
      simp only [hleft]
      cases hrealloc : m.realloc with
      | true => exact iff_of_true (removeCode_spec h.codes hcode hrealloc) rfl
      | false => exact iff_of_false (removeCode_wrong h.codes hcode hrealloc) Bool.false_ne_true

theorem shipUp_listed_iff {s : Ship} (h : Listed s) (m : Memory) (p : ShipStatusPkt) :
    Listed (shipUp m s p) ↔ ∀ i ∈ s.ships, i.shipId = p.shipId →
      Uses (removeShip s.ships p.shipId) i.menuCode ∨ p.menuCode = i.menuCode := by
  have huses := uses_iff h.ids p.shipId
  have hcode : ∀ i ∈ s.ships, i.menuCode ∈ s.menuCodes := fun i hi => (h.mem_iff _).mpr ⟨i, hi, rfl⟩
  rw [shipUp]
  split_ifs with hpunt
  · have hnew : ∀ i ∈ s.ships, ¬i.shipId = p.shipId := by simpa using hpunt.1
    exact iff_of_true h fun i hi hid => absurd hid (hnew i hi)
  · cases hadd : addCode m s.menuCodes p.menuCode with
    | none =>
      have hother := addCode_none h.codes hadd
      rw [listed_iff (h.remove p.shipId s.menuCodes)]
      constructor
      · rintro ⟨-, hmem⟩ i hi -
        exact Or.inl ((hmem _).mp (hcode i hi))
      · intro hleft
        refine ⟨h.codes, fun c => ?_⟩
        rw [h.mem_iff, huses c]
        constructor
        · rintro (hc | ⟨i, hi, hid, rfl⟩)
          · exact hc
          · refine (hleft i hi hid).resolve_right fun heq => hother ?_
            rw [heq]
            exact hcode i hi
        · exact Or.inl
    | some codes =>
      obtain ⟨hsorted, hmem⟩ := addCode_spec h.codes hadd
      rw [listed_iff (h.insert ⟨p.shipId, p.shipNumber, p.menuCode, p.info⟩ codes)]
      dsimp only
      simp only [uses_insertShip, hmem, h.mem_iff]
      constructor
      · rintro ⟨-, hsame⟩ i hi -
        exact ((hsame i.menuCode).mp (Or.inl ⟨i, hi, rfl⟩)).imp_right Eq.symm
      · intro hleft
        refine ⟨hsorted, fun c => ?_⟩
        rw [huses c]
        constructor
        · rintro ((hc | ⟨i, hi, hid, rfl⟩) | hc)
          · exact Or.inl hc
          · exact (hleft i hi hid).imp_right Eq.symm
          · exact Or.inr hc
        · rintro (hc | hc)
          · exact Or.inl (Or.inl hc)
          · exact Or.inr hc

theorem next_listed_iff {s : Ship} (h : Listed s) (e : Event) :
    Listed (next s e) ↔ Careful s e := by
  cases e with
  | sstatus m p =>
    rw [next, handleSstatus, Careful]
    split_ifs with hdown
    · exact shipDown_listed_iff h m p.shipId
    · exact shipUp_listed_iff h m p
  | reconnect =>
    have hordered : Ordered (next s .reconnect) := next_ordered h.toOrdered .reconnect
    rw [listed_iff hordered, next, Careful]
    dsimp only
    constructor
    · rintro ⟨-, hmem⟩
      refine List.eq_nil_iff_forall_not_mem.mpr fun i hi => ?_
      obtain ⟨j, hj, -⟩ := (hmem i.menuCode).mp ((h.mem_iff _).mpr ⟨i, hi, rfl⟩)
      cases hj
    · intro hnone
      have hsame := h.mem_iff
      rw [hnone] at hsame
      exact ⟨h.codes, hsame⟩

theorem start_listed : Listed start where
  ids := List.nodup_nil
  numbers := List.Pairwise.nil
  codes := List.Pairwise.nil
  exact_ c := by simp [start, Uses]

/-- The list of ships has each id once and is in the order of the numbers after every run. The
codes are exactly those of the ships after runs of careful messages, and a message keeps them so if
and only if it is careful. -/
theorem shipList_exact (es : List Event) (s : Ship) :
    (Run (StepOf next) Always start es s → Ordered s) ∧
    (Run (StepOf next) Careful start es s → Listed s ∧ ∀ e, Listed (next s e) ↔ Careful s e) := by
  constructor
  · intro hrun
    refine hrun.invariant Ordered start_listed.toOrdered ?_
    rintro s₀ e s₁ hs - rfl
    exact next_ordered hs e
  · intro hrun
    have hlisted : Listed s := by
      refine hrun.invariant Listed start_listed ?_
      rintro s₀ e s₁ hs hcareful rfl
      exact (next_listed_iff hs e).mpr hcareful
    exact ⟨hlisted, next_listed_iff hlisted⟩

def enough : Memory :=
  { malloc := true, realloc := true }

/-- A message about a ship. -/
def about (status shipId shipNumber menuCode : ℕ) : Event :=
  .sstatus enough ⟨status, shipId, shipNumber, menuCode, ⟨[], [], 0, 0, 0, 0, 0, 0⟩⟩

/-- Two ships share a code, and one of them goes down. -/
theorem shipList_exact_shared :
    Listed ([about 1 7 2 0x5553, about 1 8 1 0x5553, about 0 7 0 0].foldl next start) := by
  have hrun : Run (StepOf next) Careful start [about 1 7 2 0x5553, about 1 8 1 0x5553, about 0 7 0 0]
      ([about 1 7 2 0x5553, about 1 8 1 0x5553, about 0 7 0 0].foldl next start) := by
    refine .move ?_ rfl (.move ?_ rfl (.move ?_ rfl (.stop _)))
    · intro i hi
      cases hi
    · intro i hi hid
      rcases List.mem_singleton.mp hi with rfl
      cases hid
    · intro i hi hid
      exact Or.inr rfl
  exact ((shipList_exact _ _).2 hrun).1

/-- A ship comes up again with another code, and the old one stays. -/
theorem shipList_not_exact :
    ¬ ∀ es s, Run (StepOf next) Always start es s → Listed s := by
  intro h
  have hlisted := h _ _ (run_foldl next start [about 1 7 2 0x5553, about 1 7 2 0x4550])
  obtain ⟨i, hi, hcode⟩ := (hlisted.mem_iff 0x5553).mp (by decide)
  rcases List.mem_singleton.mp hi with rfl
  cases hcode

end ShipServer.ShipList

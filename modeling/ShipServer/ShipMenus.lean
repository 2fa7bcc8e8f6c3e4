import ShipServer.ListSizes

set_option autoImplicit false

namespace ShipServer.ShipMenus

open LabelledRuns SortedCodes Versions ShipList ListPackets StaleBytes ListSizes

/-- A menu code as it comes in a message, in 16 bits. -/
def Wire (_ : Ship) : Event → Prop
  | .sstatus _ p => p.menuCode ≤ 0xFFFF
  | .reconnect => True

/-- Every ship has its code among those of the menus. -/
structure Covered (s : Ship) : Prop extends Ordered s where
  sorted : s.menuCodes.Pairwise (· ≤ ·)
  small : ∀ code ∈ s.menuCodes, code ≤ 0xFFFF
  covers : ∀ code, Uses s.ships code → code ∈ s.menuCodes

theorem addCode_covers {m : Memory} {codes codes' : List ℕ} {code : ℕ}
    (hsorted : codes.Pairwise (· ≤ ·)) (hadd : addCode m codes code = some codes') :
    codes'.Pairwise (· ≤ ·) ∧ ∀ k, k ∈ codes' ↔ k ∈ codes ∨ k = code := by
  unfold addCode at hadd
  split_ifs at hadd with hexists hrealloc
  · cases hadd
    have hmem := (menuCodeExists_iff hsorted code).mp hexists
    refine ⟨hsorted, fun k => ⟨Or.inl, ?_⟩⟩
    rintro (hk | rfl)
    · exact hk
    · exact hmem
  · cases hadd
    refine ⟨insertionSort_sorted _, fun k => ?_⟩
    rw [(insertionSort_perm _).mem_iff, List.mem_append, List.mem_singleton]

/-- Whatever is left in place of a code that is given up, the others stay. -/
theorem removeCode_covers {m : Memory} {codes : List ℕ} {code : ℕ}
    (hsorted : codes.Pairwise (· ≤ ·)) (hsmall : ∀ k ∈ codes, k ≤ 0xFFFF) (hcode : code ∈ codes) :
    (removeCode m codes code).Pairwise (· ≤ ·) ∧ (∀ k ∈ removeCode m codes code, k ≤ 0xFFFF) ∧
      ∀ k ∈ codes, k ≠ code → k ∈ removeCode m codes code := by
  have herase : ∀ k ∈ codes.erase code, k ≤ 0xFFFF :=
    fun k hk => hsmall k (List.mem_of_mem_erase hk)
  have hsub : (codes.erase code).Pairwise (· ≤ ·) := hsorted.sublist List.erase_sublist
  unfold removeCode
  rw [dropLast_shiftDown hsorted hcode]
  dsimp only
  split_ifs
  · exact ⟨hsub, herase, fun k hk hne => (List.mem_erase_of_ne hne).mpr hk⟩
  · refine ⟨?_, ?_, ?_⟩
    · refine List.pairwise_append.mpr ⟨hsub, List.pairwise_singleton _ _, ?_⟩
      intro k hk last hlast
      rw [List.mem_singleton.mp hlast]
      exact herase k hk
    · intro k hk
      rcases List.mem_append.mp hk with hk | hk
      · exact herase k hk
      · exact (List.mem_singleton.mp hk).le
    · intro k hk hne
      exact List.mem_append_left _ ((List.mem_erase_of_ne hne).mpr hk)

theorem uses_removeShip {ships : List Miniship} {sid code : ℕ}
    (h : Uses (removeShip ships sid) code) : Uses ships code := by
  obtain ⟨i, hi, hcode⟩ := h
  exact ⟨i, List.eraseP_sublist.subset hi, hcode⟩

theorem Covered.remove {s : Ship} (h : Covered s) (sid : ℕ) :
    Covered { s with ships := removeShip s.ships sid } :=
  { h.toOrdered.remove sid s.menuCodes with
    sorted := h.sorted
    small := h.small
    covers := fun code hcode => h.covers code (uses_removeShip hcode) }

theorem shipDown_covered {s : Ship} (h : Covered s) (m : Memory) (sid : ℕ) :
    Covered (shipDown m s sid) := by
  rw [shipDown]
  cases hfind : s.ships.find? fun i => i.shipId = sid with
  | none => exact h
  | some i =>
    have hi : i ∈ s.ships := List.mem_of_find?_eq_some hfind
    dsimp only
    split_ifs with hshared
    · exact h.remove sid
    · obtain ⟨hsorted, hsmall, hothers⟩ :=
        removeCode_covers (m := m) h.sorted h.small (h.covers _ ⟨i, hi, rfl⟩)
      refine { h.toOrdered.remove sid _ with sorted := hsorted, small := hsmall, covers := ?_ }
      intro code hcode
      refine hothers code (h.covers code (uses_removeShip hcode)) ?_
      rintro rfl
      obtain ⟨j, hj, heq⟩ := hcode
      exact hshared (List.any_eq_true.mpr ⟨j, hj, by simpa using heq.symm⟩)

theorem shipUp_covered {s : Ship} (h : Covered s) (m : Memory) {p : ShipStatusPkt}
    (hp : p.menuCode ≤ 0xFFFF) : Covered (shipUp m s p) := by
  rw [shipUp]
  split_ifs
  · exact h
  · cases hadd : addCode m s.menuCodes p.menuCode with
    | none => exact h.remove p.shipId
    | some codes =>
      obtain ⟨hsorted, hmem⟩ := addCode_covers h.sorted hadd
      refine { h.toOrdered.insert ⟨p.shipId, p.shipNumber, p.menuCode, p.info⟩ codes with
        sorted := hsorted, small := ?_, covers := ?_ }
      · intro k hk
        rcases (hmem k).mp hk with hk | rfl
        · exact h.small k hk
        · exact hp
      · intro k hk
        rcases (uses_insertShip _ _ k).mp hk with hk | rfl
        · exact (hmem k).mpr (Or.inl (h.covers k (uses_removeShip hk)))
        · exact (hmem _).mpr (Or.inr rfl)

/-- No message takes a code from a ship. -/
theorem next_covered {s : Ship} (h : Covered s) {e : Event} (he : Wire s e) :
    Covered (next s e) := by
  cases e with
  | sstatus m p =>
    rw [next, handleSstatus]
    split_ifs
    · exact shipDown_covered h m p.shipId
    · exact shipUp_covered h m he
  | reconnect =>
    refine { next_ordered h.toOrdered .reconnect with
      sorted := h.sorted, small := h.small, covers := ?_ }
    rintro code ⟨i, hi, -⟩
    cases hi

theorem run_covered {es : List Event} {s : Ship} (hrun : Run (StepOf next) Wire start es s) :
    Covered s := by
  refine hrun.invariant Covered ?_ ?_
  · exact { start_listed.toOrdered with
      sorted := List.Pairwise.nil
      small := fun _ h => absurd h List.not_mem_nil
      covers := fun _ ⟨_, hi, _⟩ => absurd hi List.not_mem_nil }
  · rintro s₀ e s₁ hs he rfl
    exact next_covered hs he

section Visibility

variable {s : ServerState} {c : Viewer}

/-- A menu code of two letters, or none. -/
def Lettered (code : ℕ) : Prop :=
  (codeText code).all (· = 0) ∨ (codeText code).all isAlpha

instance (code : ℕ) : Decidable (Lettered code) :=
  inferInstanceAs (Decidable (_ ∨ _))

/-- A ship that `is_ship_menu_empty` finds. -/
def seen (c : Viewer) (i : Miniship) : Bool :=
  !(i.info.flags.testBit flagGmonly ∧ !c.globalGm) ∧ !i.info.flags.testBit (versionBit c) ∧
    (mayEnter c i ∨ c.globalGm)

/-- The list that a client is sent has the ship. -/
def lists (c : Viewer) (menuCode : ℕ) (i : Miniship) : Bool :=
  match c.version with
  | .pc => listsOnPcShip c menuCode i
  | .bb => listsOnBbShip c menuCode i
  | _ => listsOnDcShip c menuCode i

/-- Nothing about the ship tells the tests of the lists from the one for an empty menu: a trial
edition has its privileges and the versions that it belongs to, and a global GM is logged in. -/
structure Alike (c : Viewer) (i : Miniship) : Prop where
  trial : c.nte = true → mayEnter c i ∨ c.globalGm
  v1 : c.nte = true → c.version = .dcv1 → i.info.flags.testBit flagNov1 = false
  dcnte : c.nte = true → c.version ≠ .dcv1 → i.info.flags.testBit flagNodcnte = false
  gmonly : i.info.flags.testBit flagGmonly = true → c.privilege &&& 2 ≠ 0 → c.loggedIn = true

theorem gmonly_iff {i : Miniship} (h : Alike c i) :
    gmonly c i = true ↔ i.info.flags.testBit flagGmonly = true ∧ c.globalGm = false := by
  rw [ListPackets.gmonly, decide_eq_true_iff, Viewer.globalGm, decide_eq_false_iff_not, not_and]
  constructor
  · rintro ⟨hflag, hpriv⟩
    exact ⟨hflag, fun hgm => absurd hpriv hgm⟩
  · rintro ⟨hflag, hgm⟩
    refine ⟨hflag, ?_⟩
    by_contra hpriv
    exact hgm hpriv (h.gmonly hflag hpriv)

theorem lists_iff {menuCode : ℕ} {i : Miniship} (h : Alike c i) :
    lists c menuCode i = true ↔ inMenu i menuCode = true ∧ seen c i = true := by
  have hgm := gmonly_iff h
  have htrial := h.trial
  have hv1 := h.v1
  have hdcnte := h.dcnte
  unfold lists seen versionBit
  cases hversion : c.version <;> cases hnte : c.nte <;>
    simp only [hversion, hnte, listsOnDcShip, listsOnPcShip, listsOnBbShip, ClientVersion.code,
      decide_eq_true_eq, Bool.not_eq_true', ← Bool.not_eq_true, hgm,
      if_true, reduceCtorEq, if_false, forall_const, ne_eq, not_true, not_false_eq_true] at * <;>
    grind

theorem isShipMenuEmpty_iff (s : ServerState) (c : Viewer) (code : ℕ) :
    isShipMenuEmpty s c code = false ↔
      ∃ i ∈ s.ships, inMenu i code = true ∧ seen c i = true := by
  rw [isShipMenuEmpty, Bool.not_eq_false', List.any_eq_true]
  simp only [seen, decide_eq_true_eq]

theorem mem_shownShips {code : ℕ} {i : Miniship} :
    i ∈ shownShips s c code ↔ i ∈ s.ships ∧ lists c code i = true :=
  List.mem_filter

theorem mem_otherMenus {menuCode code : ℕ} :
    code ∈ otherMenus s c menuCode ↔
      code ∈ s.menuCodes ∧ code ≠ menuCode ∧ isShipMenuEmpty s c code = false ∧
        Lettered code := by
  rw [otherMenus, List.mem_filter, decide_eq_true_iff, Bool.not_eq_true']
  rfl

theorem menuCode_of_inMenu {code : ℕ} {i : Miniship} (h : inMenu i code = true) :
    i.menuCode = code := by
  rw [inMenu, decide_eq_true_iff] at h
  exact h.2

theorem inMenu_of_lists {code : ℕ} {i : Miniship} (h : lists c code i = true) :
    inMenu i code = true := by
  unfold lists at h
  cases hversion : c.version <;>
    simp only [hversion, listsOnDcShip, listsOnPcShip, listsOnBbShip, decide_eq_true_eq] at h <;>
    exact h.1

/-- A menu is shown if and only if its list has a ship, as long as the two tests are alike. -/
theorem mem_otherMenus_iff (hcovers : ∀ code, Uses s.ships code → code ∈ s.menuCodes)
    {menuCode code : ℕ} (hcode : Lettered code) (hne : code ≠ menuCode)
    (halike : ∀ i ∈ s.ships, i.menuCode = code → Alike c i) :
    code ∈ otherMenus s c menuCode ↔ shownShips s c code ≠ [] := by
  rw [mem_otherMenus, isShipMenuEmpty_iff]
  constructor
  · rintro ⟨-, -, ⟨i, hi, hmenu, hseen⟩, -⟩
    have hlists := (lists_iff (halike i hi (menuCode_of_inMenu hmenu))).mpr ⟨hmenu, hseen⟩
    exact List.ne_nil_of_mem (mem_shownShips.mpr ⟨hi, hlists⟩)
  · intro hsome
    obtain ⟨i, hshown⟩ := List.exists_mem_of_ne_nil _ hsome
    obtain ⟨hi, hlists⟩ := mem_shownShips.mp hshown
    have hmenu := menuCode_of_inMenu (inMenu_of_lists hlists)
    exact ⟨hcovers code ⟨i, hi, hmenu⟩, hne,
      ⟨i, hi, (lists_iff (halike i hi hmenu)).mp hlists⟩, hcode⟩

/-- The entries of a list behind its first one, for some way to write their texts. -/
theorem sendShipList_slots (ic : Iconv) (s : ServerState) (c : Viewer) (menuCode : ℕ) :
    ∃ text : List UInt8 → List (BufferWrites.Write UInt8), (sendShipList ic s c menuCode).slots =
      inOrder 1 (((shownShips s c menuCode).map fun i =>
          shipFields menuIdShip i.shipId 0 (text (shipText s menuCode i))) ++
        (otherMenus s c menuCode).map fun code =>
          shipFields (menuIdShip ||| (code <<< 8)) 0 0 (text (menuText code))) := by
  unfold sendShipList shownShips
  cases c.version with
  | dcv1 | dcv2 | gc | ep3 | xbox => exact ⟨fun text => [strcpy 10 text], rfl⟩
  | pc | bb => exact ⟨fun text => istrncpy ic .latinToUtf16 10 text 0x22, rfl⟩

end Visibility

/-- A ship that has heard of another one. -/
def afterOne (shipId menuCode : ℕ) : ServerState :=
  { loneShip with
    ships := (next start (about 1 shipId 2 menuCode)).ships
    menuCodes := (next start (about 1 shipId 2 menuCode)).menuCodes }

end ShipServer.ShipMenus

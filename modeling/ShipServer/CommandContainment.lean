import ShipServer.CommandNames

set_option autoImplicit false

/-! Which chat commands are taken apart inside their text. -/

namespace ShipServer.CommandContainment

open TracedReads Probe StringReads Transcoding Versions CommandState CommandText CommandNames

section Call

variable (txt : List Byte) (junk : ℕ → Byte)

/-- The end stands behind the blank. -/
theorem zero_mem_rest {txt : List Byte} {b : Byte} {r : List Byte} (hzero : 0 ∈ txt.drop 3)
    (hd : txt.drop (3 + (span inWord 9 3 txt).length) = b :: r) (hb : ¬b = 0) :
    0 ∈ txt.drop (4 + (span inWord 9 3 txt).length) := by
  have hr : txt.drop (4 + (span inWord 9 3 txt).length) = r := by
    rw [show 4 + (span inWord 9 3 txt).length = (3 + (span inWord 9 3 txt).length) + 1 by omega]
    exact drop_succ_of_drop hd
  rw [drop_eq_span_append (p := inWord) (l := txt) 9 3, hd] at hzero
  rw [hr]
  rcases List.mem_append.mp hzero with hin | hin
  · exact absurd (mem_span hin) (by decide)
  · rcases List.mem_cons.mp hin with heq | hin
    · exact absurd heq.symm hb
    · exact hin

theorem result_commandCall (hzero : 0 ∈ txt.drop 3) :
    (commandCall txt.length).result (memory txt junk) = (cmdOf txt, paramsOf txt) := by
  have hword := span_lt_of_mem (p := inWord) (n := 9) hzero (by decide)
  have hresult := result_readWhile inWord txt junk 9 3 hword
  rw [commandCall, result_bind, hresult, result_bind, result_cell, paramsOf, cmdOf]
  cases hd : txt.drop (3 + (span inWord 9 3 txt).length) with
  | nil =>
    have hle := List.drop_eq_nil_iff.mp hd
    omega
  | cons b r =>
    rw [memory_of_drop junk hd, result_ite]
    by_cases hb : b = 0
    · rw [if_pos hb, hb]
      rfl
    · have hrest := zero_mem_rest hzero hd hb
      have hparams := span_lt_of_mem (p := isUnit) (n := txt.length) hrest (by decide)
      have hhead : ¬(b :: r).head? = some 0 := fun h => hb (Option.some.inj h)
      rw [if_neg hb, result_bind, result_readWhile isUnit txt junk _ _ hparams, if_neg hhead]
      rfl

theorem inside_commandCall :
    (∀ i ∈ (commandCall txt.length).reads (memory txt junk), i < txt.length) ↔
      0 ∈ txt.drop 3 := by
  rw [commandCall, reads_bind]
  constructor
  · intro h
    by_contra hno
    have hword := (inside_readWhile inWord txt junk 9 3).mp
      fun j hj => h j (List.mem_append_left _ hj)
    have hresult := result_readWhile inWord txt junk 9 3 hword
    have hrest : ∀ b ∈ txt.drop (3 + (span inWord 9 3 txt).length), isUnit b = true := by
      intro b hb
      have hmem : b ∈ txt.drop 3 := by
        rw [drop_eq_span_append (p := inWord) (l := txt) 9 3]
        exact List.mem_append_right _ hb
      refine decide_eq_true ?_
      rintro rfl
      exact hno hmem
    cases hd : txt.drop (3 + (span inWord 9 3 txt).length) with
    | nil =>
      have hle := List.drop_eq_nil_iff.mp hd
      omega
    | cons b r =>
      have hb : ¬b = 0 := by
        have hunit := hrest b (by rw [hd]; exact List.mem_cons_self)
        exact of_decide_eq_true hunit
      have hout := reads_outside isUnit txt junk txt.length
        (4 + (span inWord 9 3 txt).length) (by
          have hall : ∀ b ∈ txt.drop (4 + (span inWord 9 3 txt).length), isUnit b = true := by
            intro b' hb'
            refine hrest b' ?_
            rw [show 4 + (span inWord 9 3 txt).length = (3 + (span inWord 9 3 txt).length) + 1 by
              omega, ← List.drop_drop] at hb'
            exact List.mem_of_mem_drop hb'
          rw [span_eq_drop hall (by omega), List.length_drop]
          omega)
      obtain ⟨j, hj, hle⟩ := hout
      refine absurd (h j (List.mem_append_right _ ?_)) (Nat.not_lt.mpr hle)
      rw [hresult, reads_bind, reads_cell, result_cell, memory_of_drop junk hd, reads_ite,
        if_neg hb, reads_bind]
      exact List.mem_append_right [_] (List.mem_append_left _ hj)
  · intro hzero i hi
    have hword := span_lt_of_mem (p := inWord) (n := 9) hzero (by decide)
    have hresult := result_readWhile inWord txt junk 9 3 hword
    rcases List.mem_append.mp hi with hin | hin
    · exact (inside_readWhile inWord txt junk 9 3).mpr hword i hin
    · rw [hresult, reads_bind, reads_cell, result_cell] at hin
      rcases List.mem_append.mp hin with hcell | hin
      · rw [List.mem_singleton.mp hcell]
        exact hword
      · cases hd : txt.drop (3 + (span inWord 9 3 txt).length) with
        | nil =>
          have hle := List.drop_eq_nil_iff.mp hd
          omega
        | cons b r =>
          rw [memory_of_drop junk hd, reads_ite] at hin
          by_cases hb : b = 0
          · rw [if_pos hb] at hin
            cases hin
          · rw [if_neg hb, reads_bind] at hin
            rcases List.mem_append.mp hin with hparams | hnone
            · have hrest := span_lt_of_mem (p := isUnit) (n := txt.length)
                (zero_mem_rest hzero hd hb) (by decide)
              exact (inside_readWhile isUnit txt junk _ _).mpr hrest i hparams
            · cases hnone

theorem length_cmdOf : (cmdOf txt).length < 10 :=
  Nat.lt_succ_of_le (length_span_le 9 3)

theorem length_paramsOf {txt : List Byte} (hzero : 0 ∈ txt.drop 3) :
    (paramsOf txt).length < txt.length := by
  have hword := span_lt_of_mem (p := inWord) (n := 9) hzero (by decide)
  rw [paramsOf]
  split_ifs with hend
  · exact lt_of_le_of_lt (Nat.zero_le _) hword
  · cases hd : txt.drop (3 + (cmdOf txt).length) with
    | nil =>
      have hle := List.drop_eq_nil_iff.mp hd
      rw [cmdOf] at hle
      omega
    | cons b r =>
      have hb : ¬b = 0 := by
        intro h
        rw [hd, h] at hend
        exact hend rfl
      have hrest := span_lt_of_mem (p := isUnit) (n := txt.length) (zero_mem_rest hzero hd hb)
        (by decide)
      rw [cmdOf]
      omega

theorem isUnit_of_mem_paramsOf {b : Byte} (hb : b ∈ paramsOf txt) : isUnit b = true := by
  rw [paramsOf] at hb
  split_ifs at hb
  · cases hb
  · exact mem_span hb

end Call

section Handlers

variable {c : Caller} {params : List Byte} {size : ℕ} {junk : ℕ → Byte}

theorem good_nothing : Good c nothing where
  writes w hw := by
    cases hw
  missing := rfl
  freed := rfl
  slots v hv := by
    cases hv

theorem good_slots {slots : List ℤ} (h : ∀ v ∈ slots, 0 ≤ v ∧ v < (c.maxClients : ℤ)) :
    Good c { nothing with slots := slots } where
  writes w hw := by
    cases hw
  missing := rfl
  freed := rfl
  slots := h

theorem good_missing (b : Bool) : Good c { nothing with missing := b } ↔ b = false := by
  constructor
  · exact fun h => h.missing
  · rintro rfl
    exact good_nothing

theorem inside_ignores : HandlerInside c ignores params size junk := by
  refine ⟨?_, good_nothing⟩
  rintro i ⟨⟩

theorem span_string (hunits : ∀ b ∈ params, isUnit b = true) (hsize : params.length ≤ size) :
    span isUnit size 0 (params ++ [0]) = params :=
  span_append hunits (by decide) hsize

theorem span_string_lt (hunits : ∀ b ∈ params, isUnit b = true) (hsize : params.length ≤ size) :
    0 + (span isUnit size 0 (params ++ [0])).length < (params ++ [0]).length := by
  rw [span_string hunits hsize, List.length_append, List.length_singleton]
  omega

theorem result_string (hunits : ∀ b ∈ params, isUnit b = true) (hsize : params.length ≤ size) :
    (readWhile isUnit size 0).result (memory (params ++ [0]) junk) = params := by
  rw [result_readWhile isUnit _ junk size 0 (span_string_lt hunits hsize)]
  exact span_string hunits hsize

theorem inside_string (hunits : ∀ b ∈ params, isUnit b = true) (hsize : params.length ≤ size) :
    ∀ i ∈ (readWhile isUnit size 0).reads (memory (params ++ [0]) junk),
      i < (params ++ [0]).length :=
  (inside_readWhile isUnit _ junk size 0).mpr (span_string_lt hunits hsize)

theorem inside_ofString (hunits : ∀ b ∈ params, isUnit b = true) (hsize : params.length ≤ size)
    (use : Caller → List Char → Uses) :
    HandlerInside c (ofString use) params size junk ↔ Good c (use c (asChars params)) := by
  rw [HandlerInside, ofString, result_bind, result_string hunits hsize, reads_bind]
  refine and_iff_right ?_
  intro i hi
  rcases List.mem_append.mp hi with hin | hnone
  · exact inside_string hunits hsize i hin
  · cases hnone

theorem span_of_blank (hblank : 0x20 ∈ params) :
    (span notBlank 32 0 (params ++ [0])).length < params.length := by
  have hlt := length_takeWhile_lt (p := notBlank) hblank (by decide)
  rw [span, List.drop_zero, List.takeWhile_append, if_neg hlt.ne]
  exact lt_of_le_of_lt (List.length_take_le' 32 _) hlt

theorem span_of_no_blank (hblank : 0x20 ∉ params) :
    (span notBlank 32 0 (params ++ [0])).length = min 32 (params.length + 1) := by
  have hall : ∀ b ∈ params ++ [0], notBlank b = true := by
    intro b hb
    rcases List.mem_append.mp hb with hin | hin
    · rw [notBlank, isBlank]
      have hne : b ≠ 0x20 := by
        rintro rfl
        exact hblank hin
      rw [decide_eq_false hne]
      rfl
    · rw [List.mem_singleton.mp hin]
      decide
  rw [span, List.drop_zero, List.takeWhile_eq_self_iff.mpr hall, List.length_take,
    List.length_append, List.length_singleton]

theorem good_writes {w : List (ℕ × ℕ)} (h : ∀ x ∈ w, x.1 < x.2) :
    Good c { nothing with writes := w } where
  writes := h
  missing := rfl
  freed := rfl
  slots v hv := by
    cases hv

/-- The loops that copy a user name and a password. -/
theorem inside_credentials (hunits : ∀ b ∈ params, isUnit b = true) :
    HandlerInside c credentials params size junk ↔ Spaced params := by
  have hlen : (params ++ [0]).length = params.length + 1 := by
    rw [List.length_append, List.length_singleton]
  by_cases hnil : params = []
  · rw [hnil]
    refine iff_of_true ⟨?_, good_nothing⟩ (Or.inl rfl)
    intro i hi
    rw [List.mem_singleton.mp hi]
    exact Nat.zero_lt_one
  · have hfirst : ¬memory (params ++ [0]) junk 0 = 0 := by
      obtain ⟨b, r, hp⟩ := List.exists_cons_of_ne_nil hnil
      have hdrop : (params ++ [0]).drop 0 = b :: (r ++ [0]) := by
        rw [hp]
        rfl
      rw [memory_of_drop junk hdrop]
      exact of_decide_eq_true (hunits b (by rw [hp]; exact List.mem_cons_self))
    have hname := inside_readWhile notBlank (params ++ [0]) junk 32 0
    rw [HandlerInside, credentials, result_bind, reads_bind, result_cell, reads_cell, result_ite,
      reads_ite, if_neg hfirst, if_neg hfirst, result_bind, reads_bind]
    have hresult := result_readWhile notBlank (params ++ [0]) junk 32 0
    by_cases hspaced : Spaced params
    · refine iff_of_true ?_ hspaced
      have hlt : 0 + (span notBlank 32 0 (params ++ [0])).length < (params ++ [0]).length := by
        rw [hlen]
        by_cases hblank : 0x20 ∈ params
        · have hspan := span_of_blank hblank
          omega
        · have hspan := span_of_no_blank hblank
          have h32 : 32 ≤ params.length := by
            rcases hspaced with h | h | h
            · exact absurd h hnil
            · exact absurd h hblank
            · exact h
          omega
      have hreads := hname.mpr hlt
      have hzero : 0 < (params ++ [0]).length := by
        rw [hlen]
        exact Nat.succ_pos _
      rw [hresult hlt, result_ite, reads_ite]
      by_cases hu : (span notBlank 32 0 (params ++ [0])).length = 32
      · rw [if_pos hu, if_pos hu]
        refine ⟨?_, good_writes ?_⟩
        · intro i hi
          rcases List.mem_append.mp hi with hin | hin
          · rw [List.mem_singleton.mp hin]
            exact hzero
          · rcases List.mem_append.mp hin with hin | hnone
            · exact hreads i hin
            · cases hnone
        · intro x hx
          rw [List.mem_singleton.mp hx]
          decide
      · -- the name is shorter, so it ended at a blank, and the password ends with the text
        have hle := length_span_le (p := notBlank) (l := params ++ [0]) 32 0
        have hblank : 0x20 ∈ params := by
          by_contra hno
          have hspan := span_of_no_blank hno
          omega
        have hspan := span_of_blank hblank
        have hend : (0 : Byte) ∈ (params ++ [0]).drop
            ((span notBlank 32 0 (params ++ [0])).length + 1) := by
          rw [List.drop_append_of_le_length hspan]
          exact List.mem_append_right _ (List.mem_singleton_self 0)
        have hlt' := span_lt_of_mem (p := inWord) (n := 32) hend (by decide)
        have hreads' := (inside_readWhile inWord (params ++ [0]) junk 32 _).mpr hlt'
        rw [if_neg hu, if_neg hu, result_bind, reads_bind]
        refine ⟨?_, good_writes ?_⟩
        · intro i hi
          rcases List.mem_append.mp hi with hin | hin
          · rw [List.mem_singleton.mp hin]
            exact hzero
          · rcases List.mem_append.mp hin with hin | hin
            · exact hreads i hin
            · rcases List.mem_append.mp hin with hin | hnone
              · exact hreads' i hin
              · cases hnone
        · intro x hx
          rcases List.mem_cons.mp hx with rfl | hx
          · exact lt_of_le_of_ne hle hu
          · rw [List.mem_singleton.mp hx]
            exact lt_of_le_of_lt (Nat.min_le_right _ _) (Nat.lt_succ_self 31)
    · refine iff_of_false ?_ hspaced
      intro h
      have hblank : 0x20 ∉ params := fun hin => hspaced (Or.inr (Or.inl hin))
      have hshort : params.length < 32 := Nat.lt_of_not_le fun hle =>
        hspaced (Or.inr (Or.inr hle))
      have hspan := span_of_no_blank hblank
      have hlt := hname.mp fun j hj =>
        h.1 j (List.mem_append_right _ (List.mem_append_left _ hj))
      omega

/-! What the handlers do with the parameters that they have read. -/

variable {text : List Char}

theorem namedSlot_inside : ∀ v ∈ namedSlot c text, 0 ≤ v ∧ v < (c.maxClients : ℤ) := by
  intro v hv
  rw [namedSlot] at hv
  cases hscan : scanInt text with
  | none =>
    rw [hscan] at hv
    cases hv
  | some w =>
    rw [hscan] at hv
    change v ∈ (if (c.maxClients : ℤ) ≤ w.1 ∨ w.1 < 0 then [] else [w.1]) at hv
    split_ifs at hv with hout
    · cases hv
    · rw [List.mem_singleton.mp hv]
      omega

theorem searchSlot_inside (occupied : ℕ → Bool) (n : ℕ) :
    (∀ v ∈ (searchSlot occupied n).1, 0 ≤ v ∧ v < (n : ℤ)) := by
  induction n with
  | zero =>
    intro v hv
    cases hv
  | succ n ih =>
    intro v hv
    rw [searchSlot] at hv
    split_ifs at hv with hfree
    · rw [List.mem_singleton.mp hv]
      omega
    · rcases List.mem_cons.mp hv with rfl | hin
      · omega
      · have h := ih v hin
        omega

theorem npcSlots_inside (npcnum clientId follow : ℤ) :
    ∀ v ∈ npcSlots c npcnum clientId follow, 0 ≤ v ∧ v < (c.maxClients : ℤ) := by
  intro v hv
  rw [npcSlots] at hv
  split_ifs at hv with hnum hclient hocc hfollow
  · cases hv
  · cases hv
  · rw [List.mem_singleton.mp hv]
    omega
  · rw [List.mem_singleton.mp hv]
    omega
  · rcases List.mem_cons.mp hv with rfl | hv
    · omega
    · rw [List.mem_singleton.mp hv]
      omega

/-- A handler that is exact: it stays inside when its parameters are as it needs them. -/
def Exact (e : String × Parser) : Prop :=
  ∀ (c : Caller) (params : List Byte) (size : ℕ) (junk : ℕ → Byte),
    (∀ b ∈ params, isUnit b = true) → params.length ≤ size →
      (HandlerInside c e.2 params size junk ↔
        HandlerKeeps e.1 c (asChars params) (Spaced params))

/-- The triggers whose handlers need something of their parameters. -/
def needy : List String :=
  ["login", "tlogin", "xblink", "teleport", "stalk", "dumpinv", "ban:d", "ban:w", "ban:m", "ban:p",
    "quest", "ib", "list"]

theorem keeps_of_not_needy {t : String} (ht : t ∉ needy) (spaced : Prop) :
    HandlerKeeps t c text spaced := by
  have hne : ∀ u ∈ needy, t ≠ u := by
    rintro u hu rfl
    exact ht hu
  rw [HandlerKeeps, if_neg, if_neg, if_neg, if_neg, if_neg, if_neg, if_neg, if_neg]
  · trivial
  · exact hne "list" (by decide)
  · exact hne "ib" (by decide)
  · exact hne "quest" (by decide)
  · exact fun hban => ht (List.mem_of_mem_drop (i := 6) (List.mem_of_mem_take (i := 4) hban))
  · exact hne "dumpinv" (by decide)
  · exact not_or.mpr ⟨hne "teleport" (by decide), hne "stalk" (by decide)⟩
  · exact hne "xblink" (by decide)
  · exact not_or.mpr ⟨hne "login" (by decide), hne "tlogin" (by decide)⟩

theorem exact_ignores {t : String} (ht : t ∉ needy) : Exact (t, ignores) :=
  fun _ _ _ _ _ _ => iff_of_true inside_ignores (keeps_of_not_needy ht _)

theorem exact_good {t : String} (ht : t ∉ needy) {use : Caller → List Char → Uses}
    (hgood : ∀ c text, Good c (use c text)) : Exact (t, ofString use) :=
  fun c params _ _ hunits hsize =>
    iff_of_true ((inside_ofString hunits hsize use).mpr (hgood c (asChars params)))
      (keeps_of_not_needy ht _)

theorem exact_plain {t : String} (ht : t ∉ needy) : Exact (t, plain) :=
  exact_good ht fun _ _ => good_nothing

theorem exact_forgegc : Exact ("forgegc", handleForgegc) := by
  refine exact_good (by decide) fun c text => ?_
  dsimp only
  split_ifs
  · exact good_nothing
  · exact good_nothing
  · refine good_writes fun x hx => ?_
    rw [List.mem_singleton.mp hx]
    decide

theorem exact_maps : Exact ("maps", handleMaps) := by
  refine exact_good (by decide) fun c text => ?_
  dsimp only
  split_ifs
  · exact good_nothing
  · refine good_writes fun x hx => ?_
    obtain ⟨i, hi, rfl⟩ := List.mem_map.mp hx
    have hlt := List.mem_range.mp hi
    exact lt_of_lt_of_le hlt (Nat.min_le_left _ _)

theorem exact_clinfo : Exact ("clinfo", handleClinfo) := by
  refine exact_good (by decide) fun c text => ?_
  dsimp only
  split_ifs
  · exact good_nothing
  · exact good_slots namedSlot_inside

theorem exact_ignore : Exact ("ignore", handleIgnore) := by
  refine exact_good (by decide) fun c text => ?_
  dsimp only
  split_ifs
  · exact good_nothing
  · exact good_slots namedSlot_inside

theorem exact_smite : Exact ("smite", handleSmite) := by
  refine exact_good (by decide) fun c text => ?_
  dsimp only
  split_ifs
  · exact good_nothing
  · split
    · rename_i id hp tp heq
      split_ifs with hout
      · exact good_nothing
      · refine good_slots fun v hv => ?_
        rw [List.mem_singleton.mp hv]
        omega
    · exact good_nothing

theorem exact_npc : Exact ("npc", handleNpc) := by
  refine exact_good (by decide) fun c text => ?_
  dsimp only
  split_ifs
  · exact good_nothing
  · split
    · refine good_slots fun v hv => ?_
      rcases List.mem_append.mp hv with hin | hin
      · exact searchSlot_inside c.occupied c.maxClients v hin
      · exact npcSlots_inside _ _ _ v hin
    · exact good_slots (npcSlots_inside _ _ _)
    · exact good_slots (npcSlots_inside _ _ _)
    · exact good_nothing

theorem exact_credentials {t : String} (ht : t = "login" ∨ t = "tlogin") :
    Exact (t, credentials) := by
  intro c params size junk hunits _
  rw [HandlerKeeps, if_pos ht]
  exact inside_credentials hunits

theorem exact_xblink : Exact ("xblink", handleXblink) := by
  intro c params size junk hunits _
  rw [HandlerKeeps, if_neg (by decide), if_pos rfl]
  change HandlerInside c handleXblink params size junk ↔ _
  by_cases hv : c.version = .xbox
  · have hparser : handleXblink c size = credentials c size := if_neg (not_not.mpr hv)
    rw [HandlerInside, hparser]
    exact (inside_credentials hunits).trans ⟨fun h _ => h, fun h => h hv⟩
  · have hparser : handleXblink c size = pure nothing := if_pos hv
    rw [HandlerInside, hparser]
    refine iff_of_true ⟨?_, good_nothing⟩ fun h => absurd h hv
    rintro i ⟨⟩

theorem good_slot (v : ℤ) :
    Good c { nothing with slots := [v] } ↔ 0 ≤ v ∧ v < (c.maxClients : ℤ) := by
  constructor
  · exact fun h => h.slots v (List.mem_singleton_self v)
  · intro h
    refine good_slots fun w hw => ?_
    rw [List.mem_singleton.mp hw]
    exact h

/-- A handler that reads its parameters as a string and uses them as its condition says. -/
theorem exact_ofString {t : String} {use : Caller → List Char → Uses}
    (h : ∀ c text spaced, Good c (use c text) ↔ HandlerKeeps t c text spaced) :
    Exact (t, ofString use) :=
  fun c _ _ _ hunits hsize => (inside_ofString hunits hsize use).trans (h c _ _)

/-- A check that leaves a handler. -/
theorem good_unless {p q keeps : Prop} [Decidable p] {use : Uses} (hpq : ¬p ↔ q)
    (h : q → (Good c use ↔ keeps)) : Good c (if p then nothing else use) ↔ (q → keeps) := by
  by_cases hp : p
  · rw [if_pos hp]
    exact iff_of_true good_nothing fun hq => absurd hp (hpq.mpr hq)
  · have hq := hpq.mp hp
    rw [if_neg hp]
    exact (h hq).trans ⟨fun hk _ => hk, fun hk => hk hq⟩

theorem exact_teleport {t : String} (ht : t = "teleport" ∨ t = "stalk") :
    Exact (t, handleTeleport) := by
  refine exact_ofString fun c text spaced => ?_
  have hlogin : ¬(t = "login" ∨ t = "tlogin") := by
    rcases ht with rfl | rfl <;> decide
  have hxblink : t ≠ "xblink" := by
    rcases ht with rfl | rfl <;> decide
  rw [HandlerKeeps, if_neg hlogin, if_neg hxblink, if_pos ht, ← and_imp]
  refine good_unless (by simp) fun _ => ?_
  cases (strtoulEnd 10 text).1 with
  | none => exact iff_of_true good_nothing fun n h => nomatch h
  | some n =>
    have hslot : Good c (if (c.maxClients : ℤ) < asInt n then nothing
        else { nothing with slots := [asInt n] }) ↔ 0 ≤ asInt n ∧ asInt n ≠ c.maxClients := by
      by_cases hlt : (c.maxClients : ℤ) < asInt n
      · rw [if_pos hlt]
        exact iff_of_true good_nothing (by omega)
      · rw [if_neg hlt, good_slot]
        omega
    refine hslot.trans ⟨?_, fun h => h n rfl⟩
    rintro h n' ⟨⟩
    exact h

theorem inside_ban (hunits : ∀ b ∈ params, isUnit b = true) (hsize : params.length ≤ size) :
    HandlerInside c handleBan params size junk ↔
      (c.localGm = true → (strtoulEnd 10 (asChars params)).1 ≠ none →
        (strtoulEnd 10 (asChars params)).2 ≠ []) := by
  have hlen : (params ++ [0]).length = params.length + 1 := by
    rw [List.length_append, List.length_singleton]
  rw [HandlerInside, handleBan, result_bind, reads_bind, result_string hunits hsize]
  have hfirst : ∀ i ∈ (readWhile isUnit size 0).reads (memory (params ++ [0]) junk),
      i < (params ++ [0]).length := inside_string hunits hsize
  dsimp only
  rw [result_ite, reads_ite]
  by_cases hno : c.localGm = false ∨ (strtoulEnd 10 (asChars params)).1 = none
  · rw [if_pos hno, if_pos hno]
    refine iff_of_true ⟨?_, good_nothing⟩ fun hgm hsome => ?_
    · intro i hi
      rcases List.mem_append.mp hi with hin | hnone
      · exact hfirst i hin
      · cases hnone
    · rcases hno with h | h
      · rw [h] at hgm
        cases hgm
      · exact absurd h hsome
  · obtain ⟨hgm, hsome⟩ := not_or.mp hno
    rw [if_neg hno, if_neg hno, result_bind, reads_bind]
    set i := params.length - (strtoulEnd 10 (asChars params)).2.length + 1 with hi
    have hinside := inside_readWhile isUnit (params ++ [0]) junk size i
    have hkeeps : i + (span isUnit size i (params ++ [0])).length < (params ++ [0]).length ↔
        (strtoulEnd 10 (asChars params)).2 ≠ [] := by
      constructor
      · intro h hrest
        rw [hrest, List.length_nil] at hi
        omega
      · intro hrest
        have hpos := List.length_pos_of_ne_nil hrest
        have hne : params ≠ [] := by
          rintro rfl
          exact hrest rfl
        have hlong := List.length_pos_of_ne_nil hne
        refine span_lt_of_mem (b := 0) ?_ (by decide)
        rw [List.drop_append_of_le_length (by omega)]
        exact List.mem_append_right _ (List.mem_singleton_self 0)
    constructor
    · intro h _ _
      refine hkeeps.mp (hinside.mp fun j hj => h.1 j ?_)
      exact List.mem_append_right _ (List.mem_append_left _ hj)
    · intro h
      have hreads := hinside.mpr
        (hkeeps.mpr (h (Bool.eq_true_of_not_eq_false hgm) hsome))
      refine ⟨?_, good_nothing⟩
      intro j hj
      rcases List.mem_append.mp hj with hin | hin
      · exact hfirst j hin
      · rcases List.mem_append.mp hin with hin | hnone
        · exact hreads j hin
        · cases hnone

theorem exact_ban {t : String} (ht : t ∈ ["ban:d", "ban:w", "ban:m", "ban:p"]) :
    Exact (t, handleBan) := by
  intro c params size junk hunits hsize
  have hne : ∀ u, u ∉ ["ban:d", "ban:w", "ban:m", "ban:p"] → t ≠ u := by
    rintro u hu rfl
    exact hu ht
  rw [HandlerKeeps, if_neg (not_or.mpr ⟨hne _ (by decide), hne _ (by decide)⟩),
    if_neg (hne _ (by decide)), if_neg (not_or.mpr ⟨hne _ (by decide), hne _ (by decide)⟩),
    if_neg (hne _ (by decide)), if_pos ht]
  exact inside_ban hunits hsize

theorem exact_dumpinv : Exact ("dumpinv", handleDumpinv) := by
  refine exact_ofString fun c text spaced => ?_
  conv_rhs =>
    rw [HandlerKeeps, if_neg (by decide), if_neg (by decide), if_neg (by decide), if_pos rfl,
      ← and_imp, ← and_imp]
  refine good_unless (by simp [and_assoc]) fun _ => ?_
  cases (strtoulEnd 10 text).1 with
  | none => exact iff_of_true good_nothing fun n h => nomatch h
  | some n =>
    have hslot : Good c (if 12 ≤ n % 2 ^ 32 ∨ (4 ≤ n % 2 ^ 32 ∧ c.lobbyType = .game) then nothing
        else { nothing with slots := [((n % 2 ^ 32 : ℕ) : ℤ)] }) ↔
        (n % 2 ^ 32 < 12 → (4 ≤ n % 2 ^ 32 → c.lobbyType ≠ .game) →
          n % 2 ^ 32 < c.maxClients) := by
      rw [← and_imp]
      refine good_unless ?_ fun _ => ?_
      · rw [not_or, not_and, Nat.not_le]
      · rw [good_slot]
        omega
    refine hslot.trans ⟨?_, fun h => h n rfl⟩
    rintro h n' ⟨⟩
    exact h

theorem exact_quest : Exact ("quest", handleQuest) := by
  refine exact_ofString fun c text spaced => ?_
  conv_rhs =>
    rw [HandlerKeeps, if_neg (by decide), if_neg (by decide), if_neg (by decide),
      if_neg (by decide), if_neg (by decide), if_pos rfl, ← and_imp, ← and_imp]
  refine good_unless (by simp [and_assoc]) fun _ => ?_
  rw [good_missing, List.isEmpty_eq_false_iff]

theorem exact_ib : Exact ("ib", handleIb) := by
  refine exact_ofString fun c text spaced => ?_
  conv_rhs =>
    rw [HandlerKeeps, if_neg (by decide), if_neg (by decide), if_neg (by decide),
      if_neg (by decide), if_neg (by decide), if_neg (by decide), if_pos rfl]
  refine good_unless (by simp) fun _ => ?_
  cases tokens isDelim text with
  | nil =>
    refine iff_of_false (fun h => nomatch h.missing) ?_
    rintro ⟨slen, rest, h, -⟩
    cases h
  | cons slen rest =>
    cases rest with
    | nil =>
      rw [good_missing, Option.isSome_eq_false_iff, Option.isNone_iff_eq_none]
      constructor
      · exact fun h => ⟨slen, [], rfl, Or.inl h⟩
      · rintro ⟨slen', rest, h, hkeeps⟩
        cases h
        exact hkeeps.resolve_right fun h => h rfl
    | cons addr rest =>
      exact iff_of_true good_nothing ⟨slen, addr :: rest, rfl, Or.inr (List.cons_ne_nil _ _)⟩

theorem good_freed (b : Bool) : Good c { nothing with freed := b } ↔ b = false := by
  constructor
  · exact fun h => h.freed
  · rintro rfl
    exact good_nothing

theorem not_numbered {tok : List Char} (h : tok = "n".toList ∨ tok = "c".toList) :
    isNumbered tok = false := by
  rcases h with rfl | rfl <;> decide

theorem good_listLoop (named : Bool) (rest : List (List Char)) :
    Good c (listLoop named rest) ↔ Supplied named rest := by
  induction named, rest using listLoop.induct with
  | case1 named => exact good_freed named
  | case2 named tok hnum =>
    rw [listLoop, if_pos hnum, Supplied, hnum, good_missing]
    exact iff_of_false (by decide) fun h => nomatch h.1
  | case3 named tok hnum hrefused =>
    rw [listLoop, if_neg hnum, if_pos hrefused, Supplied]
    refine iff_of_true good_nothing ⟨not_numbered hrefused, ?_⟩
    exact hrefused.imp_right Or.inl
  | case4 named tok hnum hother =>
    obtain ⟨hn, hc⟩ := not_or.mp hother
    rw [listLoop, if_neg hnum, if_neg hother, Supplied, good_freed]
    constructor
    · exact fun h => ⟨Bool.eq_false_of_not_eq_true hnum, Or.inr (Or.inr h)⟩
    · exact fun h => (h.2.resolve_left hn).resolve_left hc
  | case5 named tok value rest hnum hfails =>
    rw [listLoop, if_pos hnum, if_pos hfails, Supplied]
    exact iff_of_true good_nothing (Or.inl ⟨hnum, hfails⟩)
  | case6 named tok value rest hnum hfails ih =>
    have hn : tok ≠ "n".toList := by
      intro h
      rw [not_numbered (Or.inl h)] at hnum
      cases hnum
    have hc : tok ≠ "c".toList := by
      intro h
      rw [not_numbered (Or.inr h)] at hnum
      cases hnum
    rw [listLoop, if_pos hnum, if_neg hfails, Supplied, ih, decide_eq_false hn, Bool.or_false]
    constructor
    · exact fun h => Or.inr (Or.inr h)
    · exact fun h => (h.resolve_left fun h' => hfails h'.2).resolve_left fun h' => hc h'.1
  | case7 named value rest hclass hnum =>
    rw [listLoop, if_neg hnum, if_pos rfl, if_pos hclass, Supplied]
    exact iff_of_true good_nothing (Or.inr (Or.inl ⟨rfl, hclass⟩))
  | case8 named value rest hclass hnum ih =>
    rw [listLoop, if_neg hnum, if_pos rfl, if_neg hclass, Supplied, ih,
      decide_eq_false (by decide), Bool.or_false]
    constructor
    · exact fun h => Or.inr (Or.inr h)
    · exact fun h => (h.resolve_left fun h' => hnum h'.1).resolve_left fun h' => hclass h'.2
  | case9 named tok value rest hnum hc ih =>
    rw [listLoop, if_neg hnum, if_neg hc, Supplied, ih]
    constructor
    · exact fun h => Or.inr (Or.inr h)
    · exact fun h => (h.resolve_left fun h' => hnum h'.1).resolve_left fun h' => hc h'.1

theorem exact_list : Exact ("list", handleList) := by
  refine exact_ofString fun c text spaced => ?_
  conv_rhs =>
    rw [HandlerKeeps, if_neg (by decide), if_neg (by decide), if_neg (by decide),
      if_neg (by decide), if_neg (by decide), if_neg (by decide), if_pos rfl]
  refine good_unless (by simp) fun _ => ?_
  cases tokens (fun ch => decide (ch = ' ')) text with
  | nil =>
    refine iff_of_true good_nothing ?_
    rintro dom rest ⟨⟩
  | cons dom rest =>
    have hdom : Good c (if dom = "s".toList ∨ dom = "b".toList ∨ dom = "l".toList then
        listLoop false rest else nothing) ↔
        (dom = "s".toList ∨ dom = "b".toList ∨ dom = "l".toList → Supplied false rest) := by
      split_ifs with h
      · rw [good_listLoop]
        exact ⟨fun hv _ => hv, fun hv => hv h⟩
      · exact iff_of_true good_nothing fun h' => absurd h' h
    refine hdom.trans ⟨?_, fun h => h dom rest rfl⟩
    rintro h dom' rest' ⟨⟩
    exact h

/-- Every handler of the table stays inside exactly where its condition holds. -/
theorem exact_cmds : ∀ e ∈ cmds, Exact e := by
  simp only [cmds, List.forall_mem_cons]
  refine ⟨exact_plain (by decide), exact_plain (by decide), exact_plain (by decide),
    exact_plain (by decide), exact_plain (by decide), exact_plain (by decide),
    exact_plain (by decide), exact_ignores (by decide), exact_plain (by decide),
    exact_plain (by decide), exact_credentials (by decide), exact_plain (by decide),
    exact_plain (by decide), exact_plain (by decide), exact_plain (by decide),
    exact_plain (by decide), exact_plain (by decide), exact_ignores (by decide), exact_clinfo,
    exact_plain (by decide), exact_plain (by decide), exact_plain (by decide),
    exact_plain (by decide), exact_list, exact_plain (by decide), exact_ignores (by decide),
    exact_plain (by decide), exact_plain (by decide), exact_plain (by decide),
    exact_ignores (by decide), exact_plain (by decide), exact_plain (by decide),
    exact_plain (by decide), exact_plain (by decide), exact_forgegc, exact_plain (by decide),
    exact_plain (by decide), exact_smite, exact_ignores (by decide), exact_teleport (by decide),
    exact_dumpinv, exact_plain (by decide), exact_plain (by decide), exact_plain (by decide),
    exact_ignores (by decide), exact_npc, exact_plain (by decide), exact_plain (by decide),
    exact_ignore, exact_plain (by decide), exact_ignores (by decide), exact_plain (by decide),
    exact_ban (by decide), exact_ban (by decide), exact_ban (by decide), exact_ban (by decide),
    exact_plain (by decide), exact_plain (by decide), exact_plain (by decide),
    exact_plain (by decide), exact_plain (by decide), exact_ignores (by decide),
    exact_ignores (by decide), exact_ignores (by decide), exact_plain (by decide),
    exact_plain (by decide), exact_ignores (by decide), exact_maps, exact_ignores (by decide),
    exact_ignores (by decide), exact_ignores (by decide), exact_ignores (by decide),
    exact_plain (by decide), exact_plain (by decide), exact_plain (by decide),
    exact_plain (by decide), exact_ignores (by decide), exact_plain (by decide),
    exact_plain (by decide), exact_credentials (by decide), exact_ignores (by decide),
    exact_ignores (by decide), exact_ignores (by decide), exact_ignores (by decide),
    exact_teleport (by decide), exact_ignores (by decide), exact_plain (by decide),
    exact_ignores (by decide), exact_quest, exact_plain (by decide), exact_plain (by decide),
    exact_ignores (by decide), exact_ignores (by decide), exact_ib, exact_xblink,
    exact_ignores (by decide), ?_⟩
  intro e he
  cases he

end Handlers

section Commands

variable (T : ChatCodecs) (c : Caller) (pkt : Chat) (junk junk' : ℕ → Byte)

/-- What a command needs, where its text has an end. -/
theorem staysInside_iff (hend : 0 ∈ (pkt.converted T).drop 3) :
    StaysInside T c pkt junk junk' (cmdOf (pkt.converted T)) (paramsOf (pkt.converted T)) ↔
      CommandKeeps T c pkt := by
  have hunits : ∀ b ∈ paramsOf (pkt.converted T), isUnit b = true :=
    fun b hb => isUnit_of_mem_paramsOf _ hb
  have hsize := (length_paramsOf hend).le
  have hexact : ∀ e, lookup (codesOf (cmdOf (pkt.converted T))) = some e →
      (HandlerInside c e.2 (paramsOf (pkt.converted T)) (pkt.converted T).length junk' ↔
        HandlerKeeps e.1 c (asChars (paramsOf (pkt.converted T)))
          (Spaced (paramsOf (pkt.converted T)))) :=
    fun e he => exact_cmds e (trigger_of_lookup he).1 c _ _ junk' hunits hsize
  constructor
  · intro h
    exact
      { ended := hend
        named := (named_iff T hend).mp h.handler
        handler := fun e he => (hexact e he).mp (h.inside e he) }
  · intro h
    exact
      { buffer := length_converted T pkt
        reads := (inside_commandCall _ junk).mpr hend
        cmdSize := length_cmdOf _
        paramsSize := length_paramsOf hend
        handler := (named_iff T hend).mpr h.named
        inside := fun e he => (hexact e he).mpr (h.handler e he) }

/-- Commands are taken apart inside their text exactly where their condition holds. -/
theorem commandInside_iff : CommandInside T c pkt junk junk' ↔ CommandKeeps T c pkt := by
  by_cases hend : 0 ∈ (pkt.converted T).drop 3
  · rw [CommandInside, result_commandCall _ junk hend]
    exact staysInside_iff T c pkt junk junk' hend
  · refine iff_of_false (fun h => hend ?_) fun h => hend h.ended
    exact (inside_commandCall _ junk).mp h.reads

/-- A message of plain characters is its own text. -/
theorem iconv_plain {l : List Byte} {room : ℕ} (hplain : ∀ b ∈ l, b.toNat < 128)
    (hroom : l.length ≤ room) : iconv GuildCards.latin1 T.utf8 l room = l := by
  induction l generalizing room with
  | nil => exact iconv_of_none T.utf8 rfl room
  | cons b l ih =>
    have hb := hplain b List.mem_cons_self
    have hbyte : BitVec.ofNat 8 b.toNat = b := by
      rw [BitVec.ofNat_toNat, BitVec.setWidth_eq]
    have hread : GuildCards.latin1.decode (b :: l) = some (b.toNat, l) :=
      if_pos (by omega)
    rw [List.length_cons] at hroom
    rw [iconv_of_some T.utf8 hread, T.utf8_ascii b.toNat hb, hbyte]
    dsimp only
    rw [if_pos (by rw [List.length_singleton]; omega),
      ih (fun x hx => hplain x (List.mem_cons_of_mem b hx)) (by rw [List.length_singleton]; omega)]
    rfl

end Commands

theorem ascii_char (c : ℕ) (hc : c < 128) :
    GuildCards.ascii.encode c = some [BitVec.ofNat 8 c] :=
  if_pos hc

theorem ascii_encode_none {c : ℕ} (hc : 128 ≤ c) : GuildCards.ascii.encode c = none :=
  if_neg (Nat.not_lt.mpr hc)

theorem plain_pos : 0 < 128 := by
  decide

theorem plain_le : 128 ≤ 2 ^ 16 := by
  decide

/-- The plain characters as units of 16 bits. -/
def plainWide : Encoding Wide :=
  GuildCards.direct 16 128 plain_pos plain_le

theorem plainWide_units (c : ℕ) (units : List Wide) (h : plainWide.encode c = some units) :
    (c < 2 ^ 16 ∧ units = [BitVec.ofNat 16 c]) ∨ 2 ^ 16 ≤ c := by
  change (if c < 128 then some [BitVec.ofNat 16 c] else none) = some units at h
  split_ifs at h with hc
  exact Or.inl ⟨by omega, (Option.some.inj h).symm⟩

theorem ascii_sjis : ∀ c ∈ [0x09, 0x4A, 0x2F],
    GuildCards.ascii.encode c = some [BitVec.ofNat 8 c] := by
  intro c hc
  refine ascii_char c ?_
  revert c
  decide

theorem ascii_high (c : ℕ) (units : List Byte) (hc : 128 ≤ c)
    (h : GuildCards.ascii.encode c = some units) :
    2 ≤ units.length ∧ ∀ b ∈ units, 128 ≤ b.toNat := by
  rw [ascii_encode_none hc] at h
  cases h

theorem ascii_long (c : ℕ) (units : List Byte) (hc : 2 ^ 16 ≤ c)
    (h : GuildCards.ascii.encode c = some units) : 4 ≤ units.length := by
  rw [ascii_encode_none (by omega)] at h
  cases h

/-- Encodings that have the plain characters only. -/
def plainCodecs : ChatCodecs where
  sjis := GuildCards.ascii
  utf16 := plainWide
  utf8 := GuildCards.ascii
  sjis_ascii := ascii_sjis
  utf16_units := plainWide_units
  utf8_ascii := ascii_char
  utf8_high := ascii_high
  utf8_long := ascii_long

/-- `/login a`, with no blank behind the name. -/
def loginText : List Byte :=
  [0x09, 0x45, 0x2F, 0x6C, 0x6F, 0x67, 0x69, 0x6E, 0x20, 0x61, 0x00, 0x00]

def loginPacket : Chat :=
  .dc 24 (fun i => loginText.getD i 0) rfl

def guest : Caller where
  localGm := false
  gcProtect := true
  version := .gc
  clientId := 0
  lobbyType := .game
  maxClients := 4
  occupied _ := false
  npcAllowed := false
  bursting := false

theorem not_commandInside : ¬∀ (T : ChatCodecs) (c : Caller) (pkt : Chat) (junk junk' : ℕ → Byte),
    CommandInside T c pkt junk junk' := by
  intro h
  have hinside := h plainCodecs guest loginPacket (fun _ => 0) fun _ => 0
  have htext : iconv GuildCards.latin1 plainCodecs.utf8 loginText 24 = loginText :=
    iconv_plain plainCodecs (by decide) (by decide)
  have hconverted : loginPacket.converted plainCodecs = loginText := htext
  rw [CommandInside, hconverted, result_commandCall _ _ (by decide)] at hinside
  have hlogin := hinside.inside ("login", handleLogin) rfl
  -- the loop over the name has no blank to stop at
  have hspaced := (inside_credentials (by decide)).mp hlogin
  rw [Spaced] at hspaced
  exact absurd hspaced (by decide)

end ShipServer.CommandContainment

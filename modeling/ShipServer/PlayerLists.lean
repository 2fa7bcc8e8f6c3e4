import ShipServer.LimitedScans
import ShipServer.NumberText
import ShipServer.CommandText

set_option autoImplicit false

/-! `send_player_list`: the pages of the players of a ship, a block or a lobby. A character stands
for a byte, and a string is what is in front of its NUL. -/

namespace ShipServer.PlayerLists

open LimitedScans NumberText CommandText

/-- What is not in the source: `regcomp`, with the test that `regexec` then makes, the translations
of `__` for the client, and what `classes` is read as beyond its end. -/
structure Library where
  regcomp : List Char → Option (List Char → Bool)
  translate : List Char → List Char
  beyond : ℕ → List Char

/-- A client with a player. `ip` is what `my_ntop` gives. -/
structure Player where
  level : BitVec 32
  chClass : BitVec 8
  name : List Char
  guildcard : BitVec 32
  curBlock : BitVec 32
  ip : List Char
  curLobby : Option (List Char)

/-- What a request looks for. -/
structure Search where
  name : Option (List Char)
  first : ℤ
  minlvl : BitVec 32
  maxlvl : BitVec 32
  chClass : ℤ

def Search.start : Search where
  name := none
  first := 0
  minlvl := 0
  maxlvl := 200
  chClass := -1

inductive Domain where
  | ship
  | block
  | lobby

/-- Who is on the blocks of the ship, on the block of the client and in its lobby. -/
structure Population where
  blocks : List (Option (List Player))
  clients : List Player
  slots : List (Option Player)

/-- The answer: a text, or a box with a text. `shown` tells which players the text is about. -/
inductive Reply where
  | txt (text : List Char)
  | messageBox (text : List Char) (shown : List Player)

def skipLangCode : List Char → Option (List Char)
  | [] => none
  | '\t' :: 'E' :: rest => some rest
  | '\t' :: 'J' :: rest => some rest
  | input => some input

/-- The name of a lobby as `%s` prints it. -/
def lobbyText : Option (List Char) → List Char
  | none => "----".toList
  | some name => (skipLangCode name).getD "(null)".toList

/-- What `sprintf` adds for a player. The numbers are all printed as signed ones. -/
def line (L : Library) (p : Player) : List Char :=
  p.name ++ "  ".toList ++ classes.getD p.chClass.toNat (L.beyond p.chClass.toNat) ++
    "  Lv.".toList ++ (signedDecimal (p.level + 1).toInt).toList ++
    "  GC: ".toList ++ (signedDecimal p.guildcard.toInt).toList ++
    "\nB: ".toList ++ (signedDecimal p.curBlock.toInt).toList ++ "  IP: ".toList ++ p.ip ++
    "  Lobby: ".toList ++ lobbyText p.curLobby ++ "\n".toList

/-- The tests of a player. The levels are compared as unsigned numbers. -/
def Search.finds (s : Search) (regexec : List Char → Bool) (p : Player) : Bool :=
  ¬(p.level < s.minlvl ∨ s.maxlvl < p.level) ∧
    ¬(s.chClass ≠ -1 ∧ (p.chClass.toNat : ℤ) ≠ s.chClass) ∧ regexec p.name

/-- The counters and the text of a search. -/
structure Listing where
  count : ℕ
  str : List Char
  shown : List Player

def Listing.start : Listing where
  count := 0
  str := "\tE".toList
  shown := []

/-- A player that matches is counted, and goes into the text from the first one of the page on. -/
def Listing.add (L : Library) (first : ℤ) (st : Listing) (p : Player) : Listing :=
  let count := st.count + 1
  if first ≤ count then { count, str := st.str ++ line L p, shown := st.shown ++ [p] }
  else { st with count }

section Loops

variable (L : Library) (finds : Player → Bool) (first : ℤ)

/-- The loop over the clients of a block. -/
def blockLoop : List Player → Listing → Listing
  | [], st => st
  | p :: rest, st =>
    if finds p then
      if first + 4 ≤ (st.add L first p).count then st.add L first p
      else blockLoop rest (st.add L first p)
    else blockLoop rest st

/-- The loop over the blocks, some of which are missing. -/
def shipLoop : List (Option (List Player)) → Listing → Listing
  | [], st => st
  | b :: rest, st =>
    if (st.count : ℤ) < first + 4 then
      match b with
      | none => shipLoop rest st
      | some clients => shipLoop rest (blockLoop L finds first clients st)
    else st

/-- The loop over the slots of a lobby. -/
def lobbyLoop : List (Option Player) → Listing → Listing
  | [], st => st
  | slot :: rest, st =>
    if (st.count : ℤ) < first + 4 then
      match slot with
      | none => lobbyLoop rest st
      | some p => lobbyLoop rest (if finds p then st.add L first p else st)
    else st

end Loops

section Replies

variable (L : Library)

/-- A search by name begins with `regcomp`; without a name all names are found. -/
def compiled (s : Search) : Option (List Char → Bool) :=
  match s.name with
  | none => some fun _ => true
  | some name => L.regcomp name

/-- The text where nobody has been shown is another one. -/
def Listing.result (st : Listing) : List Char :=
  if st.str.length = 2 then L.translate "\tENo matches found.".toList else st.str

/-- The frame of the three searches: the test that is made first and the text that is sent. -/
def pllist (loop : (Player → Bool) → Listing → Listing) (s : Search) : Reply :=
  match compiled L s with
  | none => .txt (L.translate "\tE\tC7Invalid name given.".toList)
  | some regexec =>
    let st := loop (s.finds regexec) .start
    .messageBox (st.result L) st.shown

def pllistShip (blocks : List (Option (List Player))) (s : Search) : Reply :=
  pllist L (fun finds => shipLoop L finds s.first blocks) s

def pllistBlock (clients : List Player) (s : Search) : Reply :=
  pllist L (fun finds => blockLoop L finds s.first clients) s

def pllistLobby (slots : List (Option Player)) (s : Search) : Reply :=
  pllist L (fun finds => lobbyLoop L finds s.first slots) s

/-- The search that `send_player_list` ends with. -/
def search (pop : Population) : Domain → Search → Reply
  | .ship, s => pllistShip L pop.blocks s
  | .block, s => pllistBlock L pop.clients s
  | .lobby, s => pllistLobby L pop.slots s

/-- `(int)strtol(tok, NULL, 0)`: nothing if it sets `errno`. -/
def strtol (tok : List Char) : Option (BitVec 32) :=
  (strtoll (String.ofList tok)).map fun v => BitVec.ofInt 32 v.1

/-- What the options of a request lead to. A missing number is read through a null pointer. -/
inductive Parsed where
  | search (s : Search)
  | answer (text : String)
  | crash

/-- An option with a number. -/
def number (value : List Char) (message : String) (use : BitVec 32 → Search) : Parsed :=
  match strtol value with
  | none => .answer message
  | some v => .search (use v)

/-- What an option and its value do to a search. The name is a part of the copy that is freed before
the search; it is taken to be still there. -/
def setOption (s : Search) (tok value : List Char) : Parsed :=
  if tok = "p".toList then
    number value "\tE\tC7Invalid page given." fun v => { s with first := (v.toInt - 1) * 4 }
  else if tok = "n".toList then .search { s with name := some value }
  else if tok = "mnlv".toList then
    number value "\tE\tC7Invalid min level given." fun v => { s with minlvl := v - 1 }
  else if tok = "mxlv".toList then
    number value "\tE\tC7Invalid max level given." fun v => { s with maxlvl := v - 1 }
  else if tok = "lv".toList then
    number value "\tE\tC7Invalid level given." fun v =>
      { s with minlvl := v - 1, maxlvl := v - 1 }
  else if tok = "c".toList then
    let chClass := classes.findIdx (· = classCased value)
    if value.length < 5 ∨ chClass = 12 then .answer "\tE\tC7Invalid class."
    else .search { s with chClass }
  else .search s

/-- The loop over the options. -/
def options (s : Search) : List (List Char) → Parsed
  | [] => .search s
  | [tok] =>
    if isNumbered tok = true then .crash
    else if tok = "n".toList then .answer "\tE\tC7Name requires an argument."
    else if tok = "c".toList then .answer "\tE\tC7Class requires an argument."
    else .search s
  | tok :: value :: rest =>
    match setOption s tok value with
    | .search s' => options s' rest
    | refused => refused

/-- The domain that the first token stands for. -/
def domain? (tok : List Char) : Option Domain :=
  if tok = "s".toList then some .ship
  else if tok = "b".toList then some .block
  else if tok = "l".toList then some .lobby
  else none

/-- Nothing where a null pointer is read. -/
def sendPlayerList (pop : Population) (params : List Char) : Option Reply :=
  match tokens (· = ' ') params with
  | [] => some (.txt (L.translate "\tE\tC7Missing search domain.".toList))
  | tok :: rest =>
    match domain? tok with
    | none => some (.txt (L.translate "\tE\tC7Invalid or missing search domain.".toList))
    | some dom =>
      match options .start rest with
      | .search s => some (search L pop dom s)
      | .answer text => some (.txt (L.translate text.toList))
      | .crash => none

end Replies

/-- Everyone in a domain, in the order in which a search comes to them. -/
def Population.players (pop : Population) : Domain → List Player
  | .ship => pop.blocks.reduceOption.flatten
  | .block => pop.clients
  | .lobby => pop.slots.reduceOption

section Pages

variable (L : Library) (pop : Population) (dom : Domain) (s : Search)

/-- The players that a search is for. A name that is no expression matches nobody. -/
def matching : List Player :=
  match compiled L s with
  | none => []
  | some regexec => (pop.players dom).filter (s.finds regexec)

/-- The numbers of pages whose offsets are ints. -/
def IsPage (p : ℕ) : Prop :=
  1 ≤ p ∧ 4 * p < 2 ^ 31

/-- The answer to a request with the options of a search and a page. -/
def page (p : ℕ) : Reply :=
  search L pop dom { s with first := ((p : ℤ) - 1) * 4 }

def Reply.shown : Reply → List Player
  | .txt _ => []
  | .messageBox _ shown => shown

/-- What has gone through the buffer `str`. -/
def Reply.str : Reply → Option (List Char)
  | .txt _ => none
  | .messageBox text _ => some text

/-- The players on the first pages, one page after another. -/
def pagesUpTo (n : ℕ) : List Player :=
  (List.range n).flatMap fun i => (page L pop dom s (i + 1)).shown

/-- The pages show the players that match, four of them at most on a page, each of them once and in
order, and the texts and their NULs are inside of the buffer. -/
structure Paged : Prop where
  atMostFour : ∀ p, IsPage p → (page L pop dom s p).shown.length ≤ 4
  inOrder : ∀ n, 4 * n < 2 ^ 31 → pagesUpTo L pop dom s n <+: matching L pop dom s
  complete : ∃ n, 4 * n < 2 ^ 31 ∧ pagesUpTo L pop dom s n = matching L pop dom s
  fits : ∀ p, IsPage p → ∀ text ∈ (page L pop dom s p).str, text.length < 512

end Pages

section Loops

variable {L : Library} {finds : Player → Bool} {first : ℤ} {limit : ℕ}

theorem Listing.add_count (st : Listing) (p : Player) :
    (st.add L first p).count = st.count + 1 := by
  rw [Listing.add]
  split <;> rfl

theorem counts : Counts (Listing.add L first) (fun st => st.count = limit) Listing.count limit where
  add_ := Listing.add_count
  full_ := fun _ => decide_eq_true_iff

theorem blockLoop_eq (hlimit : first + 4 = limit) (ps : List Player) {st : Listing}
    (hst : st.count < limit) : blockLoop L finds first ps st =
      (scan finds (Listing.add L first) (fun st => st.count = limit) ps st).1 := by
  induction ps generalizing st with
  | nil => rfl
  | cons p rest ih =>
    have hcount := @Listing.add_count L first st p
    rw [blockLoop, scan]
    by_cases hp : finds p = true
    · rw [if_pos hp, if_pos hp]
      by_cases hfull : (st.add L first p).count = limit
      · have hle : first + 4 ≤ ((st.add L first p).count : ℤ) := by omega
        rw [if_pos hle, if_pos (decide_eq_true hfull)]
      · have hlt : ¬first + 4 ≤ ((st.add L first p).count : ℤ) := by omega
        rw [if_neg hlt, if_neg (mt of_decide_eq_true hfull), ih (by omega)]
    · rw [if_neg hp, if_neg hp, ih hst]

theorem shipLoop_full {st : Listing} (hst : first + 4 ≤ st.count)
    (bs : List (Option (List Player))) : shipLoop L finds first bs st = st := by
  cases bs with
  | nil => rfl
  | cons b rest =>
    exact if_neg (not_lt.mpr hst)

theorem shipLoop_eq (hlimit : first + 4 = limit) (bs : List (Option (List Player)))
    {st : Listing} (hst : st.count < limit) : shipLoop L finds first bs st =
      scanAll finds (Listing.add L first) (fun st => st.count = limit) bs.reduceOption st := by
  induction bs generalizing st with
  | nil => rfl
  | cons b rest ih =>
    have hlt : (st.count : ℤ) < first + 4 := by omega
    rw [shipLoop.eq_def]
    dsimp only
    rw [if_pos hlt]
    cases b with
    | none =>
      rw [List.reduceOption_cons_of_none]
      exact ih hst
    | some clients =>
      obtain ⟨hle, hstop⟩ := scan_full (p := finds) (@counts L first limit) clients hst
      rw [List.reduceOption_cons_of_some, scanAll]
      dsimp only
      rw [blockLoop_eq hlimit clients hst]
      by_cases hfull :
          (scan finds (Listing.add L first) (fun st => st.count = limit) clients st).2 = true
      · rw [if_pos hfull]
        have heq := hstop.mp hfull
        exact shipLoop_full (by omega) rest
      · rw [if_neg hfull]
        have hne := mt hstop.mpr hfull
        exact ih (by omega)

theorem lobbyLoop_full {st : Listing} (hst : first + 4 ≤ st.count)
    (slots : List (Option Player)) : lobbyLoop L finds first slots st = st := by
  cases slots with
  | nil => rfl
  | cons slot rest =>
    exact if_neg (not_lt.mpr hst)

theorem lobbyLoop_eq (hlimit : first + 4 = limit) (slots : List (Option Player)) {st : Listing}
    (hst : st.count < limit) : lobbyLoop L finds first slots st =
      (scan finds (Listing.add L first) (fun st => st.count = limit) slots.reduceOption st).1 := by
  induction slots generalizing st with
  | nil => rfl
  | cons slot rest ih =>
    have hlt : (st.count : ℤ) < first + 4 := by omega
    rw [lobbyLoop.eq_def]
    dsimp only
    rw [if_pos hlt]
    cases slot with
    | none =>
      rw [List.reduceOption_cons_of_none]
      exact ih hst
    | some p =>
      have hcount := @Listing.add_count L first st p
      rw [List.reduceOption_cons_of_some, scan]
      dsimp only
      by_cases hp : finds p = true
      · rw [if_pos hp, if_pos hp]
        by_cases hfull : (st.add L first p).count = limit
        · rw [if_pos (decide_eq_true hfull), lobbyLoop_full (by omega)]
        · rw [if_neg (mt of_decide_eq_true hfull), ih (by omega)]
      · rw [if_neg hp, if_neg hp, ih hst]

end Loops

section Listings

variable {L : Library} {first : ℤ}

/-- A player is shown if the count with it reaches the first of the page. -/
theorem foldl_shown (ps : List Player) (st : Listing) :
    (ps.foldl (Listing.add L first) st).shown =
      st.shown ++ ps.drop (first - 1 - st.count).toNat := by
  induction ps generalizing st with
  | nil =>
    rw [List.foldl_nil, List.drop_nil, List.append_nil]
  | cons p rest ih =>
    rw [List.foldl_cons, ih, st.add_count]
    unfold Listing.add
    dsimp only
    by_cases hfirst : first ≤ (st.count + 1 : ℕ)
    · have hnow : (first - 1 - st.count).toNat = 0 := by omega
      have hnext : (first - 1 - (st.count + 1 : ℕ)).toNat = 0 := by omega
      rw [if_pos hfirst, hnow, hnext, List.drop_zero, List.drop_zero, List.append_assoc,
        List.singleton_append]
    · have hnow : (first - 1 - st.count).toNat =
          (first - 1 - (st.count + 1 : ℕ)).toNat + 1 := by
        omega
      rw [if_neg hfirst, hnow, List.drop_succ_cons]

/-- The text is about the players that are shown. -/
def Listing.Tells (L : Library) (st : Listing) : Prop :=
  st.str = "\tE".toList ++ st.shown.flatMap (line L)

theorem Listing.Tells.add {st : Listing} (h : st.Tells L) (p : Player) :
    (st.add L first p).Tells L := by
  unfold Listing.add
  dsimp only
  split
  · unfold Listing.Tells at h ⊢
    dsimp only
    rw [h, List.flatMap_append, List.append_assoc, List.flatMap_singleton]
  · exact h

theorem foldl_tells (ps : List Player) {st : Listing} (h : st.Tells L) :
    (ps.foldl (Listing.add L first) st).Tells L := by
  induction ps generalizing st with
  | nil => exact h
  | cons p rest ih => exact ih (h.add p)

theorem line_pos (p : Player) : 0 < (line L p).length := by
  unfold line
  rw [List.length_append]
  exact Nat.add_pos_right _ (by decide)

/-- A text of two characters is about nobody. -/
theorem Listing.Tells.empty_iff {st : Listing} (h : st.Tells L) :
    st.str.length = 2 ↔ st.shown = [] := by
  rw [h, List.length_append]
  cases st.shown with
  | nil => exact iff_of_true rfl rfl
  | cons p rest =>
    have hpos := line_pos (L := L) p
    rw [List.flatMap_cons, List.length_append]
    refine iff_of_false ?_ (List.cons_ne_nil p rest)
    change 2 + ((line L p).length + (rest.flatMap (line L)).length) ≠ 2
    omega

/-- The text of a box about some players. -/
def boxText (L : Library) (shown : List Player) : List Char :=
  if shown = [] then L.translate "\tENo matches found.".toList
  else "\tE".toList ++ shown.flatMap (line L)

theorem Listing.Tells.result {st : Listing} (h : st.Tells L) :
    st.result L = boxText L st.shown := by
  unfold Listing.result boxText
  rw [if_congr h.empty_iff rfl rfl, h]

end Listings

section Requests

variable {L : Library} {pop : Population}

/-- Options that each have a value. -/
def pairs (opts : List (List Char × List Char)) : List (List Char) :=
  opts.flatMap fun opt => [opt.1, opt.2]

/-- Options that have been read leave the rest to be read. -/
theorem options_append {s s' : Search} {opts : List (List Char × List Char)}
    (h : options s (pairs opts) = .search s') (rest : List (List Char)) :
    options s (pairs opts ++ rest) = options s' rest := by
  induction opts generalizing s with
  | nil =>
    obtain rfl := Parsed.search.inj h
    rfl
  | cons opt opts ih =>
    obtain ⟨tok, value⟩ := opt
    change options s (tok :: value :: pairs opts) = .search s' at h
    change options s (tok :: value :: (pairs opts ++ rest)) = options s' rest
    rw [options] at h ⊢
    cases hset : setOption s tok value with
    | search s'' =>
      rw [hset] at h
      exact ih h
    | answer message =>
      rw [hset] at h
      cases h
    | crash =>
      rw [hset] at h
      cases h

theorem strtol_decimal {p : ℕ} (hp : p < 2 ^ 31) :
    strtol (decimal p).toList = some (BitVec.ofNat 32 p) := by
  have hread := strtoll_signedDecimal ⟨(p : ℤ), by omega, by omega⟩
  have hdecimal : signedDecimal (p : ℤ) = decimal p := if_neg (by omega)
  rw [hdecimal] at hread
  rw [strtol, String.ofList_toList, hread, Option.map_some, BitVec.ofInt_natCast]

/-- A page that is asked for after other options. -/
theorem options_page {s : Search} {opts : List (List Char × List Char)} {p : ℕ}
    (hopts : options .start (pairs opts) = .search s) (hp : p < 2 ^ 31) :
    options .start (pairs opts ++ ["p".toList, (decimal p).toList]) =
      .search { s with first := ((p : ℤ) - 1) * 4 } := by
  have hint : (BitVec.ofNat 32 p).toInt = p := by
    have hsmall : (BitVec.ofNat 32 p).toNat = p := Nat.mod_eq_of_lt (by omega)
    rw [BitVec.toInt_eq_toNat_of_lt (by omega), hsmall]
  rw [options_append hopts, options, setOption, if_pos rfl, number, strtol_decimal hp]
  dsimp only
  rw [hint]
  rfl

theorem sendPlayerList_page {params dom : List Char} {opts : List (List Char × List Char)}
    {domain : Domain} {s : Search} {p : ℕ} (hdom : domain? dom = some domain)
    (hopts : options .start (pairs opts) = .search s) (hp : IsPage p)
    (hparams : tokens (· = ' ') params =
      dom :: (pairs opts ++ ["p".toList, (decimal p).toList])) :
    sendPlayerList L pop params = some (page L pop domain s p) := by
  have hoptions := options_page hopts (p := p) (by have := hp.2; omega)
  rw [sendPlayerList, hparams]
  dsimp only
  rw [hdom]
  dsimp only
  rw [hoptions]
  rfl

end Requests

section Searches

variable {L : Library} {pop : Population} {dom : Domain} {s : Search}

/-- The loop of a search in a domain. -/
def Population.loop (pop : Population) (L : Library) (first : ℤ) (finds : Player → Bool) :
    Domain → Listing → Listing
  | .ship => shipLoop L finds first pop.blocks
  | .block => blockLoop L finds first pop.clients
  | .lobby => lobbyLoop L finds first pop.slots

theorem search_loop : search L pop dom s =
    pllist L (fun finds => pop.loop L s.first finds dom) s := by
  cases dom <;> rfl

theorem pllist_none {loop : (Player → Bool) → Listing → Listing} (hname : compiled L s = none) :
    pllist L loop s = .txt (L.translate "\tE\tC7Invalid name given.".toList) := by
  unfold pllist
  rw [hname]

theorem pllist_some {loop : (Player → Bool) → Listing → Listing} {regexec : List Char → Bool}
    (hname : compiled L s = some regexec) : pllist L loop s =
      .messageBox ((loop (s.finds regexec) .start).result L)
        (loop (s.finds regexec) .start).shown := by
  unfold pllist
  rw [hname]

theorem matching_none (hname : compiled L s = none) : matching L pop dom s = [] := by
  rw [matching, hname]

theorem matching_some {regexec : List Char → Bool} (hname : compiled L s = some regexec) :
    matching L pop dom s = (pop.players dom).filter (s.finds regexec) := by
  rw [matching, hname]

/-- Each loop adds the first of the players that match. -/
theorem loop_eq {finds : Player → Bool} {first : ℤ} {limit : ℕ} (hlimit : first + 4 = limit)
    (hpos : 0 < limit) : pop.loop L first finds dom .start =
      (((pop.players dom).filter finds).take limit).foldl (Listing.add L first) .start := by
  have hst : Listing.start.count < limit := hpos
  cases dom with
  | ship =>
    change shipLoop L finds first pop.blocks .start = _
    rw [shipLoop_eq hlimit _ hst, scanAll_eq counts _ hst]
    rfl
  | block =>
    change blockLoop L finds first pop.clients .start = _
    rw [blockLoop_eq hlimit _ hst, (scan_eq counts _ hst).1]
    rfl
  | lobby =>
    change lobbyLoop L finds first pop.slots .start = _
    rw [lobbyLoop_eq hlimit _ hst, (scan_eq counts _ hst).1]
    rfl

/-- The players of a page: the page begins one player too early, except for the first one. -/
def onPage (L : Library) (pop : Population) (dom : Domain) (s : Search) (p : ℕ) : List Player :=
  ((matching L pop dom s).take (4 * p)).drop (4 * (p - 1) - 1)

theorem page_none (hname : compiled L s = none) (p : ℕ) :
    page L pop dom s p = .txt (L.translate "\tE\tC7Invalid name given.".toList) := by
  rw [page, search_loop]
  exact pllist_none hname

theorem page_some {regexec : List Char → Bool} (hname : compiled L s = some regexec) {p : ℕ}
    (hp : 1 ≤ p) : page L pop dom s p =
      .messageBox (boxText L (onPage L pop dom s p)) (onPage L pop dom s p) := by
  let first : ℤ := ((p : ℤ) - 1) * 4
  let found := ((pop.players dom).filter (s.finds regexec)).take (4 * p)
  let st := found.foldl (Listing.add L first) .start
  have hloop : pop.loop L first (s.finds regexec) dom .start = st :=
    loop_eq (by omega) (by omega)
  have hdrop : (first - 1 - (Listing.start.count : ℤ)).toNat = 4 * (p - 1) - 1 := by
    change (first - 1 - 0).toNat = 4 * (p - 1) - 1
    omega
  have hshown : st.shown = onPage L pop dom s p := by
    rw [foldl_shown, hdrop, onPage, matching_some hname]
    rfl
  have htells : st.Tells L := foldl_tells found rfl
  calc page L pop dom s p
      = pllist L (fun finds => pop.loop L first finds dom) { s with first } := search_loop
    _ = .messageBox (st.result L) st.shown := by
      rw [← hloop]
      exact pllist_some (s := { s with first }) hname
    _ = _ := by rw [htells.result, hshown]

theorem page_shown {p : ℕ} (hp : 1 ≤ p) :
    (page L pop dom s p).shown = onPage L pop dom s p := by
  cases hname : compiled L s with
  | none =>
    rw [page_none hname, onPage, matching_none hname, List.take_nil, List.drop_nil]
    rfl
  | some regexec =>
    rw [page_some hname hp]
    rfl

theorem onPage_length (p : ℕ) : (onPage L pop dom s p).length =
    min (4 * p) (matching L pop dom s).length - (4 * (p - 1) - 1) := by
  rw [onPage, List.length_drop, List.length_take]

theorem onPage_first (hfew : (matching L pop dom s).length < 4) :
    onPage L pop dom s 1 = matching L pop dom s :=
  List.take_of_length_le (by omega)

theorem onPage_later (hfew : (matching L pop dom s).length < 4) {p : ℕ} (hp : 2 ≤ p) :
    onPage L pop dom s p = [] := by
  rw [← List.length_eq_zero_iff, onPage_length]
  omega

theorem pagesUpTo_succ (n : ℕ) : pagesUpTo L pop dom s (n + 1) =
    pagesUpTo L pop dom s n ++ onPage L pop dom s (n + 1) := by
  rw [pagesUpTo, List.range_succ, List.flatMap_append, List.flatMap_singleton,
    page_shown (Nat.le_add_left 1 n)]
  rfl

theorem pagesUpTo_few (hfew : (matching L pop dom s).length < 4) (n : ℕ) :
    pagesUpTo L pop dom s (n + 1) = matching L pop dom s := by
  induction n with
  | zero =>
    rw [pagesUpTo_succ, onPage_first hfew]
    rfl
  | succ n ih => rw [pagesUpTo_succ, ih, onPage_later hfew (by omega), List.append_nil]

/-- From four players on, the last one of the first page is the first one of the second page, which
has five players if there are so many. -/
theorem Paged.few (h : Paged L pop dom s) : (matching L pop dom s).length < 4 := by
  by_contra hmany
  have hfour := h.atMostFour 2 ⟨by decide, by decide⟩
  rw [page_shown (by decide), onPage_length] at hfour
  have hboth := (h.inOrder 2 (by decide)).length_le
  rw [pagesUpTo_succ, pagesUpTo_succ, List.length_append, List.length_append, onPage_length,
    onPage_length] at hboth
  omega

/-- What a client can be shown on one page. -/
structure OnePage (L : Library) (shown : List Player) : Prop where
  few : shown.length < 4
  fits : 2 + (shown.flatMap (line L)).length < 512
  noneFits : (L.translate "\tENo matches found.".toList).length < 512

theorem boxText_fits {shown : List Player} (h : OnePage L shown) :
    (boxText L shown).length < 512 := by
  unfold boxText
  split
  · exact h.noneFits
  · rw [List.length_append]
    exact h.fits

theorem paged_of_few (hfew : (matching L pop dom s).length < 4)
    (hfits : ∀ p, IsPage p → ∀ text ∈ (page L pop dom s p).str, text.length < 512) :
    Paged L pop dom s where
  atMostFour := by
    intro p hp
    rw [page_shown hp.1, onPage_length]
    omega
  inOrder := by
    intro n _
    cases n with
    | zero => exact List.nil_prefix
    | succ n => exact (pagesUpTo_few hfew n).symm ▸ List.prefix_rfl
  complete := ⟨1, by decide, pagesUpTo_few hfew 0⟩
  fits := hfits

theorem paged_none (hname : compiled L s = none) : Paged L pop dom s := by
  apply paged_of_few
  · rw [matching_none hname]
    exact Nat.zero_lt_succ 3
  · intro p _ text htext
    rw [page_none hname] at htext
    exact absurd htext (Option.not_mem_none text)

theorem paged_some {regexec : List Char → Bool} (hname : compiled L s = some regexec) :
    Paged L pop dom s ↔ OnePage L (matching L pop dom s) := by
  have hstr : ∀ p, IsPage p →
      (page L pop dom s p).str = some (boxText L (onPage L pop dom s p)) := by
    intro p hp
    rw [page_some hname hp.1]
    rfl
  constructor
  · intro h
    have hfew := h.few
    have hfirst := h.fits 1 ⟨by decide, by decide⟩ _ (hstr 1 ⟨by decide, by decide⟩)
    have hsecond := h.fits 2 ⟨by decide, by decide⟩ _ (hstr 2 ⟨by decide, by decide⟩)
    rw [onPage_first hfew] at hfirst
    rw [onPage_later hfew (le_refl 2)] at hsecond
    refine ⟨hfew, ?_, hsecond⟩
    by_cases hnobody : matching L pop dom s = []
    · rw [hnobody]
      change 2 + 0 < 512
      decide
    · rwa [boxText, if_neg hnobody, List.length_append] at hfirst
  · intro h
    apply paged_of_few h.few
    intro p hp text htext
    rw [hstr p hp] at htext
    obtain rfl := Option.some.inj htext
    by_cases hlater : 2 ≤ p
    · rw [onPage_later h.few hlater]
      exact h.noneFits
    · have hone : p = 1 := le_antisymm (not_lt.mp hlater) hp.1
      rw [hone, onPage_first h.few]
      exact boxText_fits h

/-- A player that has been in no lobby yet. -/
def newcomer (guildcard : BitVec 32) (name : String) : Player where
  level := 0
  chClass := 0
  name := name.toList
  guildcard := guildcard
  curBlock := 1
  ip := "10.0.0.1".toList
  curLobby := none

end Searches

end ShipServer.PlayerLists

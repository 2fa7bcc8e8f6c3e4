import ShipServer.QuestSetup

set_option autoImplicit false

/-! The quests of a ship, and the lists that clients choose from. -/

namespace ShipServer.QuestLists

open Versions QuestSetup

/-- The `CLIENT_LANG_*` values. -/
abbrev Lang := Fin 8

def japanese : Lang := 0

def english : Lang := 1

inductive QuestFormat where
  | bindat
  | qst
  deriving DecidableEq

/-- A quest with what its list says about it. The last flags are those in `versions`. -/
structure ListedQuest extends Quest where
  qid : BitVec 32
  event : ℕ
  maxPlayers : ℕ
  minPlayers : ℕ
  privileges : BitVec 32
  startTime : ℕ
  endTime : ℕ
  hidden : Bool
  noDc : Bool
  noPc : Bool
  noGc : Bool
  noXb : Bool
  episode : ℕ
  format : QuestFormat
  name : List UInt8
  desc : List UInt8

structure MapElem where
  qid : BitVec 32
  qptr : ClientVersion → Lang → Option ListedQuest

def MapElem.new (qid : BitVec 32) : MapElem where
  qid := qid
  qptr _ _ := none

def MapElem.set (e : MapElem) (v : ClientVersion) (lang : Lang) (q : ListedQuest) : MapElem :=
  { e with qptr := fun v' lang' => if v' = v ∧ lang' = lang then some q else e.qptr v' lang' }

def questLookup (map : List MapElem) (qid : BitVec 32) : Option MapElem :=
  map.find? fun e => e.qid = qid

/-- The body of the loop in `quest_map`: the quest goes to the element with its id, or to a new
one at the end. -/
def mapQuest (v : ClientVersion) (lang : Lang) (q : ListedQuest) : List MapElem → List MapElem
  | [] => [(MapElem.new q.qid).set v lang q]
  | e :: es => if e.qid = q.qid then e.set v lang q :: es else e :: mapQuest v lang q es

/-- `quest_map`, for the quests of a list. -/
def questMap (v : ClientVersion) (lang : Lang) (quests : List ListedQuest) (map : List MapElem) :
    List MapElem :=
  quests.foldl (fun map q => mapQuest v lang q map) map

abbrev Category := List ListedQuest

abbrev QuestList := List Category

def versions : List ClientVersion :=
  [.dcv1, .dcv2, .pc, .gc, .ep3, .bb, .xbox]

/-- The lists that have been read, one for each version and language. -/
def readQuests (qlist : ClientVersion → Lang → QuestList) : List MapElem :=
  (versions ×ˢ List.finRange 8).foldl
    (fun map at' => questMap at'.1 at'.2 (qlist at'.1 at'.2).flatten map) []

/-- What the ship knows of quests. `behind` is what is read from the table of a quest for a
language code that is none. -/
structure QuestConfig where
  qlist : ClientVersion → Lang → QuestList
  behind : BitVec 32 → ClientVersion → ℕ → Option ListedQuest

def QuestConfig.qmap (s : QuestConfig) : List MapElem :=
  readQuests s.qlist

/-- The entry of a quest in a map. -/
def entry (map : List MapElem) (qid : BitVec 32) (v : ClientVersion) (lang : Lang) :
    Option ListedQuest :=
  (questLookup map qid).bind fun e => e.qptr v lang

/-- `elem->qptr` for a language code, which is a byte of the client's. -/
def QuestConfig.qptr (s : QuestConfig) (qid : BitVec 32) (v : ClientVersion) (code : ℕ) :
    Option ListedQuest :=
  if h : code < 8 then entry s.qmap qid v ⟨code, h⟩ else s.behind qid v code

/-- A client as the lists see it. -/
structure Member where
  version : ClientVersion
  qLang : ℕ
  languageCode : ℕ
  privilege : BitVec 32
  loggedIn : Bool
  deriving DecidableEq

def Member.localGm (c : Member) : Bool :=
  c.privilege &&& 1 ≠ 0 ∧ c.loggedIn = true

structure Game where
  version : ClientVersion
  v2 : Bool
  event : ℕ
  numClients : ℕ
  challenge : Bool
  maxChal : ℕ
  clients : List (Option Member)

def Game.members (l : Game) : List Member :=
  l.clients.reduceOption

/-- The versions of the clients that have been looked at. -/
structure Seen where
  hasdc : Bool
  haspc : Bool
  hasgc : Bool
  hasxb : Bool
  deriving DecidableEq

def Seen.see (s : Seen) : ClientVersion → Seen
  | .dcv1 | .dcv2 => { s with hasdc := true }
  | .pc => { s with haspc := true }
  | .gc => { s with hasgc := true }
  | .xbox => { s with hasxb := true }
  | _ => s

/-- What becomes of a quest because of its place in the category. -/
inductive Limit where
  | go
  | skip
  | stop
  deriving DecidableEq

/-- What the copies of the list builder do not have in common: the version whose list they use,
their first value of the flags, the version they look up for a client, whether they know the flags
that disable versions, and the limit of challenge mode. -/
structure Builder where
  ver : ClientVersion
  start : Seen
  memberVersion : ClientVersion → ClientVersion
  versionFlags : Bool
  limit : ℕ → Limit

/-- The loop over the clients: whether all can play the quest, and the flags. -/
def lookThrough (s : QuestConfig) (b : Builder) (lang : Lang) (second : Bool) (q : ListedQuest) :
    List (Option Member) → Seen → Bool × Seen
  | [], seen => (true, seen)
  | none :: ms, seen => lookThrough s b lang second q ms seen
  | some m :: ms, seen =>
    let v := b.memberVersion m.version
    let seen := seen.see m.version
    if second = false ∧ s.qptr q.qid v m.qLang = none ∧ s.qptr q.qid v m.languageCode = none ∧
        s.qptr q.qid v english = none ∧ s.qptr q.qid v lang = none then (false, seen)
    else lookThrough s b lang second q ms seen

/-- The conditions that come before the loop over the clients. -/
def inSeason (s : QuestConfig) (b : Builder) (l : Game) (lang : Lang) (second : Bool)
    (q : ListedQuest) : Bool :=
  (!second || (s.qptr q.qid b.ver lang).isNone) && q.event.testBit l.event &&
    (decide (l.numClients ≤ q.maxPlayers) && decide (q.minPlayers ≤ l.numClients))

/-- The version-disable flags. -/
def enabled (b : Builder) (seen : Seen) (q : ListedQuest) : Bool :=
  !b.versionFlags || (!(q.noDc && seen.hasdc) && !(q.noPc && seen.haspc) &&
    !(q.noGc && seen.hasgc) && !(q.noXb && seen.hasxb))

/-- The conditions that come after it. -/
def permitted (c : Member) (now : ℕ) (q : ListedQuest) : Bool :=
  (decide (q.privileges &&& c.privilege = q.privileges) || c.localGm) &&
    ((decide (q.startTime = 0) || decide (q.startTime ≤ now)) &&
      (decide (q.endTime = 0) || decide (now ≤ q.endTime))) && !q.hidden

/-- The loop over a category, from the place `i` on. -/
def pass (s : QuestConfig) (b : Builder) (l : Game) (c : Member) (now : ℕ) (lang : Lang)
    (second : Bool) : ℕ → Category → Seen → List ListedQuest × Seen
  | _, [], seen => ([], seen)
  | i, q :: qs, seen =>
    match b.limit i with
    | .stop => ([], seen)
    | .skip => pass s b l c now lang second (i + 1) qs seen
    | .go =>
      if inSeason s b l lang second q = false then pass s b l c now lang second (i + 1) qs seen
      else
        let looked := lookThrough s b lang second q l.clients seen
        let rest := pass s b l c now lang second (i + 1) qs looked.2
        if looked.1 = false then rest
        else if permitted c now q = false then rest
        else if enabled b looked.2 q = false then rest
        else (q :: rest.1, rest.2)

/-- The text of an entry is in one of these. -/
inductive Encoding where
  | sjis
  | iso8859
  | utf16
  deriving DecidableEq

/-- An entry of the list: `lang` and `episode` are parts of its menu id. -/
structure Offer where
  lang : Lang
  episode : Option ℕ
  qid : BitVec 32
  encoding : Encoding
  name : List UInt8
  desc : List UInt8

/-- What a builder comes to. It returns without sending, or it looks for a category behind the
end of the English list. -/
inductive Listing where
  | refused
  | outside
  | sent (offers : List Offer)

/-- How a builder writes a quest of a pass. -/
abbrev Writer := Lang → Bool → ListedQuest → Offer

/-- What the list builders have in common. -/
def questListWith (b : Builder) (write : Writer) (s : QuestConfig) (l : Game) (c : Member)
    (now cn : ℕ) (lang : Lang) : Listing :=
  let lang := if (s.qlist b.ver lang).length ≤ cn then english else lang
  match (s.qlist b.ver lang)[cn]? with
  | none => .refused
  | some cat =>
    let first := pass s b l c now lang false 0 cat b.start
    if lang = english then .sent (first.1.map (write lang false))
    else
      match (s.qlist b.ver english)[cn]? with
      | none => .outside
      | some caten =>
        let second := pass s b l c now lang true 0 caten first.2
        .sent (first.1.map (write lang false) ++ second.1.map (write lang true))

def unseen : Seen where
  hasdc := false
  haspc := false
  hasgc := false
  hasxb := false

/-- Xbox clients play the quests of Gamecube. -/
def asGamecube (v : ClientVersion) : ClientVersion :=
  if v = .xbox then .gc else v

/-- The limit of the builders that know one episode. -/
def oneEpisode (l : Game) (i : ℕ) : Limit :=
  if l.challenge = true ∧ l.maxChal &&& 0x0F ≤ i then .stop else .go

/-- The limit of the builders that know two. -/
def twoEpisodes (l : Game) (i : ℕ) : Limit :=
  if l.challenge = true then
    if i < 9 ∧ l.maxChal &&& 0x0F ≤ i then .skip
    else if 9 < i ∧ (l.maxChal >>> 4) &&& 0x0F ≤ i - 9 then .stop
    else .go
  else .go

/-- Japanese is for the quests of the first pass. -/
def byteEncoding (lang : Lang) (second : Bool) : Encoding :=
  if lang = japanese ∧ second = false then .sjis else .iso8859

def writeOffer (episodes : Bool) (encoding : Lang → Bool → Encoding) : Writer :=
  fun lang second q =>
    { lang := lang
      episode := if episodes then some q.episode else none
      qid := q.qid
      encoding := encoding lang second
      name := q.name
      desc := q.desc }

def dcBuilder (l : Game) : Builder where
  ver := if l.v2 then .dcv2 else .dcv1
  start := { unseen with hasdc := true }
  memberVersion := asGamecube
  versionFlags := true
  limit := oneEpisode l

def pcBuilder (l : Game) : Builder where
  ver := if l.v2 then .pc else .dcv1
  start := unseen
  memberVersion := asGamecube
  versionFlags := true
  limit := oneEpisode l

def gcBuilder (l : Game) : Builder where
  ver := if l.version = .gc ∨ l.version = .xbox then .gc else if l.v2 then .dcv2 else .dcv1
  start := unseen
  memberVersion := asGamecube
  versionFlags := true
  limit := twoEpisodes l

def bbBuilder (l : Game) : Builder where
  ver := .bb
  start := unseen
  memberVersion := id
  versionFlags := false
  limit := twoEpisodes l

def sendDcQuestList (s : QuestConfig) (l : Game) : Member → ℕ → ℕ → Lang → Listing :=
  questListWith (dcBuilder l) (writeOffer false byteEncoding) s l

def sendPcQuestList (s : QuestConfig) (l : Game) : Member → ℕ → ℕ → Lang → Listing :=
  questListWith (pcBuilder l) (writeOffer false fun _ _ => .utf16) s l

def sendGcQuestList (s : QuestConfig) (l : Game) : Member → ℕ → ℕ → Lang → Listing :=
  questListWith (gcBuilder l) (writeOffer true byteEncoding) s l

def sendXboxQuestList (s : QuestConfig) (l : Game) : Member → ℕ → ℕ → Lang → Listing :=
  questListWith (gcBuilder l) (writeOffer true byteEncoding) s l

def sendBbQuestList (s : QuestConfig) (l : Game) : Member → ℕ → ℕ → Lang → Listing :=
  questListWith (bbBuilder l) (writeOffer true fun _ _ => .utf16) s l

/-- `send_quest_list`. -/
def sendQuestList (s : QuestConfig) (l : Game) (c : Member) (now cn langCode : ℕ) : Listing :=
  if h : langCode < 8 then
    let lang : Lang := ⟨langCode, h⟩
    match c.version with
    | .dcv1 | .dcv2 => sendDcQuestList s l c now cn lang
    | .pc => sendPcQuestList s l c now cn lang
    | .gc | .ep3 => sendGcQuestList s l c now cn lang
    | .xbox => sendXboxQuestList s l c now cn lang
    | .bb => sendBbQuestList s l c now cn lang
  else .refused

/-- The builder of a client's list. -/
def builder (l : Game) (c : Member) : Builder :=
  match c.version with
  | .dcv1 | .dcv2 => dcBuilder l
  | .pc => pcBuilder l
  | .gc | .ep3 | .xbox => gcBuilder l
  | .bb => bbBuilder l

def writer (c : Member) : Writer :=
  match c.version with
  | .dcv1 | .dcv2 => writeOffer false byteEncoding
  | .pc => writeOffer false fun _ _ => .utf16
  | .gc | .ep3 | .xbox => writeOffer true byteEncoding
  | .bb => writeOffer true fun _ _ => .utf16

theorem sendQuestList_of_lt (s : QuestConfig) (l : Game) (c : Member) (now cn : ℕ) (lang : Lang) :
    sendQuestList s l c now cn lang = questListWith (builder l c) (writer c) s l c now cn lang := by
  rw [sendQuestList, dif_pos lang.isLt, builder, writer]
  cases c.version <;> rfl

theorem sendQuestList_of_ge (s : QuestConfig) (l : Game) (c : Member) (now cn : ℕ) {code : ℕ}
    (h : ¬code < 8) : sendQuestList s l c now cn code = .refused :=
  dif_neg h

@[simp] theorem writer_qid (c : Member) (lang : Lang) (second : Bool) (q : ListedQuest) :
    (writer c lang second q).qid = q.qid := by
  unfold writer
  cases c.version <;> rfl

@[simp] theorem writer_lang (c : Member) (lang : Lang) (second : Bool) (q : ListedQuest) :
    (writer c lang second q).lang = lang := by
  unfold writer
  cases c.version <;> rfl

section Map

variable {s : QuestConfig} {map : List MapElem} {qid : BitVec 32} {v : ClientVersion} {lang : Lang}

/-- What a quest changes about the map is its own entry. -/
theorem entry_mapQuest (v : ClientVersion) (lang : Lang) (q : ListedQuest) (map : List MapElem)
    (qid : BitVec 32) (v' : ClientVersion) (lang' : Lang) :
    entry (mapQuest v lang q map) qid v' lang' =
      if q.qid = qid ∧ v' = v ∧ lang' = lang then some q else entry map qid v' lang' := by
  induction map with
  | nil =>
    by_cases hid : q.qid = qid
    · simp [entry, mapQuest, questLookup, MapElem.new, MapElem.set, hid]
    · simp [entry, mapQuest, questLookup, MapElem.new, MapElem.set, hid]
  | cons e es ih =>
    by_cases he : e.qid = q.qid
    · by_cases hid : q.qid = qid
      · simp [entry, mapQuest, questLookup, MapElem.set, he, hid]
      · simp [entry, mapQuest, questLookup, MapElem.set, he, hid]
    · have hrest : entry (mapQuest v lang q (e :: es)) qid v' lang' =
          if e.qid = qid then e.qptr v' lang' else entry (mapQuest v lang q es) qid v' lang' := by
        by_cases hid : e.qid = qid
        · subst hid
          simp [entry, mapQuest, questLookup, he]
        · simp [entry, mapQuest, questLookup, he, hid]
      have hold : entry (e :: es) qid v' lang' =
          if e.qid = qid then e.qptr v' lang' else entry es qid v' lang' := by
        by_cases hid : e.qid = qid
        · subst hid
          simp [entry, questLookup]
        · simp [entry, questLookup, hid]
      rw [hrest, hold, ih]
      by_cases hid : e.qid = qid
      · have hne : ¬q.qid = qid := fun h => he (hid.trans h.symm)
        rw [if_pos hid, if_neg fun h => hne h.1, if_pos hid]
      · rw [if_neg hid, if_neg hid]

/-- The entries that a list gives to the map. -/
theorem entry_questMap_isSome (quests : List ListedQuest) :
    (entry (questMap v lang quests map) qid v lang).isSome = true ↔
      (∃ q ∈ quests, q.qid = qid) ∨ (entry map qid v lang).isSome = true := by
  rw [questMap]
  induction quests generalizing map with
  | nil => simp
  | cons q qs ih =>
    rw [List.foldl_cons, ih, entry_mapQuest]
    by_cases hid : q.qid = qid
    · simp [hid]
    · simp [hid]

theorem entry_questMap_of_ne {v' : ClientVersion} {lang' : Lang} (quests : List ListedQuest)
    (hne : ¬(v' = v ∧ lang' = lang)) :
    entry (questMap v lang quests map) qid v' lang' = entry map qid v' lang' := by
  rw [questMap]
  induction quests generalizing map with
  | nil => rfl
  | cons q qs ih => rw [List.foldl_cons, ih, entry_mapQuest, if_neg fun h => hne h.2]

/-- A quest has an entry for a version and a language exactly when it is in that list. -/
theorem entry_qmap_isSome (s : QuestConfig) (qid : BitVec 32) (v : ClientVersion) (lang : Lang) :
    (entry s.qmap qid v lang).isSome = true ↔ ∃ q ∈ (s.qlist v lang).flatten, q.qid = qid := by
  have hall : ∀ (slots : List (ClientVersion × Lang)) (map : List MapElem),
      (entry (slots.foldl (fun map at' => questMap at'.1 at'.2 (s.qlist at'.1 at'.2).flatten map)
        map) qid v lang).isSome = true ↔
      ((v, lang) ∈ slots ∧ ∃ q ∈ (s.qlist v lang).flatten, q.qid = qid) ∨
        (entry map qid v lang).isSome = true := by
    intro slots
    induction slots with
    | nil => simp
    | cons at' rest ih =>
      intro map
      rw [List.foldl_cons, ih]
      by_cases hat : (v, lang) = at'
      · rw [← hat, entry_questMap_isSome, List.mem_cons, eq_self_iff_true, true_or, true_and,
          ← or_assoc]
        refine or_congr_left ⟨?_, Or.inr⟩
        rintro (h | h)
        · exact h.2
        · exact h
      · rw [entry_questMap_of_ne _ fun h => hat (Prod.ext h.1 h.2), List.mem_cons, or_iff_right hat]
  rw [QuestConfig.qmap, readQuests, hall]
  have hmem : (v, lang) ∈ versions ×ˢ List.finRange 8 := by
    change (v, lang) ∈ List.product versions (List.finRange 8)
    rw [List.pair_mem_product]
    refine ⟨?_, List.mem_finRange lang⟩
    cases v <;> decide
  simp [hmem, entry, questLookup]

theorem qptr_of_lang (s : QuestConfig) (qid : BitVec 32) (v : ClientVersion) (lang : Lang) :
    s.qptr qid v lang = entry s.qmap qid v lang :=
  dif_pos lang.isLt

/-- The quests of a list have entries for its version and language. -/
theorem qptr_of_mem {s : QuestConfig} {cat : Category} {q : ListedQuest} {cn : ℕ}
    (hcat : (s.qlist v lang)[cn]? = some cat) (hq : q ∈ cat) :
    (s.qptr q.qid v lang).isSome = true := by
  rw [qptr_of_lang, entry_qmap_isSome]
  exact ⟨q, List.mem_flatten.mpr ⟨cat, List.mem_of_getElem? hcat, hq⟩, rfl⟩

end Map

/-- The flags once all clients have been looked at. -/
def Seen.all (ms : List Member) (seen : Seen) : Seen :=
  ms.foldl (fun seen m => seen.see m.version) seen

theorem Seen.see_comm (seen : Seen) (v w : ClientVersion) :
    (seen.see v).see w = (seen.see w).see v := by
  cases v <;> cases w <;> rfl

theorem Seen.see_see (seen : Seen) (v : ClientVersion) : (seen.see v).see v = seen.see v := by
  cases v <;> rfl

/-- A client that is looked at again changes nothing. -/
theorem Seen.all_see_of_mem {ms : List Member} {m : Member} (hm : m ∈ ms) (seen : Seen) :
    (seen.see m.version).all ms = seen.all ms := by
  induction ms generalizing seen with
  | nil => cases hm
  | cons n ms ih =>
    change ((seen.see m.version).see n.version).all ms = (seen.see n.version).all ms
    rcases List.mem_cons.mp hm with rfl | hrest
    · rw [Seen.see_see]
    · rw [Seen.see_comm, ih hrest]

/-- A client can play a quest, as far as the first pass looks. -/
def canPlay (s : QuestConfig) (b : Builder) (lang : Lang) (q : ListedQuest) (m : Member) : Bool :=
  let v := b.memberVersion m.version
  (s.qptr q.qid v m.qLang).isSome || (s.qptr q.qid v m.languageCode).isSome ||
    (s.qptr q.qid v english).isSome || (s.qptr q.qid v lang).isSome

theorem lookThrough_some (s : QuestConfig) (b : Builder) (lang : Lang) (second : Bool)
    (q : ListedQuest) (m : Member) (ms : List (Option Member)) (seen : Seen) :
    lookThrough s b lang second q (some m :: ms) seen =
      if (second || canPlay s b lang q m) = true then
        lookThrough s b lang second q ms (seen.see m.version)
      else (false, seen.see m.version) := by
  rw [lookThrough]
  by_cases hplay : (second || canPlay s b lang q m) = true
  · rw [if_pos hplay, if_neg]
    rintro ⟨hsecond, hlang, hcode, henglish, hlist⟩
    rw [hsecond, Bool.false_or, canPlay, hlang, hcode, henglish, hlist] at hplay
    cases hplay
  · rw [if_neg hplay, if_pos]
    simpa [canPlay, and_assoc] using hplay

/-- All clients can play the quest, or the pass does not ask. -/
def allCanPlay (s : QuestConfig) (b : Builder) (l : Game) (lang : Lang) (second : Bool)
    (q : ListedQuest) : Bool :=
  second || l.members.all (canPlay s b lang q)

theorem lookThrough_fst (s : QuestConfig) (b : Builder) (lang : Lang) (second : Bool)
    (q : ListedQuest) (ms : List (Option Member)) (seen : Seen) :
    (lookThrough s b lang second q ms seen).1 =
      (second || ms.reduceOption.all (canPlay s b lang q)) := by
  induction ms generalizing seen with
  | nil => simp [lookThrough]
  | cons m ms ih =>
    cases m with
    | none => exact ih seen
    | some m =>
      rw [lookThrough_some, List.reduceOption_cons_of_some, List.all_cons]
      split_ifs with hplay
      · rw [ih]
        cases second with
        | true => rfl
        | false =>
          rw [Bool.false_or] at hplay
          rw [hplay, Bool.true_and]
      · rw [Bool.or_eq_true, not_or, Bool.not_eq_true, Bool.not_eq_true] at hplay
        rw [hplay.1, hplay.2]
        rfl

/-- Once the loop has seen all clients, it has seen no more than it will have seen at its end. -/
theorem lookThrough_snd (s : QuestConfig) (b : Builder) (lang : Lang) (second : Bool)
    (q : ListedQuest) (ms : List (Option Member)) (seen : Seen)
    (hall : (lookThrough s b lang second q ms seen).1 = true) :
    (lookThrough s b lang second q ms seen).2 = seen.all ms.reduceOption := by
  induction ms generalizing seen with
  | nil => rfl
  | cons m ms ih =>
    cases m with
    | none => exact ih seen hall
    | some m =>
      rw [lookThrough_some] at hall ⊢
      split_ifs at hall ⊢ with hplay
      exact ih _ hall

/-- The flags never go beyond the clients. -/
theorem lookThrough_all (s : QuestConfig) (b : Builder) (lang : Lang) (second : Bool)
    (q : ListedQuest) {members : List Member} {ms : List (Option Member)}
    (hms : ∀ m ∈ ms.reduceOption, m ∈ members) (seen : Seen) :
    (lookThrough s b lang second q ms seen).2.all members = seen.all members := by
  induction ms generalizing seen with
  | nil => rfl
  | cons m ms ih =>
    cases m with
    | none => exact ih hms seen
    | some m =>
      rw [List.reduceOption_cons_of_some] at hms
      have hseen := Seen.all_see_of_mem (hms m List.mem_cons_self) seen
      rw [lookThrough_some]
      split_ifs
      · rw [ih fun n hn => hms n (List.mem_cons_of_mem m hn), hseen]
      · exact hseen

/-- The quests that a pass lists, in terms of the game: the state of the loops has gone. -/
def passes (s : QuestConfig) (b : Builder) (l : Game) (c : Member) (now : ℕ) (lang : Lang)
    (second : Bool) (q : ListedQuest) (i : ℕ) : Bool :=
  decide (b.limit i = .go) && inSeason s b l lang second q && allCanPlay s b l lang second q &&
    permitted c now q && enabled b (b.start.all l.members) q

/-- A limit that has stopped the loop would let nothing through after it. -/
def Builder.Monotone (b : Builder) : Prop :=
  ∀ i j, i ≤ j → b.limit i = .stop → b.limit j ≠ .go

/-- The quests of a category that pass. -/
def passing (s : QuestConfig) (b : Builder) (l : Game) (c : Member) (now : ℕ) (lang : Lang)
    (second : Bool) (cat : Category) : List ListedQuest :=
  ((cat.zipIdx).filter fun x => passes s b l c now lang second x.1 x.2).map Prod.fst

/-- The loop lists what passes, and leaves flags that still agree with the clients. -/
theorem pass_spec (s : QuestConfig) {b : Builder} (hb : b.Monotone) (l : Game) (c : Member)
    (now : ℕ) (lang : Lang) (second : Bool) (i : ℕ) (qs : Category) (seen : Seen)
    (hseen : seen.all l.members = b.start.all l.members) :
    (pass s b l c now lang second i qs seen).1 =
        ((qs.zipIdx i).filter fun x => passes s b l c now lang second x.1 x.2).map Prod.fst ∧
      (pass s b l c now lang second i qs seen).2.all l.members = b.start.all l.members := by
  induction qs generalizing i seen with
  | nil => exact ⟨rfl, hseen⟩
  | cons q qs ih =>
    rw [pass, List.zipIdx_cons]
    have hnext := ih (i + 1)
    cases hlimit : b.limit i with
    | stop =>
      have hnone : ∀ x ∈ (q, i) :: qs.zipIdx (i + 1),
          ¬passes s b l c now lang second x.1 x.2 = true := by
        intro x hx hpass
        rw [← List.zipIdx_cons] at hx
        have hle := (List.le_snd_of_mem_zipIdx hx)
        simp only [passes, Bool.and_eq_true, decide_eq_true_eq] at hpass
        exact hb i x.2 hle hlimit hpass.1.1.1.1
      refine ⟨?_, hseen⟩
      rw [List.filter_eq_nil_iff.mpr hnone]
      rfl
    | skip =>
      have hskip : passes s b l c now lang second q i = false := by
        simp [passes, hlimit]
      rw [List.filter_cons, hskip]
      exact hnext seen hseen
    | go =>
      have hlooked : (lookThrough s b lang second q l.clients seen).2.all l.members =
          b.start.all l.members :=
        (lookThrough_all s b lang second q (fun _ hm => hm) seen).trans hseen
      have hplay : (lookThrough s b lang second q l.clients seen).1 =
          allCanPlay s b l lang second q :=
        lookThrough_fst s b lang second q l.clients seen
      rw [List.filter_cons]
      simp only [passes, hlimit, decide_true, Bool.true_and]
      cases hseason : inSeason s b l lang second q with
      | false => exact hnext seen hseen
      | true =>
        rw [if_neg (by decide), hplay]
        cases hcan : allCanPlay s b l lang second q with
        | false => exact hnext _ hlooked
        | true =>
          have hend : (lookThrough s b lang second q l.clients seen).2 = b.start.all l.members := by
            rw [lookThrough_snd s b lang second q l.clients seen (hplay.trans hcan)]
            exact hseen
          rw [if_neg (by decide), hend]
          rw [hend] at hlooked
          obtain ⟨hlist, hflags⟩ := hnext _ hlooked
          cases permitted c now q with
          | false => exact ⟨hlist, hflags⟩
          | true =>
            cases enabled b (b.start.all l.members) q with
            | false => exact ⟨hlist, hflags⟩
            | true =>
              refine ⟨?_, hflags⟩
              simp only [if_neg (show ¬true = false by decide), Bool.and_self, if_true,
                List.map_cons]
              exact congrArg _ hlist

theorem pass_first (s : QuestConfig) {b : Builder} (hb : b.Monotone) (l : Game) (c : Member)
    (now : ℕ) (lang : Lang) (cat : Category) :
    (pass s b l c now lang false 0 cat b.start).1 = passing s b l c now lang false cat :=
  (pass_spec s hb l c now lang false 0 cat b.start rfl).1

theorem pass_second (s : QuestConfig) {b : Builder} (hb : b.Monotone) (l : Game) (c : Member)
    (now : ℕ) (lang : Lang) (cat caten : Category) :
    (pass s b l c now lang true 0 caten (pass s b l c now lang false 0 cat b.start).2).1 =
      passing s b l c now lang true caten :=
  (pass_spec s hb l c now lang true 0 caten _
    (pass_spec s hb l c now lang false 0 cat b.start rfl).2).1

theorem oneEpisode_monotone (l : Game) {i j : ℕ} (hij : i ≤ j) (h : oneEpisode l i = .stop) :
    oneEpisode l j ≠ .go := by
  rw [oneEpisode] at h ⊢
  split_ifs at h with hi
  rw [if_pos ⟨hi.1, hi.2.trans hij⟩]
  decide

theorem twoEpisodes_monotone (l : Game) {i j : ℕ} (hij : i ≤ j) (h : twoEpisodes l i = .stop) :
    twoEpisodes l j ≠ .go := by
  rw [twoEpisodes] at h ⊢
  split_ifs at h with hchal hfirst hi
  rw [if_pos hchal, if_neg (by omega), if_pos (by omega)]
  decide

theorem builder_monotone (l : Game) (c : Member) : (builder l c).Monotone := by
  intro i j hij h
  rw [builder] at h ⊢
  revert h
  cases c.version with
  | dcv1 | dcv2 | pc => exact fun h => oneEpisode_monotone l hij h
  | gc | ep3 | xbox | bb => exact fun h => twoEpisodes_monotone l hij h

end ShipServer.QuestLists

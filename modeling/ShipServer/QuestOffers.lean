import ShipServer.QuestLists

set_option autoImplicit false

/-! Quests that are offered, and quests that are started. -/

namespace ShipServer.QuestOffers

open Versions QuestSetup QuestLists

/-- What `send_quest` does for a client. It disconnects a client it finds no quest for, and gives
up at a file that it cannot send to the client's version. -/
inductive Transfer where
  | sent (ver : ClientVersion) (langCode : ℕ) (q : ListedQuest)
  | disconnected
  | stopped

/-- The version whose file a client gets: version 2 gets the files of version 1 in a game for
both. -/
def transferVersion (l : Game) (v : ClientVersion) : ClientVersion :=
  if (l.v2 = false ∧ l.version < .gc) ∧ v = .dcv2 then .dcv1 else asGamecube v

def firstEntry (s : QuestConfig) (qid : BitVec 32) (ver : ClientVersion) :
    List ℕ → Option (ℕ × ListedQuest)
  | [] => none
  | code :: codes =>
    match s.qptr qid ver code with
    | some q => some (code, q)
    | none => firstEntry s qid ver codes

/-- The entry that a client gets, `lc` being the language in which the quest was selected. -/
def memberEntry (s : QuestConfig) (l : Game) (qid : BitVec 32) (lc : ℕ) (m : Member) :
    Option (ℕ × ListedQuest) :=
  firstEntry s qid (transferVersion l m.version) [m.qLang, m.languageCode, english.val, lc]

def transfer (s : QuestConfig) (l : Game) (qid : BitVec 32) (lc : ℕ) (m : Member) : Transfer :=
  let ver := transferVersion l m.version
  match memberEntry s l qid lc m with
  | none => .disconnected
  | some (code, q) =>
    if q.format = .bindat ∧ (ver = .ep3 ∨ ver = .bb) then .stopped else .sent ver code q

def sendLoop (s : QuestConfig) (l : Game) (qid : BitVec 32) (lc : ℕ) :
    List (Option Member) → List (Member × Transfer)
  | [] => []
  | none :: ms => sendLoop s l qid lc ms
  | some m :: ms =>
    match transfer s l qid lc m with
    | .stopped => [(m, .stopped)]
    | .disconnected => (m, .disconnected) :: sendLoop s l qid lc ms
    | .sent ver code q => (m, .sent ver code q) :: sendLoop s l qid lc ms

/-- `send_quest`. -/
def sendQuest (s : QuestConfig) (l : Game) (qid : BitVec 32) (lc : ℕ) :
    Option (List (Member × Transfer)) :=
  if (questLookup s.qmap qid).isSome then some (sendLoop s l qid lc l.clients) else none

/-- A client gets an entry of the quest, and not what is behind a row of its table. -/
def Transfer.Good : Transfer → Prop
  | .sent _ code _ => code < 8
  | _ => False

/-- `send_quest` gets to all clients, and sends the quest to each. -/
def Playable (s : QuestConfig) (l : Game) (qid : BitVec 32) (lc : ℕ) : Prop :=
  ∃ ts, sendQuest s l qid lc = some ts ∧ ts.map Prod.fst = l.members ∧ ∀ t ∈ ts, t.2.Good

/-- The language of a list, after the builders have tried the English one. -/
def listLang (s : QuestConfig) (b : Builder) (cn : ℕ) (lang : Lang) : Lang :=
  if (s.qlist b.ver lang).length ≤ cn then english else lang

def categoryAt (s : QuestConfig) (v : ClientVersion) (lang : Lang) (cn : ℕ) : Category :=
  (s.qlist v lang)[cn]?.getD []

/-- The quests in the category of the list's language that pass the filters. -/
def eligible (s : QuestConfig) (l : Game) (c : Member) (now cn : ℕ) (lang : Lang) :
    List ListedQuest :=
  passing s (builder l c) l c now lang false (categoryAt s (builder l c).ver lang cn)

/-- The quests in the English category that have no entry in the list's language, and that pass
the filters. -/
def eligibleEnglish (s : QuestConfig) (l : Game) (c : Member) (now cn : ℕ) (lang : Lang) :
    List ListedQuest :=
  if lang = english then []
  else passing s (builder l c) l c now lang true (categoryAt s (builder l c).ver english cn)

/-- What is offered can be played by all, and each quest that passes the filters is offered
once. -/
def GoodOffers (s : QuestConfig) (l : Game) (c : Member) (now cn langCode : ℕ) : Prop :=
  match sendQuestList s l c now cn langCode with
  | .refused => True
  | .outside => False
  | .sent offers =>
    (∀ o ∈ offers, Playable s l o.qid o.lang) ∧
      ∀ lang : Lang, lang.val = langCode →
        let lang := listLang s (builder l c) cn lang
        ∀ q ∈ eligible s l c now cn lang ++ eligibleEnglish s l c now cn lang,
          offers.countP (fun o => o.qid = q.qid) = 1

/-- The entry that a client gets, if there is one, is in the table and of a format that can be
sent. -/
def EntryFits (s : QuestConfig) (l : Game) (qid : BitVec 32) (lc : ℕ) (m : Member) : Prop :=
  ∀ code q, memberEntry s l qid lc m = some (code, q) →
    code < 8 ∧ ¬(q.format = .bindat ∧
      (transferVersion l m.version = .ep3 ∨ transferVersion l m.version = .bb))

/-- When the quests of the first pass can be played: only the list of a Blue Burst client looks
at entries that are not those that are sent. -/
def FirstFits (s : QuestConfig) (l : Game) (c : Member) (now cn : ℕ) (lang : Lang) : Prop :=
  ((eligible s l c now cn lang).map ListedQuest.qid).Nodup ∧
    ∀ q ∈ eligible s l c now cn lang, ∀ m ∈ l.members, EntryFits s l q.qid lang m ∧
      (c.version = .bb → transferVersion l m.version ≠ m.version →
        memberEntry s l q.qid lang m ≠ none)

/-- When those of the second pass can: it does not ask the clients, and only the clients that play
the files of the list are sure of an entry. -/
def SecondFits (s : QuestConfig) (l : Game) (c : Member) (now cn : ℕ) (lang : Lang) : Prop :=
  ((eligibleEnglish s l c now cn lang).map ListedQuest.qid).Nodup ∧
    ∀ q ∈ eligibleEnglish s l c now cn lang, ∀ m ∈ l.members, EntryFits s l q.qid lang m ∧
      (transferVersion l m.version ≠ (builder l c).ver → memberEntry s l q.qid lang m ≠ none)

/-- When the offers are good: where the list's language has the category, English has it too, and
both passes offer what fits. -/
def OffersFit (s : QuestConfig) (l : Game) (c : Member) (now cn : ℕ) (lang : Lang) : Prop :=
  cn < (s.qlist (builder l c).ver lang).length →
    (lang = english ∨ cn < (s.qlist (builder l c).ver english).length) ∧
      FirstFits s l c now cn lang ∧ SecondFits s l c now cn lang

section Transfers

variable {s : QuestConfig} {l : Game} {qid : BitVec 32} {lc : ℕ} {m : Member}

theorem firstEntry_ne_none {ver : ClientVersion} {codes : List ℕ} :
    firstEntry s qid ver codes ≠ none ↔ ∃ code ∈ codes, (s.qptr qid ver code).isSome = true := by
  induction codes with
  | nil => simp [firstEntry]
  | cons code codes ih =>
    rw [firstEntry]
    cases hentry : s.qptr qid ver code with
    | none => simp [hentry, ih]
    | some q => simp [hentry]

theorem memberEntry_ne_none :
    memberEntry s l qid lc m ≠ none ↔
      ((s.qptr qid (transferVersion l m.version) m.qLang).isSome = true ∨
        (s.qptr qid (transferVersion l m.version) m.languageCode).isSome = true ∨
          (s.qptr qid (transferVersion l m.version) english).isSome = true ∨
            (s.qptr qid (transferVersion l m.version) lc).isSome = true) := by
  rw [memberEntry, firstEntry_ne_none]
  simp

theorem transfer_good_iff :
    (transfer s l qid lc m).Good ↔
      EntryFits s l qid lc m ∧ memberEntry s l qid lc m ≠ none := by
  rw [transfer, EntryFits]
  cases hentry : memberEntry s l qid lc m with
  | none => exact ⟨False.elim, fun h => h.2 rfl⟩
  | some found =>
    obtain ⟨code, q⟩ := found
    change (if _ then _ else _ : Transfer).Good ↔ _
    split_ifs with hformat
    · constructor
      · exact False.elim
      · exact fun h => (h.1 code q rfl).2 hformat
    · constructor
      · intro hcode
        refine ⟨?_, by simp⟩
        rintro _ _ ⟨rfl, rfl⟩
        exact ⟨hcode, hformat⟩
      · exact fun h => (h.1 code q rfl).1

/-- The loop gets to all clients and sends to each exactly when each one can be sent to. -/
theorem sendLoop_good_iff (ms : List (Option Member)) :
    (((sendLoop s l qid lc ms).map Prod.fst = ms.reduceOption ∧
        ∀ t ∈ sendLoop s l qid lc ms, t.2.Good) ↔
      ∀ m ∈ ms.reduceOption, (transfer s l qid lc m).Good) := by
  induction ms with
  | nil => simp [sendLoop]
  | cons m ms ih =>
    cases m with
    | none => exact ih
    | some m =>
      rw [sendLoop, List.reduceOption_cons_of_some, List.forall_mem_cons, ← ih]
      cases htransfer : transfer s l qid lc m with
      | stopped => simp [Transfer.Good]
      | disconnected => simp [Transfer.Good]
      | sent ver code q => simp [and_left_comm]

theorem playable_iff (hmapped : (questLookup s.qmap qid).isSome = true) :
    Playable s l qid lc ↔ ∀ m ∈ l.members, EntryFits s l qid lc m ∧
      memberEntry s l qid lc m ≠ none := by
  rw [Playable, sendQuest, if_pos hmapped]
  constructor
  · rintro ⟨ts, hts, hall⟩ m hm
    cases hts
    exact transfer_good_iff.mp ((sendLoop_good_iff l.clients).mp hall m hm)
  · intro hall
    exact ⟨_, rfl, (sendLoop_good_iff l.clients).mpr fun m hm => transfer_good_iff.mpr (hall m hm)⟩

theorem isSome_questLookup {v : ClientVersion} {lang : Lang}
    (h : (s.qptr qid v lang).isSome = true) : (questLookup s.qmap qid).isSome = true := by
  rw [qptr_of_lang, entry] at h
  exact Option.isSome_of_isSome_bind h

end Transfers

section Offers

variable {s : QuestConfig} {l : Game} {c : Member} {now cn : ℕ} {lang : Lang} {q : ListedQuest}

theorem mem_passing {b : Builder} {second : Bool} {cat : Category} :
    q ∈ passing s b l c now lang second cat ↔
      ∃ i, cat[i]? = some q ∧ passes s b l c now lang second q i = true := by
  rw [passing, List.mem_map]
  constructor
  · rintro ⟨⟨q', i⟩, hmem, rfl⟩
    rw [List.mem_filter, List.mem_zipIdx_iff_getElem?] at hmem
    exact ⟨i, hmem⟩
  · rintro ⟨i, hi⟩
    exact ⟨(q, i), List.mem_filter.mpr ⟨List.mem_zipIdx_iff_getElem?.mpr hi.1, hi.2⟩, rfl⟩

/-- A quest that passes is in the category. -/
theorem mem_of_mem_passing {b : Builder} {second : Bool} {cat : Category}
    (h : q ∈ passing s b l c now lang second cat) : q ∈ cat := by
  obtain ⟨i, hi, -⟩ := mem_passing.mp h
  exact List.mem_of_getElem? hi

theorem mem_categoryAt {v : ClientVersion} (h : q ∈ categoryAt s v lang cn) :
    (s.qptr q.qid v lang).isSome = true := by
  rw [categoryAt] at h
  cases hcat : (s.qlist v lang)[cn]? with
  | none =>
    rw [hcat] at h
    cases h
  | some cat =>
    rw [hcat] at h
    exact qptr_of_mem hcat h

theorem qptr_of_eligible (h : q ∈ eligible s l c now cn lang) :
    (s.qptr q.qid (builder l c).ver lang).isSome = true :=
  mem_categoryAt (mem_of_mem_passing h)

theorem canPlay_of_eligible (h : q ∈ eligible s l c now cn lang) {m : Member}
    (hm : m ∈ l.members) : canPlay s (builder l c) lang q m = true := by
  obtain ⟨i, -, hpass⟩ := mem_passing.mp h
  simp only [passes, allCanPlay, Bool.false_or, Bool.and_eq_true] at hpass
  exact List.all_eq_true.mp hpass.1.1.2 m hm

theorem qptr_of_eligibleEnglish (h : q ∈ eligibleEnglish s l c now cn lang) :
    (s.qptr q.qid (builder l c).ver english).isSome = true ∧
      s.qptr q.qid (builder l c).ver lang = none := by
  rw [eligibleEnglish] at h
  split_ifs at h with hlang
  · cases h
  · refine ⟨mem_categoryAt (mem_of_mem_passing h), ?_⟩
    obtain ⟨i, -, hpass⟩ := mem_passing.mp h
    simp only [passes, inSeason, Bool.not_true, Bool.false_or, Bool.and_eq_true,
      Option.isNone_iff_eq_none] at hpass
    exact hpass.1.1.1.2.1.1

/-- A list that has a category lists what passes in it, and in the English one. -/
theorem sendQuestList_eq (hcat : cn < (s.qlist (builder l c).ver lang).length)
    (henglish : lang = english ∨ cn < (s.qlist (builder l c).ver english).length) :
    sendQuestList s l c now cn lang =
      .sent ((eligible s l c now cn lang).map (writer c lang false) ++
        (eligibleEnglish s l c now cn lang).map (writer c lang true)) := by
  have hmono := builder_monotone l c
  rw [sendQuestList_of_lt, questListWith, if_neg (by omega), eligible, eligibleEnglish, categoryAt,
    List.getElem?_eq_getElem hcat]
  change (if lang = english then _ else _ : Listing) = _
  rw [pass_first s hmono]
  split_ifs with hlang
  · rw [List.map_nil, List.append_nil]
    rfl
  · have hlt := henglish.resolve_left hlang
    rw [categoryAt, List.getElem?_eq_getElem hlt]
    change Listing.sent (_ ++ _) = _
    rw [pass_second s hmono]
    rfl

/-- Where the English list is shorter, the builders look behind its end. -/
theorem sendQuestList_outside (hcat : cn < (s.qlist (builder l c).ver lang).length)
    (hlang : lang ≠ english) (henglish : ¬cn < (s.qlist (builder l c).ver english).length) :
    sendQuestList s l c now cn lang = .outside := by
  rw [sendQuestList_of_lt, questListWith, if_neg (by omega), List.getElem?_eq_getElem hcat,
    List.getElem?_eq_none (by omega)]
  exact if_neg hlang

/-- A language without the category is as good as English. -/
theorem sendQuestList_fallback (hcat : ¬cn < (s.qlist (builder l c).ver lang).length) :
    sendQuestList s l c now cn lang = sendQuestList s l c now cn english := by
  rw [sendQuestList_of_lt, sendQuestList_of_lt, questListWith, questListWith, if_pos (by omega),
    ite_self]

theorem sendQuestList_refused (hcat : ¬cn < (s.qlist (builder l c).ver english).length) :
    sendQuestList s l c now cn english = .refused := by
  rw [sendQuestList_of_lt, questListWith, ite_self, List.getElem?_eq_none (by omega)]

/-- The language of the list, in which the offers are good or not. -/
theorem sendQuestList_listLang (s : QuestConfig) (l : Game) (c : Member) (now cn : ℕ)
    (lang : Lang) :
    sendQuestList s l c now cn lang =
      sendQuestList s l c now cn (listLang s (builder l c) cn lang) := by
  rw [listLang]
  split_ifs with hlt
  · exact sendQuestList_fallback (by omega)
  · rfl

/-- Where the check of the first pass looks at the entries that are sent, its quests have an entry
for each client. -/
theorem memberEntry_of_eligible (h : q ∈ eligible s l c now cn lang) {m : Member}
    (hm : m ∈ l.members)
    (hsame : c.version = .bb → transferVersion l m.version = m.version) :
    memberEntry s l q.qid lang m ≠ none := by
  have hlist := qptr_of_eligible h
  have hplay := canPlay_of_eligible h hm
  rw [memberEntry_ne_none]
  by_cases hver : transferVersion l m.version = (builder l c).ver
  · rw [hver]
    exact Or.inr (Or.inr (Or.inr hlist))
  · have hlook : (builder l c).memberVersion m.version = transferVersion l m.version := by
      by_cases hbb : c.version = .bb
      · rw [hsame hbb, builder, hbb]
        rfl
      · have hcube : (builder l c).memberVersion = asGamecube := by
          rw [builder]
          cases hc : c.version <;> first | rfl | exact absurd hc hbb
        rw [hcube, transferVersion]
        split_ifs with hv1
        · -- the lists of a game for both versions are those of version 1
          refine absurd ?_ hver
          rw [transferVersion, if_pos hv1]
          have hgc : ¬(l.version = .gc ∨ l.version = .xbox) := by
            rintro (hl | hl) <;> exact absurd (hl ▸ hv1.1.2) (by decide)
          rw [builder]
          cases hc : c.version with
          | bb => exact absurd hc hbb
          | dcv1 | dcv2 => simp [dcBuilder, hv1.1.1]
          | pc => simp [pcBuilder, hv1.1.1]
          | gc | ep3 | xbox =>
            rw [gcBuilder, if_neg hgc]
            simp [hv1.1.1]
        · rfl
    rw [canPlay, hlook] at hplay
    simp only [Bool.or_eq_true, or_assoc] at hplay
    exact hplay

theorem playable_first_iff (h : q ∈ eligible s l c now cn lang) :
    Playable s l q.qid lang ↔ ∀ m ∈ l.members, EntryFits s l q.qid lang m ∧
      (c.version = .bb → transferVersion l m.version ≠ m.version →
        memberEntry s l q.qid lang m ≠ none) := by
  rw [playable_iff (isSome_questLookup (qptr_of_eligible h))]
  refine forall₂_congr fun m hm => and_congr_right fun _ => ?_
  refine ⟨fun hentry _ _ => hentry, fun hbb => ?_⟩
  by_cases hsame : c.version = .bb → transferVersion l m.version = m.version
  · exact memberEntry_of_eligible h hm hsame
  · rw [Classical.not_imp] at hsame
    exact hbb hsame.1 hsame.2

theorem playable_second_iff (h : q ∈ eligibleEnglish s l c now cn lang) :
    Playable s l q.qid lang ↔ ∀ m ∈ l.members, EntryFits s l q.qid lang m ∧
      (transferVersion l m.version ≠ (builder l c).ver →
        memberEntry s l q.qid lang m ≠ none) := by
  obtain ⟨henglish, -⟩ := qptr_of_eligibleEnglish h
  rw [playable_iff (isSome_questLookup henglish)]
  refine forall₂_congr fun m hm => and_congr_right fun _ => ?_
  refine ⟨fun hentry _ => hentry, fun hother => ?_⟩
  by_cases hver : transferVersion l m.version = (builder l c).ver
  · rw [memberEntry_ne_none, hver]
    exact Or.inr (Or.inr (Or.inl henglish))
  · exact hother hver

/-- Each quest of a list occurs once exactly when no two of them have one id. -/
theorem countP_offers_iff (quests : List ListedQuest) (offers : List Offer)
    (hoffers : offers.map Offer.qid = quests.map ListedQuest.qid) :
    (∀ q ∈ quests, offers.countP (fun o => o.qid = q.qid) = 1) ↔
      (quests.map ListedQuest.qid).Nodup := by
  have hcount : ∀ qid, offers.countP (fun o => o.qid = qid) =
      (quests.map ListedQuest.qid).count qid := by
    intro qid
    rw [← hoffers, List.count, List.countP_map]
    refine List.countP_congr fun o _ => ?_
    simp
  rw [List.nodup_iff_count_eq_one, List.forall_mem_map]
  exact forall₂_congr fun q _ => by rw [hcount]

/-- The passes have no quest in common. -/
theorem nodup_eligible_append :
    ((eligible s l c now cn lang ++ eligibleEnglish s l c now cn lang).map ListedQuest.qid).Nodup ↔
      ((eligible s l c now cn lang).map ListedQuest.qid).Nodup ∧
        ((eligibleEnglish s l c now cn lang).map ListedQuest.qid).Nodup := by
  have hdisjoint : List.Disjoint ((eligible s l c now cn lang).map ListedQuest.qid)
      ((eligibleEnglish s l c now cn lang).map ListedQuest.qid) := by
    intro qid hfirst hsecond
    obtain ⟨q, hq, rfl⟩ := List.mem_map.mp hfirst
    obtain ⟨q', hq', hid⟩ := List.mem_map.mp hsecond
    have hnone := (qptr_of_eligibleEnglish hq').2
    have hsome := qptr_of_eligible hq
    rw [hid] at hnone
    rw [hnone] at hsome
    cases hsome
  rw [List.map_append, List.nodup_append', and_iff_left_of_imp fun _ => hdisjoint] 

/-- The offers of a list in the language that it is in. -/
theorem goodOffers_iff_of_lt (hcat : cn < (s.qlist (builder l c).ver lang).length) :
    GoodOffers s l c now cn lang ↔ OffersFit s l c now cn lang := by
  have hlang : listLang s (builder l c) cn lang = lang := if_neg (by omega)
  rw [OffersFit, forall_prop_of_true hcat]
  by_cases henglish : lang = english ∨ cn < (s.qlist (builder l c).ver english).length
  · rw [and_iff_right henglish, GoodOffers, sendQuestList_eq hcat henglish]
    have honce := countP_offers_iff
      (eligible s l c now cn lang ++ eligibleEnglish s l c now cn lang)
      ((eligible s l c now cn lang).map (writer c lang false) ++
        (eligibleEnglish s l c now cn lang).map (writer c lang true)) (by simp [Function.comp_def])
    have hlist : (∀ lang' : Lang, lang'.val = lang.val →
          let lang'' := listLang s (builder l c) cn lang'
          ∀ q ∈ eligible s l c now cn lang'' ++ eligibleEnglish s l c now cn lang'',
            ((eligible s l c now cn lang).map (writer c lang false) ++
              (eligibleEnglish s l c now cn lang).map (writer c lang true)).countP
              (fun o => o.qid = q.qid) = 1) ↔
        ((eligible s l c now cn lang).map ListedQuest.qid).Nodup ∧
          ((eligibleEnglish s l c now cn lang).map ListedQuest.qid).Nodup := by
      rw [← nodup_eligible_append, ← honce]
      constructor
      · intro h
        have hself := h lang rfl
        rw [hlang] at hself
        exact hself
      · intro h lang' heq
        rw [Fin.ext heq, hlang]
        exact h
    have hplay : (∀ o ∈ (eligible s l c now cn lang).map (writer c lang false) ++
          (eligibleEnglish s l c now cn lang).map (writer c lang true),
          Playable s l o.qid o.lang) ↔
        (∀ q ∈ eligible s l c now cn lang, Playable s l q.qid lang) ∧
          ∀ q ∈ eligibleEnglish s l c now cn lang, Playable s l q.qid lang := by
      rw [List.forall_mem_append, List.forall_mem_map, List.forall_mem_map]
      simp only [writer_qid, writer_lang]
    refine (and_congr hplay hlist).trans (and_and_and_comm.trans (and_congr ?_ ?_))
    · rw [FirstFits, and_comm]
      exact and_congr_right fun _ => forall₂_congr fun q hq => playable_first_iff hq
    · rw [SecondFits, and_comm]
      exact and_congr_right fun _ => forall₂_congr fun q hq => playable_second_iff hq
  · rw [not_or] at henglish
    rw [GoodOffers, sendQuestList_outside hcat henglish.1 henglish.2]
    exact ⟨False.elim, fun h => h.1.elim henglish.1 henglish.2⟩

end Offers

/-- What a list offers can be played, and is offered once, exactly when the entries of its quests
fit the clients, and the English list has the category. -/
theorem goodOffers_iff (s : QuestConfig) (l : Game) (c : Member) (now cn langCode : ℕ) :
    GoodOffers s l c now cn langCode ↔
      ∀ lang : Lang, lang.val = langCode →
        OffersFit s l c now cn (listLang s (builder l c) cn lang) := by
  by_cases hcode : langCode < 8
  · obtain ⟨lang, rfl⟩ : ∃ lang : Lang, lang.val = langCode := ⟨⟨langCode, hcode⟩, rfl⟩
    have hself : (∀ lang' : Lang, lang'.val = lang.val →
        OffersFit s l c now cn (listLang s (builder l c) cn lang')) ↔
        OffersFit s l c now cn (listLang s (builder l c) cn lang) := by
      constructor
      · exact fun h => h lang rfl
      · intro h lang' heq
        rw [Fin.ext heq]
        exact h
    rw [hself]
    by_cases hcat : cn < (s.qlist (builder l c).ver lang).length
    · rw [listLang, if_neg (by omega)]
      exact goodOffers_iff_of_lt hcat
    · have hlang : listLang s (builder l c) cn lang = english := if_pos (by omega)
      have henglish : listLang s (builder l c) cn english = english := ite_self _
      have hgood : GoodOffers s l c now cn lang ↔ GoodOffers s l c now cn english := by
        rw [GoodOffers, GoodOffers, sendQuestList_fallback hcat]
        cases sendQuestList s l c now cn english with
        | refused => exact Iff.rfl
        | outside => exact Iff.rfl
        | sent offers =>
          refine and_congr_right fun _ => ?_
          constructor
          · intro h lang' heq
            have := h lang rfl
            rw [hlang] at this
            rw [Fin.ext heq, henglish]
            exact this
          · intro h lang' heq
            have := h english rfl
            rw [henglish] at this
            rw [Fin.ext heq, hlang]
            exact this
      rw [hgood, hlang]
      by_cases hlt : cn < (s.qlist (builder l c).ver english).length
      · exact goodOffers_iff_of_lt hlt
      · rw [GoodOffers, sendQuestList_refused hlt]
        exact iff_of_true trivial fun h => absurd h hlt
  · rw [GoodOffers, sendQuestList_of_ge s l c now cn hcode]
    exact iff_of_true trivial fun lang heq => absurd (heq ▸ lang.isLt) hcode

/-- A quest of version 2 for everybody. -/
def freeQuest : ListedQuest where
  flag16 := false
  dataFl := false
  joinable := false
  syncRegs := false
  serverFlag16Reg := 0
  serverDataReg := 0
  serverCtlReg := 0
  syncedRegs := []
  monsterTypes := []
  monsterIds := []
  onloadScript := none
  beforeloadScript := none
  qid := 118
  event := 1
  maxPlayers := 4
  minPlayers := 1
  privileges := 0
  startTime := 0
  endTime := 0
  hidden := false
  noDc := false
  noPc := false
  noGc := false
  noXb := false
  episode := 1
  format := .qst
  name := []
  desc := []

/-- A client that is nobody in particular and speaks Japanese. -/
def visitor (v : ClientVersion) : Member where
  version := v
  qLang := japanese.val
  languageCode := japanese.val
  privilege := 0
  loggedIn := false

/-- A category that is empty in Japanese, and has a quest in English for Dreamcast only. -/
def englishOnly (q : ListedQuest) : QuestConfig where
  qlist v lang :=
    if v = .dcv2 then if lang = english then [[q]] else if lang = japanese then [[]] else []
    else []
  behind _ _ _ := none

/-- A game of version 2, on Dreamcast and PC. -/
def mixedGame : Game where
  version := .dcv2
  v2 := true
  event := 0
  numClients := 2
  challenge := false
  maxChal := 0xFF
  clients := [some (visitor .dcv2), some (visitor .pc), none, none]

/-- The second pass offers a quest that the PC client has no file for. -/
theorem goodOffers_not :
    ¬∀ (s : QuestConfig) (l : Game) (c : Member), c ∈ l.members → ∀ now cn langCode,
      GoodOffers s l c now cn langCode := by
  intro h
  have hgood := h (englishOnly freeQuest) mixedGame (visitor .dcv2) List.mem_cons_self 0 0 0
  have hlist : sendQuestList (englishOnly freeQuest) mixedGame (visitor .dcv2) 0 0 0 =
      .sent [writer (visitor .dcv2) japanese true freeQuest] := rfl
  rw [GoodOffers, hlist] at hgood
  obtain ⟨ts, hts, -, hall⟩ := hgood.1 _ List.mem_cons_self
  have hquest : sendQuest (englishOnly freeQuest) mixedGame 118 0 =
      some [(visitor .dcv2, .sent .dcv2 1 freeQuest), (visitor .pc, .disconnected)] := rfl
  rw [show (writer (visitor .dcv2) japanese true freeQuest).qid = 118 from rfl,
    show (writer (visitor .dcv2) japanese true freeQuest).lang.val = 0 from rfl, hquest] at hts
  cases hts
  exact hall _ (List.mem_cons_of_mem _ List.mem_cons_self)

/-- A game in which quests are selected, and what the selection looks at. -/
structure QuestGame where
  config : QuestConfig
  game : Game
  battle : Bool
  bursting : Bool
  now : ℕ

namespace QuestGame

/-- The quests of the ship, for the setup of a quest. -/
def setupEnv (g : QuestGame) (env : SetupEnv) : SetupEnv :=
  { env with
    configured := !g.config.qmap.isEmpty
    questLookup := fun qid => (questLookup g.config.qmap qid).map fun e v =>
      Vector.ofFn fun lang => (e.qptr v lang).map ListedQuest.toQuest }

def setupLobby (g : QuestGame) : SetupLobby where
  version := g.game.version
  challenge := g.game.challenge
  battle := g.battle

/-- `MENU_ID_QUEST` in `process_menu`: the quest that is started. -/
def processMenuQuest (g : QuestGame) (env : SetupEnv) (qid : BitVec 32) : Option (BitVec 32) :=
  if g.bursting then none
  else (findQuest (g.setupEnv env) g.setupLobby qid).map Prod.fst

end QuestGame

/-- A packet that selects a quest, or anything that changes the game between two of them. -/
inductive Event where
  | change (g : QuestGame)
  | select (c : Member) (env : SetupEnv) (qid : BitVec 32) (langCode : ℕ)

/-- A selection that has started the quest that it names. -/
structure Start where
  state : QuestGame
  client : Member
  qid : BitVec 32
  langCode : ℕ

/-- The quests that a run starts, but for those that a script puts in the place of others. -/
def starts : QuestGame → List Event → List Start
  | _, [] => []
  | _, .change g :: es => starts g es
  | g, .select c env qid langCode :: es =>
    if c ∈ g.game.members ∧ g.processMenuQuest env qid = some qid then
      { state := g, client := c, qid := qid, langCode := langCode } :: starts g es
    else starts g es

/-- The quest is on a list for the client at this moment, in the language of the packet. -/
def Start.OnList (x : Start) : Prop :=
  ∃ cn langCode offers,
    sendQuestList x.state.config x.state.game x.client x.state.now cn langCode = .sent offers ∧
      ∃ o ∈ offers, o.qid = x.qid ∧ o.lang.val = x.langCode

/-- The quest is in a category of the language of the packet, or in the English one without an
entry in this language, and passes the filters there: the limit of challenge mode, the event, the
number of players, the clients' versions, the privileges, the times and the flags. -/
def Start.Filtered (x : Start) : Prop :=
  ∃ (lang : Lang) (cn : ℕ), lang.val = x.langCode ∧
    let s := x.state.config
    let b := builder x.state.game x.client
    cn < (s.qlist b.ver lang).length ∧ (lang = english ∨ cn < (s.qlist b.ver english).length) ∧
      ∃ q i, q.qid = x.qid ∧
        ((categoryAt s b.ver lang cn)[i]? = some q ∧
            passes s b x.state.game x.client x.state.now lang false q i = true ∨
          lang ≠ english ∧ (categoryAt s b.ver english cn)[i]? = some q ∧
            passes s b x.state.game x.client x.state.now lang true q i = true)

theorem mem_eligibleEnglish {s : QuestConfig} {l : Game} {c : Member} {now cn : ℕ} {lang : Lang}
    {q : ListedQuest} :
    q ∈ eligibleEnglish s l c now cn lang ↔
      lang ≠ english ∧
        q ∈ passing s (builder l c) l c now lang true
          (categoryAt s (builder l c).ver english cn) := by
  rw [eligibleEnglish]
  split_ifs with hlang
  · exact ⟨fun h => absurd h List.not_mem_nil, fun h => absurd hlang h.1⟩
  · exact (and_iff_right hlang).symm

/-- What has been sent for a language is in the language of the list. -/
theorem sendQuestList_sent {s : QuestConfig} {l : Game} {c : Member} {now cn : ℕ} {lang : Lang}
    {offers : List Offer} (h : sendQuestList s l c now cn lang = .sent offers) :
    let lang := listLang s (builder l c) cn lang
    cn < (s.qlist (builder l c).ver lang).length ∧
      (lang = english ∨ cn < (s.qlist (builder l c).ver english).length) ∧
        offers = (eligible s l c now cn lang).map (writer c lang false) ++
          (eligibleEnglish s l c now cn lang).map (writer c lang true) := by
  rw [sendQuestList_listLang] at h
  by_cases hcat : cn < (s.qlist (builder l c).ver (listLang s (builder l c) cn lang)).length
  · by_cases henglish : listLang s (builder l c) cn lang = english ∨
        cn < (s.qlist (builder l c).ver english).length
    · rw [sendQuestList_eq hcat henglish] at h
      exact ⟨hcat, henglish, (Listing.sent.inj h).symm⟩
    · rw [not_or] at henglish
      rw [sendQuestList_outside hcat henglish.1 henglish.2] at h
      cases h
  · rw [sendQuestList_fallback hcat] at h
    have hshort : ¬cn < (s.qlist (builder l c).ver english).length := by
      intro hlt
      rw [listLang] at hcat
      split_ifs at hcat with hle
      · exact hcat hlt
      · exact hcat (by omega)
    rw [sendQuestList_refused hshort] at h
    cases h

theorem onList_iff (x : Start) : x.OnList ↔ x.Filtered := by
  constructor
  · rintro ⟨cn, langCode, offers, hlist, o, ho, hqid, hlang⟩
    by_cases hcode : langCode < 8
    · obtain ⟨lang, rfl⟩ : ∃ lang : Lang, lang.val = langCode := ⟨⟨langCode, hcode⟩, rfl⟩
      obtain ⟨hcat, henglish, rfl⟩ := sendQuestList_sent hlist
      rcases List.mem_append.mp ho with hfirst | hsecond
      · obtain ⟨q, hq, rfl⟩ := List.mem_map.mp hfirst
        obtain ⟨i, hi⟩ := mem_passing.mp hq
        rw [writer_qid] at hqid
        rw [writer_lang] at hlang
        exact ⟨_, cn, hlang, hcat, henglish, q, i, hqid, Or.inl hi⟩
      · obtain ⟨q, hq, rfl⟩ := List.mem_map.mp hsecond
        obtain ⟨hother, hpassing⟩ := mem_eligibleEnglish.mp hq
        obtain ⟨i, hi⟩ := mem_passing.mp hpassing
        rw [writer_qid] at hqid
        rw [writer_lang] at hlang
        exact ⟨_, cn, hlang, hcat, henglish, q, i, hqid, Or.inr ⟨hother, hi⟩⟩
    · rw [sendQuestList_of_ge _ _ _ _ _ hcode] at hlist
      cases hlist
  · rintro ⟨lang, cn, hlang, hcat, henglish, q, i, hqid, hplace⟩
    refine ⟨cn, lang, _, sendQuestList_eq hcat henglish, ?_⟩
    rcases hplace with hfirst | ⟨hother, hsecond⟩
    · have hq : q ∈ eligible x.state.config x.state.game x.client x.state.now cn lang :=
        mem_passing.mpr ⟨i, hfirst⟩
      refine ⟨_, List.mem_append_left _ (List.mem_map_of_mem hq), ?_⟩
      rw [writer_qid, writer_lang]
      exact ⟨hqid, hlang⟩
    · have hq : q ∈ eligibleEnglish x.state.config x.state.game x.client x.state.now cn lang :=
        mem_eligibleEnglish.mpr ⟨hother, mem_passing.mpr ⟨i, hsecond⟩⟩
      refine ⟨_, List.mem_append_right _ (List.mem_map_of_mem hq), ?_⟩
      rw [writer_qid, writer_lang]
      exact ⟨hqid, hlang⟩

/-- A game with one client, on a ship with one quest. -/
def soloGame (q : ListedQuest) : QuestGame where
  config := englishOnly q
  game := { mixedGame with numClients := 1, clients := [some (visitor .dcv2), none, none, none] }
  battle := false
  bursting := false
  now := 0

/-- There are no scripts, and all goes well. -/
def noScripts : SetupEnv where
  configured := true
  beforeQuestLoad := 0
  executeFile _ := 0
  questLookup _ := none
  mapCache _ _ := true
  mtypesAllocated := true
  midsAllocated := true
  syncregsAllocated := true
  regvalsAllocated := true

end ShipServer.QuestOffers

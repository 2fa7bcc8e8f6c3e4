import ShipServer.LobbyRooms

set_option autoImplicit false

/-! Who gets the chats, word selects and mails of a client. -/

namespace ShipServer.MutedSenders

open Versions LobbyRooms

/-- A client, with what the handlers of chats and mails look at. -/
structure Client where
  id : ClientId
  version : ClientVersion
  isNte : Bool
  stfu : Bool
  gcProtect : Bool
  autoreplyOn : Bool
  hasData : Bool
  guildcard : ℕ
  ignoreList : Vector ℕ 10
  blacklist : Vector ℕ 30
  deriving DecidableEq

namespace Client

def hasIgnored (c : Client) (gc : ℕ) : Bool :=
  c.ignoreList.toList.contains gc

def hasBlacklisted (c : Client) (gc : ℕ) : Bool :=
  !decide (c.version < .pc) && c.blacklist.toList.contains gc

/-- The trial edition on Dreamcast has handlers of its own. -/
def trial (c : Client) : Bool :=
  decide (c.version = .dcv1) && c.isNte

end Client

/-- A lobby. An index that is read from a packet may be that of no slot. -/
structure Lobby where
  maxClients : ℕ
  bursting : Bool
  clients : ℕ → Option Client

def Lobby.members (l : Lobby) : List Client :=
  (List.range l.maxClients).filterMap l.clients

def Lobby.others (l : Lobby) (c : Client) : List Client :=
  l.members.filter fun r => r.id ≠ c.id

inductive Kind where
  | notice
  | chat
  | wordSelect
  | mail
  | autoreply
  deriving DecidableEq

structure Sent where
  recipient : Client
  kind : Kind
  deriving DecidableEq

/-- `send_lobby_chat`. The chat of a muted client is only shown to itself. -/
def sendLobbyChat (l : Lobby) (sender : Client) : List Sent :=
  if sender.stfu then [{ recipient := sender, kind := .chat }]
  else (l.members.filter fun r => !r.hasIgnored sender.guildcard).map fun r =>
    { recipient := r, kind := .chat }

/-- `send_lobby_bbchat`. -/
def sendLobbyBbchat (l : Lobby) (sender : Client) : List Sent :=
  if sender.stfu then [{ recipient := sender, kind := .chat }]
  else (l.members.filter fun r => !r.hasIgnored sender.guildcard).map fun r =>
    { recipient := r, kind := .chat }

/-- The chat handlers, up to the function that sends to a lobby. Commands are no chats. -/
def processChatWith (send : Lobby → Client → List Sent) (l : Option Lobby) (c : Client)
    (command : Bool) : List Sent :=
  match l with
  | none => []
  | some l =>
    if command then []
    else if c.gcProtect then [{ recipient := c, kind := .notice }]
    else send l c

def dcProcessChat : Option Lobby → Client → Bool → List Sent :=
  processChatWith sendLobbyChat

def pcProcessChat : Option Lobby → Client → Bool → List Sent :=
  processChatWith sendLobbyChat

def bbProcessChat : Option Lobby → Client → Bool → List Sent :=
  processChatWith sendLobbyBbchat

/-- The translations of words from one version to the two other kinds. -/
structure WordMaps where
  dcMap : ℕ → ℕ × ℕ
  pcMap : ℕ → ℕ × ℕ
  gcMap : ℕ → ℕ × ℕ

/-- A word has no counterpart. -/
def untranslatable (map : ℕ → ℕ) (words : List ℕ) : Bool :=
  words.any fun w => decide (w ≠ 0xFFFF) && decide (map w = 0xFFFF)

/-- The word select senders: `untrans` says which versions the words cannot be translated for. -/
def wordSelectWith (maxWord : ℕ) (untrans : ClientVersion → Bool) (l : Lobby) (c : Client)
    (words : List ℕ) : List Sent :=
  if words.any fun w => decide (maxWord < w) && decide (w ≠ 0xFFFF) then
    [{ recipient := c, kind := .notice }]
  else
    let listeners := (l.others c).filter fun r => !r.hasIgnored c.guildcard
    ((listeners.filter fun r => !untrans r.version).map fun r =>
        { recipient := r, kind := .wordSelect }) ++
      if listeners.any fun r => untrans r.version then [{ recipient := c, kind := .notice }]
      else []

def wordSelectSendDc (maps : WordMaps) (l : Lobby) (c : Client) (words : List ℕ) : List Sent :=
  wordSelectWith 0x0463
    (fun
      | .dcv1 | .dcv2 => false
      | .pc => untranslatable (fun w => (maps.dcMap w).1) words
      | _ => untranslatable (fun w => (maps.dcMap w).2) words)
    l c words

def wordSelectSendPc (maps : WordMaps) (l : Lobby) (c : Client) (words : List ℕ) : List Sent :=
  wordSelectWith 0x0651
    (fun
      | .dcv1 | .dcv2 => untranslatable (fun w => (maps.pcMap w).1) words
      | .pc => false
      | _ => untranslatable (fun w => (maps.pcMap w).2) words)
    l c words

def wordSelectSendGc (maps : WordMaps) (l : Lobby) (c : Client) (words : List ℕ) : List Sent :=
  wordSelectWith 0x0698
    (fun
      | .dcv1 | .dcv2 => untranslatable (fun w => (maps.gcMap w).1) words
      | .pc => untranslatable (fun w => (maps.gcMap w).2) words
      | _ => false)
    l c words

def handleWordSelect (maps : WordMaps) (l : Lobby) (c : Client) (words : List ℕ) : List Sent :=
  if c.gcProtect then [{ recipient := c, kind := .notice }]
  else if c.stfu then []
  else
    match c.version with
    | .dcv1 | .dcv2 => wordSelectSendDc maps l c words
    | .pc => wordSelectSendPc maps l c words
    | .gc | .ep3 | .bb | .xbox => wordSelectSendGc maps l c words

def handleBbWordSelect (maps : WordMaps) (l : Lobby) (c : Client) (words : List ℕ) : List Sent :=
  if c.gcProtect then [{ recipient := c, kind := .notice }]
  else if c.stfu then []
  else wordSelectSendGc maps l c words

/-- `subcmd_dcnte_handle_bcast` for a type that it does not know, which only other trial editions
can be sent. -/
def subcmdDcnteHandleBcast (l : Option Lobby) (c : Client) : List Sent :=
  l.elim [] fun l => ((l.others c).filter Client.trial).map fun r =>
    { recipient := r, kind := .wordSelect }

/-- `subcmd_handle_bcast` for a word select. During a burst it is put in a queue. -/
def subcmdHandleBcast (maps : WordMaps) (l : Option Lobby) (c : Client) (words : List ℕ) :
    List Sent :=
  if c.trial then subcmdDcnteHandleBcast l c
  else l.elim [] fun l => if l.bursting then [] else handleWordSelect maps l c words

def subcmdBbHandleBcast (maps : WordMaps) (l : Option Lobby) (c : Client) (words : List ℕ) :
    List Sent :=
  l.elim [] fun l => handleBbWordSelect maps l c words

/-- The default branch of the handlers of packets for one client. -/
def forwardUnchanged (l : Lobby) (dest : ℕ) : List Sent :=
  (l.clients dest).elim [] fun r => [{ recipient := r, kind := .wordSelect }]

def subcmdDcnteHandleOne (l : Option Lobby) (dest : ℕ) : List Sent :=
  l.elim [] fun l => forwardUnchanged l dest

/-- `subcmd_handle_one` for a word select, which it does not know. -/
def subcmdHandleOne (l : Option Lobby) (c : Client) (dest : ℕ) : List Sent :=
  if c.trial then subcmdDcnteHandleOne l dest
  else l.elim [] fun l => if l.bursting then [] else forwardUnchanged l dest

def subcmdBbHandleOne (l : Option Lobby) (dest : ℕ) : List Sent :=
  l.elim [] fun l => forwardUnchanged l dest

/-- A block of a ship with its clients. -/
structure Block where
  run : Bool
  clients : List Client

abbrev Ship := List (Option Block)

/-- `send_simple_mail` and `send_bb_simple_mail`: mails from PC do not go to trial editions. -/
def sendSimpleMail (sender : ClientVersion) (r : Client) : List Sent :=
  if sender = .pc ∧ r.isNte = true then [] else [{ recipient := r, kind := .mail }]

/-- `send_mail_autoreply`, to the client `d` from the client `s`. -/
def sendMailAutoreply (d s : Client) : List Sent :=
  match s.version with
  | .dcv1 | .dcv2 => []
  | .pc => if d.isNte then [] else [{ recipient := d, kind := .autoreply }]
  | .gc | .ep3 | .xbox | .bb => [{ recipient := d, kind := .autoreply }]

/-- The search on this ship, which ends at a client with the guild card even if it has no data
yet. -/
def findLocal (s : Ship) (gc : ℕ) : Option Client :=
  ((s.reduceOption.filter Block.run).flatMap Block.clients).find? fun it => it.guildcard = gc

/-- The search on the ship that gets the mail from the shipgate. -/
def findRemote (s : Ship) (gc : ℕ) : Option Client :=
  (s.reduceOption.flatMap Block.clients).find? fun it =>
    decide (it.guildcard = gc) && it.hasData

/-- `handle_dc_mail`, `handle_pc_mail` and `handle_bb_mail`, which only have the word of the
mail for who has sent it. -/
def handleMail (version : ClientVersion) (s : Ship) (dest sender : ℕ) : List Sent :=
  (findRemote s dest).elim [] fun r =>
    if r.hasBlacklisted sender || r.hasIgnored sender then [] else sendSimpleMail version r

/-- `BUG_REPORT_GC`, the "character" that bug reports go to. -/
def bugReportGc : ℕ := 1

/-- The mail handlers. `gate` is the ship, if any, that the shipgate passes the mail to. -/
def processMailWith (ship : Ship) (gate : Option Ship) (c : Client)
    (dest sender : ℕ) : List Sent :=
  if c.gcProtect then [{ recipient := c, kind := .notice }]
  else if c.stfu then []
  else if dest = bugReportGc then [{ recipient := c, kind := .notice }]
  else if dest < 1000 then []
  else
    match findLocal ship dest with
    | some it =>
      if it.hasData = false then []
      else if it.hasBlacklisted c.guildcard || it.hasIgnored c.guildcard then []
      else (if it.autoreplyOn then sendMailAutoreply c it else []) ++ sendSimpleMail c.version it
    | none => gate.elim [] fun s => handleMail c.version s dest sender

def dcProcessMail : Ship → Option Ship → Client → ℕ → ℕ → List Sent :=
  processMailWith

def pcProcessMail : Ship → Option Ship → Client → ℕ → ℕ → List Sent :=
  processMailWith

def bbProcessMail : Ship → Option Ship → Client → ℕ → ℕ → List Sent :=
  processMailWith

/-- A chat, a word select in a packet for all or in a packet for one, or a mail. -/
inductive Packet where
  | chat (command : Bool)
  | wordSelect (words : List ℕ)
  | wordSelectTo (dest : ℕ)
  | mail (dest sender : ℕ)

/-- What there is when a packet is handled. -/
structure World where
  maps : WordMaps
  client : ClientId → Client
  lobby : ClientId → Option Lobby
  ship : Ship
  gate : Option Ship

/-- `dc_process_pkt`, for the clients that are not on Blue Burst. -/
def dcProcessPkt (w : World) (l : Option Lobby) (c : Client) : Packet → List Sent
  | .chat command =>
    if c.version = .pc then pcProcessChat l c command else dcProcessChat l c command
  | .wordSelect words => subcmdHandleBcast w.maps l c words
  | .wordSelectTo dest => subcmdHandleOne l c dest
  | .mail dest sender =>
    if c.version = .pc then pcProcessMail w.ship w.gate c dest sender
    else dcProcessMail w.ship w.gate c dest sender

def bbProcessPkt (w : World) (l : Option Lobby) (c : Client) : Packet → List Sent
  | .chat command => bbProcessChat l c command
  | .wordSelect words => subcmdBbHandleBcast w.maps l c words
  | .wordSelectTo dest => subcmdBbHandleOne l dest
  | .mail dest sender => bbProcessMail w.ship w.gate c dest sender

/-- What is sent because of a packet. -/
def World.handle (w : World) (src : ClientId) (p : Packet) : List Sent :=
  if (w.client src).version = .bb then bbProcessPkt w (w.lobby src) (w.client src) p
  else dcProcessPkt w (w.lobby src) (w.client src) p

/-- A word select that waits for the end of a burst. -/
def World.queues (w : World) (src : ClientId) : Packet → Bool
  | .wordSelect _ | .wordSelectTo _ =>
    !decide ((w.client src).version = .bb) && !(w.client src).trial &&
      (w.lobby src).any Lobby.bursting
  | _ => false

/-- Nobody else gets anything from a muted client, and nobody gets what a client has written that
it ignores. -/
def Sent.Right (c : Client) (x : Sent) : Prop :=
  (x.recipient.id ≠ c.id → c.stfu = false) ∧
    (x.kind = .chat ∨ x.kind = .wordSelect ∨ x.kind = .mail →
      x.recipient.hasIgnored c.guildcard = false)

/-- A packet that is handled, at once or after a burst. -/
structure Call where
  world : World
  src : ClientId
  packet : Packet

def Call.sender (x : Call) : Client :=
  x.world.client x.src

def Call.lobby (x : Call) : Option Lobby :=
  x.world.lobby x.src

def Call.Right (x : Call) : Prop :=
  ∀ sent ∈ x.world.handle x.src x.packet, sent.Right x.sender

/-- The client on another ship that a mail gets to, and whose lists are compared with the sender
that the mail names. -/
def Call.remote (x : Call) (dest : ℕ) : Option Client :=
  if x.sender.gcProtect = true ∨ x.sender.stfu = true ∨ dest < 1000 ∨
      (findLocal x.world.ship dest).isSome = true then none
  else x.world.gate.bind fun s => findRemote s dest

/-- When a packet is handled right. Chats are, but for a muted client that ignores itself. Word
selects to all are, but for those of trial editions, and those in packets for one client are not
looked at. Mails are, if another ship that they are passed to can tell who has sent them. -/
def Call.Careful (x : Call) : Prop :=
  let c := x.sender
  match x.packet with
  | .chat command =>
    command = false → c.gcProtect = false → x.lobby.isSome = true → c.stfu = true →
      c.hasIgnored c.guildcard = false
  | .wordSelect _ =>
    c.trial = true → ∀ l ∈ x.lobby, ∀ r ∈ l.others c, r.trial = true →
      c.stfu = false ∧ r.hasIgnored c.guildcard = false
  | .wordSelectTo dest =>
    ∀ l ∈ x.lobby, (l.bursting = true → c.version = .bb ∨ c.trial = true) →
      ∀ r ∈ l.clients dest,
        (r.id ≠ c.id → c.stfu = false) ∧ r.hasIgnored c.guildcard = false
  | .mail dest sender =>
    ∀ r ∈ x.remote dest, r.hasIgnored c.guildcard = true →
      r.hasBlacklisted sender = true ∨ r.hasIgnored sender = true ∨
        c.version = .pc ∧ r.isNte = true

/-- What happens on a ship: a packet, the end of a burst, with the packets that are taken from the
queue and the ones among them that are handled, or anything that changes the world. -/
inductive Event where
  | packet (src : ClientId) (p : Packet)
  | doneBurst (taken handled : ClientId × Packet → Bool)
  | change (w : World)

/-- The packets that are handled in a run, each with the world that it meets. -/
def calls : World → List (ClientId × Packet) → List Event → List Call
  | _, _, [] => []
  | w, queue, .packet src p :: es =>
    { world := w, src := src, packet := p } ::
      calls w (if w.queues src p then queue ++ [(src, p)] else queue) es
  | w, queue, .doneBurst taken handled :: es =>
    ((queue.filter fun x => taken x && handled x).map fun x =>
        { world := w, src := x.1, packet := x.2 }) ++
      calls w (queue.filter fun x => !taken x) es
  | _, queue, .change w :: es => calls w queue es

section Handlers

variable {l : Lobby} {c r : Client}

theorem others_ne (h : r ∈ l.others c) : r.id ≠ c.id := by
  have hne := (List.mem_filter.mp h).2
  exact of_decide_eq_true hne

/-- A notice for the sender is right. -/
theorem right_notice (c : Client) : Sent.Right c { recipient := c, kind := .notice } :=
  ⟨fun h => absurd rfl h, by simp⟩

theorem right_message (hmute : r.id ≠ c.id → c.stfu = false)
    (hignore : r.hasIgnored c.guildcard = false) (kind : Kind) :
    Sent.Right c { recipient := r, kind := kind } :=
  ⟨hmute, fun _ => hignore⟩

theorem right_message_iff {kind : Kind}
    (hkind : kind = .chat ∨ kind = .wordSelect ∨ kind = .mail) :
    Sent.Right c { recipient := r, kind := kind } ↔
      (r.id ≠ c.id → c.stfu = false) ∧ r.hasIgnored c.guildcard = false :=
  and_congr_right fun _ => forall_prop_of_true hkind

theorem sendLobbyChat_right_iff (l : Lobby) (c : Client) :
    (∀ x ∈ sendLobbyChat l c, x.Right c) ↔
      (c.stfu = true → c.hasIgnored c.guildcard = false) := by
  rw [sendLobbyChat]
  split_ifs with hmuted
  · rw [List.forall_mem_singleton, right_message_iff (Or.inl rfl), forall_prop_of_true hmuted]
    exact and_iff_right fun h => absurd rfl h
  · refine iff_of_true ?_ fun h => absurd h hmuted
    rw [List.forall_mem_map]
    intro r hr
    have hlisten := (List.mem_filter.mp hr).2
    exact right_message (fun _ => Bool.eq_false_of_not_eq_true hmuted) (by simpa using hlisten) _

theorem processChat_right_iff (l : Option Lobby) (c : Client) (command : Bool) :
    (∀ x ∈ processChatWith sendLobbyChat l c command, x.Right c) ↔
      (command = false → c.gcProtect = false → l.isSome = true → c.stfu = true →
        c.hasIgnored c.guildcard = false) := by
  unfold processChatWith
  cases l with
  | none => simp
  | some l =>
    cases command with
    | true => simp
    | false =>
      cases hprotect : c.gcProtect with
      | true =>
        refine iff_of_true ?_ (by simp)
        exact List.forall_mem_singleton.mpr (right_notice c)
      | false =>
        change (∀ x ∈ sendLobbyChat l c, x.Right c) ↔ _
        rw [sendLobbyChat_right_iff]
        simp

/-- The senders of word selects look at the lists of those who listen. -/
theorem wordSelectWith_right (maxWord : ℕ) (untrans : ClientVersion → Bool) (l : Lobby)
    (words : List ℕ) (hmuted : c.stfu = false) :
    ∀ x ∈ wordSelectWith maxWord untrans l c words, x.Right c := by
  rw [wordSelectWith]
  split_ifs with hinvalid
  · exact List.forall_mem_singleton.mpr (right_notice c)
  · rw [List.forall_mem_append, List.forall_mem_map]
    constructor
    · intro r hr
      have hlisten := (List.mem_filter.mp (List.mem_filter.mp hr).1).2
      exact right_message (fun _ => hmuted) (by simpa using hlisten) _
    · split_ifs
      · exact List.forall_mem_singleton.mpr (right_notice c)
      · exact List.forall_mem_nil _

theorem handleWordSelect_right (maps : WordMaps) (l : Lobby) (c : Client) (words : List ℕ) :
    ∀ x ∈ handleWordSelect maps l c words, x.Right c := by
  rw [handleWordSelect]
  split_ifs with hprotect hmuted
  · exact List.forall_mem_singleton.mpr (right_notice c)
  · exact List.forall_mem_nil _
  · have hspeaks := Bool.eq_false_of_not_eq_true hmuted
    cases c.version <;> exact wordSelectWith_right _ _ l words hspeaks

theorem handleBbWordSelect_right (maps : WordMaps) (l : Lobby) (c : Client) (words : List ℕ) :
    ∀ x ∈ handleBbWordSelect maps l c words, x.Right c := by
  rw [handleBbWordSelect]
  split_ifs with hprotect hmuted
  · exact List.forall_mem_singleton.mpr (right_notice c)
  · exact List.forall_mem_nil _
  · exact wordSelectWith_right _ _ l words (Bool.eq_false_of_not_eq_true hmuted)

/-- What trial editions broadcast goes to all others of them. -/
theorem dcnteBcast_right_iff (l : Option Lobby) (c : Client) :
    (∀ x ∈ subcmdDcnteHandleBcast l c, x.Right c) ↔
      ∀ room ∈ l, ∀ r ∈ room.others c, r.trial = true →
        c.stfu = false ∧ r.hasIgnored c.guildcard = false := by
  cases l with
  | none => simp [subcmdDcnteHandleBcast]
  | some l =>
    change (∀ x ∈ List.map _ _, _) ↔ _
    simp only [List.forall_mem_map, List.mem_filter, Option.mem_some_iff, forall_eq', and_imp]
    refine forall₃_congr fun r hr _ => ?_
    rw [right_message_iff (Or.inr (Or.inl rfl)), forall_prop_of_true (others_ne hr)]

theorem forwardUnchanged_right_iff (l : Lobby) (c : Client) (dest : ℕ) :
    (∀ x ∈ forwardUnchanged l dest, x.Right c) ↔
      ∀ r ∈ l.clients dest,
        (r.id ≠ c.id → c.stfu = false) ∧ r.hasIgnored c.guildcard = false := by
  rw [forwardUnchanged]
  cases l.clients dest with
  | none => simp
  | some r =>
    simp only [Option.elim_some, List.forall_mem_singleton, Option.mem_some_iff, forall_eq']
    exact right_message_iff (Or.inr (Or.inl rfl))

/-- A mail on the ship is right: its lists are those of the client that gets it. -/
theorem sendSimpleMail_right_iff (version : ClientVersion) (r : Client) (hmuted : c.stfu = false) :
    (∀ x ∈ sendSimpleMail version r, x.Right c) ↔
      (r.hasIgnored c.guildcard = true → version = .pc ∧ r.isNte = true) := by
  rw [sendSimpleMail]
  split_ifs with htrial
  · exact iff_of_true (List.forall_mem_nil _) fun _ => htrial
  · rw [List.forall_mem_singleton, right_message_iff (Or.inr (Or.inr rfl)),
      and_iff_right fun _ => hmuted]
    constructor
    · intro hlisten hignored
      rw [hlisten] at hignored
      cases hignored
    · exact fun h => Bool.eq_false_of_not_eq_true fun hignored => htrial (h hignored)

theorem sendMailAutoreply_right (c s : Client) : ∀ x ∈ sendMailAutoreply c s, x.Right c := by
  have hself : Sent.Right c { recipient := c, kind := .autoreply } :=
    ⟨fun h => absurd rfl h, by simp⟩
  rw [sendMailAutoreply]
  cases s.version with
  | dcv1 | dcv2 => exact List.forall_mem_nil _
  | pc =>
    change ∀ x ∈ (if c.isNte then _ else _ : List Sent), _
    split_ifs
    · exact List.forall_mem_nil _
    · exact List.forall_mem_singleton.mpr hself
  | gc | ep3 | xbox | bb => exact List.forall_mem_singleton.mpr hself

theorem handleMail_right_iff (s : Ship) (dest sender : ℕ) (hmuted : c.stfu = false) :
    (∀ x ∈ handleMail c.version s dest sender, x.Right c) ↔
      ∀ r ∈ findRemote s dest, r.hasIgnored c.guildcard = true →
        r.hasBlacklisted sender = true ∨ r.hasIgnored sender = true ∨
          c.version = .pc ∧ r.isNte = true := by
  rw [handleMail]
  cases findRemote s dest with
  | none => simp
  | some r =>
    simp only [Option.elim_some, Option.mem_some_iff, forall_eq']
    split_ifs with hlists
    · rw [Bool.or_eq_true] at hlists
      exact iff_of_true (List.forall_mem_nil _) fun _ => hlists.imp_right Or.inl
    · rw [Bool.or_eq_true, not_or] at hlists
      rw [sendSimpleMail_right_iff _ _ hmuted, or_iff_right hlists.1, or_iff_right hlists.2]

end Handlers

section Dispatch

variable (w : World) (src : ClientId)

theorem handle_chat (command : Bool) :
    w.handle src (.chat command) =
      processChatWith sendLobbyChat (w.lobby src) (w.client src) command := by
  rw [World.handle, bbProcessPkt, dcProcessPkt]
  split_ifs <;> rfl

theorem handle_mail (dest sender : ℕ) :
    w.handle src (.mail dest sender) =
      processMailWith w.ship w.gate (w.client src) dest sender := by
  rw [World.handle, bbProcessPkt, dcProcessPkt]
  split_ifs <;> rfl

theorem handle_wordSelect (words : List ℕ) :
    w.handle src (.wordSelect words) =
      if (w.client src).version = .bb then
        subcmdBbHandleBcast w.maps (w.lobby src) (w.client src) words
      else subcmdHandleBcast w.maps (w.lobby src) (w.client src) words :=
  rfl

theorem handle_wordSelectTo (dest : ℕ) :
    w.handle src (.wordSelectTo dest) =
      if (w.client src).version = .bb then subcmdBbHandleOne (w.lobby src) dest
      else subcmdHandleOne (w.lobby src) (w.client src) dest :=
  rfl

theorem trial_of_bb {c : Client} (hversion : c.version = .bb) : c.trial = false := by
  rw [Client.trial, hversion]
  rfl

theorem wordSelect_right_iff (words : List ℕ) :
    Call.Right ⟨w, src, .wordSelect words⟩ ↔ Call.Careful ⟨w, src, .wordSelect words⟩ := by
  change (∀ x ∈ w.handle src (.wordSelect words), x.Right (w.client src)) ↔
    ((w.client src).trial = true → ∀ l ∈ w.lobby src, ∀ r ∈ l.others (w.client src),
      r.trial = true → (w.client src).stfu = false ∧ r.hasIgnored (w.client src).guildcard = false)
  rw [handle_wordSelect]
  split_ifs with hversion
  · rw [trial_of_bb hversion]
    refine iff_of_true ?_ fun h => nomatch h
    cases w.lobby src with
    | none => exact List.forall_mem_nil _
    | some l => exact handleBbWordSelect_right w.maps l (w.client src) words
  · rw [subcmdHandleBcast]
    split_ifs with htrial
    · rw [dcnteBcast_right_iff, forall_prop_of_true htrial]
    · refine iff_of_true ?_ fun h => absurd h htrial
      cases w.lobby src with
      | none => exact List.forall_mem_nil _
      | some l =>
        change ∀ x ∈ (if l.bursting then _ else _ : List Sent), _
        split_ifs
        · exact List.forall_mem_nil _
        · exact handleWordSelect_right w.maps l (w.client src) words

theorem wordSelectTo_right_iff (dest : ℕ) :
    Call.Right ⟨w, src, .wordSelectTo dest⟩ ↔ Call.Careful ⟨w, src, .wordSelectTo dest⟩ := by
  change (∀ x ∈ w.handle src (.wordSelectTo dest), x.Right (w.client src)) ↔
    ∀ l ∈ w.lobby src, (l.bursting = true →
        (w.client src).version = .bb ∨ (w.client src).trial = true) →
      ∀ r ∈ l.clients dest, (r.id ≠ (w.client src).id → (w.client src).stfu = false) ∧
        r.hasIgnored (w.client src).guildcard = false
  rw [handle_wordSelectTo]
  cases w.lobby src with
  | none =>
    refine iff_of_true ?_ fun _ h => nomatch h
    simp [subcmdBbHandleOne, subcmdHandleOne, subcmdDcnteHandleOne]
  | some l =>
    have hlobby : ∀ P : Lobby → Prop, (∀ m ∈ some l, P m) ↔ P l := by simp
    rw [hlobby, ← forwardUnchanged_right_iff]
    by_cases hversion : (w.client src).version = .bb
    · rw [if_pos hversion]
      exact ⟨fun h _ => h, fun h => h fun _ => Or.inl hversion⟩
    · rw [if_neg hversion, subcmdHandleOne]
      by_cases htrial : (w.client src).trial = true
      · rw [if_pos htrial]
        exact ⟨fun h _ => h, fun h => h fun _ => Or.inr htrial⟩
      · rw [if_neg htrial]
        change (∀ x ∈ (if l.bursting then _ else _ : List Sent), _) ↔ _
        split_ifs with hburst
        · refine iff_of_true (List.forall_mem_nil _) fun h => ?_
          exact absurd (h hburst) (not_or.mpr ⟨hversion, htrial⟩)
        · exact ⟨fun h _ => h, fun h => h fun h' => absurd h' hburst⟩

/-- A mail that a client on the ship gets has been compared with that client's lists. -/
theorem localMail_right (c it : Client) (hmuted : c.stfu = false)
    (hlists : ¬(it.hasBlacklisted c.guildcard || it.hasIgnored c.guildcard) = true) :
    ∀ x ∈ (if it.autoreplyOn then sendMailAutoreply c it else []) ++ sendSimpleMail c.version it,
      x.Right c := by
  rw [Bool.or_eq_true, not_or] at hlists
  rw [List.forall_mem_append, sendSimpleMail_right_iff _ _ hmuted]
  refine ⟨?_, fun h => absurd h hlists.2⟩
  split_ifs
  · exact sendMailAutoreply_right c it
  · exact List.forall_mem_nil _

theorem mail_right_iff (dest sender : ℕ) :
    Call.Right ⟨w, src, .mail dest sender⟩ ↔ Call.Careful ⟨w, src, .mail dest sender⟩ := by
  change (∀ x ∈ w.handle src (.mail dest sender), x.Right (w.client src)) ↔
    ∀ r ∈ Call.remote ⟨w, src, .mail dest sender⟩ dest,
      r.hasIgnored (w.client src).guildcard = true →
        r.hasBlacklisted sender = true ∨ r.hasIgnored sender = true ∨
          (w.client src).version = .pc ∧ r.isNte = true
  rw [handle_mail, processMailWith, Call.remote]
  change _ ↔ ∀ r ∈ (if (w.client src).gcProtect = true ∨ (w.client src).stfu = true ∨ dest < 1000 ∨
    (findLocal w.ship dest).isSome = true then none else w.gate.bind fun s => findRemote s dest), _
  have hnobody : ∀ P : Client → Prop, ∀ r ∈ (none : Option Client), P r :=
    fun _ _ h => nomatch h
  by_cases hprotect : (w.client src).gcProtect = true
  · rw [if_pos hprotect, if_pos (Or.inl hprotect)]
    exact iff_of_true (List.forall_mem_singleton.mpr (right_notice _)) (hnobody _)
  rw [if_neg hprotect]
  by_cases hmuted : (w.client src).stfu = true
  · rw [if_pos hmuted, if_pos (Or.inr (Or.inl hmuted))]
    exact iff_of_true (List.forall_mem_nil _) (hnobody _)
  rw [if_neg hmuted]
  by_cases hbug : dest = bugReportGc
  · rw [if_pos hbug, if_pos (Or.inr (Or.inr (Or.inl (by rw [hbug]; decide))))]
    exact iff_of_true (List.forall_mem_singleton.mpr (right_notice _)) (hnobody _)
  rw [if_neg hbug]
  by_cases hreserved : dest < 1000
  · rw [if_pos hreserved, if_pos (Or.inr (Or.inr (Or.inl hreserved)))]
    exact iff_of_true (List.forall_mem_nil _) (hnobody _)
  rw [if_neg hreserved]
  have hspeaks := Bool.eq_false_of_not_eq_true hmuted
  cases hlocal : findLocal w.ship dest with
  | some it =>
    rw [if_pos (Or.inr (Or.inr (Or.inr (show (some it).isSome = true from rfl))))]
    refine iff_of_true ?_ (hnobody _)
    change ∀ x ∈ (if it.hasData = false then _ else _ : List Sent), _
    by_cases hdata : it.hasData = false
    · rw [if_pos hdata]
      exact List.forall_mem_nil _
    rw [if_neg hdata]
    by_cases hlists : (it.hasBlacklisted (w.client src).guildcard ||
        it.hasIgnored (w.client src).guildcard) = true
    · rw [if_pos hlists]
      exact List.forall_mem_nil _
    · rw [if_neg hlists]
      exact localMail_right (w.client src) it hspeaks hlists
  | none =>
    rw [if_neg (by simp [hprotect, hmuted, hreserved])]
    cases w.gate with
    | none => exact iff_of_true (List.forall_mem_nil _) (hnobody _)
    | some s => exact handleMail_right_iff s dest sender hspeaks

end Dispatch

theorem Call.right_iff_careful (x : Call) : x.Right ↔ x.Careful := by
  obtain ⟨w, src, packet⟩ := x
  cases packet with
  | chat command =>
    rw [Call.Right, handle_chat]
    exact processChat_right_iff (w.lobby src) (w.client src) command
  | wordSelect words => exact wordSelect_right_iff w src words
  | wordSelectTo dest => exact wordSelectTo_right_iff w src dest
  | mail dest sender => exact mail_right_iff w src dest sender

/-- In every run, what is sent respects mutes and ignore lists exactly when the packets that are
handled are such that the handlers' checks are enough. -/
theorem calls_right_iff (w : World) (queue : List (ClientId × Packet)) (es : List Event) :
    (∀ x ∈ calls w queue es, x.Right) ↔ ∀ x ∈ calls w queue es, x.Careful :=
  forall₂_congr fun x _ => x.right_iff_careful

/-- A client on Gamecube. -/
def speaker (id : ClientId) (stfu : Bool) : Client where
  id := id
  version := .gc
  isNte := false
  stfu := stfu
  gcProtect := false
  autoreplyOn := false
  hasData := true
  guildcard := 42000000 + id
  ignoreList := Vector.replicate 10 0
  blacklist := Vector.replicate 30 0

/-- A lobby with a muted client and one that is not. -/
def mutedLobby : World where
  maps := { dcMap := fun _ => (0, 0), pcMap := fun _ => (0, 0), gcMap := fun _ => (0, 0) }
  client i := speaker i (decide (i = 0))
  lobby _ := some
    { maxClients := 12, bursting := false
      clients := fun i => if i < 2 then some (speaker i (decide (i = 0))) else none }
  ship := []
  gate := none

/-- The muted client sends a word select to the other one only. -/
theorem calls_not_right :
    ¬∀ (w : World) (queue : List (ClientId × Packet)) (es : List Event),
      ∀ x ∈ calls w queue es, x.Right := by
  intro h
  have hcall := h mutedLobby [] [.packet 0 (.wordSelectTo 1)] _ List.mem_cons_self
  have hsent := hcall { recipient := speaker 1 false, kind := .wordSelect } List.mem_cons_self
  exact absurd (hsent.1 (by decide)) (by decide)

end ShipServer.MutedSenders

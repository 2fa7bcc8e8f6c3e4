import ShipServer.Versions

set_option autoImplicit false

namespace ShipServer.LoginHandlers

open Versions

structure GuildcardBan where
  reason : String
  endTime : ℤ
  bannedGc : BitVec 32

structure IpBan where
  ipv6 : Bool
  reason : String
  endTime : ℤ
  ipAddr : Fin 4 → BitVec 32
  netmask : Fin 4 → BitVec 32

structure BanList where
  guildcardBans : List GuildcardBan
  ipBans : List IpBan

/-- An address of the family `AF_INET`, or of any other. -/
inductive Address where
  | inet (sAddr : BitVec 32)
  | inet6 (s6Addr : Fin 4 → BitVec 32)

/-- A ban with the end -1 has none. -/
def unexpired (now endTime : ℤ) : Bool :=
  now ≤ endTime ∨ endTime = -1

/-- The reason of a ban and its end, which the player is told. -/
abbrev BanMsg := String × ℤ

def isGuildcardBanned (s : BanList) (now : ℤ) (guildcard : BitVec 32) : Option BanMsg :=
  (s.guildcardBans.find? fun i => i.bannedGc = guildcard ∧ unexpired now i.endTime = true).map
    fun i => (i.reason, i.endTime)

def eqIp6 (ip1 ip2 netmask : Fin 4 → BitVec 32) : Bool :=
  ∀ k, ip1 k &&& netmask k = ip2 k &&& netmask k

def isIp4Banned (s : BanList) (now : ℤ) (sAddr : BitVec 32) : Option BanMsg :=
  (s.ipBans.find? fun i => i.ipv6 = false ∧ unexpired now i.endTime = true ∧
    sAddr &&& i.netmask 0 = i.ipAddr 0 &&& i.netmask 0).map fun i => (i.reason, i.endTime)

def isIp6Banned (s : BanList) (now : ℤ) (s6Addr : Fin 4 → BitVec 32) : Option BanMsg :=
  (s.ipBans.find? fun i => i.ipv6 = true ∧ unexpired now i.endTime = true ∧
    eqIp6 s6Addr i.ipAddr i.netmask = true).map fun i => (i.reason, i.endTime)

def isIpBanned (s : BanList) (now : ℤ) : Address → Option BanMsg
  | .inet sAddr => isIp4Banned s now sAddr
  | .inet6 s6Addr => isIp6Banned s now s6Addr

/-- The bits of `shipgate_flags` that keep versions off the ship. -/
structure ShipgateFlags where
  noDcnte : Bool
  noV1 : Bool
  noV2 : Bool
  noPc : Bool
  noPcNte : Bool
  noEp12 : Bool
  noEp3 : Bool
  noPsox : Bool
  noBb : Bool

/-- The ship at the time of a login. `sent k` says whether the handler's send number `k` works. -/
structure LoginEnv where
  shipgateFlags : ShipgateFlags
  bans : BanList
  now : ℤ
  isGm : BitVec 32 → ℤ
  sent : ℕ → Bool

/-- The fields of a client that the login handlers use. -/
structure LoginClient where
  version : ClientVersion
  isNte : Bool
  ipAddr : Address
  guildcard : BitVec 32
  languageCode : BitVec 8
  qLang : BitVec 8
  privilege : ℤ
  gcMsgBoxes : Bool
  disconnected : Bool

/-- A login packet. What a version's packet does not have is not read by its handlers. -/
structure LoginPkt where
  guildcard : BitVec 32
  languageCode : BitVec 8
  version : BitVec 8
  serial : Vector (BitVec 8) 8
  accessKey : Vector (BitVec 8) 8
  magic : BitVec 32
  pktLen : ℕ
  lobbyMenu : BitVec 32
  lobbyId : BitVec 32

/-- What a login handler leaves: the client, the return code, the ban that it tells about, the id of
the lobby that a "Meet the User" asks for, and whether the client has been let in. -/
structure LoginOutcome where
  client : LoginClient
  rv : ℤ
  banMsg : Option BanMsg
  meet : Option ℕ
  welcomed : Bool

def turnAway (c : LoginClient) (banMsg : Option BanMsg) : LoginOutcome where
  client := { c with disconnected := true }
  rv := 0
  banMsg := banMsg
  meet := none
  welcomed := false

/-- The return code of a handler that stops at its first send that fails. -/
def sendAll (sent : ℕ → Bool) : List ℤ → ℕ → ℤ
  | [], _ => 0
  | code :: codes, k => if sent k then sendAll sent codes (k + 1) else code

/-- The end of a login handler. -/
def answer (env : LoginEnv) (codes : List ℤ) (meet : Option ℕ) (c : LoginClient) :
    LoginOutcome where
  client := c
  rv := sendAll env.sent codes 0
  banMsg := none
  meet := meet
  welcomed := sendAll env.sent codes 0 = 0

/-- The guildcard of the client is looked up first, then its address. -/
def findBan (env : LoginEnv) (c : LoginClient) : Option BanMsg :=
  match isGuildcardBanned env.bans env.now c.guildcard with
  | some ban => some ban
  | none => isIpBanned env.bans env.now c.ipAddr

/-- The login handlers of the ship save what is in the packet before they look for bans. -/
def shipLogin (env : LoginEnv) (refused : Bool) (c saved : LoginClient)
    (finish : LoginClient → LoginOutcome) : LoginOutcome :=
  if refused then turnAway c none
  else
    match findBan env saved with
    | some ban => turnAway saved (some ban)
    | none => finish saved

/-- The login handlers of a block look for bans before they save what is in the packet. -/
def blockLogin (env : LoginEnv) (refused : Bool) (c saved : LoginClient)
    (finish : LoginClient → LoginOutcome) : LoginOutcome :=
  if refused then turnAway c none
  else
    match findBan env c with
    | some ban => turnAway c (some ban)
    | none => finish saved

def clientLangJapanese : BitVec 8 := 0

def menuIdLobby : BitVec 32 := 0xFFFFFFFF

/-- The "Meet the User" extension of a login packet, which has a length of its own. -/
def meetExt (len : ℕ) (pkt : LoginPkt) : Option ℕ :=
  if pkt.pktLen = len ∧ pkt.lobbyMenu = menuIdLobby then some pkt.lobbyId.toNat else none

def isPctrial (pkt : LoginPkt) : Bool :=
  ∀ k : Fin 8, pkt.serial[k] = 0 ∧ pkt.accessKey[k] = 0

/-- The part of both `dcv2_process_login` that marks trial users. -/
def markTrial (c : LoginClient) (pkt : LoginPkt) : LoginClient :=
  if c.version = .pc ∧ isPctrial pkt = true then { c with isNte := true } else c

def dcv2Refused (env : LoginEnv) (c : LoginClient) (pkt : LoginPkt) : Bool :=
  if c.version ≠ .pc then env.shipgateFlags.noV2
  else env.shipgateFlags.noPc || isPctrial pkt && env.shipgateFlags.noPcNte

def gcRefused (env : LoginEnv) (c : LoginClient) : Bool :=
  if c.version = .gc then env.shipgateFlags.noEp12 else env.shipgateFlags.noEp3

/-- The end of both `bb_process_login`. -/
def bbAnswer (env : LoginEnv) (pkt : LoginPkt) (codes : List ℤ) (c : LoginClient) : LoginOutcome :=
  if pkt.magic ≠ 0xDEADBEEF then
    { client := c, rv := -1, banMsg := none, meet := none, welcomed := false }
  else answer env codes none c

def shipDcnteProcessLogin (env : LoginEnv) (c : LoginClient) (pkt : LoginPkt) : LoginOutcome :=
  shipLogin env env.shipgateFlags.noDcnte c
    { c with languageCode := clientLangJapanese, isNte := true, guildcard := pkt.guildcard }
    (answer env [-1, -2] none)

def shipDcProcessLogin (env : LoginEnv) (c : LoginClient) (pkt : LoginPkt) : LoginOutcome :=
  shipLogin env env.shipgateFlags.noV1 c
    { c with languageCode := pkt.languageCode, guildcard := pkt.guildcard }
    (answer env [-1, -2] none)

/-- A trial user of a ship without PC clients is not marked. -/
def markBeforeRefusal (env : LoginEnv) (c : LoginClient) (pkt : LoginPkt) : LoginClient :=
  if c.version = .pc ∧ env.shipgateFlags.noPc = true then c else markTrial c pkt

def shipDcv2ProcessLogin (env : LoginEnv) (c : LoginClient) (pkt : LoginPkt) : LoginOutcome :=
  shipLogin env (dcv2Refused env c pkt) (markBeforeRefusal env c pkt)
    { markTrial c pkt with languageCode := pkt.languageCode, guildcard := pkt.guildcard }
    (answer env [-1, -2] none)

def shipGcProcessLogin (env : LoginEnv) (c : LoginClient) (pkt : LoginPkt) : LoginOutcome :=
  shipLogin env (gcRefused env c) c
    { c with languageCode := pkt.languageCode, guildcard := pkt.guildcard }
    (answer env [-1, -2] none)

def shipXbProcessLogin (env : LoginEnv) (c : LoginClient) (pkt : LoginPkt) : LoginOutcome :=
  shipLogin env env.shipgateFlags.noPsox c
    { c with languageCode := pkt.languageCode, guildcard := pkt.guildcard }
    (answer env [-1, -2] none)

def shipBbProcessLogin (env : LoginEnv) (c : LoginClient) (pkt : LoginPkt) : LoginOutcome :=
  shipLogin env env.shipgateFlags.noBb c { c with guildcard := pkt.guildcard }
    (bbAnswer env pkt [-2, -3])

def blockDcnteProcessLogin (env : LoginEnv) (c : LoginClient) (pkt : LoginPkt) : LoginOutcome :=
  blockLogin env env.shipgateFlags.noDcnte c
    { c with
      guildcard := pkt.guildcard, languageCode := clientLangJapanese
      qLang := clientLangJapanese, isNte := true, privilege := env.isGm pkt.guildcard }
    (answer env [-1, -2, -3] none)

/-- What all handlers of a block for versions with a language save. -/
def save (env : LoginEnv) (c : LoginClient) (pkt : LoginPkt) : LoginClient :=
  { c with
    guildcard := pkt.guildcard, languageCode := pkt.languageCode, qLang := pkt.languageCode
    privilege := env.isGm pkt.guildcard }

def blockDcProcessLogin (env : LoginEnv) (c : LoginClient) (pkt : LoginPkt) : LoginOutcome :=
  blockLogin env env.shipgateFlags.noV1 c (save env c pkt)
    (answer env [-1, -2, -3] (meetExt 0x0114 pkt))

def blockDcv2ProcessLogin (env : LoginEnv) (c : LoginClient) (pkt : LoginPkt) : LoginOutcome :=
  blockLogin env (dcv2Refused env c pkt) (markBeforeRefusal env c pkt)
    { save env (markTrial c pkt) pkt with
      version := if c.version ≠ .pc then .dcv2 else .pc }
    (answer env [-1, -2, -3] (meetExt (if c.version ≠ .pc then 0x0130 else 0x0150) pkt))

def gcMsgBoxVersions : List (BitVec 8) :=
  [0x32, 0x33, 0x34, 0x35, 0x36, 0x39]

def blockGcProcessLogin (env : LoginEnv) (c : LoginClient) (pkt : LoginPkt) : LoginOutcome :=
  blockLogin env (gcRefused env c) c
    { save env c pkt with gcMsgBoxes := c.gcMsgBoxes || decide (pkt.version ∈ gcMsgBoxVersions) }
    (answer env [-1, -2, -3] (meetExt 0x0150 pkt))

def blockXbProcessLogin (env : LoginEnv) (c : LoginClient) (pkt : LoginPkt) : LoginOutcome :=
  blockLogin env env.shipgateFlags.noPsox c { save env c pkt with gcMsgBoxes := true }
    (answer env [-1, -2, -3] none)

def blockBbProcessLogin (env : LoginEnv) (c : LoginClient) (pkt : LoginPkt) : LoginOutcome :=
  blockLogin env env.shipgateFlags.noBb c
    { c with guildcard := pkt.guildcard, privilege := env.isGm pkt.guildcard }
    (bbAnswer env pkt [-2, -3, -4])

/-- The types of login packets. -/
inductive LoginType where
  | login8b
  | login93
  | login9d
  | login9e
  deriving DecidableEq

/-- The login packets of `ship_process_pkt`; of the others Blue Burst clients have none. -/
def shipProcessLogin (env : LoginEnv) (c : LoginClient) (pkt : LoginPkt) :
    LoginType → Option LoginOutcome
  | .login8b => if c.version = .bb then none else some (shipDcnteProcessLogin env c pkt)
  | .login93 =>
    some (if c.version = .bb then shipBbProcessLogin env c pkt else shipDcProcessLogin env c pkt)
  | .login9d => if c.version = .bb then none else some (shipDcv2ProcessLogin env c pkt)
  | .login9e =>
    if c.version = .bb then none
    else some (if c.version ≠ .xbox then shipGcProcessLogin env c pkt
      else shipXbProcessLogin env c pkt)

/-- The login packets of `block_process_pkt`. -/
def blockProcessLogin (env : LoginEnv) (c : LoginClient) (pkt : LoginPkt) :
    LoginType → Option LoginOutcome
  | .login8b => if c.version = .bb then none else some (blockDcnteProcessLogin env c pkt)
  | .login93 =>
    some (if c.version = .bb then blockBbProcessLogin env c pkt else blockDcProcessLogin env c pkt)
  | .login9d => if c.version = .bb then none else some (blockDcv2ProcessLogin env c pkt)
  | .login9e =>
    if c.version = .bb then none
    else some (if c.version ≠ .xbox then blockGcProcessLogin env c pkt
      else blockXbProcessLogin env c pkt)

/-- A guildcard is banned for the time being. -/
def GuildcardBanned (s : BanList) (now : ℤ) (guildcard : BitVec 32) : Prop :=
  ∃ i ∈ s.guildcardBans, i.bannedGc = guildcard ∧ unexpired now i.endTime = true

/-- The network of an IP ban has the address in it. -/
def IpBan.Covers (i : IpBan) : Address → Prop
  | .inet sAddr => i.ipv6 = false ∧ sAddr &&& i.netmask 0 = i.ipAddr 0 &&& i.netmask 0
  | .inet6 s6Addr => i.ipv6 = true ∧ ∀ k, s6Addr k &&& i.netmask k = i.ipAddr k &&& i.netmask k

def AddressBanned (s : BanList) (now : ℤ) (ip : Address) : Prop :=
  ∃ i ∈ s.ipBans, i.Covers ip ∧ unexpired now i.endTime = true

theorem isGuildcardBanned_isSome (s : BanList) (now : ℤ) (guildcard : BitVec 32) :
    (isGuildcardBanned s now guildcard).isSome = true ↔ GuildcardBanned s now guildcard := by
  unfold isGuildcardBanned GuildcardBanned
  rw [Option.isSome_map, List.find?_isSome]
  simp only [decide_eq_true_eq]

theorem isIpBanned_isSome (s : BanList) (now : ℤ) (ip : Address) :
    (isIpBanned s now ip).isSome = true ↔ AddressBanned s now ip := by
  unfold isIpBanned AddressBanned
  cases ip with
  | inet sAddr =>
    unfold isIp4Banned IpBan.Covers
    rw [Option.isSome_map, List.find?_isSome]
    simp only [decide_eq_true_eq, and_comm, and_left_comm]
  | inet6 s6Addr =>
    unfold isIp6Banned IpBan.Covers eqIp6
    rw [Option.isSome_map, List.find?_isSome]
    simp only [decide_eq_true_eq, and_comm, and_left_comm]

/-- A ban is in force against a client that sends a login packet. -/
def InForce (env : LoginEnv) (c : LoginClient) (pkt : LoginPkt) : Prop :=
  GuildcardBanned env.bans env.now pkt.guildcard ∨ AddressBanned env.bans env.now c.ipAddr

instance (s : BanList) (now : ℤ) (guildcard : BitVec 32) :
    Decidable (GuildcardBanned s now guildcard) :=
  decidable_of_iff _ (isGuildcardBanned_isSome s now guildcard)

instance (s : BanList) (now : ℤ) (ip : Address) : Decidable (AddressBanned s now ip) :=
  decidable_of_iff _ (isIpBanned_isSome s now ip)

instance (env : LoginEnv) (c : LoginClient) (pkt : LoginPkt) : Decidable (InForce env c pkt) :=
  inferInstanceAs (Decidable (_ ∨ _))

/-- The lookup of the handlers finds a ban of the guildcard they have at hand, or of the address. -/
theorem findBan_eq_none_iff (env : LoginEnv) (c : LoginClient) :
    findBan env c = none ↔
      ¬GuildcardBanned env.bans env.now c.guildcard ∧ ¬AddressBanned env.bans env.now c.ipAddr := by
  rw [← isGuildcardBanned_isSome, ← isIpBanned_isSome]
  unfold findBan
  cases isGuildcardBanned env.bans env.now c.guildcard with
  | none => simp
  | some ban => simp

/-- The version of a client is kept off the ship. -/
def refusedVersion (env : LoginEnv) (c : LoginClient) (pkt : LoginPkt) : LoginType → Bool
  | .login8b => env.shipgateFlags.noDcnte
  | .login93 => if c.version = .bb then env.shipgateFlags.noBb else env.shipgateFlags.noV1
  | .login9d => dcv2Refused env c pkt
  | .login9e => if c.version ≠ .xbox then gcRefused env c else env.shipgateFlags.noPsox

/-- What keeps a block from letting a client in: its version, a ban of its address or of the
guildcard that is stored from a login before, wrong security data, or a send that fails. -/
def TurnedBack (env : LoginEnv) (c : LoginClient) (pkt : LoginPkt) (t : LoginType) : Prop :=
  refusedVersion env c pkt t = true ∨ GuildcardBanned env.bans env.now c.guildcard ∨
    AddressBanned env.bans env.now c.ipAddr ∨ (c.version = .bb ∧ pkt.magic ≠ 0xDEADBEEF) ∨
    ∃ k < 3, env.sent k = false

/-- The end of a handler leaves the client as it is, and lets it in if it returns zero. -/
structure Finishes (finish : LoginClient → LoginOutcome) (ok : Prop) : Prop where
  client : ∀ c, (finish c).client = c
  welcomed : ∀ c, (finish c).welcomed = true ↔ (finish c).rv = 0
  rv : ∀ c, (finish c).rv = 0 ↔ ok

theorem finishes_answer {env : LoginEnv} {codes : List ℤ} {meet : Option ℕ} {ok : Prop}
    (h : sendAll env.sent codes 0 = 0 ↔ ok) : Finishes (answer env codes meet) ok where
  client _ := rfl
  welcomed _ := decide_eq_true_iff
  rv _ := h

theorem finishes_bbAnswer {env : LoginEnv} {pkt : LoginPkt} {codes : List ℤ} {ok : Prop}
    (h : sendAll env.sent codes 0 = 0 ↔ ok) :
    Finishes (bbAnswer env pkt codes) (pkt.magic = 0xDEADBEEF ∧ ok) := by
  have hsends : Finishes (answer env codes none) ok := finishes_answer h
  unfold bbAnswer
  by_cases hmagic : pkt.magic = 0xDEADBEEF
  · constructor
    · intro c
      rw [if_neg (not_not.mpr hmagic)]
      exact hsends.client c
    · intro c
      rw [if_neg (not_not.mpr hmagic)]
      exact hsends.welcomed c
    · intro c
      rw [if_neg (not_not.mpr hmagic), hsends.rv c]
      exact (and_iff_right hmagic).symm
  · constructor
    · intro c
      rw [if_pos hmagic]
    · intro c
      rw [if_pos hmagic]
      exact ⟨(fun h => nomatch h), fun h => absurd h (show (-1 : ℤ) ≠ 0 by decide)⟩
    · intro c
      rw [if_pos hmagic]
      exact ⟨fun h => absurd h (show (-1 : ℤ) ≠ 0 by decide), fun h => absurd h.1 hmagic⟩

theorem sendAll_three (sent : ℕ → Bool) {x y z : ℤ} (hx : x ≠ 0) (hy : y ≠ 0) (hz : z ≠ 0) :
    sendAll sent [x, y, z] 0 = 0 ↔ ∀ k < 3, sent k = true := by
  have hall : (∀ k < 3, sent k = true) ↔ sent 0 = true ∧ sent 1 = true ∧ sent 2 = true := by
    constructor
    · intro h
      exact ⟨h 0 (by decide), h 1 (by decide), h 2 (by decide)⟩
    · rintro ⟨h0, h1, h2⟩ k hk
      match k, hk with
      | 0, _ => exact h0
      | 1, _ => exact h1
      | 2, _ => exact h2
  rw [hall]
  unfold sendAll sendAll sendAll sendAll
  cases sent 0 <;> cases sent 1 <;> cases sent 2 <;> simp [hx, hy, hz]

theorem blockLogin_welcomed_iff {env : LoginEnv} {refused : Bool} {c saved : LoginClient}
    {finish : LoginClient → LoginOutcome} {ok : Prop} (h : Finishes finish ok) :
    (blockLogin env refused c saved finish).welcomed = true ↔
      refused = false ∧ findBan env c = none ∧ ok := by
  unfold blockLogin
  cases refused with
  | true => exact ⟨(fun h => nomatch h), fun h => nomatch h.1⟩
  | false =>
    rw [if_neg Bool.false_ne_true]
    cases findBan env c with
    | some ban => exact ⟨(fun h => nomatch h), fun h => nomatch h.2.1⟩
    | none =>
      rw [h.welcomed, h.rv]
      exact ⟨fun hok => ⟨rfl, rfl, hok⟩, fun hok => hok.2.2⟩

/-- Two states of a client in one connection, neither of which is less disconnected. -/
structure SameConnection (c c' : LoginClient) : Prop where
  ipAddr : c'.ipAddr = c.ipAddr
  disconnected : c'.disconnected = c.disconnected

/-- The outcome is that of one of the block's handlers. -/
inductive ByBlock (env : LoginEnv) (c : LoginClient) (pkt : LoginPkt) (t : LoginType) :
    LoginOutcome → Prop where
  | mk {c' saved : LoginClient} {finish : LoginClient → LoginOutcome} {ok : Prop}
      (before : SameConnection c c') (guildcard : c'.guildcard = c.guildcard)
      (after : SameConnection c saved) (finishes : Finishes finish ok)
      (good : ok ↔ (c.version = .bb → pkt.magic = 0xDEADBEEF) ∧ ∀ k < 3, env.sent k = true) :
      ByBlock env c pkt t (blockLogin env (refusedVersion env c pkt t) c' saved finish)

/-- The outcome is that of one of the ship's handlers. -/
inductive ByShip (env : LoginEnv) (c : LoginClient) (pkt : LoginPkt) : LoginOutcome → Prop where
  | mk {refused : Bool} {c' saved : LoginClient} {finish : LoginClient → LoginOutcome}
      (guildcard : saved.guildcard = pkt.guildcard) (ipAddr : saved.ipAddr = c.ipAddr) :
      ByShip env c pkt (shipLogin env refused c' saved finish)

theorem markTrial_same (c : LoginClient) (pkt : LoginPkt) :
    SameConnection c (markTrial c pkt) ∧ (markTrial c pkt).guildcard = c.guildcard := by
  unfold markTrial
  split_ifs
  · exact ⟨⟨rfl, rfl⟩, rfl⟩
  · exact ⟨⟨rfl, rfl⟩, rfl⟩

theorem markBeforeRefusal_same (env : LoginEnv) (c : LoginClient) (pkt : LoginPkt) :
    SameConnection c (markBeforeRefusal env c pkt) ∧
      (markBeforeRefusal env c pkt).guildcard = c.guildcard := by
  unfold markBeforeRefusal
  split_ifs
  · exact ⟨⟨rfl, rfl⟩, rfl⟩
  · exact markTrial_same c pkt

theorem shipProcessLogin_byShip {env : LoginEnv} {c : LoginClient} {pkt : LoginPkt}
    {t : LoginType} {o : LoginOutcome} (h : shipProcessLogin env c pkt t = some o) :
    ByShip env c pkt o := by
  unfold shipProcessLogin at h
  cases t with
  | login8b =>
    dsimp only at h
    split_ifs at h
    cases h
    exact .mk rfl rfl
  | login93 =>
    dsimp only at h
    split_ifs at h
    · cases h
      exact .mk rfl rfl
    · cases h
      exact .mk rfl rfl
  | login9d =>
    dsimp only at h
    split_ifs at h
    cases h
    exact .mk rfl (markTrial_same c pkt).1.ipAddr
  | login9e =>
    dsimp only at h
    split_ifs at h
    · cases h
      exact .mk rfl rfl
    · cases h
      exact .mk rfl rfl

theorem blockProcessLogin_byBlock {env : LoginEnv} {c : LoginClient} {pkt : LoginPkt}
    {t : LoginType} {o : LoginOutcome} (h : blockProcessLogin env c pkt t = some o) :
    ByBlock env c pkt t o := by
  have hsends := sendAll_three env.sent (show (-1 : ℤ) ≠ 0 by decide)
    (show (-2 : ℤ) ≠ 0 by decide) (show (-3 : ℤ) ≠ 0 by decide)
  have hbbSends := sendAll_three env.sent (show (-2 : ℤ) ≠ 0 by decide)
    (show (-3 : ℤ) ≠ 0 by decide) (show (-4 : ℤ) ≠ 0 by decide)
  have hother : c.version ≠ .bb → ((∀ k < 3, env.sent k = true) ↔
      (c.version = .bb → pkt.magic = 0xDEADBEEF) ∧ ∀ k < 3, env.sent k = true) :=
    fun hbb => (and_iff_right fun h => absurd h hbb).symm
  have hsame : SameConnection c c := ⟨rfl, rfl⟩
  unfold blockProcessLogin at h
  cases t with
  | login8b =>
    dsimp only at h
    split_ifs at h with hbb
    cases h
    exact .mk hsame rfl ⟨rfl, rfl⟩ (finishes_answer hsends) (hother hbb)
  | login93 =>
    dsimp only at h
    split_ifs at h with hbb
    · cases h
      have hrefused : refusedVersion env c pkt .login93 = env.shipgateFlags.noBb := if_pos hbb
      rw [blockBbProcessLogin, ← hrefused]
      exact .mk hsame rfl ⟨rfl, rfl⟩ (finishes_bbAnswer hbbSends)
        (and_congr_left fun _ => ⟨fun h _ => h, fun h => h hbb⟩)
    · cases h
      have hrefused : refusedVersion env c pkt .login93 = env.shipgateFlags.noV1 := if_neg hbb
      rw [blockDcProcessLogin, ← hrefused]
      exact .mk hsame rfl ⟨rfl, rfl⟩ (finishes_answer hsends) (hother hbb)
  | login9d =>
    dsimp only at h
    split_ifs at h with hbb
    cases h
    obtain ⟨hmark, hguildcard⟩ := markBeforeRefusal_same env c pkt
    obtain ⟨htrial, -⟩ := markTrial_same c pkt
    exact .mk hmark hguildcard ⟨htrial.ipAddr, htrial.disconnected⟩ (finishes_answer hsends)
      (hother hbb)
  | login9e =>
    dsimp only at h
    split_ifs at h with hbb hxbox
    · cases h
      have hrefused : refusedVersion env c pkt .login9e = gcRefused env c := if_pos hxbox
      rw [blockGcProcessLogin, ← hrefused]
      exact .mk hsame rfl ⟨rfl, rfl⟩ (finishes_answer hsends) (hother hbb)
    · cases h
      have hrefused : refusedVersion env c pkt .login9e = env.shipgateFlags.noPsox :=
        if_neg hxbox
      rw [blockXbProcessLogin, ← hrefused]
      exact .mk hsame rfl ⟨rfl, rfl⟩ (finishes_answer hsends) (hother hbb)

theorem ByShip.not_welcomed {env : LoginEnv} {c : LoginClient} {pkt : LoginPkt} {o : LoginOutcome}
    (h : ByShip env c pkt o) (hban : InForce env c pkt) : o.welcomed = false := by
  cases h with
  | @mk refused c' saved finish guildcard ipAddr =>
    have hfound : findBan env saved ≠ none := by
      intro hnone
      obtain ⟨hguildcard, haddress⟩ := (findBan_eq_none_iff env saved).mp hnone
      rw [guildcard] at hguildcard
      rw [ipAddr] at haddress
      exact hban.elim hguildcard haddress
    obtain ⟨ban, hfind⟩ := Option.ne_none_iff_exists'.mp hfound
    unfold shipLogin
    rw [hfind]
    split_ifs <;> rfl

theorem ByBlock.welcomed_iff {env : LoginEnv} {c : LoginClient} {pkt : LoginPkt} {t : LoginType}
    {o : LoginOutcome} (h : ByBlock env c pkt t o) :
    o.welcomed = true ↔ ¬TurnedBack env c pkt t := by
  cases h with
  | @mk c' saved finish ok before guildcard after finishes good =>
    rw [blockLogin_welcomed_iff finishes, findBan_eq_none_iff, guildcard, before.ipAddr, good]
    unfold TurnedBack
    simp only [not_or, not_and, not_exists, not_not, Bool.not_eq_true, Bool.not_eq_false, and_assoc]

theorem ByBlock.refusal {env : LoginEnv} {c : LoginClient} {pkt : LoginPkt} {t : LoginType}
    {o : LoginOutcome} (h : ByBlock env c pkt t o) (hno : o.welcomed = false) :
    o.client.disconnected = true ∨ o.rv ≠ 0 := by
  cases h with
  | @mk c' saved finish ok before guildcard after finishes good =>
    unfold blockLogin at hno ⊢
    split_ifs with hrefused
    · exact Or.inl rfl
    · rw [if_neg hrefused] at hno
      cases hfind : findBan env c' with
      | some ban => exact Or.inl rfl
      | none =>
        rw [hfind] at hno
        exact Or.inr fun hrv => Bool.eq_false_iff.mp hno ((finishes.welcomed saved).mpr hrv)

theorem ByBlock.sameConnection {env : LoginEnv} {c : LoginClient} {pkt : LoginPkt}
    {t : LoginType} {o : LoginOutcome} (h : ByBlock env c pkt t o) :
    o.client.ipAddr = c.ipAddr ∧ (c.disconnected = true → o.client.disconnected = true) := by
  cases h with
  | @mk c' saved finish ok before guildcard after finishes good =>
    unfold blockLogin
    split_ifs
    · exact ⟨before.ipAddr, fun _ => rfl⟩
    · cases findBan env c' with
      | some ban => exact ⟨before.ipAddr, fun _ => rfl⟩
      | none =>
        dsimp only
        rw [finishes.client]
        exact ⟨after.ipAddr, fun hc => after.disconnected.trans hc⟩

end ShipServer.LoginHandlers

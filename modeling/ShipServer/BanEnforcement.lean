import ShipServer.LobbyEntry
import ShipServer.LoginHandlers

set_option autoImplicit false

namespace ShipServer.BanEnforcement

open Versions LabelledRuns LobbyRooms LobbyState LobbyFunctions BlockPackets BlockInvariants
open PasswordEntry LobbyEntry LoginHandlers LobbyRefinement

/-- A block with its connections. In one pass of its thread the socket of each client is read once,
and the packets that are there are handled until a handler fails. `barred` and `turned` are about
the past: a ban was in force at a login of the client, or of the one being read in this very read. -/
structure Site where
  block : Block
  login : ClientId → LoginClient
  clients : List ClientId
  served : List ClientId
  reading : Option ClientId
  barred : ClientId → Bool
  turned : Bool

/-- What happens on a site. `packet` stands for the other packets of the client being read, and for
what is done about clients from outside. -/
inductive SiteEvent where
  | accept (c : ClientId) (version : ClientVersion) (ipAddr : Address)
  | read (c : ClientId)
  | login (env : LoginEnv) (t : LoginType) (pkt : LoginPkt)
  | packet (e : BlockPackets.Event) (rv : ℤ)
  | finish
  | flag (c : ClientId)
  | cleanUp (env : LobbyFunctions.Env)

def connected (version : ClientVersion) (ipAddr : Address) : LoginClient where
  version := version
  isNte := false
  ipAddr := ipAddr
  guildcard := 0
  languageCode := 0
  qLang := 0
  privilege := 0
  gcMsgBoxes := false
  disconnected := false

def setLogin (s : Site) (c : ClientId) (x : LoginClient) : Site :=
  { s with
    login := Function.update s.login c x
    block := setAccount s.block c fun a => { a with version := x.version, isNte := x.isNte } }

def disconnectLater (s : Site) (c : ClientId) : Site :=
  { s with login := Function.update s.login c { s.login c with disconnected := true } }

/-- A handler that fails ends the read, and the client is disconnected. -/
def afterPacket (s : Site) (c : ClientId) (rv : ℤ) : Site :=
  if rv = 0 then s else { disconnectLater s c with reading := none }

def login (s : Site) (c : ClientId) (env : LoginEnv) (t : LoginType) (pkt : LoginPkt) : Site :=
  match blockProcessLogin env (s.login c) pkt t with
  | none => s
  | some o =>
    let ban := decide (InForce env (s.login c) pkt)
    let s := setLogin s c o.client
    let s := match o.meet with
      | none => s
      | some menu => { s with block := meetTheUser s.block c menu }
    let s := { s with
      barred := Function.update s.barred c (s.barred c || ban), turned := s.turned || ban }
    afterPacket s c o.rv

/-- The flagged clients are taken out of their lobbies and disconnected. -/
def cleanUp (s : Site) (env : LobbyFunctions.Env) : Site :=
  let gone := s.clients.filter fun c => (s.login c).disconnected
  { s with
    block := gone.foldl (fun b c => BlockPackets.disconnect b env c) s.block
    clients := s.clients.filter fun c => !(s.login c).disconnected
    served := []
    barred := fun c => s.barred c && !decide (c ∈ gone) }

def next (s : Site) : SiteEvent → Site
  | .accept c version ipAddr =>
    if c ∈ s.clients then s
    else { setLogin s c (connected version ipAddr) with clients := s.clients ++ [c] }
  | .read c =>
    if s.reading = none ∧ c ∈ s.clients ∧ c ∉ s.served then
      { s with reading := some c, served := c :: s.served, turned := false }
    else s
  | .login env t pkt =>
    match s.reading with
    | none => s
    | some c => login s c env t pkt
  | .packet e rv =>
    match seeker e.action with
    | none => { s with block := BlockPackets.next s.block e }
    | some c =>
      if s.reading = some c then
        afterPacket { s with block := BlockPackets.next s.block e } c rv
      else s
  | .finish => { s with reading := none }
  | .flag c => disconnectLater s c
  | .cleanUp env => if s.reading = none then cleanUp s env else s

def start : Site where
  block := Block.start
  login _ := connected .dcv1 (.inet 0)
  clients := []
  served := []
  reading := none
  barred _ := false
  turned := false

/-- No client is let in by a login while a ban is in force against it, and no client for which that
has been so gets into a lobby. -/
def Enforced (s : Site) (e : SiteEvent) : Prop :=
  (∀ env t pkt c o, e = .login env t pkt → s.reading = some c → InForce env (s.login c) pkt →
    blockProcessLogin env (s.login c) pkt t = some o → o.welcomed = false) ∧
  ∀ c l, s.barred c = true → ¬Entered s.block.rooms (next s e).block.rooms c l

/-- A login with a guildcard that is banned is turned back for another reason, and no request to get
into a lobby follows it in the same read. -/
def Caught (s : Site) (e : SiteEvent) : Prop :=
  (∀ env t pkt c, e = .login env t pkt → s.reading = some c →
    GuildcardBanned env.bans env.now pkt.guildcard → TurnedBack env (s.login c) pkt t) ∧
  ∀ p rv c, e = .packet p rv → seeker p.action = some c → s.reading = some c → s.turned = false

/-- A client that has been barred is not read from any more, unless it is still the one being
read. -/
structure Tracked (s : Site) : Prop where
  sound : BlockSound s.block
  reading : ∀ c, s.reading = some c → c ∈ s.clients ∧ c ∈ s.served
  known : ∀ c, s.barred c = true → c ∈ s.clients ∧ c ∈ s.served
  turned : ∀ c, s.barred c = true → s.reading = some c → s.turned = true

/-- A client that has been barred is also about to be disconnected. -/
structure Invariant (s : Site) : Prop extends Tracked s where
  flagged : ∀ c, s.barred c = true → (s.login c).disconnected = true

theorem afterPacket_block (s : Site) (c : ClientId) (rv : ℤ) :
    (afterPacket s c rv).block = s.block := by
  unfold afterPacket
  split_ifs <;> rfl

theorem setLogin_sameBlock (s : Site) (c : ClientId) (x : LoginClient) :
    BlockEffects.SameBlock s.block (setLogin s c x).block :=
  BlockEffects.setAccount_same s.block c fun a => { a with version := x.version, isNte := x.isNte }

theorem login_sameBlock (s : Site) (c : ClientId) (env : LoginEnv) (t : LoginType)
    (pkt : LoginPkt) : BlockEffects.SameBlock s.block (login s c env t pkt).block := by
  unfold login
  cases blockProcessLogin env (s.login c) pkt t with
  | none => exact .refl s.block
  | some o =>
    have hset := setLogin_sameBlock s c o.client
    dsimp only
    rw [afterPacket_block]
    cases o.meet with
    | none => exact hset
    | some menu => exact hset.trans (BlockEffects.meetTheUser_same _ c menu)

theorem cleanUp_block (env : LobbyFunctions.Env) (gone : List ClientId) {b : Block}
    (hb : BlockSound b) :
    BlockSound (gone.foldl (fun b c => BlockPackets.disconnect b env c) b) ∧
      EntersOnly none b.rooms
        (gone.foldl (fun b c => BlockPackets.disconnect b env c) b).rooms := by
  induction gone generalizing b with
  | nil => exact ⟨hb, entersOnly_of_presence rfl⟩
  | cons c gone ih =>
    have hsound : BlockSound (BlockPackets.disconnect b env c) := next_sound hb ⟨env, .disconnect c⟩
    obtain ⟨hrest, henters⟩ := ih hsound
    exact ⟨hrest, (entersOnly_disconnect hb env c).trans henters⟩

/-- The client that an event may take into a lobby: only one that is being read. -/
def asks (s : Site) : SiteEvent → Option ClientId
  | .packet e _ => if seeker e.action = s.reading then s.reading else none
  | _ => none

/-- What an event does to the block. -/
theorem next_block {s : Site} (hs : BlockSound s.block) (e : SiteEvent) :
    BlockSound (next s e).block ∧ EntersOnly (asks s e) s.block.rooms (next s e).block.rooms := by
  have hquiet : ∀ o b, BlockEffects.SameBlock s.block b →
      BlockSound b ∧ EntersOnly o s.block.rooms b.rooms :=
    fun o b hsame => ⟨hsame.sound hs, entersOnly_of_same hsame⟩
  cases e with
  | accept c version ipAddr =>
    unfold next
    dsimp only
    split_ifs
    · exact hquiet _ _ (.refl s.block)
    · exact hquiet _ _ (setLogin_sameBlock s c _)
  | read c =>
    unfold next
    dsimp only
    split_ifs
    · exact hquiet _ _ (.refl s.block)
    · exact hquiet _ _ (.refl s.block)
  | login env t pkt =>
    unfold next
    dsimp only
    cases s.reading with
    | none => exact hquiet _ _ (.refl s.block)
    | some c => exact hquiet _ _ (login_sameBlock s c env t pkt)
  | packet e rv =>
    have hsound := next_sound hs e
    have henters := next_entersOnly hs e
    unfold next asks
    dsimp only
    cases hseeker : seeker e.action with
    | none =>
      rw [hseeker] at henters
      refine ⟨hsound, ?_⟩
      split_ifs with hnobody
      · rwa [← hnobody]
      · exact henters
    | some c =>
      rw [hseeker] at henters
      by_cases hreading : s.reading = some c
      · dsimp only
        rw [if_pos hreading, if_pos hreading.symm, afterPacket_block, hreading]
        exact ⟨hsound, henters⟩
      · dsimp only
        rw [if_neg hreading, if_neg (Ne.symm hreading)]
        exact hquiet _ _ (.refl s.block)
  | finish => exact hquiet _ _ (.refl s.block)
  | flag c => exact hquiet _ _ (.refl s.block)
  | cleanUp env =>
    unfold next
    dsimp only
    split_ifs
    · exact cleanUp_block env _ hs
    · exact hquiet _ _ (.refl s.block)

/-- After the handler of a packet a barred client is flagged, or the handler fails. -/
theorem Tracked.afterPacket {s : Site} (h : Tracked s) {c : ClientId} {rv : ℤ}
    (hflagged : ∀ d, s.barred d = true → (s.login d).disconnected = true ∨ d = c ∧ rv ≠ 0) :
    Invariant (afterPacket s c rv) := by
  unfold BanEnforcement.afterPacket
  by_cases hrv : rv = 0
  · rw [if_pos hrv]
    refine { h with flagged := ?_ }
    intro d hd
    exact (hflagged d hd).resolve_right fun hfails => hfails.2 hrv
  · rw [if_neg hrv]
    constructor
    · exact ⟨h.sound, (fun d hd => nomatch hd), h.known, (fun d _ hd => nomatch hd)⟩
    · intro d hd
      change (Function.update s.login c { s.login c with disconnected := true } d).disconnected = _
      by_cases hdc : d = c
      · rw [hdc, Function.update_self]
      · rw [Function.update_of_ne hdc]
        exact (hflagged d hd).resolve_right fun hfails => hdc hfails.1

/-- What a login leaves of the site, but for the end of the read. -/
theorem Invariant.note {s : Site} (h : Invariant s) {c : ClientId} (hreading : s.reading = some c)
    {b : Block} (hb : BlockEffects.SameBlock s.block b) (x : LoginClient) (ban : Bool) :
    Tracked { s with
      block := b, login := Function.update s.login c x
      barred := Function.update s.barred c (s.barred c || ban), turned := s.turned || ban } where
  sound := hb.sound h.sound
  reading := h.reading
  known d hd := by
    change Function.update s.barred c (s.barred c || ban) d = true at hd
    by_cases hdc : d = c
    · rw [hdc]
      exact h.reading c hreading
    · rw [Function.update_of_ne hdc] at hd
      exact h.known d hd
  turned d hd hread := by
    change Function.update s.barred c (s.barred c || ban) d = true at hd
    have hdc : c = d := Option.some.inj (hreading.symm.trans hread)
    rw [← hdc, Function.update_self, Bool.or_eq_true] at hd
    refine Bool.or_eq_true_iff.mpr (hd.imp_left fun hbarred => ?_)
    exact h.turned c hbarred hreading

theorem Invariant.login {s : Site} (h : Invariant s) {c : ClientId} (hreading : s.reading = some c)
    {env : LoginEnv} {t : LoginType} {pkt : LoginPkt}
    (hcaught : GuildcardBanned env.bans env.now pkt.guildcard →
      TurnedBack env (s.login c) pkt t) :
    Invariant (login s c env t pkt) := by
  unfold BanEnforcement.login
  cases hlogin : blockProcessLogin env (s.login c) pkt t with
  | none => exact h
  | some o =>
    have hby := blockProcessLogin_byBlock hlogin
    have hset := setLogin_sameBlock s c o.client
    -- a ban of the address turns the client back by itself
    have hbanned : InForce env (s.login c) pkt → o.client.disconnected = true ∨ o.rv ≠ 0 := by
      intro hban
      have hturned : TurnedBack env (s.login c) pkt t :=
        hban.elim hcaught fun haddress => Or.inr (Or.inr (Or.inl haddress))
      refine hby.refusal (Bool.eq_false_iff.mpr fun hin => ?_)
      exact hby.welcomed_iff.mp hin hturned
    have hflagged : ∀ d, Function.update s.barred c
        (s.barred c || decide (InForce env (s.login c) pkt)) d = true →
        (Function.update s.login c o.client d).disconnected = true ∨ d = c ∧ o.rv ≠ 0 := by
      intro d hd
      by_cases hdc : d = c
      · rw [hdc, Function.update_self, Bool.or_eq_true, decide_eq_true_eq] at hd
        rw [hdc, Function.update_self]
        have hflag : o.client.disconnected = true ∨ o.rv ≠ 0 :=
          hd.elim (fun hbarred => Or.inl (hby.sameConnection.2 (h.flagged c hbarred))) hbanned
        exact hflag.imp_right fun hrv => ⟨rfl, hrv⟩
      · rw [Function.update_of_ne hdc] at hd ⊢
        exact Or.inl (h.flagged d hd)
    dsimp only
    cases o.meet with
    | none => exact (h.note hreading hset _ _).afterPacket hflagged
    | some menu =>
      have hmeet := hset.trans (BlockEffects.meetTheUser_same _ c menu)
      exact (h.note hreading hmeet _ _).afterPacket hflagged

theorem Invariant.accept {s : Site} (h : Invariant s) {c : ClientId} (hnew : c ∉ s.clients)
    (x : LoginClient) : Invariant { setLogin s c x with clients := s.clients ++ [c] } where
  sound := (setLogin_sameBlock s c x).sound h.sound
  reading d hd := ⟨List.mem_append_left [c] (h.reading d hd).1, (h.reading d hd).2⟩
  known d hd := ⟨List.mem_append_left [c] (h.known d hd).1, (h.known d hd).2⟩
  turned := h.turned
  flagged d hd := by
    change (Function.update s.login c x d).disconnected = true
    have hdc : d ≠ c := by
      intro hdc
      exact hnew (hdc ▸ (h.known d hd).1)
    rw [Function.update_of_ne hdc]
    exact h.flagged d hd

theorem Invariant.read {s : Site} (h : Invariant s) {c : ClientId} (hclient : c ∈ s.clients)
    (hserved : c ∉ s.served) :
    Invariant { s with reading := some c, served := c :: s.served, turned := false } where
  sound := h.sound
  reading d hd := by
    cases hd
    exact ⟨hclient, List.mem_cons_self⟩
  known d hd := ⟨(h.known d hd).1, List.mem_cons_of_mem c (h.known d hd).2⟩
  turned d hd hread := by
    cases hread
    exact absurd (h.known c hd).2 hserved
  flagged := h.flagged

theorem Invariant.disconnectLater {s : Site} (h : Invariant s) (c : ClientId) :
    Invariant (disconnectLater s c) := by
  refine { h with flagged := ?_ }
  intro d hd
  change (Function.update s.login c { s.login c with disconnected := true } d).disconnected = _
  by_cases hdc : d = c
  · rw [hdc, Function.update_self]
  · rw [Function.update_of_ne hdc]
    exact h.flagged d hd

/-- After a pass no client is left that has been barred. -/
theorem Invariant.cleanUp {s : Site} (h : Invariant s) (hreading : s.reading = none)
    (env : LobbyFunctions.Env) : Invariant (BanEnforcement.cleanUp s env) := by
  have hnobody : ∀ c, (BanEnforcement.cleanUp s env).barred c = false := by
    intro c
    change (s.barred c && !decide (c ∈ s.clients.filter fun c => (s.login c).disconnected)) = false
    cases hbarred : s.barred c with
    | false => rfl
    | true =>
      have hgone : c ∈ s.clients.filter fun c => (s.login c).disconnected :=
        List.mem_filter.mpr ⟨(h.known c hbarred).1, h.flagged c hbarred⟩
      rw [decide_eq_true hgone]
      rfl
  have hnone : ∀ c, (BanEnforcement.cleanUp s env).barred c = true → False := by
    intro c hbarred
    rw [hnobody c] at hbarred
    cases hbarred
  constructor
  · constructor
    · exact (cleanUp_block env _ h.sound).1
    · intro c hread
      change s.reading = some c at hread
      rw [hreading] at hread
      cases hread
    · exact fun c hbarred => (hnone c hbarred).elim
    · exact fun c hbarred => (hnone c hbarred).elim
  · exact fun c hbarred => (hnone c hbarred).elim

theorem next_invariant {s : Site} (h : Invariant s) {e : SiteEvent} (hcaught : Caught s e) :
    Invariant (next s e) := by
  have hsound : BlockSound (next s e).block := (next_block h.sound e).1
  obtain ⟨hlogin, -⟩ := hcaught
  unfold next at hsound ⊢
  cases e with
  | accept c version ipAddr =>
    dsimp only
    split_ifs with hold
    · exact h
    · exact h.accept hold _
  | read c =>
    dsimp only
    split_ifs with hready
    · exact h.read hready.2.1 hready.2.2
    · exact h
  | login env t pkt =>
    dsimp only
    cases hreading : s.reading with
    | none => exact h
    | some c => exact h.login hreading (hlogin env t pkt c rfl hreading)
  | packet e rv =>
    dsimp only at hsound ⊢
    cases hseeker : seeker e.action with
    | none =>
      rw [hseeker] at hsound
      exact { h with sound := hsound }
    | some c =>
      rw [hseeker] at hsound
      dsimp only at hsound ⊢
      split_ifs at hsound ⊢
      · rw [afterPacket_block] at hsound
        have htracked : Tracked { s with block := BlockPackets.next s.block e } :=
          { h with sound := hsound }
        exact htracked.afterPacket fun d hd => Or.inl (h.flagged d hd)
      · exact h
  | finish => exact ⟨⟨h.sound, (fun d hd => nomatch hd), h.known, (fun d _ hd => nomatch hd)⟩,
      h.flagged⟩
  | flag c => exact h.disconnectLater c
  | cleanUp env =>
    dsimp only
    split_ifs with hreading
    · exact h.cleanUp hreading env
    · exact h

theorem start_invariant : Invariant start where
  sound := BlockInvariants.initial_invariant.toBlockSound
  reading _ hd := nomatch hd
  known _ hd := nomatch hd
  turned _ hd := nomatch hd
  flagged _ hd := nomatch hd

/-- A block keeps a banned client out if and only if a ban of the guildcard in the packet finds
the client turned back for something else: the block looks up the guildcard it had before. -/
theorem blockLogin_enforced_iff {env : LoginEnv} {c : LoginClient} {pkt : LoginPkt}
    {t : LoginType} {o : LoginOutcome} (h : blockProcessLogin env c pkt t = some o) :
    (InForce env c pkt → o.welcomed = false) ↔
      (GuildcardBanned env.bans env.now pkt.guildcard → TurnedBack env c pkt t) := by
  have hwelcomed : o.welcomed = false ↔ TurnedBack env c pkt t := by
    rw [← Bool.not_eq_true, (blockProcessLogin_byBlock h).welcomed_iff, not_not]
  rw [hwelcomed]
  constructor
  · intro henforced hguildcard
    exact henforced (Or.inl hguildcard)
  · intro hcaught hban
    exact hban.elim hcaught fun haddress => Or.inr (Or.inr (Or.inl haddress))

theorem asks_eq_some {s : Site} {e : SiteEvent} {c : ClientId} (h : asks s e = some c) :
    s.reading = some c ∧ ∃ p rv, e = .packet p rv ∧ seeker p.action = some c := by
  cases e with
  | packet p rv =>
    unfold asks at h
    dsimp only at h
    split_ifs at h with hseeker
    exact ⟨h, p, rv, rfl, hseeker.trans h⟩
  | accept | read | login | finish | flag | cleanUp => cases h

theorem enforced_of_caught {s : Site} (h : Invariant s) {e : SiteEvent} (hcaught : Caught s e) :
    Enforced s e := by
  obtain ⟨hlogin, hpacket⟩ := hcaught
  constructor
  · intro env t pkt c o he hreading hban hsome
    exact (blockLogin_enforced_iff hsome).mpr (hlogin env t pkt c he hreading) hban
  · intro c l hbarred hentered
    have hasks := (next_block h.sound e).2 c l hentered
    obtain ⟨hreading, p, rv, he, hseeker⟩ := asks_eq_some hasks
    have hturned := h.turned c hbarred hreading
    rw [hpacket p rv c he hseeker hreading] at hturned
    cases hturned

/-- The ship keeps everyone out against whom a ban is in force. A block does so for a login if and
only if the login is caught, and for whole runs in which every step is. -/
theorem bans_enforced (env : LoginEnv) (c : LoginClient) (pkt : LoginPkt) (t : LoginType)
    (o : LoginOutcome) (es : List SiteEvent) (s : Site) (e : SiteEvent) :
    (shipProcessLogin env c pkt t = some o → InForce env c pkt → o.welcomed = false) ∧
    (blockProcessLogin env c pkt t = some o →
      ((InForce env c pkt → o.welcomed = false) ↔
        (GuildcardBanned env.bans env.now pkt.guildcard → TurnedBack env c pkt t))) ∧
    (Run (StepOf next) Caught start es s → Caught s e → Enforced s e) := by
  refine ⟨?_, ?_, ?_⟩
  · intro h hban
    exact (shipProcessLogin_byShip h).not_welcomed hban
  · intro h
    exact blockLogin_enforced_iff h
  · intro hrun hcaught
    have hinvariant : Invariant s := by
      refine hrun.invariant Invariant start_invariant ?_
      rintro s₀ e₀ s₁ hs₀ hcaught₀ rfl
      exact next_invariant hs₀ hcaught₀
    exact enforced_of_caught hinvariant hcaught

/-- A ship that lets every version in and has banned the guildcard 42, and perhaps an address. -/
def banning (ipBans : List IpBan) : LoginEnv where
  shipgateFlags := ⟨false, false, false, false, false, false, false, false, false⟩
  bans := ⟨[⟨"", -1, 42⟩], ipBans⟩
  now := 0
  isGm _ := 0
  sent _ := true

def loginPkt : LoginPkt where
  guildcard := 42
  languageCode := 1
  version := 0x30
  serial := Vector.replicate 8 0
  accessKey := Vector.replicate 8 0
  magic := 0
  pktLen := 0
  lobbyMenu := 0
  lobbyId := 0

/-- Client 0 has connected from the address 7, and its packets are being read. -/
def arrived : List SiteEvent :=
  [.accept 0 .gc (.inet 7), .read 0]

/-- If the address of the client is banned too, a block turns it back. -/
theorem bans_enforced_address :
    Enforced (arrived.foldl next start)
      (.login (banning [⟨false, "", -1, fun _ => 7, fun _ => 0xFFFFFFFF⟩]) .login9e loginPkt) := by
  have hrun : Run (StepOf next) Caught start arrived (arrived.foldl next start) := by
    refine run_foldl_of next start fun e he s => ?_
    rcases List.mem_pair.mp he with rfl | rfl
    · exact ⟨(fun env t pkt c he => nomatch he), fun p rv c he => nomatch he⟩
    · exact ⟨(fun env t pkt c he => nomatch he), fun p rv c he => nomatch he⟩
  have hreading : (arrived.foldl next start).reading = some 0 := by decide
  have hlogin : ((arrived.foldl next start).login 0).ipAddr = .inet 7 := rfl
  refine (bans_enforced (banning []) ((arrived.foldl next start).login 0) loginPkt .login9e
    (turnAway ((arrived.foldl next start).login 0) none) arrived _ _).2.2 hrun
      ⟨?_, fun p rv c he => nomatch he⟩
  intro env t pkt c he hc _
  rw [hreading] at hc
  cases hc
  cases he
  refine Or.inr (Or.inr (Or.inl ?_))
  rw [hlogin]
  decide

/-- With the guildcard in the packet banned, a block lets client 0 in, and then into a lobby. -/
theorem bans_not_enforced :
    ¬ ∀ es s e, Run (StepOf next) Always start es s → Enforced s e := by
  intro h
  have henforced := h (arrived ++ [.login (banning []) .login9e loginPkt]) _
    (.packet ⟨obligingEnv, .charData 0 false newcomer⟩ 0) (run_foldl next start _)
  exact henforced.2 0 0 (by decide +kernel) ⟨by decide +kernel, by decide +kernel⟩

end ShipServer.BanEnforcement

import ShipServer.MessageCascades
import ShipServer.MutedSenders

set_option autoImplicit false

/-! The automatic replies to mails that come through the shipgate. They go back through it, so that
they may be replied to in turn. -/

namespace ShipServer.MailAutoreplies

open Versions LobbyRooms LabelledRuns PartialOrbits MessageCascades
open MutedSenders (Client Ship Block findLocal findRemote bugReportGc)

/-- The packets that ships send each other mails in. -/
inductive Wire where
  | dc
  | pc
  | bb
  deriving DecidableEq

/-- The packets that a client of a version sends mails in. -/
def wireOf (version : ClientVersion) : Wire :=
  match version with
  | .pc => .pc
  | .bb => .bb
  | _ => .dc

/-- A mail, with the sender and the receiver that are written in it. -/
structure Mail where
  wire : Wire
  sender : ℕ
  dest : ℕ
  deriving DecidableEq

/-- The ship that the shipgate passes mails for a guild card to, and who has set a text for
automatic replies. -/
structure World where
  gate : ℕ → Option Ship
  texts : ClientId → Bool

def refuses (c : Client) (gc : ℕ) : Bool :=
  c.hasBlacklisted gc || c.hasIgnored gc

/-- `handle_mail_autoreply`. -/
def handleMailAutoreply (s : Client) (dest : ℕ) : Option Mail :=
  match s.version with
  | .dcv1 | .dcv2 => none
  | version => some ⟨wireOf version, s.guildcard, dest⟩

/-- Whether a mail is replied to: `handle_dc_mail` asks whether replies are on, `handle_pc_mail` and
`handle_bb_mail` whether there is a text. -/
def World.replies (w : World) (wire : Wire) (c : Client) : Bool :=
  match wire with
  | .dc => c.autoreplyOn
  | .pc | .bb => w.texts c.id

def World.find (w : World) (gc : ℕ) : Option Client :=
  (w.gate gc).bind fun s => findRemote s gc

/-- What `handle_dc_mail`, `handle_pc_mail` and `handle_bb_mail` send back to the shipgate. -/
def World.answer (w : World) (m : Mail) : Option Mail :=
  (w.find m.dest).bind fun c =>
    if refuses c m.sender then none
    else if w.replies m.wire c then handleMailAutoreply c m.sender
    else none

/-- What the mail handlers pass to the shipgate. The sender is the one that the packet names. -/
def forwardMail (ship : Ship) (c : Client) (dest sender : ℕ) : Option Mail :=
  if c.gcProtect ∨ c.stfu ∨ dest = bugReportGc ∨ dest < 1000 then none
  else
    match findLocal ship dest with
    | some _ => none
    | none => some ⟨wireOf c.version, sender, dest⟩

/-- A client replies to mails in these packets from this guild card, and its reply sets out. -/
def World.Replies (w : World) (c : Client) (wire : Wire) (gc : ℕ) : Prop :=
  refuses c gc = false ∧ w.replies wire c = true ∧ c.version ≠ .dcv1 ∧ c.version ≠ .dcv2

/-- The clients that the mail names reply to each other, and the receiver replies to the mail. -/
def World.Endless (w : World) (m : Mail) : Prop :=
  ∃ c d, w.find m.dest = some c ∧ w.find m.sender = some d ∧
    w.Replies c m.wire m.sender ∧ w.Replies d (wireOf c.version) m.dest ∧
    w.Replies c (wireOf d.version) m.sender

section Replies

variable {w : World} {m a : Mail} {c : Client}

theorem find_guildcard {gc : ℕ} (h : w.find gc = some c) : c.guildcard = gc := by
  obtain ⟨s, -, hfound⟩ := Option.bind_eq_some_iff.1 h
  have hmeets := List.find?_some hfound
  simp only [Bool.and_eq_true, decide_eq_true_eq] at hmeets
  exact hmeets.1

theorem handleMailAutoreply_eq (gc : ℕ) :
    handleMailAutoreply c gc = some a ↔
      (c.version ≠ .dcv1 ∧ c.version ≠ .dcv2) ∧ a = ⟨wireOf c.version, c.guildcard, gc⟩ := by
  rw [handleMailAutoreply]
  cases c.version <;> simp [eq_comm]

/-- The reply goes the other way, in the packets of the client that replies. -/
theorem answer_eq_some :
    w.answer m = some a ↔ ∃ c, w.find m.dest = some c ∧ w.Replies c m.wire m.sender ∧
      a = ⟨wireOf c.version, m.dest, m.sender⟩ := by
  rw [World.answer, Option.bind_eq_some_iff]
  constructor
  · rintro ⟨c, hfind, h⟩
    split at h
    next => cases h
    next hrefuses =>
      split at h
      next hreplies =>
        obtain ⟨hversion, rfl⟩ := (handleMailAutoreply_eq m.sender).1 h
        rw [find_guildcard hfind]
        exact ⟨c, hfind, ⟨eq_false_of_ne_true hrefuses, hreplies, hversion⟩, rfl⟩
      next => cases h
  · rintro ⟨c, hfind, ⟨hrefuses, hreplies, hversion⟩, rfl⟩
    refine ⟨c, hfind, ?_⟩
    rw [if_neg (by rw [hrefuses]; exact Bool.false_ne_true), if_pos hreplies]
    refine (handleMailAutoreply_eq m.sender).2 ⟨hversion, ?_⟩
    rw [find_guildcard hfind]

/-- Three replies in a row are what it takes. -/
theorem endless_iff_orbit : w.Endless m ↔ orbit w.answer m 3 ≠ none := by
  constructor
  · rintro ⟨c, d, hc, hd, hfirst, hsecond, hthird⟩
    have h₁ : w.answer m = some ⟨wireOf c.version, m.dest, m.sender⟩ :=
      answer_eq_some.2 ⟨c, hc, hfirst, rfl⟩
    have h₂ : w.answer ⟨wireOf c.version, m.dest, m.sender⟩ =
        some ⟨wireOf d.version, m.sender, m.dest⟩ :=
      answer_eq_some.2 ⟨d, hd, hsecond, rfl⟩
    have h₃ : w.answer ⟨wireOf d.version, m.sender, m.dest⟩ =
        some ⟨wireOf c.version, m.dest, m.sender⟩ :=
      answer_eq_some.2 ⟨c, hc, hthird, rfl⟩
    rw [orbit_succ', h₁, Option.bind_some, orbit_succ', h₂, Option.bind_some, orbit_one, h₃]
    exact Option.some_ne_none _
  · intro h
    obtain ⟨a₃, h₃⟩ := Option.ne_none_iff_exists'.1 h
    obtain ⟨a₂, h₂, hlast⟩ := Option.bind_eq_some_iff.1 h₃
    obtain ⟨a₁, h₁, hmiddle⟩ := Option.bind_eq_some_iff.1 h₂
    obtain ⟨c, hc, hfirst, rfl⟩ := answer_eq_some.1 h₁
    obtain ⟨d, hd, hsecond, rfl⟩ := answer_eq_some.1 hmiddle
    obtain ⟨c', hc', hthird, rfl⟩ := answer_eq_some.1 hlast
    rw [show w.find m.dest = some c from hc] at hc'
    cases hc'
    exact ⟨c, d, hc, hd, hfirst, hsecond, hthird⟩

/-- From then on the two replies alternate. -/
theorem endless_returns (h : w.Endless m) :
    ∃ a, w.answer m = some a ∧ orbit w.answer a 2 = some a := by
  obtain ⟨c, d, hc, hd, hfirst, hsecond, hthird⟩ := h
  refine ⟨_, answer_eq_some.2 ⟨c, hc, hfirst, rfl⟩, ?_⟩
  have h₂ : w.answer ⟨wireOf c.version, m.dest, m.sender⟩ =
      some ⟨wireOf d.version, m.sender, m.dest⟩ :=
    answer_eq_some.2 ⟨d, hd, hsecond, rfl⟩
  rw [orbit_succ', h₂, Option.bind_some, orbit_one]
  exact answer_eq_some.2 ⟨c, hc, hthird, rfl⟩

theorem stops_iff : Stops w.answer m ↔ ¬ w.Endless m := by
  constructor
  · rintro ⟨k, hk⟩ h
    obtain ⟨a, ha, hback⟩ := endless_returns h
    have hlong : orbit w.answer m (1 + 2 * k) = some a := by
      rw [orbit_add, orbit_one, ha, Option.bind_some, orbit_mul hback]
    rw [orbit_none_of_le (by omega) hk] at hlong
    cases hlong
  · intro h
    refine ⟨3, ?_⟩
    by_contra horbit
    exact h (endless_iff_orbit.2 horbit)

/-- Whatever mails the shipgate has, and in whatever order it passes them on, it is done after some
number of them exactly when no mail is between clients that reply to each other. -/
theorem mails_bounded_iff (w : World) (ms : Multiset Mail) :
    (∃ n, ∀ es ns, Run (Delivers w.answer) Always ms es ns → es.length ≤ n) ↔
      ∀ m ∈ ms, ¬ w.Endless m := by
  rw [bounded_iff]
  exact forall₂_congr fun m _ => stops_iff

end Replies

/-- `client_set_autoreply` turns replies on and `client_disable_autoreply` turns them off, but the
clients of Dreamcast have no replies to turn on. -/
def turnReplies (on : Bool) (c : Client) : Client :=
  match c.version with
  | .dcv1 | .dcv2 => c
  | _ => { c with autoreplyOn := on }

def turnOf (id : ClientId) (on : Bool) (c : Client) : Client :=
  if c.id = id then turnReplies on c else c

def turnBlock (id : ClientId) (on : Bool) (b : Block) : Block :=
  { b with clients := b.clients.map (turnOf id on) }

def World.turn (w : World) (id : ClientId) (on : Bool) : World :=
  { w with gate := fun gc => (w.gate gc).map fun s => s.map (Option.map (turnBlock id on)) }

def World.clientSetAutoreply (w : World) (id : ClientId) : World :=
  { w.turn id true with texts := Function.update w.texts id true }

/-- The text stays. -/
def World.clientDisableAutoreply (w : World) (id : ClientId) : World :=
  w.turn id false

/-- Clients send mails, the shipgate passes them on, and clients come, go, move, turn their replies
on and off, and change their lists. -/
inductive Event where
  | forward (ship : Ship) (c : Client) (dest sender : ℕ)
  | deliver (m : Mail)
  | setAutoreply (id : ClientId)
  | disableAutoreply (id : ClientId)
  | world (w : World)

structure Net where
  world : World
  mails : Multiset Mail

def next (n : Net) : Event → Net
  | .forward ship c dest sender =>
    { n with mails := n.mails + (forwardMail ship c dest sender).elim 0 fun m => {m} }
  | .deliver m =>
    if m ∈ n.mails then
      { n with mails := n.mails.erase m + (n.world.answer m).elim 0 fun a => {a} }
    else n
  | .setAutoreply id => { n with world := n.world.clientSetAutoreply id }
  | .disableAutoreply id => { n with world := n.world.clientDisableAutoreply id }
  | .world w => { n with world := w }

/-- Two clients from PC or Blue Burst are there, each has once set a text for replies, and neither
has the other on a list. -/
def Chatty (x y : ℕ) (w : World) : Prop :=
  ∃ c d, w.find x = some c ∧ w.find y = some d ∧
    (wireOf c.version ≠ .dc ∧ w.texts c.id = true ∧ refuses c y = false) ∧
    (wireOf d.version ≠ .dc ∧ w.texts d.id = true ∧ refuses d x = false)

/-- A mail between two clients, in packets of PC or Blue Burst. -/
def Between (x y : ℕ) (m : Mail) : Prop :=
  m.wire ≠ .dc ∧ (m.sender = x ∧ m.dest = y ∨ m.sender = y ∧ m.dest = x)

instance Between.decidable (x y : ℕ) : DecidablePred (Between x y) := fun _ =>
  inferInstanceAs (Decidable (_ ∧ _))

/-- The two clients stay, but they may turn their replies on and off. -/
def Stay (x y : ℕ) (_ : Net) : Event → Prop
  | .world w => Chatty x y w
  | _ => True

section Chatty

variable {w : World} {x y : ℕ}

theorem turnOf_same (id : ClientId) (on : Bool) (c : Client) :
    (turnOf id on c).guildcard = c.guildcard ∧ (turnOf id on c).hasData = c.hasData ∧
      (turnOf id on c).version = c.version ∧ (turnOf id on c).id = c.id ∧
      ∀ gc, refuses (turnOf id on c) gc = refuses c gc := by
  rw [turnOf]
  split
  next =>
    rw [turnReplies]
    split <;> exact ⟨rfl, rfl, rfl, rfl, fun _ => rfl⟩
  next => exact ⟨rfl, rfl, rfl, rfl, fun _ => rfl⟩

theorem findRemote_turn (s : Ship) (id : ClientId) (on : Bool) (gc : ℕ) :
    findRemote (s.map (Option.map (turnBlock id on))) gc =
      (findRemote s gc).map (turnOf id on) := by
  have hclients : (s.map (Option.map (turnBlock id on))).reduceOption.flatMap Block.clients =
      (s.reduceOption.flatMap Block.clients).map (turnOf id on) := by
    rw [List.reduceOption_map, List.flatMap_map, List.map_flatMap]
    rfl
  rw [findRemote, hclients, List.find?_map, findRemote]
  congr 2
  funext c
  obtain ⟨hgc, hdata, -⟩ := turnOf_same id on c
  simp only [Function.comp_apply, hgc, hdata]

theorem find_turn (id : ClientId) (on : Bool) (gc : ℕ) :
    (w.turn id on).find gc = (w.find gc).map (turnOf id on) := by
  rw [World.find, World.find, World.turn]
  dsimp only
  cases w.gate gc with
  | none => rfl
  | some s => exact findRemote_turn s id on gc

theorem Chatty.turn (h : Chatty x y w) (id : ClientId) (on : Bool) : Chatty x y (w.turn id on) := by
  obtain ⟨c, d, hc, hd, ⟨hcwire, hctext, hcrefuses⟩, hdwire, hdtext, hdrefuses⟩ := h
  obtain ⟨-, -, hcversion, hcid, hcsame⟩ := turnOf_same id on c
  obtain ⟨-, -, hdversion, hdid, hdsame⟩ := turnOf_same id on d
  refine ⟨turnOf id on c, turnOf id on d, by rw [find_turn, hc]; rfl, by rw [find_turn, hd]; rfl,
    ⟨?_, ?_, ?_⟩, ?_, ?_, ?_⟩
  · rwa [hcversion]
  · rwa [hcid]
  · rwa [hcsame]
  · rwa [hdversion]
  · rwa [hdid]
  · rwa [hdsame]

/-- Texts are never taken away. -/
theorem Chatty.texts (h : Chatty x y w) (id : ClientId) :
    Chatty x y { w with texts := Function.update w.texts id true } := by
  obtain ⟨c, d, hc, hd, ⟨hcwire, hctext, hcrefuses⟩, hdwire, hdtext, hdrefuses⟩ := h
  have hkeep : ∀ c : Client, w.texts c.id = true → Function.update w.texts id true c.id = true := by
    intro c hc
    by_cases hid : c.id = id
    · rw [hid, Function.update_self]
    · rw [Function.update_of_ne hid, hc]
  exact ⟨c, d, hc, hd, ⟨hcwire, hkeep c hctext, hcrefuses⟩, hdwire, hkeep d hdtext, hdrefuses⟩

theorem Chatty.symm (h : Chatty x y w) : Chatty y x w := by
  obtain ⟨c, d, hc, hd, hleft, hright⟩ := h
  exact ⟨d, c, hd, hc, hright, hleft⟩

theorem Between.symm {m : Mail} (h : Between x y m) : Between y x m :=
  ⟨h.1, h.2.symm⟩

theorem Chatty.answer_from (h : Chatty x y w) {m : Mail} (hwire : m.wire ≠ .dc)
    (hsender : m.sender = x) (hdest : m.dest = y) : ∃ a, w.answer m = some a ∧ Between x y a := by
  obtain ⟨c, d, -, hd, -, hdwire, hdtext, hdrefuses⟩ := h
  refine ⟨⟨wireOf d.version, m.dest, m.sender⟩, answer_eq_some.2 ⟨d, ?_, ⟨?_, ?_, ?_⟩, rfl⟩,
    hdwire, .inr ⟨hdest, hsender⟩⟩
  · rwa [hdest]
  · rwa [hsender]
  · cases hm : m.wire with
    | dc => exact absurd hm hwire
    | pc => exact hdtext
    | bb => exact hdtext
  · constructor
    · intro hversion
      exact hdwire (by rw [hversion]; rfl)
    · intro hversion
      exact hdwire (by rw [hversion]; rfl)

/-- Their mails are replied to, replies on or off, in packets that are so again. -/
theorem Chatty.answer (h : Chatty x y w) {m : Mail} (hm : Between x y m) :
    ∃ a, w.answer m = some a ∧ Between x y a := by
  obtain ⟨hwire, ⟨hsender, hdest⟩ | ⟨hsender, hdest⟩⟩ := hm
  · exact h.answer_from hwire hsender hdest
  · obtain ⟨a, ha, hbetween⟩ := h.symm.answer_from hwire hsender hdest
    exact ⟨a, ha, hbetween.symm⟩

end Chatty

section Storms

variable {x y : ℕ} {n : Net} {e : Event}

theorem next_chatty (h : Chatty x y n.world) (hstay : Stay x y n e) :
    Chatty x y (next n e).world := by
  cases e with
  | forward ship c dest sender => exact h
  | deliver m =>
    rw [next]
    split
    next => exact h
    next => exact h
  | setAutoreply id => exact (h.turn id true).texts id
  | disableAutoreply id => exact h.turn id false
  | world w => exact hstay

theorem countP_deliver (h : Chatty x y n.world) {m : Mail} (hm : m ∈ n.mails) :
    n.mails.countP (Between x y) ≤
      (n.mails.erase m + (n.world.answer m).elim 0 fun a => {a}).countP (Between x y) := by
  have hsplit : n.mails.countP (Between x y) =
      (n.mails.erase m).countP (Between x y) + if Between x y m then 1 else 0 := by
    rw [← Multiset.countP_cons, Multiset.cons_erase hm]
  rw [hsplit, Multiset.countP_add]
  refine Nat.add_le_add_left ?_ _
  split
  next hbetween =>
    obtain ⟨a, ha, haBetween⟩ := h.answer hbetween
    rw [ha, Option.elim_some, ← Multiset.cons_zero a, Multiset.countP_cons, if_pos haBetween]
    exact Nat.le_add_left 1 _
  next => exact Nat.zero_le _

theorem next_countP (h : Chatty x y n.world) :
    n.mails.countP (Between x y) ≤ (next n e).mails.countP (Between x y) := by
  cases e with
  | forward ship c dest sender =>
    rw [next]
    dsimp only
    rw [Multiset.countP_add]
    exact Nat.le_add_right _ _
  | deliver m =>
    rw [next]
    split
    next hm => exact countP_deliver h hm
    next => exact le_rfl
  | setAutoreply id => exact le_rfl
  | disableAutoreply id => exact le_rfl
  | world w => exact le_rfl

/-- While two clients from PC or Blue Burst stay who have once set a text each, the mails between
them never become fewer, and turning the replies off does not help. -/
theorem mails_between (x y : ℕ) {s t : Net} {es : List Event}
    (h : Run (StepOf next) (Stay x y) s es t) (hs : Chatty x y s.world) :
    Chatty x y t.world ∧ s.mails.countP (Between x y) ≤ t.mails.countP (Between x y) := by
  refine h.invariant
    (fun u => Chatty x y u.world ∧ s.mails.countP (Between x y) ≤ u.mails.countP (Between x y))
    ⟨hs, le_rfl⟩ ?_
  rintro u e _ ⟨hchatty, hcount⟩ hstay rfl
  exact ⟨next_chatty hchatty hstay, hcount.trans (next_countP hchatty)⟩

/-- A client on PC that has its replies on. -/
def pcClient (id : ClientId) (guildcard : ℕ) : Client where
  id := id
  version := .pc
  isNte := false
  stfu := false
  gcProtect := false
  autoreplyOn := true
  hasData := true
  guildcard := guildcard
  ignoreList := Vector.replicate 10 0
  blacklist := Vector.replicate 30 0

/-- Two ships with one client each. -/
def twoShips : World where
  gate gc :=
    if gc = 1001 then some [some ⟨true, [pcClient 0 1001]⟩]
    else if gc = 1002 then some [some ⟨true, [pcClient 1 1002]⟩]
    else none
  texts _ := true

def mailed : Net where
  world := twoShips
  mails := {⟨.pc, 1001, 1002⟩}

theorem mails_between_twoShips :
    1 ≤ ([.deliver ⟨.pc, 1001, 1002⟩, .disableAutoreply 0, .disableAutoreply 1,
      .deliver ⟨.pc, 1002, 1001⟩].foldl next mailed).mails.countP (Between 1001 1002) := by
  have hchatty : Chatty 1001 1002 twoShips :=
    ⟨pcClient 0 1001, pcClient 1 1002, by decide, by decide, by decide, by decide⟩
  have hrun : Run (StepOf next) (Stay 1001 1002) mailed
      [.deliver ⟨.pc, 1001, 1002⟩, .disableAutoreply 0, .disableAutoreply 1,
        .deliver ⟨.pc, 1002, 1001⟩] _ :=
    run_foldl_of next mailed (by simp [Stay])
  exact (mails_between 1001 1002 hrun hchatty).2

end Storms

end ShipServer.MailAutoreplies

import ShipServer.LoginHandlers
import ShipServer.NumberText

set_option autoImplicit false

namespace ShipServer.BanFile

open LoginHandlers NumberText

/-- A guildcard ban as the ship keeps it. -/
structure StoredGcBan extends GuildcardBan where
  setBy : BitVec 32
  startTime : Int64Range
  endFits : -2 ^ 63 ≤ endTime ∧ endTime < 2 ^ 63

/-- An IP ban as the ship keeps it. One of an IPv4 address uses the first words only. -/
structure StoredIpBan extends IpBan where
  setBy : BitVec 32
  startTime : Int64Range
  endFits : -2 ^ 63 ≤ endTime ∧ endTime < 2 ^ 63
  unused : ipv6 = false → ∀ k, k ≠ 0 → ipAddr k = 0 ∧ netmask k = 0

structure Bans where
  guildcardBans : List StoredGcBan
  ipBans : List StoredIpBan

/-- What the lookups at a login see of the bans. -/
def Bans.list (b : Bans) : BanList :=
  { guildcardBans := b.guildcardBans.map StoredGcBan.toGuildcardBan
    ipBans := b.ipBans.map StoredIpBan.toIpBan }

/-- `inet_ntop` and `inet_pton`. -/
structure Inet where
  ntop : Address → String
  pton4 : String → Option (BitVec 32)
  pton6 : String → Option (Fin 4 → BitVec 32)

structure Element where
  name : String
  props : List (String × String)

/-- A child of the root of an XML document. -/
inductive Node where
  | element (e : Element)
  | other

def elements (doc : List Node) : List Element :=
  doc.filterMap fun n => match n with
    | .element e => some e
    | .other => none

def Element.getProp (e : Element) (name : String) : Option String :=
  e.props.lookup name

/-- The words of an IP ban as an address of its family. -/
def StoredIpBan.asAddress (i : StoredIpBan) (words : Fin 4 → BitVec 32) : Address :=
  if i.ipv6 then .inet6 words else .inet (words 0)

def ended (now endTime : ℤ) : Bool :=
  endTime ≠ -1 ∧ endTime < now

def gcElement (i : StoredGcBan) : Element where
  name := "ban"
  props := [("set_by", decimal i.setBy.toNat), ("guildcard", decimal i.bannedGc.toNat),
    ("start", signedDecimal i.startTime.1), ("end", signedDecimal i.endTime),
    ("reason", i.reason)]

/-- The address goes into the attribute of the netmask, and the other way round. -/
def ipElement (inet : Inet) (j : StoredIpBan) : Element where
  name := "ipban"
  props := [("set_by", decimal j.setBy.toNat), ("ipv6", if j.ipv6 then "true" else "false"),
    ("netmask", inet.ntop (j.asAddress j.ipAddr)), ("ip", inet.ntop (j.asAddress j.netmask)),
    ("start", signedDecimal j.startTime.1), ("end", signedDecimal j.endTime),
    ("reason", j.reason)]

/-- The elements that are written. Bans that are over are left out. -/
def writeBansList (inet : Inet) (now : ℤ) (s : Bans) : List Element :=
  (s.guildcardBans.filter fun i => !ended now i.endTime).map gcElement ++
    (s.ipBans.filter fun j => !ended now j.endTime).map (ipElement inet)

def readBan (n : Element) : Option StoredGcBan := do
  let setBy ← n.getProp "set_by"
  let bannedGc ← n.getProp "guildcard"
  let startTime ← n.getProp "start"
  let endTime ← n.getProp "end"
  let reason ← n.getProp "reason"
  let setGc ← strtoul setBy
  let banGc ← strtoul bannedGc
  let sTime ← strtoll startTime
  let eTime ← strtoll endTime
  some ⟨⟨reason, eTime.1, BitVec.ofNat 32 banGc⟩, BitVec.ofNat 32 setGc, sTime, eTime.2⟩

/-- The words that hold an IPv4 address. -/
def firstWord (a : BitVec 32) : Fin 4 → BitVec 32 :=
  fun k => if k = 0 then a else 0

def banIp4 (eTime sTime : Int64Range) (setBy ip netmask : BitVec 32) (reason : String) :
    StoredIpBan where
  ipv6 := false
  reason := reason
  endTime := eTime.1
  ipAddr := firstWord ip
  netmask := firstWord netmask
  setBy := setBy
  startTime := sTime
  endFits := eTime.2
  unused := fun _ _ hk => ⟨if_neg hk, if_neg hk⟩

def banIp6 (eTime sTime : Int64Range) (setBy : BitVec 32) (ip netmask : Fin 4 → BitVec 32)
    (reason : String) : StoredIpBan where
  ipv6 := true
  reason := reason
  endTime := eTime.1
  ipAddr := ip
  netmask := netmask
  setBy := setBy
  startTime := sTime
  endFits := eTime.2
  unused := fun h => absurd h (by decide)

def readIpban (inet : Inet) (n : Element) : Option StoredIpBan := do
  let setBy ← n.getProp "set_by"
  let bannedIp ← n.getProp "ip"
  let netmask ← n.getProp "netmask"
  let startTime ← n.getProp "start"
  let endTime ← n.getProp "end"
  let reason ← n.getProp "reason"
  let ip6 ← n.getProp "ipv6"
  if ip6 ≠ "true" ∧ ip6 ≠ "false" then none
  else
    let setGc ← strtoul setBy
    if ip6 = "true" then
      let ip ← inet.pton6 bannedIp
      let nm ← inet.pton6 netmask
      let sTime ← strtoll startTime
      let eTime ← strtoll endTime
      some (banIp6 eTime sTime (BitVec.ofNat 32 setGc) ip nm reason)
    else
      let ip ← inet.pton4 bannedIp
      let nm ← inet.pton4 netmask
      let sTime ← strtoll startTime
      let eTime ← strtoll endTime
      some (banIp4 eTime sTime (BitVec.ofNat 32 setGc) ip nm reason)

/-- A ban that is read is added to the list if it is not expired already. -/
def kept (now endTime : ℤ) : Bool :=
  endTime = -1 ∨ now < endTime

def readElement (inet : Inet) (now : ℤ) (s : Bans) (n : Element) : Bans :=
  if n.name = "ban" then
    match readBan n with
    | none => s
    | some i =>
      if kept now i.endTime then { s with guildcardBans := s.guildcardBans ++ [i] } else s
  else if n.name = "ipban" then
    match readIpban inet n with
    | none => s
    | some j => if kept now j.endTime then { s with ipBans := s.ipBans ++ [j] } else s
  else s

/-- The bans of a ship that has just started and reads a document. -/
def banListRead (inet : Inet) (now : ℤ) (doc : List Node) : Bans :=
  (elements doc).foldl (readElement inet now) ⟨[], []⟩

/-- The text of the addresses of a ban can be read back. -/
def Inet.Reads (inet : Inet) (j : StoredIpBan) (words : Fin 4 → BitVec 32) : Prop :=
  if j.ipv6 then inet.pton6 (inet.ntop (.inet6 words)) = some words
  else inet.pton4 (inet.ntop (.inet (words 0))) = some (words 0)

/-- The address and the netmask change places. -/
def exchange (j : StoredIpBan) : StoredIpBan :=
  { j with
    ipAddr := j.netmask, netmask := j.ipAddr
    unused := fun h k hk => (j.unused h k hk).symm }

theorem firstWord_eq {words : Fin 4 → BitVec 32} (h : ∀ k, k ≠ 0 → words k = 0) :
    firstWord (words 0) = words := by
  funext k
  unfold firstWord
  split_ifs with hk
  · rw [hk]
  · exact (h k hk).symm

theorem word_fits (x : BitVec 32) : x.toNat < 2 ^ 64 :=
  x.isLt.trans (by decide)

theorem readBan_gcElement (i : StoredGcBan) : readBan (gcElement i) = some i := by
  have hset := strtoul_decimal (word_fits i.setBy)
  have hgc := strtoul_decimal (word_fits i.bannedGc)
  have hstart := strtoll_signedDecimal i.startTime
  have hend := strtoll_signedDecimal ⟨i.endTime, i.endFits⟩
  have hprops : (gcElement i).getProp "set_by" = some (decimal i.setBy.toNat) ∧
      (gcElement i).getProp "guildcard" = some (decimal i.bannedGc.toNat) ∧
      (gcElement i).getProp "start" = some (signedDecimal i.startTime.1) ∧
      (gcElement i).getProp "end" = some (signedDecimal i.endTime) ∧
      (gcElement i).getProp "reason" = some i.reason :=
    ⟨rfl, rfl, rfl, rfl, rfl⟩
  obtain ⟨h1, h2, h3, h4, h5⟩ := hprops
  unfold readBan
  rw [h1, h2, h3, h4, h5]
  simp only [Option.bind_eq_bind, Option.bind_some, hset, hgc, hstart, hend, BitVec.ofNat_toNat,
    BitVec.setWidth_eq]

theorem readIpban_ipElement {inet : Inet} {j : StoredIpBan} (hip : inet.Reads j j.ipAddr)
    (hnetmask : inet.Reads j j.netmask) : readIpban inet (ipElement inet j) = some (exchange j) := by
  obtain ⟨⟨ipv6, reason, endTime, ipAddr, netmask⟩, setBy, startTime, endFits, unused⟩ := j
  have hset := strtoul_decimal (word_fits setBy)
  have hstart := strtoll_signedDecimal startTime
  have hend := strtoll_signedDecimal ⟨endTime, endFits⟩
  generalize hj : ipElement inet _ = n
  have hprops : n.getProp "set_by" = some (decimal setBy.toNat) ∧
      n.getProp "start" = some (signedDecimal startTime.1) ∧
      n.getProp "end" = some (signedDecimal endTime) ∧ n.getProp "reason" = some reason := by
    rw [← hj]
    exact ⟨rfl, rfl, rfl, rfl⟩
  obtain ⟨h1, h2, h3, h4⟩ := hprops
  cases ipv6 with
  | true =>
    have haddress : n.getProp "ip" = some (inet.ntop (.inet6 netmask)) ∧
        n.getProp "netmask" = some (inet.ntop (.inet6 ipAddr)) ∧
        n.getProp "ipv6" = some "true" := by
      rw [← hj]
      exact ⟨rfl, rfl, rfl⟩
    obtain ⟨h5, h6, h7⟩ := haddress
    change inet.pton6 (inet.ntop (.inet6 ipAddr)) = some ipAddr at hip
    change inet.pton6 (inet.ntop (.inet6 netmask)) = some netmask at hnetmask
    unfold readIpban
    rw [h1, h2, h3, h4, h5, h6, h7]
    simp only [Option.bind_eq_bind, Option.bind_some, hset, hstart, hend, hip, hnetmask,
      BitVec.ofNat_toNat, BitVec.setWidth_eq, ne_eq, not_true_eq_false, false_and, if_false, if_true]
    rfl
  | false =>
    have haddress : n.getProp "ip" = some (inet.ntop (.inet (netmask 0))) ∧
        n.getProp "netmask" = some (inet.ntop (.inet (ipAddr 0))) ∧
        n.getProp "ipv6" = some "false" := by
      rw [← hj]
      exact ⟨rfl, rfl, rfl⟩
    obtain ⟨h5, h6, h7⟩ := haddress
    change inet.pton4 (inet.ntop (.inet (ipAddr 0))) = some (ipAddr 0) at hip
    change inet.pton4 (inet.ntop (.inet (netmask 0))) = some (netmask 0) at hnetmask
    have hfirst := firstWord_eq fun k hk => (unused rfl k hk).1
    have hsecond := firstWord_eq fun k hk => (unused rfl k hk).2
    have hne : ¬"false" = "true" := by decide
    unfold readIpban
    rw [h1, h2, h3, h4, h5, h6, h7]
    simp only [Option.bind_eq_bind, Option.bind_some, hset, hstart, hend, hip, hnetmask, hne,
      BitVec.ofNat_toNat, BitVec.setWidth_eq, ne_eq, not_true_eq_false, and_false, if_false]
    unfold banIp4 exchange
    simp only [hfirst, hsecond]

theorem foldl_gcElements (inet : Inet) (now : ℤ) (is : List StoredGcBan) (s : Bans) :
    (is.map gcElement).foldl (readElement inet now) s =
      { s with guildcardBans := s.guildcardBans ++ is.filter fun i => kept now i.endTime } := by
  induction is generalizing s with
  | nil => simp
  | cons i is ih =>
    have hread : readElement inet now s (gcElement i) =
        if kept now i.endTime then { s with guildcardBans := s.guildcardBans ++ [i] } else s := by
      unfold readElement
      rw [if_pos (show (gcElement i).name = "ban" from rfl), readBan_gcElement]
    rw [List.map_cons, List.foldl_cons, ih, hread]
    by_cases hkept : kept now i.endTime = true
    · rw [if_pos hkept]
      simp [hkept]
    · rw [if_neg hkept]
      simp [hkept]

theorem foldl_ipElements {inet : Inet} (now : ℤ) {js : List StoredIpBan}
    (h : ∀ j ∈ js, inet.Reads j j.ipAddr ∧ inet.Reads j j.netmask) (s : Bans) :
    (js.map (ipElement inet)).foldl (readElement inet now) s =
      { s with ipBans := s.ipBans ++ (js.filter fun j => kept now j.endTime).map exchange } := by
  induction js generalizing s with
  | nil => simp
  | cons j js ih =>
    obtain ⟨hip, hnetmask⟩ := h j List.mem_cons_self
    have hread : readElement inet now s (ipElement inet j) =
        if kept now j.endTime then { s with ipBans := s.ipBans ++ [exchange j] } else s := by
      have hname : ¬(ipElement inet j).name = "ban" := by
        change ¬"ipban" = "ban"
        decide
      unfold readElement
      rw [if_neg hname, if_pos (show (ipElement inet j).name = "ipban" from rfl),
        readIpban_ipElement hip hnetmask]
      rfl
    rw [List.map_cons, List.foldl_cons, ih fun k hk => h k (List.mem_cons_of_mem j hk), hread]
    by_cases hkept : kept now j.endTime = true
    · rw [if_pos hkept]
      simp [hkept]
    · rw [if_neg hkept]
      simp [hkept]

/-- A ban that is written at one time and still added to the list when it is read at another. -/
def survives (w r endTime : ℤ) : Bool :=
  kept r endTime && !ended w endTime

theorem elements_other (doc : List Node) : elements (.other :: doc) = elements doc := rfl

theorem elements_map (es : List Element) : elements (es.map .element) = es := by
  induction es with
  | nil => rfl
  | cons e es ih => exact congrArg (e :: ·) ih

/-- What is read back of what has been written. -/
theorem banListRead_eq {inet : Inet} {s : Bans} {doc : List Node} (w r : ℤ)
    (hdoc : elements doc = writeBansList inet w s)
    (hinet : ∀ j ∈ s.ipBans, inet.Reads j j.ipAddr ∧ inet.Reads j j.netmask) :
    banListRead inet r doc =
      { guildcardBans := s.guildcardBans.filter fun i => survives w r i.endTime
        ipBans := (s.ipBans.filter fun j => survives w r j.endTime).map exchange } := by
  have hreads : ∀ j ∈ s.ipBans.filter fun j => !ended w j.endTime,
      inet.Reads j j.ipAddr ∧ inet.Reads j j.netmask :=
    fun j hj => hinet j (List.mem_of_mem_filter hj)
  rw [banListRead, hdoc, writeBansList, List.foldl_append, foldl_gcElements,
    foldl_ipElements r hreads]
  simp only [List.nil_append, List.filter_filter, survives]

/-- The lists ban the same from a point in time on, and they have the same entries in the same
order, but for those that are expired by then. -/
structure SameBans (s s' : Bans) (r : ℤ) : Prop where
  guildcards : ∀ t g, r ≤ t →
    (GuildcardBanned s'.list t g ↔ GuildcardBanned s.list t g)
  addresses : ∀ t ip, r ≤ t → (AddressBanned s'.list t ip ↔ AddressBanned s.list t ip)
  guildcardOrder : s'.guildcardBans = s.guildcardBans.filter fun i => unexpired r i.endTime
  addressOrder : s'.ipBans = s.ipBans.filter fun j => unexpired r j.endTime

/-- Every ban that is in force when the list is read has been so when it was written, and does not
end in the very second; and every IP ban that is in force has its netmask for its address. -/
structure Preserved (s : Bans) (w r : ℤ) : Prop where
  guildcards : ∀ i ∈ s.guildcardBans, unexpired r i.endTime = true →
    i.endTime = -1 ∨ w ≤ i.endTime ∧ r < i.endTime
  addresses : ∀ j ∈ s.ipBans, unexpired r j.endTime = true →
    (j.endTime = -1 ∨ w ≤ j.endTime ∧ r < j.endTime) ∧ j.netmask = j.ipAddr

theorem survives_iff (w r endTime : ℤ) :
    survives w r endTime = true ↔ endTime = -1 ∨ w ≤ endTime ∧ r < endTime := by
  unfold survives kept ended
  simp only [Bool.and_eq_true, Bool.not_eq_true', decide_eq_true_eq, decide_eq_false_iff_not]
  omega

theorem unexpired_of_survives {w r endTime : ℤ} (h : survives w r endTime = true) :
    unexpired r endTime = true := by
  have hcases := (survives_iff w r endTime).mp h
  unfold unexpired
  rw [decide_eq_true_iff]
  omega

theorem unexpired_mono {r t endTime : ℤ} (hrt : r ≤ t) (h : unexpired t endTime = true) :
    unexpired r endTime = true := by
  unfold unexpired at h ⊢
  rw [decide_eq_true_iff] at h ⊢
  omega

theorem exchange_eq_iff (j : StoredIpBan) : exchange j = j ↔ j.netmask = j.ipAddr := by
  obtain ⟨⟨ipv6, reason, endTime, ipAddr, netmask⟩, setBy, startTime, endFits, unused⟩ := j
  constructor
  · intro h
    exact congrArg (fun j => j.ipAddr) h
  · intro h
    dsimp only at h
    unfold exchange
    simp only [h]

/-- Entries that are expired ban nothing later on. -/
theorem sameBans_of_order {s s' : Bans} {r : ℤ}
    (hgc : s'.guildcardBans = s.guildcardBans.filter fun i => unexpired r i.endTime)
    (hip : s'.ipBans = s.ipBans.filter fun j => unexpired r j.endTime) : SameBans s s' r := by
  refine ⟨?_, ?_, hgc, hip⟩
  · intro t g ht
    unfold GuildcardBanned Bans.list
    simp only [List.mem_map, exists_exists_and_eq_and, hgc, List.mem_filter]
    constructor
    · rintro ⟨i, ⟨hi, -⟩, hban⟩
      exact ⟨i, hi, hban⟩
    · rintro ⟨i, hi, hban⟩
      exact ⟨i, ⟨hi, unexpired_mono ht hban.2⟩, hban⟩
  · intro t ip ht
    unfold AddressBanned Bans.list
    simp only [List.mem_map, exists_exists_and_eq_and, hip, List.mem_filter]
    constructor
    · rintro ⟨i, ⟨hi, -⟩, hban⟩
      exact ⟨i, hi, hban⟩
    · rintro ⟨i, hi, hban⟩
      exact ⟨i, ⟨hi, unexpired_mono ht hban.2⟩, hban⟩

/-- A list that has been written and read back bans the same, in the same order, if and only if
every ban in force has lasted and no address of one differs from its netmask. -/
theorem banList_roundTrip {inet : Inet} {s : Bans} {doc : List Node} {w r : ℤ}
    (hdoc : elements doc = writeBansList inet w s)
    (hinet : ∀ j ∈ s.ipBans, inet.Reads j j.ipAddr ∧ inet.Reads j j.netmask) :
    SameBans s (banListRead inet r doc) r ↔ Preserved s w r := by
  rw [banListRead_eq w r hdoc hinet]
  constructor
  · rintro ⟨-, -, hgc, hip⟩
    have hlasts : ∀ j ∈ s.ipBans, unexpired r j.endTime = true →
        survives w r j.endTime = true := by
      intro j hj hforce
      have hmem : j ∈ s.ipBans.filter fun j => unexpired r j.endTime :=
        List.mem_filter.mpr ⟨hj, hforce⟩
      rw [← hip] at hmem
      obtain ⟨k, hk, rfl⟩ := List.mem_map.mp hmem
      exact (List.mem_filter.mp hk).2
    constructor
    · intro i hi hforce
      have hmem : i ∈ s.guildcardBans.filter fun i => unexpired r i.endTime :=
        List.mem_filter.mpr ⟨hi, hforce⟩
      rw [← hgc] at hmem
      exact (survives_iff w r _).mp (List.mem_filter.mp hmem).2
    · intro j hj hforce
      have hsurvives := hlasts j hj hforce
      refine ⟨(survives_iff w r _).mp hsurvives, (exchange_eq_iff j).mp ?_⟩
      have hsame : s.ipBans.filter (fun j => unexpired r j.endTime) =
          s.ipBans.filter fun j => survives w r j.endTime := by
        apply List.filter_congr
        intro k hk
        exact Bool.eq_iff_iff.mpr ⟨hlasts k hk, unexpired_of_survives⟩
      rw [hsame] at hip
      have hid := hip.trans (List.map_id _).symm
      exact List.map_inj_left.mp hid j (List.mem_filter.mpr ⟨hj, hsurvives⟩)
  · rintro ⟨hgc, hip⟩
    apply sameBans_of_order
    · apply List.filter_congr
      intro i hi
      refine Bool.eq_iff_iff.mpr ⟨unexpired_of_survives, fun hforce => ?_⟩
      exact (survives_iff w r _).mpr (hgc i hi hforce)
    · have hsame : s.ipBans.filter (fun j => unexpired r j.endTime) =
          s.ipBans.filter fun j => survives w r j.endTime := by
        apply List.filter_congr
        intro j hj
        refine Bool.eq_iff_iff.mpr ⟨fun hforce => ?_, unexpired_of_survives⟩
        exact (survives_iff w r _).mpr (hip j hj hforce).1
      rw [hsame]
      conv_rhs => rw [← List.map_id (s.ipBans.filter fun j => survives w r j.endTime)]
      apply List.map_congr_left
      intro j hj
      obtain ⟨hmem, hsurvives⟩ := List.mem_filter.mp hj
      exact (exchange_eq_iff j).mpr (hip j hmem (unexpired_of_survives hsurvives)).2

/-- The text of 192.168.0.0 and of 255.255.0.0. -/
def twoAddresses : Inet where
  ntop
    | .inet s => if s = 0x0000A8C0 then "192.168.0.0" else "255.255.0.0"
    | .inet6 _ => "::"
  pton4 s :=
    if s = "192.168.0.0" then some 0x0000A8C0
    else if s = "255.255.0.0" then some 0x0000FFFF
    else none
  pton6 s := if s = "::" then some fun _ => 0 else none

/-- A ban of an address and a netmask without an end. -/
def subnetBan (ip netmask : BitVec 32) : StoredIpBan :=
  banIp4 ⟨-1, by decide⟩ ⟨0, by decide⟩ 42 ip netmask "spam"

/-- Bans that come back as they have been. -/
theorem banList_roundTrip_permanent :
    SameBans ⟨[⟨⟨"spam", 100, 7⟩, 42, ⟨0, by decide⟩, by decide⟩], [subnetBan 0x0000FFFF 0x0000FFFF]⟩
      (banListRead twoAddresses 60 (.other :: (writeBansList twoAddresses 50
        ⟨[⟨⟨"spam", 100, 7⟩, 42, ⟨0, by decide⟩, by decide⟩],
          [subnetBan 0x0000FFFF 0x0000FFFF]⟩).map .element)) 60 := by
  refine (banList_roundTrip (w := 50) ?_ ?_).mpr ⟨?_, ?_⟩
  · rw [elements_other, elements_map]
  · intro j hj
    rcases List.mem_singleton.mp hj with rfl
    exact ⟨rfl, rfl⟩
  · intro i hi _
    rcases List.mem_singleton.mp hi with rfl
    exact Or.inr ⟨by decide, by decide⟩
  · intro j hj _
    rcases List.mem_singleton.mp hj with rfl
    exact ⟨Or.inl rfl, rfl⟩

/-- A ban of 192.168.0.0/16 comes back as one that bans 193.168.1.5 too. -/
theorem banList_not_roundTrip :
    ¬ ∀ s : Bans, (∀ j ∈ s.ipBans, twoAddresses.Reads j j.ipAddr ∧ twoAddresses.Reads j j.netmask) →
      SameBans s (banListRead twoAddresses 60 ((writeBansList twoAddresses 50 s).map .element)) 60 := by
  intro h
  have hinet : ∀ j ∈ (⟨[], [subnetBan 0x0000A8C0 0x0000FFFF]⟩ : Bans).ipBans,
      twoAddresses.Reads j j.ipAddr ∧ twoAddresses.Reads j j.netmask := by
    intro j hj
    rcases List.mem_singleton.mp hj with rfl
    exact ⟨rfl, rfl⟩
  have hsame := h ⟨[], [subnetBan 0x0000A8C0 0x0000FFFF]⟩ hinet
  rw [banListRead_eq 50 60 (elements_map _) hinet] at hsame
  have haddress := hsame.addresses 60 (.inet 0x0501A8C1) le_rfl
  revert haddress
  decide

end ShipServer.BanFile

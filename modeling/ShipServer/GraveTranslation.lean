import ShipServer.CardTranslation

set_option autoImplicit false

/-! The graves of challenge mode, between Dreamcast and PC. -/

namespace ShipServer.GraveTranslation

open Transcoding Versions GuildCards CardTranslation

structure DcGrave where
  pktType : Byte
  flags : Byte
  pktLen : BitVec 16
  type : Byte
  size : Byte
  unused1 : Byte
  unused2 : Byte
  clientId : Byte
  unused3 : Byte
  unk0 : BitVec 16
  unk1 : BitVec 32
  string : Field Byte 12
  unk2 : Field Byte 36
  graveUnk4 : BitVec 16
  deaths : BitVec 16
  coordsTime : Field (BitVec 32) 5
  team : Field Byte 20
  message : Field Byte 24
  times : Field (BitVec 32) 9
  unk : BitVec 32

structure PcGrave where
  pktType : Byte
  flags : Byte
  pktLen : BitVec 16
  type : Byte
  size : Byte
  unused1 : Byte
  unused2 : Byte
  clientId : Byte
  unused3 : Byte
  unk0 : BitVec 16
  unk1 : BitVec 32
  string : Field Wide 12
  unk2 : Field Byte 36
  graveUnk4 : BitVec 16
  deaths : BitVec 16
  coordsTime : Field (BitVec 32) 5
  team : Field Wide 20
  message : Field Wide 24
  times : Field (BitVec 32) 9
  unk : BitVec 32

def DcGrave.wire (p : DcGrave) : List Byte :=
  [p.pktType, p.flags] ++ le16 p.pktLen ++
    [p.type, p.size, p.unused1, p.unused2, p.clientId, p.unused3] ++ le16 p.unk0 ++ le32 p.unk1 ++
      p.string.units ++ p.unk2.units ++ le16 p.graveUnk4 ++ le16 p.deaths ++
        p.coordsTime.units.flatMap le32 ++ p.team.units ++ p.message.units ++
          p.times.units.flatMap le32 ++ le32 p.unk

def PcGrave.wire (p : PcGrave) : List Byte :=
  [p.pktType, p.flags] ++ le16 p.pktLen ++
    [p.type, p.size, p.unused1, p.unused2, p.clientId, p.unused3] ++ le16 p.unk0 ++ le32 p.unk1 ++
      p.string.units.flatMap le16 ++ p.unk2.units ++ le16 p.graveUnk4 ++ le16 p.deaths ++
        p.coordsTime.units.flatMap le32 ++ p.team.units.flatMap le16 ++
          p.message.units.flatMap le16 ++ p.times.units.flatMap le32 ++ le32 p.unk

inductive Grave where
  | dc (p : DcGrave)
  | pc (p : PcGrave)

section Handler

variable (T : Codecs)

theorem length_map_units {U V : Type} {n : ℕ} (g : U → V) (f : Field U n) :
    (f.units.map g).length = n :=
  (List.length_map g).trans f.length_units

def mapUnits {U V : Type} {n : ℕ} (g : U → V) (f : Field U n) : Field V n :=
  ⟨f.units.map g, length_map_units g f⟩

/-- The team and the message of a PC grave. -/
def pcTeam (dc : DcGrave) : Fill Wide 20 :=
  blank.convert (T.ofBytes dc.team.units) T.utf16 0 (40 / 2) dc.team.region 0 20

def pcMessage (dc : DcGrave) : Fill Wide 24 :=
  blank.convert (T.ofBytes dc.message.units) T.utf16 0 (48 / 2) dc.message.region 0 24

def dcTeam (pc : PcGrave) : Fill Byte 20 :=
  blank.convert T.utf16 (T.ofWide pc.team.units) 0 20 pc.team.region 0 (40 / 2)

def dcMessage (pc : PcGrave) : Fill Byte 24 :=
  blank.convert T.utf16 (T.ofWide pc.message.units) 0 24 pc.message.region 0 (48 / 2)

-- A char is signed: `LE16` gets it as an int.
def pcOfDc (dc : DcGrave) : PcGrave :=
  { pktType := 0x60, flags := 0, pktLen := 0x00E4, type := 0x7C, size := 0x38,
    unused1 := dc.unused1, unused2 := 0, clientId := dc.clientId, unused3 := 0, unk0 := dc.unk0,
    unk1 := dc.unk1, string := mapUnits (fun c => c.signExtend 16) dc.string, unk2 := dc.unk2,
    graveUnk4 := dc.graveUnk4, deaths := dc.deaths, coordsTime := dc.coordsTime,
    team := (pcTeam T dc).field, message := (pcMessage T dc).field, times := dc.times,
    unk := dc.unk }

/-- The rank is taken from the packet that is being built, which is zero. -/
def dcOfPc (pc : PcGrave) : DcGrave :=
  { pktType := 0x60, flags := 0, pktLen := 0x00AC, type := 0x7C, size := 0x2A,
    unused1 := pc.unused1, unused2 := 0, clientId := pc.clientId, unused3 := 0, unk0 := pc.unk0,
    unk1 := pc.unk1,
    string := mapUnits (fun c => (c.signExtend 16).setWidth 8) (blank : Fill Byte 12).field,
    unk2 := pc.unk2, graveUnk4 := pc.graveUnk4, deaths := pc.deaths, coordsTime := pc.coordsTime,
    team := (dcTeam T pc).field, message := (dcMessage T pc).field, times := pc.times,
    unk := pc.unk }

/-- The copies of the rank, of `unk2` and of the times, from a field of the same length each. -/
def graveCopies : List Access :=
  [⟨0, 0x0C, 12⟩, ⟨0, 0x0C, 12⟩, ⟨0, 0x24, 36⟩, ⟨0, 0x24, 36⟩, ⟨0, 36, 9 * 4⟩, ⟨0, 36, 9 * 4⟩]

/-- What a member of the lobby gets, with the accesses that were made to fill the texts. -/
def handleCmodeGrave (member : ClientVersion) : Grave → Option (Grave × List Access)
  | .dc p =>
    match member with
    | .dcv2 => some (.dc p, [])
    | .pc =>
      some (.pc (pcOfDc T p), (pcTeam T p).accesses ++ (pcMessage T p).accesses ++ graveCopies)
    | _ => none
  | .pc p =>
    match member with
    | .dcv2 =>
      some (.dc (dcOfPc T p), (dcTeam T p).accesses ++ (dcMessage T p).accesses ++ graveCopies)
    | .pc => some (.pc p, [])
    | _ => none

end Handler

/-! What it means that a grave survives. -/

/-- The numbers of a grave. -/
structure GraveNumbers where
  unused1 : Byte
  clientId : Byte
  unk0 : BitVec 16
  unk1 : BitVec 32
  unk2 : List Byte
  graveUnk4 : BitVec 16
  deaths : BitVec 16
  coordsTime : List (BitVec 32)
  times : List (BitVec 32)
  unk : BitVec 32

namespace Grave

def version : Grave → ClientVersion
  | .dc _ => .dcv2
  | .pc _ => .pc

def numbers : Grave → GraveNumbers
  | .dc p =>
    ⟨p.unused1, p.clientId, p.unk0, p.unk1, p.unk2.units, p.graveUnk4, p.deaths,
      p.coordsTime.units, p.times.units, p.unk⟩
  | .pc p =>
    ⟨p.unused1, p.clientId, p.unk0, p.unk1, p.unk2.units, p.graveUnk4, p.deaths,
      p.coordsTime.units, p.times.units, p.unk⟩

def rank : Grave → Script
  | .dc p => .narrow p.string.units
  | .pc p => .wide p.string.units

def team : Grave → Script
  | .dc p => .narrow p.team.units
  | .pc p => .wide p.team.units

def message : Grave → Script
  | .dc p => .narrow p.message.units
  | .pc p => .wide p.message.units

def Layout : Grave → Prop
  | .dc p => LaidOut p.wire 4 p.pktLen p.size ∧ p.type = 0x7C
  | .pc p => LaidOut p.wire 4 p.pktLen p.size ∧ p.type = 0x7C

end Grave

/-- Ranks are not tagged. -/
def ranks : Kind where
  read _ := latin1
  write _ := latin1
  back _ := latin1
  tagged := false

structure GraveArrives (T : Codecs) (g out : Grave) (accesses : List Access) : Prop where
  layout : out = g ∨ out.Layout
  numbers : out.numbers = g.numbers
  rank : Same T ranks 12 g.rank out.rank
  team : Same T (texts T) 20 g.team out.team
  message : Same T (texts T) 24 g.message out.message
  inside : ∀ a ∈ accesses, a.Inside

structure GraveReturns (T : Codecs) (g via back : Grave) : Prop where
  numbers : back.numbers = g.numbers
  rank : Returned T ranks 12 g.rank via.rank back.rank
  team : Returned T (texts T) 20 g.team via.team back.team
  message : Returned T (texts T) 24 g.message via.message back.message

def GraveSurvives (T : Codecs) (member : ClientVersion) (g : Grave) : Prop :=
  ∀ out accesses, handleCmodeGrave T member g = some (out, accesses) →
    out.version = member ∧ GraveArrives T g out accesses ∧
      ∀ back accesses', handleCmodeGrave T g.version out = some (back, accesses') →
        GraveReturns T g out back

/-- Between the formats only graves survive whose rank has nothing to lose. -/
def GraveKeeps (T : Codecs) : Grave → ClientVersion → Prop
  | .dc p, .pc => string p.string.units = []
  | .pc p, .dcv2 => ∀ c, (T.utf16.text p.string.units).head? = some c → 256 ≤ c
  | _, _ => True

section Ranks

theorem text_zero_cons {U : Type} [Zero U] (e : Encoding U) (l : List U) : e.text (0 :: l) = [] :=
  e.text_of_zero (e.decode_encode l e.encode_zero)

theorem latin1_fit_cons (n c : ℕ) (cs : List ℕ) :
    latin1.fit (n + 1) (c :: cs) = if c < 256 then c :: latin1.fit n cs else [] := by
  by_cases hc : c < 256
  · have henc : latin1.encode c = some [BitVec.ofNat 8 c] := if_pos hc
    rw [Encoding.fit, henc, if_pos hc]
    dsimp only
    rw [if_pos (by exact Nat.le_add_left 1 n)]
    rfl
  · have henc : latin1.encode c = none := if_neg hc
    rw [Encoding.fit, henc, if_neg hc]

theorem latin1_fit_eq_nil (n : ℕ) (cs : List ℕ) :
    latin1.fit (n + 1) cs = [] ↔ ∀ c, cs.head? = some c → 256 ≤ c := by
  cases cs with
  | nil =>
    refine iff_of_true rfl ?_
    intro c hc
    cases hc
  | cons c cs =>
    rw [latin1_fit_cons]
    constructor
    · intro h c' hc'
      cases hc'
      by_contra hlt
      rw [if_pos (by omega)] at h
      cases h
    · intro h
      exact if_neg (Nat.not_lt.mpr (h c rfl))

theorem utf16_fit_of_latin1 (T : Codecs) {n : ℕ} {cs : List ℕ} (h : latin1.fit n cs = cs) :
    T.utf16.fit n cs = cs := by
  induction cs generalizing n with
  | nil => rfl
  | cons c cs ih =>
    cases n with
    | zero =>
      have hlen := latin1.length_units_of_fit h
      rw [Encoding.fit] at h
      cases henc : latin1.encode c with
      | none =>
        rw [henc] at h
        cases h
      | some us =>
        rw [latin1.units_cons henc, List.length_append] at hlen
        exact absurd (List.eq_nil_of_length_eq_zero (by omega))
          (fun hus => latin1.encode_ne_nil c (henc.trans (congrArg some hus)))
    | succ n =>
      rw [latin1_fit_cons] at h
      split_ifs at h with hc
      rw [Encoding.fit, T.utf16_latin c hc]
      dsimp only
      rw [if_pos (by exact Nat.le_add_left 1 n)]
      exact congrArg (c :: ·) (ih (List.cons.inj h).2)

theorem string_eq_nil (f : Field Byte 12) :
    string f.units = [] ↔ latin1.text f.units = [] := by
  obtain ⟨l, hl⟩ := f
  change string l = [] ↔ latin1.text l = []
  cases l with
  | nil => cases hl
  | cons b l =>
    by_cases hb : b = 0
    · rw [hb, text_zero_cons]
      exact iff_of_true rfl rfl
    · have hdec : latin1.decode (b :: l) = some (b.toNat, l) := if_pos b.isLt
      have hne : b.toNat ≠ 0 := fun h => hb (BitVec.eq_of_toNat_eq h)
      rw [latin1.text_of_some hdec hne, string, List.takeWhile_cons, if_pos (decide_eq_true hb)]
      exact iff_of_false (List.cons_ne_nil _ _) (List.cons_ne_nil _ _)

theorem rank_dcOfPc (T : Codecs) (p : PcGrave) :
    (dcOfPc T p).string.units = List.replicate 12 0 :=
  rfl

theorem text_zeros {U : Type} [Zero U] (e : Encoding U) (n : ℕ) :
    e.text (List.replicate n 0) = [] := by
  cases n with
  | zero => exact congrArg (List.takeWhile _) e.chars_nil
  | succ n => exact text_zero_cons e _

theorem rank_pcOfDc (T : Codecs) (p : DcGrave) (h : string p.string.units = []) :
    T.utf16.text (pcOfDc T p).string.units = [] := by
  change T.utf16.text (p.string.units.map _) = []
  cases hl : p.string.units with
  | nil => exact text_zeros T.utf16 0
  | cons b l =>
    rw [hl, string, List.takeWhile_cons] at h
    split_ifs at h with hb
    have hzero : b = 0 := by
      by_contra hne
      exact hb (decide_eq_true hne)
    rw [hzero]
    exact text_zero_cons T.utf16 _

end Ranks

section Survival

variable {T : Codecs} {member : ClientVersion}

theorem length_flatMap_le32 (l : List (BitVec 32)) : (l.flatMap le32).length = 4 * l.length := by
  induction l with
  | nil => rfl
  | cons u l ih =>
    rw [List.flatMap_cons, List.length_append, ih, List.length_cons]
    change 4 + 4 * l.length = 4 * (l.length + 1)
    omega

theorem length_wire_dc (p : DcGrave) : p.wire.length = 0xAC := by
  simp [DcGrave.wire, length_flatMap_le32, Field.length_units, -List.length_flatMap]
  simp [le16, le32]

theorem length_wire_pc (p : PcGrave) : p.wire.length = 0xE4 := by
  simp [PcGrave.wire, length_flatMap_le16, length_flatMap_le32, Field.length_units,
    -List.length_flatMap]
  simp [le16, le32]

theorem inside_graveCopies : ∀ a ∈ graveCopies, a.Inside := by
  decide

/-- Members of the sender's version get the grave as it is. -/
theorem survives_same {g : Grave}
    (hsend : handleCmodeGrave T g.version g = some (g, [])) (hmember : g.version = member) :
    GraveSurvives T member g := by
  intro out accesses h
  rw [← hmember, hsend] at h
  cases h
  refine ⟨hmember, ?_, ?_⟩
  · exact
      { layout := Or.inl rfl
        numbers := rfl
        rank := by
          cases g <;> exact (take_string _ le_rfl).symm
        team := by
          cases g <;> exact (take_string _ le_rfl).symm
        message := by
          cases g <;> exact (take_string _ le_rfl).symm
        inside := by
          rintro a ⟨⟩ }
  · intro back accesses' hback
    rw [hsend] at hback
    cases hback
    exact
      { numbers := rfl
        rank := by
          cases g <;> exact fun _ => rfl
        team := by
          cases g <;> exact fun _ => rfl
        message := by
          cases g <;> exact fun _ => rfl }

theorem dc_to_pc_grave (p : DcGrave) :
    GraveSurvives T .pc (.dc p) ↔ string p.string.units = [] := by
  constructor
  · intro h
    obtain ⟨-, -, hreturns⟩ := h _ _ rfl
    have hrank := (hreturns _ _ rfl).rank
    have hfit : latin1.fit p.string.units.length (latin1.text p.string.units) =
        latin1.text p.string.units := latin1.fit_text le_rfl
    have hwide := utf16_fit_of_latin1 T (latin1.fit_mono hfit p.string.length_units.le)
    have hback : latin1.text (dcOfPc T (pcOfDc T p)).string.units = latin1.text p.string.units :=
      hrank (fun htagged => Bool.noConfusion htagged) hwide hfit
    rw [rank_dcOfPc, text_zeros] at hback
    exact (string_eq_nil p.string).mpr hback.symm
  · intro hrank out accesses h
    cases h
    have htext := (string_eq_nil p.string).mp hrank
    refine ⟨rfl, ?_, ?_⟩
    · exact
        { layout := Or.inr ⟨⟨(length_wire_pc _).symm, (length_wire_pc _).symm⟩, rfl⟩
          numbers := rfl
          rank := by
            change T.utf16.text (pcOfDc T p).string.units =
              T.utf16.fit 12 (latin1.text p.string.units)
            rw [rank_pcOfDc T p hrank, htext]
            rfl
          team := same_widened T p.team (Or.inl le_rfl)
          message := same_widened T p.message (Or.inl le_rfl)
          inside := inside_append
            (inside_append (inside_widened le_rfl p.team) (inside_widened le_rfl p.message))
            inside_graveCopies }
    · intro back accesses' hback
      cases hback
      exact
        { numbers := rfl
          rank := by
            intro _ _ _
            change latin1.text (dcOfPc T (pcOfDc T p)).string.units = latin1.text p.string.units
            rw [rank_dcOfPc, text_zeros, htext]
          team := returned_widened T (show 2 ≤ 20 by omega) 20 20 le_rfl (Or.inl le_rfl)
            (Or.inl le_rfl)
          message := returned_widened T (show 2 ≤ 24 by omega) 24 24 le_rfl (Or.inl le_rfl)
            (Or.inl le_rfl) }

theorem pc_to_dc_grave (p : PcGrave) :
    GraveSurvives T .dcv2 (.pc p) ↔
      ∀ c, (T.utf16.text p.string.units).head? = some c → 256 ≤ c := by
  rw [← latin1_fit_eq_nil 11]
  have hthere : latin1.text (dcOfPc T p).string.units = [] := text_zeros latin1 12
  constructor
  · intro h
    obtain ⟨-, harrives, -⟩ := h _ _ rfl
    have hrank : latin1.text (dcOfPc T p).string.units =
        latin1.fit 12 (T.utf16.text p.string.units) := harrives.rank
    rw [hthere] at hrank
    exact hrank.symm
  · intro hrank out accesses h
    cases h
    refine ⟨rfl, ?_, ?_⟩
    · exact
        { layout := Or.inr ⟨⟨(length_wire_dc _).symm, (length_wire_dc _).symm⟩, rfl⟩
          numbers := rfl
          rank := hthere.trans hrank.symm
          team := text_narrowed T (le_refl 20) p.team
          message := text_narrowed T (le_refl 24) p.message
          inside := inside_append
            (inside_append (inside_narrowed le_rfl p.team) (inside_narrowed le_rfl p.message))
            inside_graveCopies }
    · intro back accesses' hback
      cases hback
      exact
        { numbers := rfl
          rank := by
            intro _ hnarrow
            change latin1.fit 12 (T.utf16.text p.string.units) = T.utf16.text p.string.units
              at hnarrow
            rw [hrank] at hnarrow
            rw [← hnarrow]
            exact rank_pcOfDc T (dcOfPc T p) rfl
          team := returned_narrowed T 18 (le_refl 20) (fun _ h => h) (le_refl 20)
          message := returned_narrowed T 22 (le_refl 24) (fun _ h => h) (le_refl 24) }

theorem graveSurvives_iff (T : Codecs) (member : ClientVersion) (g : Grave) :
    GraveSurvives T member g ↔ GraveKeeps T g member := by
  have hnone : ∀ v, handleCmodeGrave T v g = none → GraveSurvives T v g := by
    intro v hv out accesses h
    rw [hv] at h
    cases h
  cases g with
  | dc p =>
    cases member with
    | dcv2 => exact iff_of_true (survives_same rfl rfl) trivial
    | pc => exact dc_to_pc_grave p
    | dcv1 => exact iff_of_true (hnone _ rfl) trivial
    | gc => exact iff_of_true (hnone _ rfl) trivial
    | ep3 => exact iff_of_true (hnone _ rfl) trivial
    | bb => exact iff_of_true (hnone _ rfl) trivial
    | xbox => exact iff_of_true (hnone _ rfl) trivial
  | pc p =>
    cases member with
    | dcv2 => exact pc_to_dc_grave p
    | pc => exact iff_of_true (survives_same rfl rfl) trivial
    | dcv1 => exact iff_of_true (hnone _ rfl) trivial
    | gc => exact iff_of_true (hnone _ rfl) trivial
    | ep3 => exact iff_of_true (hnone _ rfl) trivial
    | bb => exact iff_of_true (hnone _ rfl) trivial
    | xbox => exact iff_of_true (hnone _ rfl) trivial

end Survival

/-- The encodings, for characters that take one unit. -/
def plain : Codecs where
  sjis := ascii
  utf16 := direct 16 0xD800 (by decide) (by decide)
  sjis_letterJ := rfl
  utf16_latin c hc := if_pos (by omega)

/-- A PC grave with the rank S. -/
def graveOfRankS : PcGrave :=
  { pktType := 0x60, flags := 0, pktLen := 0x00E4, type := 0x7C, size := 0x38, unused1 := 0,
    unused2 := 0, clientId := 1, unused3 := 0, unk0 := 0, unk1 := 0,
    string := (Fill.starting [0x53] : Fill Wide 12).field, unk2 := (blank : Fill Byte 36).field,
    graveUnk4 := 0, deaths := 3, coordsTime := (blank : Fill (BitVec 32) 5).field,
    team := (blank : Fill Wide 20).field, message := (blank : Fill Wide 24).field,
    times := (blank : Fill (BitVec 32) 9).field, unk := 0 }

end ShipServer.GraveTranslation

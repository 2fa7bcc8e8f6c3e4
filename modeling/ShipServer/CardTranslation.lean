import ShipServer.GuildCards

set_option autoImplicit false

/-! Which guild cards survive their translation. -/

namespace ShipServer.CardTranslation

open Transcoding Versions GuildCards

section Fills

variable {U V : Type} [Zero U] [Zero V] {n m : ℕ}

theorem inside_starting {head : List U} (h : head.length ≤ n) :
    ∀ a ∈ (Fill.starting head : Fill U n).accesses, a.Inside := by
  intro a ha
  rw [List.mem_singleton.mp ha]
  change 0 + head.length ≤ n
  omega

omit [Zero U] in
theorem inside_memcpy {dst : Fill U n} (hdst : ∀ a ∈ dst.accesses, a.Inside) {pos : ℕ}
    {src : Region U} {srcPos count : ℕ} (hsrc : srcPos + count ≤ src.width)
    (hpos : pos + count ≤ n) :
    ∀ a ∈ (dst.memcpy pos src srcPos count).accesses, a.Inside := by
  intro a ha
  rcases List.mem_append.mp ha with hin | hnew
  · exact hdst a hin
  · rcases List.mem_cons.mp hnew with rfl | hlast
    · exact hsrc
    · rw [List.mem_singleton.mp hlast]
      exact hpos

theorem inside_convert {e : Encoding U} {e' : Encoding V} {dst : Fill V n}
    (hdst : ∀ a ∈ dst.accesses, a.Inside) {pos room : ℕ} {src : Region U} {srcPos count : ℕ}
    (hsrc : srcPos + count ≤ src.width) (hpos : pos + room ≤ n) :
    ∀ a ∈ (dst.convert e e' pos room src srcPos count).accesses, a.Inside := by
  intro a ha
  rcases List.mem_append.mp ha with hin | hnew
  · exact hdst a hin
  · rcases List.mem_cons.mp hnew with rfl | hlast
    · exact hsrc
    · rw [List.mem_singleton.mp hlast]
      exact hpos

theorem inside_append {l l' : List Access} (h : ∀ a ∈ l, a.Inside) (h' : ∀ a ∈ l', a.Inside) :
    ∀ a ∈ l ++ l', a.Inside := by
  intro a ha
  rcases List.mem_append.mp ha with hin | hin
  · exact h a hin
  · exact h' a hin

theorem string_memcpy [DecidableEq U] (f : Field U m) (count : ℕ) (h : count ≤ n) :
    string ((blank : Fill U n).memcpy 0 f.region 0 count).field.units =
      (string f.units).take count := by
  obtain ⟨k, hk⟩ := Fill.field_memcpy ([] : List U) f.region 0 count
    (show 0 + count ≤ n by omega)
  change ((blank : Fill U n).memcpy 0 f.region 0 count).field.units = _ at hk
  rw [hk]
  exact string_take_append f.units count k

theorem text_convert (e : Encoding U) {r e' : Encoding V} (hreads : r.Reads e') (f : Field U m)
    (room count : ℕ) (h : room ≤ n) :
    r.text ((blank : Fill V n).convert e e' 0 room f.region 0 count).field.units =
      e'.fit room (e.text (f.units.take count)) := by
  obtain ⟨k, hk⟩ := Fill.field_convert e e' ([] : List V) room f.region 0 count
    (show 0 + room ≤ n by omega)
  change ((blank : Fill V n).convert e e' 0 room f.region 0 count).field.units = _ at hk
  rw [hk]
  exact text_iconv e hreads (f.units.take count) room k

omit [Zero U] in
theorem take_units (f : Field U n) : f.units.take n = f.units :=
  List.take_of_length_le f.length_units.le

theorem length_string_le [DecidableEq U] (f : Field U n) : (string f.units).length ≤ n := by
  have h := (List.takeWhile_sublist (l := f.units) (fun u => decide (u ≠ 0))).length_le
  rw [f.length_units] at h
  exact h

theorem take_string [DecidableEq U] (f : Field U n) (h : n ≤ m) :
    (string f.units).take m = string f.units :=
  List.take_of_length_le ((length_string_le f).trans h)

end Fills

/-! The marks of Blue Burst names. -/

section Marks

variable {m : ℕ}

theorem marked_convert (e : Encoding Byte) (e' : Encoding Wide) (f : Field Byte m) (count : ℕ) :
    (((Fill.starting mark : Fill Wide 24).convert e e' 2 22 f.region 0 count).field.units.take 2 =
      mark) ∧
    e'.text (((Fill.starting mark : Fill Wide 24).convert e e' 2 22 f.region 0
      count).field.units.drop 2) = e'.fit 22 (e.text (f.units.take count)) := by
  obtain ⟨k, hk⟩ := Fill.field_convert e e' mark 22 f.region 0 count (show 2 + 22 ≤ 24 by omega)
  change ((Fill.starting mark : Fill Wide 24).convert e e' 2 22 f.region 0 count).field.units = _
    at hk
  rw [hk]
  exact ⟨rfl, text_iconv e e'.reads_self (f.units.take count) 22 k⟩

theorem marked_memcpy (f : Field Wide m) (count : ℕ) (h : count ≤ 22) :
    (((Fill.starting mark : Fill Wide 24).memcpy 2 f.region 0 count).field.units.take 2 = mark) ∧
    string (((Fill.starting mark : Fill Wide 24).memcpy 2 f.region 0 count).field.units.drop 2) =
      (string f.units).take count := by
  obtain ⟨k, hk⟩ := Fill.field_memcpy mark f.region 0 count (show 2 + count ≤ 24 by omega)
  change ((Fill.starting mark : Fill Wide 24).memcpy 2 f.region 0 count).field.units = _ at hk
  rw [hk]
  exact ⟨rfl, string_take_append f.units count k⟩

theorem string_drop_le (s : StoredCard) : (string (s.name.units.drop 2)).length ≤ 14 := by
  have h := (List.takeWhile_sublist (l := s.name.units.drop 2)
    (fun u => decide (u ≠ 0))).length_le
  rw [List.length_drop, s.name.length_units] at h
  exact h

theorem take_nameRegion (s : StoredCard) : s.nameRegion.units.take 16 = s.name.units := by
  have hlen := s.name.length_units
  rw [StoredCard.nameRegion, List.take_append, take_units]
  rw [hlen, Nat.sub_self, List.take_zero, List.append_nil]

theorem string_storedName (s : StoredCard) :
    string ((blank : Fill Wide 24).memcpy 0 s.nameRegion 2 14).field.units =
      string (s.name.units.drop 2) := by
  obtain ⟨k, hk⟩ := Fill.field_memcpy ([] : List Wide) s.nameRegion 2 14
    (show 0 + 14 ≤ 24 by omega)
  change ((blank : Fill Wide 24).memcpy 0 s.nameRegion 2 14).field.units = _ at hk
  have hdrop : (s.nameRegion.units.drop 2).take 14 = (s.name.units.drop 2).take 14 := by
    have h := congrArg (List.drop 2) (take_nameRegion s)
    rw [List.drop_take] at h
    rw [← h, List.take_take]
    rfl
  rw [hk, hdrop]
  refine (string_take_append (s.name.units.drop 2) 14 k).trans ?_
  exact List.take_of_length_le (string_drop_le s)

theorem whole_storedName (s : StoredCard) :
    (((blank : Fill Wide 24).memcpy 0 s.nameRegion 0 16).field.units.take 2 =
      s.name.units.take 2) ∧
    string (((blank : Fill Wide 24).memcpy 0 s.nameRegion 0 16).field.units.drop 2) =
      string (s.name.units.drop 2) := by
  obtain ⟨k, hk⟩ := Fill.field_memcpy ([] : List Wide) s.nameRegion 0 16
    (show 0 + 16 ≤ 24 by omega)
  change ((blank : Fill Wide 24).memcpy 0 s.nameRegion 0 16).field.units = _ at hk
  have hlen := s.name.length_units
  rw [hk, List.drop_zero, take_nameRegion, List.nil_append]
  constructor
  · rw [List.take_append, hlen]
    exact List.append_nil _
  · rw [List.drop_append, hlen]
    have h := string_take_append (s.name.units.drop 2) 14 k
    have hwhole : (s.name.units.drop 2).take 14 = s.name.units.drop 2 :=
      List.take_of_length_le (by rw [List.length_drop, hlen])
    rw [hwhole] at h
    exact h.trans (List.take_of_length_le (string_drop_le s))

end Marks

/-! The layouts of the packets that are built. -/

section Layouts

variable (h : Head)

theorem length_flatMap_le16 (l : List Wide) : (l.flatMap le16).length = 2 * l.length := by
  induction l with
  | nil => rfl
  | cons u l ih =>
    rw [List.flatMap_cons, List.length_append, ih, List.length_cons]
    change 2 + 2 * l.length = 2 * (l.length + 1)
    omega

theorem layout_toDc (name : Fill Byte 24) (text : Fill Byte 88) :
    (toDc h name text).card.Layout := by
  have hlen : ∀ p : DcGcsend, p.wire.length = 0x88 := by
    intro p
    simp [DcGcsend.wire, le16, le32, Field.length_units]
  exact ⟨(hlen _).symm, (hlen _).symm⟩

theorem layout_toPc (name : Fill Wide 24) (text : Fill Wide 88) :
    (toPc h name text).card.Layout := by
  have hlen : ∀ p : PcGcsend, p.wire.length = 0xF8 := by
    intro p
    simp [PcGcsend.wire, length_flatMap_le16, Field.length_units, -List.length_flatMap]
    simp [le16, le32]
  exact ⟨(hlen _).symm, (hlen _).symm⟩

theorem layout_toGc (name : Fill Byte 24) (text : Fill Byte 104) :
    (toGc h name text).card.Layout := by
  have hlen : ∀ p : GcGcsend, p.wire.length = 0x98 := by
    intro p
    simp [GcGcsend.wire, le16, le32, Field.length_units]
  exact ⟨(hlen _).symm, (hlen _).symm⟩

theorem layout_toXb (name : Fill Byte 24) (text : Fill Byte 512) :
    (toXb h name text).card.Layout := by
  have hlen : ∀ p : XbGcsend, p.wire.length = 0x234 := by
    intro p
    simp [XbGcsend.wire, le16, le32, le64, Field.length_units]
  exact ⟨⟨(hlen _).symm, (hlen _).symm⟩, rfl⟩

theorem layout_toBb (clientId : BitVec 32) (name : Fill Wide 24) (teamName : Fill Wide 16)
    (text : Fill Wide 88) : (toBb h clientId name teamName text).card.Layout := by
  have hlen : ∀ p : BbGcsend, p.wire.length = 0x114 := by
    intro p
    simp [BbGcsend.wire, length_flatMap_le16, Field.length_units, -List.length_flatMap]
    simp [le16, le32]
  exact ⟨(hlen _).symm, (hlen _).symm⟩

end Layouts

/-! What a packet that is built carries. -/

section Arrivals

variable {T : Codecs} {src : Source} {h : Head}

theorem inside_blank {U : Type} [Zero U] {n : ℕ} :
    ∀ a ∈ (blank : Fill U n).accesses, a.Inside :=
  inside_starting (Nat.zero_le n)

theorem arrives_toDc {name : Fill Byte 24} {text : Fill Byte 88}
    (hnumbers : ⟨h.guildcard, h.language, h.sectionId, h.charClass⟩ = src.numbers)
    (htag : ∀ t ∈ src.tag, h.tag = t)
    (hname : Same T names 24 src.name (.narrow name.field.units))
    (htext : Same T (texts T) 88 src.text (.narrow text.field.units))
    (hinside : ∀ a ∈ name.accesses, a.Inside) (hinside' : ∀ a ∈ text.accesses, a.Inside) :
    Arrives T src (toDc h name text) where
  layout := Or.inr (layout_toDc h name text)
  numbers := hnumbers
  tag := by
    rintro t ht t' ⟨⟩
    exact htag t ht
  name := hname
  nameMark := by
    rintro m ⟨⟩
  text := htext
  teamName := by
    rintro t ht t' ⟨⟩
  inside := inside_append hinside hinside'

theorem arrives_toPc {name : Fill Wide 24} {text : Fill Wide 88}
    (hnumbers : ⟨h.guildcard, h.language, h.sectionId, h.charClass⟩ = src.numbers)
    (htag : ∀ t ∈ src.tag, h.tag = t)
    (hname : Same T names 24 src.name (.wide name.field.units))
    (htext : Same T (texts T) 88 src.text (.wide text.field.units))
    (hinside : ∀ a ∈ name.accesses, a.Inside) (hinside' : ∀ a ∈ text.accesses, a.Inside) :
    Arrives T src (toPc h name text) where
  layout := Or.inr (layout_toPc h name text)
  numbers := hnumbers
  tag := by
    rintro t ht t' ⟨⟩
    exact htag t ht
  name := hname
  nameMark := by
    rintro m ⟨⟩
  text := htext
  teamName := by
    rintro t ht t' ⟨⟩
  inside := inside_append hinside hinside'

theorem arrives_toGc {name : Fill Byte 24} {text : Fill Byte 104}
    (hnumbers : ⟨h.guildcard, h.language, h.sectionId, h.charClass⟩ = src.numbers)
    (htag : ∀ t ∈ src.tag, h.tag = t)
    (hname : Same T names 24 src.name (.narrow name.field.units))
    (htext : Same T (texts T) 104 src.text (.narrow text.field.units))
    (hinside : ∀ a ∈ name.accesses, a.Inside) (hinside' : ∀ a ∈ text.accesses, a.Inside) :
    Arrives T src (toGc h name text) where
  layout := Or.inr (layout_toGc h name text)
  numbers := hnumbers
  tag := by
    rintro t ht t' ⟨⟩
    exact htag t ht
  name := hname
  nameMark := by
    rintro m ⟨⟩
  text := htext
  teamName := by
    rintro t ht t' ⟨⟩
  inside := inside_append hinside hinside'

theorem arrives_toXb {name : Fill Byte 24} {text : Fill Byte 512}
    (hnumbers : ⟨h.guildcard, h.language, h.sectionId, h.charClass⟩ = src.numbers)
    (htag : ∀ t ∈ src.tag, h.tag = t)
    (hname : Same T names 24 src.name (.narrow name.field.units))
    (htext : Same T (texts T) 512 src.text (.narrow text.field.units))
    (hinside : ∀ a ∈ name.accesses, a.Inside) (hinside' : ∀ a ∈ text.accesses, a.Inside) :
    Arrives T src (toXb h name text) where
  layout := Or.inr (layout_toXb h name text)
  numbers := hnumbers
  tag := by
    rintro t ht t' ⟨⟩
    exact htag t ht
  name := hname
  nameMark := by
    rintro m ⟨⟩
  text := htext
  teamName := by
    rintro t ht t' ⟨⟩
  inside := inside_append hinside hinside'

theorem arrives_toBb {clientId : BitVec 32} {name : Fill Wide 24} {teamName : Fill Wide 16}
    {text : Fill Wide 88}
    (hnumbers : ⟨h.guildcard, h.language, h.sectionId, h.charClass⟩ = src.numbers)
    (hname : Same T names 22 src.name (.wide (name.field.units.drop 2)))
    (hmark : name.field.units.take 2 = src.nameMark)
    (htext : Same T (texts T) 88 src.text (.wide text.field.units))
    (hteam : ∀ t ∈ src.teamName, string teamName.field.units = string t)
    (hinside : ∀ a ∈ name.accesses, a.Inside) (hinside' : ∀ a ∈ teamName.accesses, a.Inside)
    (hinside'' : ∀ a ∈ text.accesses, a.Inside) :
    Arrives T src (toBb h clientId name teamName text) where
  layout := Or.inr (layout_toBb h clientId name teamName text)
  numbers := hnumbers
  tag := by
    rintro t ht t' ⟨⟩
  name := hname
  nameMark := by
    rintro m ⟨⟩
    exact hmark
  text := htext
  teamName := by
    rintro t ht t' ⟨⟩
    exact hteam t ht
  inside := inside_append (inside_append hinside hinside') hinside''

end Arrivals

/-! Texts that are copied. -/

section Copies

variable {U : Type} [Zero U] {m n : ℕ}

def copied (n : ℕ) (f : Field U m) (count : ℕ) : Fill U n :=
  blank.memcpy 0 f.region 0 count

theorem string_copied [DecidableEq U] (f : Field U m) {count : ℕ} (h : count ≤ n) :
    string (copied n f count).field.units = (string f.units).take count :=
  string_memcpy f count h

theorem string_copied_whole [DecidableEq U] (f : Field U m) {count : ℕ} (h : count ≤ n)
    (hf : m ≤ count) : string (copied n f count).field.units = string f.units :=
  (string_copied f h).trans (take_string f hf)

theorem inside_copied (f : Field U m) {count : ℕ} (h : count ≤ n) (hf : count ≤ m) :
    ∀ a ∈ (copied n f count : Fill U n).accesses, a.Inside :=
  inside_memcpy inside_blank (by rw [Nat.zero_add]; exact hf) (by rw [Nat.zero_add]; exact h)

end Copies

/-! Names that are converted. -/

section Names

variable (T : Codecs)

def widenedName (f : Field Byte 24) : Fill Wide 24 :=
  blank.convert latin1 T.utf16 0 24 f.region 0 24

def narrowedName (f : Field Wide 24) : Fill Byte 24 :=
  blank.convert T.utf16 ascii 0 24 f.region 0 24

theorem same_widenedName (f : Field Byte 24) :
    Same T names 24 (.narrow f.units) (.wide (widenedName T f).field.units) := by
  have h := text_convert latin1 T.utf16.reads_self f 24 24 (le_refl 24)
  rw [take_units] at h
  exact h

theorem text_narrowedName {r : Encoding Byte} (hreads : r.Reads ascii) (f : Field Wide 24) :
    r.text (narrowedName T f).field.units = ascii.fit 24 (T.utf16.text f.units) := by
  have h := text_convert T.utf16 hreads f 24 24 (le_refl 24)
  rw [take_units] at h
  exact h

theorem same_narrowedName (f : Field Wide 24) :
    Same T names 24 (.wide f.units) (.narrow (narrowedName T f).field.units) :=
  text_narrowedName T ascii.reads_self f

theorem returned_widenedName (f : Field Byte 24) :
    Returned T names 24 (.narrow f.units) (.wide (widenedName T f).field.units)
      (.narrow (narrowedName T (widenedName T f).field).field.units) := by
  intro _ hwide hback
  change T.utf16.fit 24 (latin1.text f.units) = latin1.text f.units at hwide
  change ascii.fit f.units.length (latin1.text f.units) = latin1.text f.units at hback
  have hthere : T.utf16.text (widenedName T f).field.units = latin1.text f.units :=
    (same_widenedName T f).trans hwide
  have hread := text_narrowedName T ascii.reads_self (widenedName T f).field
  rw [hthere] at hread
  rw [f.length_units] at hback
  exact hread.trans hback

theorem returned_narrowedName (f : Field Wide 24) :
    Returned T names 24 (.wide f.units) (.narrow (narrowedName T f).field.units)
      (.wide (widenedName T (narrowedName T f).field).field.units) := by
  intro _ hnarrow
  change ascii.fit 24 (T.utf16.text f.units) = T.utf16.text f.units at hnarrow
  have hthere := (text_narrowedName T latin1_reads_ascii f).trans hnarrow
  have hread := same_widenedName T (narrowedName T f).field
  change T.utf16.text _ = T.utf16.fit 24 (latin1.text _) at hread
  rw [hthere, T.utf16.fit_text f.length_units.le] at hread
  exact hread

end Names

/-! Texts that are converted. -/

section Texts

variable (T : Codecs) {m n w : ℕ}

theorem latin1_letterJ : latin1.encode 0x4A = some [0x4A] :=
  rfl

theorem ofBytes_letterJ (l : List Byte) : (T.ofBytes l).encode 0x4A = some [0x4A] := by
  rw [Codecs.ofBytes]
  split_ifs
  · exact T.sjis_letterJ
  · exact latin1_letterJ

theorem ofWide_letterJ (l : List Wide) : (T.ofWide l).encode 0x4A = some [0x4A] := by
  rw [Codecs.ofWide]
  split_ifs
  · exact T.sjis_letterJ
  · exact latin1_letterJ

theorem utf16_letterJ : T.utf16.encode 0x4A = some [0x4A] :=
  T.utf16_latin 0x4A (by decide)

/-- The text in UTF-16, as all conversions to PC and Blue Burst make it. -/
def widened (w : ℕ) (f : Field Byte m) : Fill Wide w :=
  blank.convert (T.ofBytes f.units) T.utf16 0 w f.region 0 w

def narrowed (n room : ℕ) (f : Field Wide w) : Fill Byte n :=
  blank.convert T.utf16 (T.ofWide f.units) 0 room f.region 0 w

theorem text_widened (f : Field Byte m) :
    T.utf16.text (widened T w f).field.units =
      T.utf16.fit w ((T.ofBytes f.units).text (f.units.take w)) :=
  text_convert _ T.utf16.reads_self f w w le_rfl

theorem text_narrowed {room : ℕ} (h : room ≤ n) (f : Field Wide w) :
    (T.ofWide f.units).text (narrowed T n room f).field.units =
      (T.ofWide f.units).fit room (T.utf16.text f.units) := by
  have hread := text_convert T.utf16 (T.ofWide f.units).reads_self f room w h
  rw [take_units] at hread
  exact hread

theorem ofWide_widened (f : Field Byte m)
    (h : Single (T.ofBytes f.units) T.utf16 f.units) :
    T.ofWide (widened T (w + 2) f).field.units = T.ofBytes f.units := by
  obtain ⟨c, u, v, rest, hl, henc, henc'⟩ := h
  obtain ⟨k, hk⟩ := Fill.field_convert (T.ofBytes f.units) T.utf16 ([] : List Wide) (w + 2)
    f.region 0 (w + 2) (show 0 + (w + 2) ≤ w + 2 by omega)
  change (widened T (w + 2) f).field.units =
    iconv (T.ofBytes f.units) T.utf16 (f.units.take (w + 2)) (w + 2) ++ _ at hk
  have hsecond := second_iconv (v := (0x4A : Wide)) (by decide) (ofBytes_letterJ T f.units)
    (utf16_letterJ T) henc henc' (rest.take (w + 1)) w k
  have htake : f.units.take (w + 2) = u :: rest.take (w + 1) := by
    rw [hl]
    rfl
  have hrest : (rest.take (w + 1))[0]? = rest[0]? := by
    rw [List.getElem?_take, if_pos (Nat.succ_pos w)]
  rw [← htake, ← hk, hrest] at hsecond
  rw [Codecs.ofWide, Codecs.ofBytes]
  have hsame : f.units[1]? = rest[0]? := by
    rw [hl]
    rfl
  rw [hsame]
  exact if_congr hsecond rfl rfl

theorem ofBytes_narrowed {room : ℕ} (h : room + 2 ≤ n) (f : Field Wide w)
    (hs : Single T.utf16 (T.ofWide f.units) f.units) :
    T.ofBytes (narrowed T n (room + 2) f).field.units = T.ofWide f.units := by
  obtain ⟨c, u, v, rest, hl, henc, henc'⟩ := hs
  obtain ⟨k, hk⟩ := Fill.field_convert T.utf16 (T.ofWide f.units) ([] : List Byte) (room + 2)
    f.region 0 w (show 0 + (room + 2) ≤ n by omega)
  change (narrowed T n (room + 2) f).field.units =
    iconv T.utf16 (T.ofWide f.units) (f.units.take w) (room + 2) ++ _ at hk
  have hsecond := second_iconv (v := (0x4A : Byte)) (by decide) (utf16_letterJ T)
    (ofWide_letterJ T f.units) henc henc' rest room k
  rw [(take_units f).trans hl] at hk
  rw [← hk] at hsecond
  have hsame : f.units[1]? = rest[0]? := by
    rw [hl]
    rfl
  rw [Codecs.ofBytes, Codecs.ofWide, hsame]
  exact if_congr hsecond rfl rfl

theorem same_widened (f : Field Byte m) (h : m ≤ w ∨ Within T w f.units) :
    Same T (texts T) w (.narrow f.units) (.wide (widened T w f).field.units) := by
  refine (text_widened T f).trans ?_
  rcases h with hm | hwithin
  · rw [List.take_of_length_le (f.length_units.le.trans hm)]
    rfl
  · exact hwithin

theorem within_of_same {f : Field Byte m}
    (h : Same T (texts T) w (.narrow f.units) (.wide (widened T w f).field.units)) :
    Within T w f.units :=
  (text_widened T f).symm.trans h

/-- There and back again, from bytes. -/
theorem returned_widened {f : Field Byte m} (hw : 2 ≤ w) (room room' : ℕ) (hroom : room ≤ room')
    (hwithin : m ≤ w ∨ Within T w f.units)
    (hout : m ≤ room ∨ room = w) :
    Returned T (texts T) w (.narrow f.units) (.wide (widened T w f).field.units)
      (.narrow (narrowed T room' room (widened T w f).field).field.units) := by
  intro hsingle hwide hback
  change T.utf16.fit w ((T.ofBytes f.units).text f.units) = (T.ofBytes f.units).text f.units
    at hwide
  change (T.ofBytes f.units).fit f.units.length ((T.ofBytes f.units).text f.units) = _ at hback
  change (T.ofBytes f.units).text (narrowed T room' room (widened T w f).field).field.units =
    (T.ofBytes f.units).text f.units
  have hmark : T.ofWide (widened T w f).field.units = T.ofBytes f.units := by
    obtain ⟨w, rfl⟩ := Nat.exists_eq_add_of_le' hw
    exact ofWide_widened T f (hsingle rfl)
  have hthere : T.utf16.text (widened T w f).field.units = (T.ofBytes f.units).text f.units :=
    (same_widened T f hwithin).trans hwide
  have hread := text_narrowed T hroom (widened T w f).field
  rw [hmark, hthere] at hread
  rw [hread]
  rcases hout with hm | hroom
  · rw [f.length_units] at hback
    exact (T.ofBytes f.units).fit_mono hback hm
  · -- what arrives stands in the bytes that are read
    rw [hroom]
    have hpart : (T.ofBytes f.units).text f.units <+:
        (T.ofBytes f.units).text (f.units.take w) := by
      have h := (T.utf16).isPrefix_fit w ((T.ofBytes f.units).text (f.units.take w))
      rw [← text_widened, hthere] at h
      exact h
    refine (T.ofBytes f.units).fit_of_isPrefix ?_ hpart
    exact (T.ofBytes f.units).fit_text (List.length_take_le w f.units)

/-- There and back again, from UTF-16, where the text takes as many bytes at most. -/
theorem returned_narrowed {f : Field Wide w} (room : ℕ) (hroom : room + 2 ≤ n)
    (hfit : Single T.utf16 (T.ofWide f.units) f.units →
      (T.ofWide f.units).fit n (T.utf16.text f.units) = T.utf16.text f.units →
        (T.ofWide f.units).fit w (T.utf16.text f.units) = T.utf16.text f.units)
    (hw : w ≤ room + 2) :
    Returned T (texts T) n (.wide f.units) (.narrow (narrowed T n (room + 2) f).field.units)
      (.wide (widened T w (narrowed T n (room + 2) f).field).field.units) := by
  intro hsingle hnarrow
  have hs := hsingle rfl
  have hshort := hfit hs hnarrow
  have hthere := text_narrowed T hroom f
  rw [(T.ofWide f.units).fit_mono hshort hw] at hthere
  have hlen := (T.ofWide f.units).length_units_of_fit hshort
  rw [← hthere] at hlen
  have htake := (T.ofWide f.units).text_take hlen
  change T.utf16.text (widened T w (narrowed T n (room + 2) f).field).field.units =
    T.utf16.text f.units
  rw [text_widened, ofBytes_narrowed T hroom f hs, htake, hthere]
  exact T.utf16.fit_text f.length_units.le

/-- Only such texts come back through a wider field. -/
theorem fit_of_returned {f : Field Wide w} (room : ℕ) (hroom : room + 2 ≤ n)
    (h : Returned T (texts T) n (.wide f.units) (.narrow (narrowed T n (room + 2) f).field.units)
      (.wide (widened T w (narrowed T n (room + 2) f).field).field.units))
    (hs : Single T.utf16 (T.ofWide f.units) f.units)
    (hnarrow : (T.ofWide f.units).fit n (T.utf16.text f.units) = T.utf16.text f.units) :
    (T.ofWide f.units).fit w (T.utf16.text f.units) = T.utf16.text f.units := by
  have hback := h (fun _ => hs) hnarrow
  change T.utf16.text (widened T w (narrowed T n (room + 2) f).field).field.units =
    T.utf16.text f.units at hback
  rw [text_widened, ofBytes_narrowed T hroom f hs] at hback
  have hpart := (T.utf16).isPrefix_fit w ((T.ofWide f.units).text
    ((narrowed T n (room + 2) f).field.units.take w))
  rw [hback] at hpart
  exact (T.ofWide f.units).fit_of_isPrefix
    ((T.ofWide f.units).fit_text (List.length_take_le w _)) hpart

end Texts

/-! The pairs of formats. -/

section Pairs

variable {T : Codecs} {d : Recipient} {src : Source}

theorem survives_of_none (h : gcsend T d src = none) : Survives T d src := by
  intro sent hsent
  rw [h] at hsent
  cases hsent

theorem survives_of_sent (sent : Sent) (h : gcsend T d src = some sent)
    (hformat : sent.card.format = formatOf d.version) (harrives : Arrives T src sent)
    (hreturns : ∀ via, sent.card.source = some via → ∀ home, formatOf home.version = src.format →
      ∀ back, gcsend T home via = some back → Returns T src sent.card back.card) :
    Survives T d src := by
  intro sent' hsent'
  rw [h] at hsent'
  cases hsent'
  exact ⟨hformat, harrives, hreturns⟩

/-- A packet that is sent on as it is. -/
theorem arrives_packet {card : Card} (h : src.packet = some card) : Arrives T src ⟨card, []⟩ where
  layout := Or.inl h
  numbers := by
    cases src <;> cases h <;> rfl
  tag := by
    cases src <;> cases h <;>
    · rintro t ⟨⟩ t' ⟨⟩
      rfl
  name := by
    cases src <;> cases h <;> exact (take_string _ le_rfl).symm
  nameMark := by
    cases src <;> cases h <;> rintro m ⟨⟩
  text := by
    cases src <;> cases h <;> exact (take_string _ le_rfl).symm
  teamName := by
    cases src <;> cases h <;> rintro t ⟨⟩
  inside := by
    rintro a ⟨⟩

theorem returns_packet {card : Card} (h : src.packet = some card) : Returns T src card card where
  numbers := by
    cases src <;> cases h <;> rfl
  name := by
    cases src <;> cases h <;> exact fun _ => rfl
  text := by
    cases src <;> cases h <;> exact fun _ => rfl

theorem survives_packet {card : Card} (h : src.packet = some card)
    (hsend : ∀ home, formatOf home.version = src.format → ∀ back,
      gcsend T home src = some back → back = ⟨card, []⟩)
    (hf : formatOf d.version = src.format) : Survives T d src := by
  intro sent hsent
  rw [hsend d hf sent hsent]
  refine ⟨?_, arrives_packet h, ?_⟩
  · rw [hf]
    cases src <;> cases h <;> rfl
  · intro via hvia home hhome back hback
    have hsrc : via = src := by
      cases src <;> cases h <;> cases hvia <;> rfl
    rw [hsrc] at hback
    rw [hsend home hhome back hback]
    exact returns_packet h

/-- Bytes that are copied there and back. -/
theorem returned_copied {k : Kind} {m n : ℕ} (room : ℕ) (f : Field Byte m) {count count' : ℕ}
    (hcount : count ≤ n) (hcount' : count' ≤ m)
    (hlen : (string f.units).length ≤ room →
      (string f.units).length ≤ count ∧ (string f.units).length ≤ count') :
    Returned T k room (.narrow f.units) (.narrow (copied n f count).field.units)
      (.narrow (copied m (copied n f count).field count').field.units) := by
  intro hroom
  obtain ⟨hthere, hback⟩ := hlen hroom
  rw [string_copied _ hcount', string_copied f hcount, List.take_of_length_le hthere,
    List.take_of_length_le hback]

theorem returned_copiedName {k : Kind} (f : Field Byte 24) :
    Returned T k 24 (.narrow f.units) (.narrow (copied 24 f 24).field.units)
      (.narrow (copied 24 (copied 24 f 24).field 24).field.units) :=
  returned_copied 24 f (le_refl 24) (le_refl 24) fun h => ⟨h, h⟩

theorem same_copied {k : Kind} {m n : ℕ} (f : Field Byte m) {count : ℕ} (h : count ≤ n)
    (hcount : m ≤ count ∨ count = n) :
    Same T k n (.narrow f.units) (.narrow (copied n f count).field.units) := by
  rcases hcount with hm | rfl
  · exact (string_copied_whole f h hm).trans (take_string f (hm.trans h)).symm
  · exact string_copied f h

theorem inside_widened {m w : ℕ} (hm : w ≤ m) (f : Field Byte m) :
    ∀ a ∈ (widened T w f).accesses, a.Inside :=
  inside_convert inside_blank (by rw [Nat.zero_add]; exact hm) (by rw [Nat.zero_add])

theorem inside_narrowed {n room w : ℕ} (h : room ≤ n) (f : Field Wide w) :
    ∀ a ∈ (narrowed T n room f).accesses, a.Inside :=
  inside_convert inside_blank (by rw [Nat.zero_add]; exact le_refl w)
    (by rw [Nat.zero_add]; exact h)

theorem inside_widenedName (f : Field Byte 24) : ∀ a ∈ (widenedName T f).accesses, a.Inside :=
  inside_convert inside_blank (le_refl 24) (le_refl 24)

theorem inside_narrowedName (f : Field Wide 24) : ∀ a ∈ (narrowedName T f).accesses, a.Inside :=
  inside_convert inside_blank (le_refl 24) (le_refl 24)

/-- The name that a Blue Burst client gets. -/
def markedName (T : Codecs) (f : Field Byte 24) : Fill Wide 24 :=
  (Fill.starting mark).convert latin1 T.utf16 2 22 f.region 0 24

theorem inside_markedName (f : Field Byte 24) : ∀ a ∈ (markedName T f).accesses, a.Inside :=
  inside_convert (inside_starting (show 2 ≤ 24 by omega)) (le_refl 24) (le_refl 24)

/-- A card in bytes that a Blue Burst client gets. -/
theorem arrives_marked {h : Head} {clientId : BitVec 32} {m : ℕ} {name : Field Byte 24}
    {text : Field Byte m} (hm : 88 ≤ m) (hname : src.name = .narrow name.units)
    (htext : src.text = .narrow text.units)
    (hnumbers : ⟨h.guildcard, h.language, h.sectionId, h.charClass⟩ = src.numbers)
    (hmark : src.nameMark = mark) (hteam : src.teamName = none)
    (hwithin : m ≤ 88 ∨ Within T 88 text.units) :
    Arrives T src (toBb h clientId (markedName T name) blank (widened T 88 text)) := by
  obtain ⟨hhead, hrest⟩ := marked_convert latin1 T.utf16 name 24
  refine arrives_toBb hnumbers ?_ (hhead.trans hmark.symm) ?_ ?_ (inside_markedName name)
    inside_blank (inside_widened hm text)
  · rw [hname]
    rw [take_units] at hrest
    exact hrest
  · rw [htext]
    exact same_widened T text hwithin
  · rw [hteam]
    rintro t ⟨⟩

end Pairs

/-! Dreamcast cards. -/

section Dreamcast

variable {T : Codecs} {d : Recipient} (p : DcGcsend)

theorem dc_to_dc (hf : formatOf d.version = .dc) : Survives T d (.dc p) := by
  refine survives_packet rfl ?_ hf
  intro home hhome back hback
  rw [gcsend, handleDcGcsend, hhome] at hback
  cases hback
  rfl

theorem dc_to_gc (hf : formatOf d.version = .gc) : Survives T d (.dc p) := by
  refine survives_of_sent
    (toGc p.head (copied 24 p.name 24) (copied 104 p.text 88)) ?_ hf.symm ?_ ?_
  · rw [gcsend, handleDcGcsend, hf]
    rfl
  · refine arrives_toGc rfl ?_ (same_copied p.name (le_refl 24) (Or.inl le_rfl))
      (same_copied p.text (by omega) (Or.inl le_rfl))
      (inside_copied p.name (le_refl 24) (le_refl 24))
      (inside_copied p.text (by omega) (le_refl 88))
    rintro t ⟨⟩
    rfl
  · rintro via ⟨⟩ home hhome back hback
    change formatOf home.version = .dc at hhome
    rw [gcsend, handleGcGcsend, hhome] at hback
    cases hback
    exact
      { numbers := rfl
        name := returned_copiedName p.name
        text := returned_copied 104 p.text (by omega) (le_refl 88)
          fun _ => ⟨length_string_le p.text, length_string_le p.text⟩ }

theorem dc_to_xb (hf : formatOf d.version = .xb) : Survives T d (.dc p) := by
  refine survives_of_sent
    (toXb p.head (copied 24 p.name 24) (copied 512 p.text 88)) ?_ hf.symm ?_ ?_
  · rw [gcsend, handleDcGcsend, hf]
    rfl
  · refine arrives_toXb rfl ?_ (same_copied p.name (le_refl 24) (Or.inl le_rfl))
      (same_copied p.text (by omega) (Or.inl le_rfl))
      (inside_copied p.name (le_refl 24) (le_refl 24))
      (inside_copied p.text (by omega) (le_refl 88))
    rintro t ⟨⟩
    rfl
  · rintro via ⟨⟩ home hhome back hback
    change formatOf home.version = .dc at hhome
    rw [gcsend, handleXbGcsend, hhome] at hback
    cases hback
    exact
      { numbers := rfl
        name := returned_copiedName p.name
        text := returned_copied 512 p.text (by omega) (le_refl 88)
          fun _ => ⟨length_string_le p.text, length_string_le p.text⟩ }

theorem dc_to_pc (hf : formatOf d.version = .pc) (hnte : d.isNte = false) :
    Survives T d (.dc p) := by
  refine survives_of_sent
    (toPc p.head (widenedName T p.name) (widened T 88 p.text)) ?_ hf.symm ?_ ?_
  · rw [gcsend, handleDcGcsend, hf, hnte]
    rfl
  · refine arrives_toPc rfl ?_ (same_widenedName T p.name) (same_widened T p.text (Or.inl le_rfl))
      (inside_widenedName p.name) (inside_widened (le_refl 88) p.text)
    rintro t ⟨⟩
    rfl
  · rintro via ⟨⟩ home hhome back hback
    change formatOf home.version = .dc at hhome
    rw [gcsend, handlePcGcsend, hhome] at hback
    cases hback
    exact
      { numbers := rfl
        name := returned_widenedName T p.name
        text := returned_widened T (show 2 ≤ 88 by omega) 88 88 le_rfl (Or.inl le_rfl)
          (Or.inl le_rfl) }

theorem dc_to_bb (hf : formatOf d.version = .bb) : Survives T d (.dc p) := by
  refine survives_of_sent
    (toBb p.head d.clientId (markedName T p.name) blank (widened T 88 p.text)) ?_ hf.symm ?_ ?_
  · rw [gcsend, handleDcGcsend, hf]
    rfl
  · exact arrives_marked le_rfl rfl rfl rfl rfl rfl (Or.inl le_rfl)
  · rintro via ⟨⟩

end Dreamcast

/-! Gamecube cards. -/

section Gamecube

variable {T : Codecs} {d : Recipient} (p : GcGcsend)

theorem gc_to_gc (hf : formatOf d.version = .gc) : Survives T d (.gc p) := by
  refine survives_packet rfl ?_ hf
  intro home hhome back hback
  rw [gcsend, handleGcGcsend, hhome] at hback
  cases hback
  rfl

theorem gc_to_dc (hf : formatOf d.version = .dc) : Survives T d (.gc p) := by
  refine survives_of_sent
    (toDc p.head (copied 24 p.name 24) (copied 88 p.text 88)) ?_ hf.symm ?_ ?_
  · rw [gcsend, handleGcGcsend, hf]
    rfl
  · refine arrives_toDc rfl ?_ (same_copied p.name (le_refl 24) (Or.inl le_rfl))
      (same_copied p.text le_rfl (Or.inr rfl)) (inside_copied p.name (le_refl 24) (le_refl 24))
      (inside_copied p.text le_rfl (by omega))
    rintro t ⟨⟩
    rfl
  · rintro via ⟨⟩ home hhome back hback
    change formatOf home.version = .gc at hhome
    rw [gcsend, handleDcGcsend, hhome] at hback
    cases hback
    exact
      { numbers := rfl
        name := returned_copiedName p.name
        text := returned_copied 88 p.text le_rfl (by omega) fun h => ⟨h, h⟩ }

theorem gc_to_xb (hf : formatOf d.version = .xb) :
    Survives T d (.gc p) ↔ (string p.text.units).length ≤ 88 := by
  have hsend : gcsend T d (.gc p) =
      some (toXb p.head (copied 24 p.name 24) (copied 512 p.text 104)) := by
    rw [gcsend, handleGcGcsend, hf]
    rfl
  constructor
  · intro h
    obtain ⟨-, -, hreturns⟩ := h _ hsend
    have htext := (hreturns _ rfl ⟨.gc, false, 0⟩ rfl _ rfl).text
    have hback := htext ((length_string_le p.text).trans (show 104 ≤ 512 by omega))
    change string (copied 104 (copied 512 p.text 104).field 88).field.units = string p.text.units
      at hback
    rw [string_copied _ (by omega)] at hback
    rw [← hback]
    exact List.length_take_le 88 _
  · intro hlen
    refine survives_of_sent _ hsend hf.symm ?_ ?_
    · refine arrives_toXb rfl ?_ (same_copied p.name (le_refl 24) (Or.inl le_rfl))
        (same_copied p.text (by omega) (Or.inl le_rfl))
        (inside_copied p.name (le_refl 24) (le_refl 24))
        (inside_copied p.text (by omega) le_rfl)
      rintro t ⟨⟩
      rfl
    · rintro via ⟨⟩ home hhome back hback
      change formatOf home.version = .gc at hhome
      rw [gcsend, handleXbGcsend, hhome] at hback
      cases hback
      exact
        { numbers := rfl
          name := returned_copiedName p.name
          text := returned_copied 512 p.text (by omega) (by omega)
            fun _ => ⟨length_string_le p.text, hlen⟩ }

theorem gc_to_pc (hf : formatOf d.version = .pc) (hnte : d.isNte = false) :
    Survives T d (.gc p) ↔ Within T 88 p.text.units := by
  have hsend : gcsend T d (.gc p) =
      some (toPc p.head (widenedName T p.name) (widened T 88 p.text)) := by
    rw [gcsend, handleGcGcsend, hf, hnte]
    rfl
  constructor
  · intro h
    obtain ⟨-, harrives, -⟩ := h _ hsend
    exact within_of_same T harrives.text
  · intro hwithin
    refine survives_of_sent _ hsend hf.symm ?_ ?_
    · refine arrives_toPc rfl ?_ (same_widenedName T p.name)
        (same_widened T p.text (Or.inr hwithin)) (inside_widenedName p.name)
        (inside_widened (by omega) p.text)
      rintro t ⟨⟩
      rfl
    · rintro via ⟨⟩ home hhome back hback
      change formatOf home.version = .gc at hhome
      rw [gcsend, handlePcGcsend, hhome] at hback
      cases hback
      exact
        { numbers := rfl
          name := returned_widenedName T p.name
          text := returned_widened T (show 2 ≤ 88 by omega) 88 104 (by omega) (Or.inr hwithin)
            (Or.inr rfl) }

theorem gc_to_bb (hf : formatOf d.version = .bb) :
    Survives T d (.gc p) ↔ Within T 88 p.text.units := by
  have hsend : gcsend T d (.gc p) =
      some (toBb p.head d.clientId (markedName T p.name) blank (widened T 88 p.text)) := by
    rw [gcsend, handleGcGcsend, hf]
    rfl
  constructor
  · intro h
    obtain ⟨-, harrives, -⟩ := h _ hsend
    exact within_of_same T harrives.text
  · intro hwithin
    refine survives_of_sent _ hsend hf.symm ?_ ?_
    · exact arrives_marked (by omega) rfl rfl rfl rfl rfl (Or.inr hwithin)
    · rintro via ⟨⟩

end Gamecube

/-! Xbox cards. -/

section Xbox

variable {T : Codecs} {d : Recipient} (p : XbGcsend)

theorem xb_to_xb (hf : formatOf d.version = .xb) : Survives T d (.xb p) := by
  refine survives_packet rfl ?_ hf
  intro home hhome back hback
  rw [gcsend, handleXbGcsend, hhome] at hback
  cases hback
  rfl

theorem xb_to_dc (hf : formatOf d.version = .dc) : Survives T d (.xb p) := by
  refine survives_of_sent
    (toDc p.head (copied 24 p.name 24) (copied 88 p.text 88)) ?_ hf.symm ?_ ?_
  · rw [gcsend, handleXbGcsend, hf]
    rfl
  · refine arrives_toDc rfl ?_ (same_copied p.name (le_refl 24) (Or.inl le_rfl))
      (same_copied p.text le_rfl (Or.inr rfl)) (inside_copied p.name (le_refl 24) (le_refl 24))
      (inside_copied p.text le_rfl (by omega))
    rintro t ⟨⟩
    rfl
  · rintro via ⟨⟩ home hhome back hback
    change formatOf home.version = .xb at hhome
    rw [gcsend, handleDcGcsend, hhome] at hback
    cases hback
    exact
      { numbers := rfl
        name := returned_copiedName p.name
        text := returned_copied 88 p.text le_rfl (by omega) fun h => ⟨h, h⟩ }

theorem xb_to_gc (hf : formatOf d.version = .gc) :
    Survives T d (.xb p) ↔ (string p.text.units).length ≤ 88 := by
  have hsend : gcsend T d (.xb p) =
      some (toGc p.head (copied 24 p.name 24) (copied 104 p.text 88)) := by
    rw [gcsend, handleXbGcsend, hf]
    rfl
  have hread := string_copied p.text (show 88 ≤ 104 by omega)
  constructor
  · intro h
    obtain ⟨-, harrives, -⟩ := h _ hsend
    have hsame : string (copied 104 p.text 88).field.units = (string p.text.units).take 104 :=
      harrives.text
    rw [hread] at hsame
    have hlen := congrArg List.length hsame
    rw [List.length_take, List.length_take] at hlen
    omega
  · intro hlen
    refine survives_of_sent _ hsend hf.symm ?_ ?_
    · refine arrives_toGc rfl ?_ (same_copied p.name (le_refl 24) (Or.inl le_rfl)) ?_
        (inside_copied p.name (le_refl 24) (le_refl 24))
        (inside_copied p.text (by omega) (by omega))
      · rintro t ⟨⟩
        rfl
      · refine hread.trans ?_
        rw [List.take_of_length_le hlen]
        exact (List.take_of_length_le (by omega)).symm
    · rintro via ⟨⟩ home hhome back hback
      change formatOf home.version = .xb at hhome
      rw [gcsend, handleGcGcsend, hhome] at hback
      cases hback
      exact
        { numbers := rfl
          name := returned_copiedName p.name
          text := returned_copied 104 p.text (by omega) (by omega)
            fun h => ⟨hlen, h⟩ }

theorem xb_to_pc (hf : formatOf d.version = .pc) (hnte : d.isNte = false) :
    Survives T d (.xb p) ↔ Within T 88 p.text.units := by
  have hsend : gcsend T d (.xb p) =
      some (toPc p.head (widenedName T p.name) (widened T 88 p.text)) := by
    rw [gcsend, handleXbGcsend, hf, hnte]
    rfl
  constructor
  · intro h
    obtain ⟨-, harrives, -⟩ := h _ hsend
    exact within_of_same T harrives.text
  · intro hwithin
    refine survives_of_sent _ hsend hf.symm ?_ ?_
    · refine arrives_toPc rfl ?_ (same_widenedName T p.name)
        (same_widened T p.text (Or.inr hwithin)) (inside_widenedName p.name)
        (inside_widened (by omega) p.text)
      rintro t ⟨⟩
      rfl
    · rintro via ⟨⟩ home hhome back hback
      change formatOf home.version = .xb at hhome
      rw [gcsend, handlePcGcsend, hhome] at hback
      cases hback
      exact
        { numbers := rfl
          name := returned_widenedName T p.name
          text := returned_widened T (show 2 ≤ 88 by omega) 512 512 le_rfl (Or.inr hwithin)
            (Or.inl le_rfl) }

theorem xb_to_bb (hf : formatOf d.version = .bb) :
    Survives T d (.xb p) ↔ Within T 88 p.text.units := by
  have hsend : gcsend T d (.xb p) =
      some (toBb p.head d.clientId (markedName T p.name) blank (widened T 88 p.text)) := by
    rw [gcsend, handleXbGcsend, hf]
    rfl
  constructor
  · intro h
    obtain ⟨-, harrives, -⟩ := h _ hsend
    exact within_of_same T harrives.text
  · intro hwithin
    refine survives_of_sent _ hsend hf.symm ?_ ?_
    · exact arrives_marked (by omega) rfl rfl rfl rfl rfl (Or.inr hwithin)
    · rintro via ⟨⟩

end Xbox

/-! PC cards. -/

section Pc

variable {T : Codecs} {d : Recipient} (p : PcGcsend)

theorem pc_to_pc (hf : formatOf d.version = .pc) : Survives T d (.pc p) := by
  refine survives_packet rfl ?_ hf
  intro home hhome back hback
  change formatOf home.version = .pc at hhome
  rw [gcsend, handlePcGcsend, hhome] at hback
  dsimp only at hback
  split_ifs at hback
  cases hback
  rfl

theorem pc_to_dc (hf : formatOf d.version = .dc) : Survives T d (.pc p) := by
  refine survives_of_sent
    (toDc p.head (narrowedName T p.name) (narrowed T 88 88 p.text)) ?_ hf.symm ?_ ?_
  · rw [gcsend, handlePcGcsend, hf]
    rfl
  · refine arrives_toDc rfl ?_ (same_narrowedName T p.name) (text_narrowed T le_rfl p.text)
      (inside_narrowedName p.name) (inside_narrowed le_rfl p.text)
    rintro t ⟨⟩
    rfl
  · rintro via ⟨⟩ home hhome back hback
    change formatOf home.version = .pc at hhome
    rw [gcsend, handleDcGcsend, hhome] at hback
    dsimp only at hback
    split_ifs at hback
    cases hback
    exact
      { numbers := rfl
        name := returned_narrowedName T p.name
        text := returned_narrowed T 86 le_rfl (fun _ h => h) le_rfl }

theorem pc_to_gc (hf : formatOf d.version = .gc) :
    Survives T d (.pc p) ↔
      (T.ofWide p.text.units).fit 88 (T.utf16.text p.text.units) =
        (T.ofWide p.text.units).fit 104 (T.utf16.text p.text.units) := by
  have hsend : gcsend T d (.pc p) =
      some (toGc p.head (narrowedName T p.name) (narrowed T 104 88 p.text)) := by
    rw [gcsend, handlePcGcsend, hf]
    rfl
  have hread := text_narrowed T (show 88 ≤ 104 by omega) p.text
  constructor
  · intro h
    obtain ⟨-, harrives, -⟩ := h _ hsend
    exact hread.symm.trans harrives.text
  · intro hsame
    refine survives_of_sent _ hsend hf.symm ?_ ?_
    · refine arrives_toGc rfl ?_ (same_narrowedName T p.name) (hread.trans hsame)
        (inside_narrowedName p.name) (inside_narrowed (by omega) p.text)
      rintro t ⟨⟩
      rfl
    · rintro via ⟨⟩ home hhome back hback
      change formatOf home.version = .pc at hhome
      rw [gcsend, handleGcGcsend, hhome] at hback
      dsimp only at hback
      split_ifs at hback
      cases hback
      exact
        { numbers := rfl
          name := returned_narrowedName T p.name
          text := returned_narrowed T 86 (show 86 + 2 ≤ 104 by omega)
            (fun _ h => hsame.trans h) le_rfl }

theorem pc_to_xb (hf : formatOf d.version = .xb) :
    Survives T d (.pc p) ↔
      (Single T.utf16 (T.ofWide p.text.units) p.text.units →
        (T.ofWide p.text.units).fit 512 (T.utf16.text p.text.units) = T.utf16.text p.text.units →
          (T.ofWide p.text.units).fit 88 (T.utf16.text p.text.units) =
            T.utf16.text p.text.units) := by
  have hsend : gcsend T d (.pc p) =
      some (toXb p.head (narrowedName T p.name) (narrowed T 512 512 p.text)) := by
    rw [gcsend, handlePcGcsend, hf]
    rfl
  constructor
  · intro h hs hnarrow
    obtain ⟨-, -, hreturns⟩ := h _ hsend
    have htext := (hreturns _ rfl ⟨.pc, false, 0⟩ rfl _ rfl).text
    exact fit_of_returned T 510 (show 510 + 2 ≤ 512 by omega) htext hs hnarrow
  · intro hfit
    refine survives_of_sent _ hsend hf.symm ?_ ?_
    · refine arrives_toXb rfl ?_ (same_narrowedName T p.name) (text_narrowed T le_rfl p.text)
        (inside_narrowedName p.name) (inside_narrowed le_rfl p.text)
      rintro t ⟨⟩
      rfl
    · rintro via ⟨⟩ home hhome back hback
      change formatOf home.version = .pc at hhome
      rw [gcsend, handleXbGcsend, hhome] at hback
      dsimp only at hback
      split_ifs at hback
      cases hback
      exact
        { numbers := rfl
          name := returned_narrowedName T p.name
          text := returned_narrowed T 510 le_rfl hfit (by omega) }

theorem pc_to_bb (hf : formatOf d.version = .bb) :
    Survives T d (.pc p) ↔ (string p.name.units).length ≤ 14 := by
  have hsend : gcsend T d (.pc p) =
      some (toBb p.head d.clientId ((Fill.starting mark).memcpy 2 p.name.region 0 14) blank
        (copied 88 p.text 88)) := by
    rw [gcsend, handlePcGcsend, hf]
    rfl
  obtain ⟨hhead, hread⟩ := marked_memcpy p.name 14 (by omega)
  constructor
  · intro h
    obtain ⟨-, harrives, -⟩ := h _ hsend
    have hname : string (((Fill.starting mark : Fill Wide 24).memcpy 2 p.name.region 0
        14).field.units.drop 2) = (string p.name.units).take 22 := harrives.name
    rw [hread] at hname
    have hlen := congrArg List.length hname
    rw [List.length_take, List.length_take] at hlen
    omega
  · intro hlen
    refine survives_of_sent _ hsend hf.symm ?_ ?_
    · refine arrives_toBb rfl ?_ hhead (string_copied p.text le_rfl) ?_
        (inside_memcpy (inside_starting (show 2 ≤ 24 by omega)) (show 0 + 14 ≤ 24 by omega)
          (show 2 + 14 ≤ 24 by omega))
        inside_blank (inside_copied p.text le_rfl le_rfl)
      · refine hread.trans ?_
        rw [List.take_of_length_le hlen]
        exact (List.take_of_length_le (by omega)).symm
      · rintro t ⟨⟩
    · rintro via ⟨⟩

end Pc

/-! The cards of Blue Burst clients. -/

section Stored

variable {T : Codecs} {d : Recipient} (s : StoredCard)

/-- More of the name is read than there is. -/
theorem not_inside_name {n room : ℕ} {e : Encoding Byte} {dst : Fill Byte n} :
    ¬∀ a ∈ (dst.convert T.utf16 e 0 room s.nameRegion 2 24).accesses, a.Inside := by
  intro h
  have hread := h ⟨2, 24, 16⟩ (List.mem_append_right _ List.mem_cons_self)
  exact absurd hread (by decide)

theorem stored_to_dc (hf : formatOf d.version = .dc) : ¬Survives T d (.stored s) := by
  intro h
  have hsend : ∃ text, gcsend T d (.stored s) = some (toDc (s.head d)
      ((Fill.starting hyphens).convert T.utf16 ascii 0 24 s.nameRegion 2 24) text) := by
    rw [gcsend, handleBbGcsend, hf]
    exact ⟨_, rfl⟩
  obtain ⟨text, hsend⟩ := hsend
  obtain ⟨-, harrives, -⟩ := h _ hsend
  exact not_inside_name s fun a ha => harrives.inside a (List.mem_append_left _ ha)

theorem stored_to_gc (hf : formatOf d.version = .gc) : ¬Survives T d (.stored s) := by
  intro h
  have hsend : ∃ text, gcsend T d (.stored s) = some (toGc (s.head d)
      ((Fill.starting hyphens).convert T.utf16 ascii 0 24 s.nameRegion 2 24) text) := by
    rw [gcsend, handleBbGcsend, hf]
    exact ⟨_, rfl⟩
  obtain ⟨text, hsend⟩ := hsend
  obtain ⟨-, harrives, -⟩ := h _ hsend
  exact not_inside_name s fun a ha => harrives.inside a (List.mem_append_left _ ha)

theorem stored_to_xb (hf : formatOf d.version = .xb) : ¬Survives T d (.stored s) := by
  intro h
  have hsend : ∃ text, gcsend T d (.stored s) = some (toXb (s.head d)
      ((Fill.starting hyphens).convert T.utf16 ascii 0 24 s.nameRegion 2 24) text) := by
    rw [gcsend, handleBbGcsend, hf]
    exact ⟨_, rfl⟩
  obtain ⟨text, hsend⟩ := hsend
  obtain ⟨-, harrives, -⟩ := h _ hsend
  exact not_inside_name s fun a ha => harrives.inside a (List.mem_append_left _ ha)

theorem stored_to_pc (hf : formatOf d.version = .pc) (hnte : d.isNte = false) :
    Survives T d (.stored s) := by
  have hname := string_storedName s
  refine survives_of_sent (toPc (s.head d) (blank.memcpy 0 s.nameRegion 2 14)
    (copied 88 s.guildcardDesc 88)) ?_ hf.symm ?_ ?_
  · rw [gcsend, handleBbGcsend, hf, hnte]
    rfl
  · refine arrives_toPc rfl ?_ ?_ (string_copied s.guildcardDesc le_rfl)
      (inside_memcpy inside_blank (show 2 + 14 ≤ 16 by omega) (show 0 + 14 ≤ 24 by omega))
      (inside_copied s.guildcardDesc le_rfl le_rfl)
    · rintro t ⟨⟩
    · refine hname.trans ?_
      exact (List.take_of_length_le ((string_drop_le s).trans (by omega))).symm
  · rintro via ⟨⟩ home hhome back hback
    change formatOf home.version = .bb at hhome
    rw [gcsend, handlePcGcsend, hhome] at hback
    cases hback
    refine
      { numbers := rfl
        name := fun _ => ?_
        text := fun _ => ?_ }
    · refine (marked_memcpy _ 14 (by omega)).2.trans ?_
      change (string ((blank : Fill Wide 24).memcpy 0 s.nameRegion 2 14).field.units).take 14 =
        string (s.name.units.drop 2)
      rw [hname]
      exact List.take_of_length_le (string_drop_le s)
    · exact (string_copied_whole _ le_rfl le_rfl).trans
        (string_copied_whole s.guildcardDesc le_rfl le_rfl)

theorem stored_to_bb (hf : formatOf d.version = .bb) : Survives T d (.stored s) := by
  obtain ⟨hhead, hname⟩ := whole_storedName s
  refine survives_of_sent (toBb (s.head d) d.clientId (blank.memcpy 0 s.nameRegion 0 16)
    (copied 16 s.teamName 16) (copied 88 s.guildcardDesc 88)) ?_ hf.symm ?_ ?_
  · rw [gcsend, handleBbGcsend, hf]
    rfl
  · refine arrives_toBb rfl ?_ hhead (string_copied s.guildcardDesc le_rfl) ?_
      (inside_memcpy inside_blank (show 0 + 16 ≤ 16 by omega) (show 0 + 16 ≤ 24 by omega))
      (inside_copied s.teamName le_rfl le_rfl) (inside_copied s.guildcardDesc le_rfl le_rfl)
    · refine hname.trans ?_
      exact (List.take_of_length_le ((string_drop_le s).trans (by omega))).symm
    · rintro t ⟨⟩
      exact string_copied_whole s.teamName le_rfl le_rfl
  · rintro via ⟨⟩

end Stored

/-- A card survives if it is refused, or if its texts have the right lengths. -/
theorem survives_iff (T : Codecs) (d : Recipient) (src : Source) :
    Survives T d src ↔
      (formatOf d.version = .pc ∧ d.isNte = true) ∨ Keeps T src (formatOf d.version) := by
  by_cases hrefused : formatOf d.version = .pc ∧ d.isNte = true
  · obtain ⟨hf, hnte⟩ := hrefused
    have hnone : gcsend T d src = none := by
      cases src with
      | dc p => rw [gcsend, handleDcGcsend, hf, hnte]; rfl
      | pc p => rw [gcsend, handlePcGcsend, hf, hnte]; rfl
      | gc p => rw [gcsend, handleGcGcsend, hf, hnte]; rfl
      | xb p => rw [gcsend, handleXbGcsend, hf, hnte]; rfl
      | stored s => rw [gcsend, handleBbGcsend, hf, hnte]; rfl
    exact iff_of_true (survives_of_none hnone) (Or.inl ⟨hf, hnte⟩)
  · have hnte : formatOf d.version = .pc → d.isNte = false := by
      intro hf
      exact Bool.eq_false_of_not_eq_true fun ht => hrefused ⟨hf, ht⟩
    rw [or_iff_right hrefused]
    cases src with
    | dc p =>
      cases hf : formatOf d.version with
      | dc => exact iff_of_true (dc_to_dc p hf) trivial
      | pc => exact iff_of_true (dc_to_pc p hf (hnte hf)) trivial
      | gc => exact iff_of_true (dc_to_gc p hf) trivial
      | xb => exact iff_of_true (dc_to_xb p hf) trivial
      | bb => exact iff_of_true (dc_to_bb p hf) trivial
    | pc p =>
      cases hf : formatOf d.version with
      | dc => exact iff_of_true (pc_to_dc p hf) trivial
      | pc => exact iff_of_true (pc_to_pc p hf) trivial
      | gc => exact pc_to_gc p hf
      | xb => exact pc_to_xb p hf
      | bb => exact pc_to_bb p hf
    | gc p =>
      cases hf : formatOf d.version with
      | dc => exact iff_of_true (gc_to_dc p hf) trivial
      | pc => exact gc_to_pc p hf (hnte hf)
      | gc => exact iff_of_true (gc_to_gc p hf) trivial
      | xb => exact gc_to_xb p hf
      | bb => exact gc_to_bb p hf
    | xb p =>
      cases hf : formatOf d.version with
      | dc => exact iff_of_true (xb_to_dc p hf) trivial
      | pc => exact xb_to_pc p hf (hnte hf)
      | gc => exact xb_to_gc p hf
      | xb => exact iff_of_true (xb_to_xb p hf) trivial
      | bb => exact xb_to_bb p hf
    | stored s =>
      cases hf : formatOf d.version with
      | dc => exact iff_of_false (stored_to_dc s hf) id
      | pc => exact iff_of_true (stored_to_pc s hf (hnte hf)) trivial
      | gc => exact iff_of_false (stored_to_gc s hf) id
      | xb => exact iff_of_false (stored_to_xb s hf) id
      | bb => exact iff_of_true (stored_to_bb s hf) trivial

end ShipServer.CardTranslation

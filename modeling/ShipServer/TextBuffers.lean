import ShipServer.ListSizes
import ShipServer.TextPackets

set_option autoImplicit false

/-! Which texts stay in the arrays of their builders, and end inside their packets. -/

namespace ShipServer.TextBuffers

open Versions QuestLists ShipList ListPackets TextPackets
open ListSizes (sendbufSize shownShips menuText_length_le)

/-- Nothing is written outside, and the text ends inside the declared length. -/
structure Sound (p : TextPacket) : Prop where
  arrays : ∀ a ∈ p.arrays, a.2 ≤ a.1
  sendbuf : p.sendEnd ≤ sendbufSize
  ends : Ends p.width (p.text.take (declaredLen p - p.hdr))

section Ends

theorem narrow_ne_wide : Width.narrow ≠ .wide := by
  decide

theorem hasZero16_append_zeros (text : List UInt8) (heven : 2 ∣ text.length) (n : ℕ) :
    hasZero16 (text ++ zeros n) = true ↔ hasZero16 text = true ∨ 2 ≤ n := by
  induction text using hasZero16.induct with
  | case1 a b rest ih =>
    have hrest : 2 ∣ rest.length := by
      rw [List.length_cons, List.length_cons] at heven
      omega
    rw [List.cons_append, List.cons_append, hasZero16, hasZero16, Bool.or_eq_true, Bool.or_eq_true,
      ih hrest, or_assoc]
  | case2 text hshort =>
    rcases text with _ | ⟨a, _ | ⟨b, rest⟩⟩
    · rcases n with _ | _ | n
      · exact iff_of_false Bool.false_ne_true (by simp [hasZero16])
      · exact iff_of_false Bool.false_ne_true (by simp [hasZero16])
      · exact iff_of_true rfl (by omega)
    · rw [List.length_singleton] at heven
      omega
    · exact absurd rfl (hshort a b rest)

theorem hasZero16_cString16 (text : List UInt8) : hasZero16 (cString16 text) = false := by
  induction text using cString16.induct with
  | case1 a b rest h => rw [cString16, if_pos h]; rfl
  | case2 a b rest h ih =>
    rw [cString16, if_neg h, hasZero16, ih, Bool.or_false]
    exact decide_eq_false h
  | case3 text hshort =>
    rw [cString16]
    · rfl
    · exact hshort

theorem cString16_even (text : List UInt8) : 2 ∣ (cString16 text).length := by
  induction text using cString16.induct with
  | case1 a b rest h =>
    rw [cString16, if_pos h]
    exact Nat.dvd_zero 2
  | case2 a b rest h ih =>
    rw [cString16, if_neg h, List.length_cons, List.length_cons]
    omega
  | case3 text hshort =>
    rw [cString16]
    · exact Nat.dvd_zero 2
    · exact hshort

/-- The terminator has been converted, or zeros are added behind the text. -/
def Closes (w : Width) (k : ℕ) (text : List UInt8) : Prop :=
  Ends w text ∨ text.length % k ≠ 0

theorem ends_pad_iff {w : Width} {k : ℕ} {text : List UInt8} (hk : 2 ∣ k) (hpos : 0 < k)
    (heven : w = .wide → 2 ∣ text.length) : Ends w (pad k text) ↔ Closes w k text := by
  have hmod := Nat.mod_lt text.length hpos
  have hzeros : 0 < (k - text.length % k) % k ↔ text.length % k ≠ 0 := by
    by_cases h : text.length % k = 0
    · rw [h, Nat.sub_zero, Nat.mod_self]
      exact iff_of_false (Nat.lt_irrefl 0) fun h' => h' rfl
    · rw [Nat.mod_eq_of_lt (by omega)]
      exact iff_of_true (by omega) h
  cases w with
  | narrow =>
    change 0 ∈ text ++ zeros _ ↔ 0 ∈ text ∨ _
    rw [List.mem_append, ← hzeros, zeros, List.mem_replicate]
    simp only [and_true, Nat.pos_iff_ne_zero]
  | wide =>
    have htext := heven rfl
    have htwo : 2 ≤ (k - text.length % k) % k ↔ 0 < (k - text.length % k) % k := by
      have hdvd : 2 ∣ (k - text.length % k) % k :=
        (Nat.dvd_mod_iff hk).mpr (Nat.dvd_sub hk ((Nat.dvd_mod_iff hk).mpr htext))
      omega
    change hasZero16 (text ++ zeros _) = true ↔ hasZero16 text = true ∨ _
    rw [hasZero16_append_zeros text htext, htwo, hzeros]

theorem pad_length (k : ℕ) (text : List UInt8) :
    (pad k text).length = text.length + (k - text.length % k) % k := by
  rw [pad, List.length_append, zeros, List.length_replicate]

/-- A packet whose text is padded. -/
theorem sound_iff {p : TextPacket} {k : ℕ} {text : List UInt8} (htext : p.text = pad k text)
    (hk : 2 ∣ k) (hpos : 0 < k) (heven : p.width = .wide → 2 ∣ text.length)
    (hend : p.hdr + p.text.length ≤ p.sendEnd) :
    Sound p ↔ (∀ a ∈ p.arrays, a.2 ≤ a.1) ∧ p.sendEnd ≤ sendbufSize ∧
      p.hdr + p.text.length < sendbufSize ∧ Closes p.width k text := by
  have hnil : ¬Ends p.width [] := by
    cases p.width with
    | narrow => exact List.not_mem_nil
    | wide => exact Bool.false_ne_true
  have hdeclared : p.hdr + p.text.length < sendbufSize →
      p.text.take (declaredLen p - p.hdr) = p.text := by
    intro hlt
    rw [declaredLen, Nat.mod_eq_of_lt (by exact hlt), Nat.add_sub_cancel_left, List.take_length]
  constructor
  · rintro ⟨harrays, hsend, hends⟩
    have hlt : p.hdr + p.text.length < sendbufSize := by
      refine lt_of_le_of_ne (hend.trans hsend) fun heq => hnil ?_
      rw [declaredLen, heq] at hends
      change Ends p.width (p.text.take (0 - p.hdr)) at hends
      rw [Nat.zero_sub, List.take_zero] at hends
      exact hends
    rw [hdeclared hlt, htext, ends_pad_iff hk hpos heven] at hends
    exact ⟨harrays, hsend, hlt, hends⟩
  · rintro ⟨harrays, hsend, hlt, hcloses⟩
    refine ⟨harrays, hsend, ?_⟩
    rw [hdeclared hlt, htext, ends_pad_iff hk hpos heven]
    exact hcloses

/-- A packet whose builder writes no further than the padding. -/
theorem sound_iff_of_lt {p : TextPacket} {k : ℕ} {text : List UInt8} (htext : p.text = pad k text)
    (hk : 2 ∣ k) (hpos : 0 < k) (heven : p.width = .wide → 2 ∣ text.length)
    (hend : p.sendEnd = p.hdr + p.text.length) (hlt : p.hdr + p.text.length < sendbufSize) :
    Sound p ↔ (∀ a ∈ p.arrays, a.2 ≤ a.1) ∧ Closes p.width k text := by
  rw [sound_iff htext hk hpos heven hend.ge, hend, and_iff_right hlt.le, and_iff_right hlt]

end Ends

section Builders

variable {ic : TextIconv} {c : Reader} {s : Sender}

/-- A line fits into the array that is made for a message. -/
def LineFits (msg line : List UInt8) : Prop :=
  line.length + 1 ≤ (cString msg).length + 32

/-- What may be converted for a reader, and where the text ends. -/
def ChatFits (ic : TextIconv) (c : Reader) (s : Sender) (msg cmsg behind : List UInt8) : Prop :=
  let said := if c.wordCensor then cmsg else msg
  match c.version with
  | .pc => LineFits msg (wideLine s said) ∧
      Closes .wide 4 (ic.convert (.fromUtf8 .utf16) 65520 (wideLine s said ++ [0]))
  | .bb =>
    let converted := ic.convert (.fromUtf8 .utf16) 65520 (wideLine s said ++ [0])
    LineFits msg (wideLine s said) ∧ (cString16 (converted ++ behind)).length < 65512 ∧
      (cString16 (converted ++ behind)).length % 8 ≠ 0
  | _ =>
    let cd : Encoding := if msg.take 2 = ascii "\tE" then .iso8859 else .sjis
    LineFits msg (dcLine c s said) ∧
      Closes .narrow 4 (ic.convert (.fromUtf8 cd) 65520 (dcLine c s said ++ [0]))

/-- Padding to four bytes does not leave the buffer. -/
theorem pad_four_le {text : List UInt8} (h : text.length ≤ 65520) :
    12 + (pad 4 text).length < sendbufSize := by
  rw [pad_length, sendbufSize]
  omega

theorem singleton_le {a : ℕ × ℕ} : (∀ b ∈ [a], b.2 ≤ b.1) ↔ a.2 ≤ a.1 := by
  rw [List.forall_mem_singleton]

theorem dcLobbyChat_iff (msg cmsg : List UInt8) : Sound (sendDcLobbyChat ic c s msg cmsg) ↔
    LineFits msg (dcLine c s (if c.wordCensor then cmsg else msg)) ∧
      Closes .narrow 4 (ic.convert
        (.fromUtf8 (if msg.take 2 = ascii "\tE" then .iso8859 else .sjis)) 65520
        (dcLine c s (if c.wordCensor then cmsg else msg) ++ [0])) := by
  refine (sound_iff_of_lt rfl (by decide : 2 ∣ 4) (by decide) ?_ rfl
    (pad_four_le (ic.length_le _ _ _))).trans ?_
  · exact fun h => absurd h narrow_ne_wide
  · exact and_congr_left' singleton_le

theorem pcLobbyChat_iff (msg cmsg : List UInt8) : Sound (sendPcLobbyChat ic c s msg cmsg) ↔
    LineFits msg (wideLine s (if c.wordCensor then cmsg else msg)) ∧
      Closes .wide 4 (ic.convert (.fromUtf8 .utf16) 65520
        (wideLine s (if c.wordCensor then cmsg else msg) ++ [0])) := by
  refine (sound_iff_of_lt rfl (by decide : 2 ∣ 4) (by decide) (fun _ => ic.even 32760 _) rfl
    (pad_four_le (ic.length_le _ _ _))).trans ?_
  exact and_congr_left' singleton_le

/-- A text without its terminator is closed by the padding alone. -/
theorem closes_cString16 (k : ℕ) (text : List UInt8) :
    Closes .wide k (cString16 text) ↔ (cString16 text).length % k ≠ 0 :=
  or_iff_right (by rw [Ends, hasZero16_cString16]; exact Bool.false_ne_true)

/-- Padding to eight bytes may reach the end of the buffer. -/
theorem pad_eight_lt {text : List UInt8} (h : text.length % 8 ≠ 0) :
    16 + (pad 8 text).length < sendbufSize ↔ text.length < 65512 := by
  rw [pad_length, sendbufSize]
  omega

theorem bbLobbyChat_iff (msg cmsg behind : List UInt8) :
    Sound (sendBbLobbyChat ic c s msg cmsg behind) ↔
      LineFits msg (wideLine s (if c.wordCensor then cmsg else msg)) ∧
        (cString16 (ic.convert (.fromUtf8 .utf16) 65520
          (wideLine s (if c.wordCensor then cmsg else msg) ++ [0]) ++ behind)).length < 65512 ∧
        (cString16 (ic.convert (.fromUtf8 .utf16) 65520
          (wideLine s (if c.wordCensor then cmsg else msg) ++ [0]) ++ behind)).length % 8 ≠ 0 := by
  set converted := ic.convert (.fromUtf8 .utf16) 65520
    (wideLine s (if c.wordCensor then cmsg else msg) ++ [0]) with hconverted
  have hlength : converted.length ≤ 65520 := ic.length_le _ _ _
  refine (sound_iff rfl (by decide : 2 ∣ 8) (by decide) (fun _ => cString16_even _)
    (le_max_right _ _)).trans (and_congr singleton_le ?_)
  change max (16 + converted.length) (16 + (pad 8 (cString16 (converted ++ behind))).length) ≤
      65536 ∧ 16 + (pad 8 (cString16 (converted ++ behind))).length < 65536 ∧
      Closes .wide 8 (cString16 (converted ++ behind)) ↔ _
  have hpad : (cString16 (converted ++ behind)).length % 8 ≠ 0 → (16 +
      (pad 8 (cString16 (converted ++ behind))).length < sendbufSize ↔
        (cString16 (converted ++ behind)).length < 65512) := pad_eight_lt
  rw [closes_cString16, ← and_congr_left hpad]
  change _ ↔ 16 + (pad 8 (cString16 (converted ++ behind))).length < 65536 ∧ _
  omega

/-- What is put together in the buffer: after the name, after the tab, and at last. -/
def named (name old : List UInt8) : List UInt8 :=
  strcpy16Raw old name

def separated (name old : List UInt8) : List UInt8 :=
  strcat16Raw (named name old) (ascii "\t" ++ [0])

def joined (name msg old : List UInt8) : List UInt8 :=
  strcat16Raw (separated name old) msg

/-- All of a line that is put together stays in the buffer, and its length in 16 bits. -/
def JoinFits (hdr k : ℕ) (name msg old : List UInt8) : Prop :=
  hdr + (cString16 name).length ≤ sendbufSize ∧
    hdr + catEnd (named name old) (ascii "\t" ++ [0]) ≤ sendbufSize ∧
    hdr + catEnd (separated name old) msg ≤ sendbufSize ∧
    hdr + (pad k (cString16 (joined name msg old) ++ [0, 0])).length < sendbufSize

/-- A line that is put together ends with the zero that is found in the buffer. -/
theorem wideBbchat_iff {hdr k : ℕ} (hk : 2 ∣ k) (hpos : 0 < k) (name msg old : List UInt8) :
    Sound (wideBbchat hdr k name msg old) ↔ JoinFits hdr k name msg old := by
  have heven : 2 ∣ (cString16 (joined name msg old) ++ [0, 0]).length := by
    have hcString := cString16_even (joined name msg old)
    rw [List.length_append, List.length_cons, List.length_singleton]
    omega
  have hcloses : Closes .wide k (cString16 (joined name msg old) ++ [0, 0]) :=
    Or.inl ((hasZero16_append_zeros _ (cString16_even _) 2).mpr (Or.inr (Nat.le_refl 2)))
  refine (sound_iff rfl hk hpos (fun _ => heven) ?_).trans ?_
  · exact Nat.add_le_add_left ((le_max_right _ _).trans (le_max_right _ _)) hdr
  · change (∀ a ∈ ([] : List (ℕ × ℕ)), a.2 ≤ a.1) ∧ hdr + max (max (cString16 name).length
        (catEnd (named name old) (ascii "\t" ++ [0]))) (max (catEnd (separated name old) msg)
          (pad k (cString16 (joined name msg old) ++ [0, 0])).length) ≤ sendbufSize ∧
      hdr + (pad k (cString16 (joined name msg old) ++ [0, 0])).length < sendbufSize ∧
        Closes .wide k (cString16 (joined name msg old) ++ [0, 0]) ↔ _
    rw [and_iff_right (List.forall_mem_nil _), and_iff_left hcloses, JoinFits]
    omega

/-- The text that a Blue Burst client's line is converted to. -/
def dcBbText (ic : TextIconv) (c : Reader) (s : Sender) (msg : List UInt8) (len : ℕ) : List UInt8 :=
  let name := ic.narrow .ascii 65520 (cString16 (s.bbName.drop 4)) ++ separator c s
  let cd : Charset := if c.nte ∨ msg[1]? = some 0x4A then .sjis else .iso8859
  name ++ ic.narrow cd (65520 - name.length) ((if c.nte then msg.drop 4 else msg).take len)

theorem dcLobbyBbchat_iff (msg : List UInt8) (len : ℕ) :
    Sound (sendDcLobbyBbchat ic c s msg len) ↔ (dcBbText ic c s msg len).length ≤ 65520 ∧
      Closes .narrow 4 (dcBbText ic c s msg len) := by
  have hlt : 12 + (pad 4 (dcBbText ic c s msg len)).length < sendbufSize ↔
      (dcBbText ic c s msg len).length ≤ 65520 := by
    rw [pad_length, sendbufSize]
    omega
  refine (sound_iff rfl (by decide : 2 ∣ 4) (by decide) ?_ (Nat.le_refl _)).trans ?_
  · exact fun h => absurd h narrow_ne_wide
  · change (∀ a ∈ ([] : List (ℕ × ℕ)), a.2 ≤ a.1) ∧
      12 + (pad 4 (dcBbText ic c s msg len)).length ≤ sendbufSize ∧
      12 + (pad 4 (dcBbText ic c s msg len)).length < sendbufSize ∧
      Closes .narrow 4 (dcBbText ic c s msg len) ↔ _
    rw [and_iff_right (List.forall_mem_nil _), ← hlt, ← and_assoc, and_iff_right_of_imp le_of_lt]

/-- The line of a message, with its marker. -/
def messageLine (text : List UInt8) : List UInt8 :=
  withMarker (cString (formatted 512 text))

theorem cString_length_le (text : List UInt8) : (cString text).length ≤ text.length :=
  (List.takeWhile_prefix _).length_le

/-- The first write to the array ends before the last one does, or in time. -/
theorem messageArrays_iff {size : ℕ} (hsize : 512 ≤ size) (text : List UInt8) :
    (∀ a ∈ [(size, (formatted 512 text).length + 1), (size, (messageLine text).length + 1)],
      a.2 ≤ a.1) ↔ (messageLine text).length + 1 ≤ size := by
  have hformatted : (formatted 512 text).length ≤ 511 := List.length_take_le _ _
  rw [List.forall_mem_cons, List.forall_mem_singleton]
  exact and_iff_right (by change (formatted 512 text).length + 1 ≤ size; omega)

theorem messageLine_length_le (text : List UInt8) : (messageLine text).length ≤ 513 := by
  have hformatted : (formatted 512 text).length ≤ 511 := List.length_take_le _ _
  have hle := cString_length_le (formatted 512 text)
  unfold messageLine withMarker
  split_ifs
  · omega
  · change (cString (formatted 512 text)).length + 2 ≤ 513
    omega

theorem messageWith_iff {size hdr k out : ℕ} {width : Width} {cd : List UInt8 → Encoding}
    (hk : 2 ∣ k) (hpos : 0 < k) (hsize : 512 ≤ size) (text : List UInt8)
    (heven : width = .wide →
      2 ∣ (ic.convert (.fromUtf8 (cd (messageLine text))) out (messageLine text ++ [0])).length) :
    Sound (messageWith ic size hdr k width out cd text) ↔ (messageLine text).length + 1 ≤ size ∧
      hdr + (pad k (ic.convert (.fromUtf8 (cd (messageLine text))) out
        (messageLine text ++ [0]))).length < sendbufSize ∧
      Closes width k
        (ic.convert (.fromUtf8 (cd (messageLine text))) out (messageLine text ++ [0])) := by
  refine (sound_iff rfl hk hpos heven (Nat.le_refl _)).trans
    (and_congr (messageArrays_iff hsize text) ?_)
  exact ⟨fun h => h.2, fun h => ⟨le_of_lt h.1, h⟩⟩

def messageWidth (v : ClientVersion) : Width :=
  if byteVersion v then .narrow else .wide

def messagePad (v : ClientVersion) : ℕ :=
  if v = .bb then 8 else 4

def messageCharset (v : ClientVersion) (text : List UInt8) : Encoding :=
  if byteVersion v then byteCharset text else .utf16

/-- A message fits into its array with its marker, and its terminator is sent. -/
def MessageFits (ic : TextIconv) (v : ClientVersion) (size out : ℕ) (text : List UInt8) : Prop :=
  (messageLine text).length + 1 ≤ size ∧
    Closes (messageWidth v) (messagePad v)
      (ic.convert (.fromUtf8 (messageCharset v (messageLine text))) out (messageLine text ++ [0]))

theorem dcMessage_iff (hbb : c.version ≠ .bb) (text : List UInt8) :
    Sound (sendDcMessage ic c text) ↔ MessageFits ic c.version 512 65520 text := by
  have hpad : messagePad c.version = 4 := if_neg hbb
  unfold sendDcMessage MessageFits messageWidth messageCharset
  rw [hpad]
  by_cases hbyte : byteVersion c.version = true
  · rw [if_pos hbyte, if_pos hbyte]
    simp only [hbyte, if_true]
    refine (messageWith_iff (by decide : 2 ∣ 4) (by decide) (Nat.le_refl 512) text ?_).trans ?_
    · exact fun h => absurd h narrow_ne_wide
    · exact and_congr_right' (and_iff_right (pad_four_le (ic.length_le _ _ _)))
  · rw [if_neg hbyte, if_neg hbyte]
    simp only [hbyte]
    refine (messageWith_iff (by decide) (by decide) (Nat.le_refl _) text
      fun _ => ic.even 32760 _).trans ?_
    exact and_congr_right' (and_iff_right (pad_four_le (ic.length_le _ _ _)))

theorem bbMessage_iff (hbb : c.version = .bb) (text : List UInt8) :
    Sound (sendBbMessage ic text) ↔ MessageFits ic c.version 512 65520 text := by
  rw [hbb]
  refine (messageWith_iff (by decide) (by decide) (Nat.le_refl _) text
    fun _ => ic.even 32760 _).trans ?_
  refine and_congr_right' (and_iff_right ?_)
  have hle := ic.utf16_length_le 65520 (messageLine text ++ [0])
  have hline := messageLine_length_le text
  rw [List.length_append, List.length_singleton] at hle
  rw [pad_length, sendbufSize]
  omega

theorem dcMessageBox_iff (hbb : c.version ≠ .bb) {text : List UInt8} {p : TextPacket}
    (hp : sendDcMessageBox ic c text = some p) :
    Sound p ↔ MessageFits ic c.version 514 65500 text := by
  have hpad : messagePad c.version = 4 := if_neg hbb
  have hlt (cd : Conversion) (line : List UInt8) :
      4 + (pad 4 (ic.convert cd 65500 line)).length < sendbufSize := by
    have hle := ic.length_le cd 65500 line
    rw [pad_length, sendbufSize]
    omega
  unfold MessageFits messageWidth messageCharset
  rw [hpad]
  unfold sendDcMessageBox at hp
  split_ifs at hp with hdropped hbyte
  · cases hp
    simp only [hbyte, if_true]
    have hsize : 512 ≤ 514 := by decide
    refine (messageWith_iff (by decide : 2 ∣ 4) (by decide) hsize text ?_).trans ?_
    · exact fun h => absurd h narrow_ne_wide
    · exact and_congr_right' (and_iff_right (hlt _ _))
  · cases hp
    simp only [hbyte]
    refine (messageWith_iff (by decide) (by decide) (by decide) text
      fun _ => ic.even 32750 _).trans ?_
    exact and_congr_right' (and_iff_right (hlt _ _))

/-- The text for the Network Trial Edition, without escapes. -/
def dcnteLine (text : List UInt8) : List UInt8 :=
  let line := cString (ascii "> " ++ formatted 510 text) ++ [0]
  strip line.length line

theorem dcnteTxt_iff (text : List UInt8) : Sound (sendDcnteTxt ic text) ↔
    Closes .narrow 4 (ic.convert (.fromUtf8 .sjis) 65520 (dcnteLine text)) := by
  have hformatted : (formatted 510 text).length ≤ 509 := List.length_take_le _ _
  have hle := cString_length_le (ascii "> " ++ formatted 510 text)
  have hascii : (ascii "> " ++ formatted 510 text).length = 2 + (formatted 510 text).length := by
    rw [List.length_append]
    rfl
  refine (sound_iff_of_lt rfl (by decide : 2 ∣ 4) (by decide) ?_ rfl
    (pad_four_le (ic.length_le _ _ _))).trans ?_
  · exact fun h => absurd h narrow_ne_wide
  · refine and_iff_right ?_
    change ∀ a ∈ [(512, 2 + (formatted 510 text).length + 1),
      (512, (cString (ascii "> " ++ formatted 510 text) ++ [0]).length)], a.2 ≤ a.1
    rw [List.forall_mem_cons, List.forall_mem_singleton, List.length_append,
      List.length_singleton]
    constructor
    · change 2 + (formatted 510 text).length + 1 ≤ 512
      omega
    · change (cString (ascii "> " ++ formatted 510 text)).length + 1 ≤ 512
      omega

end Builders

section Ships

/-- The name of an entry of a ship list: the sizes of arrays as in a packet, and the field. -/
structure EntryName where
  arrays : List (ℕ × ℕ)
  width : Width
  field : List UInt8

structure EntryName.Sound (n : EntryName) : Prop where
  arrays : ∀ a ∈ n.arrays, a.2 ≤ a.1
  ends : Ends n.width n.field

/-- A text that is printed into the field, or into an array and converted from there. -/
def entryName (ic : TextIconv) (v : ClientVersion) (text : List UInt8) : EntryName :=
  if byteVersion v then
    { arrays := [(18, text.length + 1)]
      width := .narrow
      field := text ++ zeros (18 - text.length) }
  else
    let converted := ic.convert .latinToUtf16 0x22 text
    { arrays := [(18, text.length + 1)]
      width := .wide
      field := converted ++ zeros (0x22 - converted.length) }

/-- The longest text that leaves room for its terminator. -/
def maxName (v : ClientVersion) : ℕ :=
  if byteVersion v then 17 else 16

theorem entryName_iff (ic : TextIconv) (v : ClientVersion) {text : List UInt8} (hzero : 0 ∉ text) :
    (entryName ic v text).Sound ↔ text.length ≤ maxName v := by
  unfold entryName maxName
  by_cases hbyte : byteVersion v = true
  · rw [if_pos hbyte, if_pos hbyte]
    constructor
    · rintro ⟨harrays, -⟩
      have hend : text.length + 1 ≤ 18 := harrays _ (List.mem_singleton_self _)
      omega
    · intro hle
      refine ⟨List.forall_mem_singleton.mpr (by change text.length + 1 ≤ 18; omega), ?_⟩
      change 0 ∈ text ++ zeros (18 - text.length)
      rw [List.mem_append, zeros, List.mem_replicate]
      exact Or.inr ⟨by omega, rfl⟩
  · rw [if_neg hbyte, if_neg hbyte]
    have hlength : (ic.convert .latinToUtf16 0x22 text).length = 2 * min 17 text.length :=
      ic.latin_length 17 text
    have hends : hasZero16 (ic.convert .latinToUtf16 0x22 text ++
        zeros (0x22 - (ic.convert .latinToUtf16 0x22 text).length)) = true ↔ text.length ≤ 16 := by
      rw [hasZero16_append_zeros _ (hlength ▸ Nat.dvd_mul_right 2 _),
        ic.latin_nonzero 0x22 text hzero, or_iff_right Bool.false_ne_true, hlength]
      omega
    constructor
    · rintro ⟨-, hend⟩
      exact hends.mp hend
    · intro hle
      exact ⟨List.forall_mem_singleton.mpr (by change text.length + 1 ≤ 18; omega), hends.mpr hle⟩

theorem zero_notMem_cString (bytes : List UInt8) : 0 ∉ cString bytes := by
  intro hmem
  have hne := List.mem_takeWhile_imp hmem
  exact absurd hne (by decide)

theorem zero_notMem_hexText (n : ℕ) : 0 ∉ hexText n := by
  have hdigit : ∀ d < 16, UInt8.ofNat (Nat.digitChar d).toNat ≠ 0 := by decide
  unfold hexText
  dsimp only
  rw [List.mem_append, List.mem_replicate, List.mem_map]
  rintro (⟨-, hzero⟩ | ⟨d, hd, hzero⟩)
  · exact absurd hzero (by decide)
  · exact hdigit d (Nat.digits_lt_base (by decide) (List.mem_reverse.mp hd)) hzero

theorem zero_notMem_shipText (s : ServerState) (menuCode : ℕ) (i : Miniship) :
    0 ∉ shipText s menuCode i := by
  unfold shipText
  simp only [List.mem_append, not_or]
  refine ⟨⟨⟨⟨zero_notMem_hexText _, by decide⟩, zero_notMem_cString _⟩, ?_⟩,
    zero_notMem_cString _⟩
  split_ifs <;> decide

theorem zero_notMem_menuText (code : ℕ) : 0 ∉ menuText code := by
  unfold menuText
  split_ifs with hcode
  · rw [List.mem_append, not_or]
    refine ⟨by decide, fun hzero => ?_⟩
    have hne := List.all_eq_true.mp hcode 0 hzero
    exact absurd hne (by decide)
  · decide

/-- The names of a ship list are sound when the texts of the ships are short enough. The names of
menus always are. -/
theorem shipNames_iff (ic : TextIconv) (s : ServerState) (c : Viewer) (menuCode : ℕ) :
    ((∀ i ∈ shownShips s c menuCode, (entryName ic c.version (shipText s menuCode i)).Sound) ∧
      ∀ code ∈ otherMenus s c menuCode, (entryName ic c.version (menuText code)).Sound) ↔
      ∀ i ∈ shownShips s c menuCode, (shipText s menuCode i).length ≤ maxName c.version := by
  have hmenus (code : ℕ) : (entryName ic c.version (menuText code)).Sound := by
    rw [entryName_iff ic c.version (zero_notMem_menuText code)]
    have hle := menuText_length_le code
    unfold maxName
    split_ifs <;> omega
  rw [and_iff_left fun code _ => hmenus code]
  exact forall₂_congr fun i _ => entryName_iff ic c.version (zero_notMem_shipText s menuCode i)

end Ships

/-- A text that is sent to a client. `behind` and `old` are what is in the send buffer behind a text
that is put there, and before it is. -/
inductive Text where
  | chat (c : Reader) (s : Sender) (msg cmsg behind : List UInt8)
  | bbchat (c : Reader) (s : Sender) (msg : List UInt8) (len : ℕ) (old : List UInt8)
  | message1 (c : Reader) (text : List UInt8)
  | txt (c : Reader) (text : List UInt8)
  | messageBox (c : Reader) (text : List UInt8)

def textPacket (ic : TextIconv) : Text → Option TextPacket
  | .chat c s msg cmsg behind => some (sendChat ic c s msg cmsg behind)
  | .bbchat c s msg len old => some (sendBbchat ic c s msg len old)
  | .message1 c text => some (sendMessage1 ic c text)
  | .txt c text => some (sendTxt ic c text)
  | .messageBox c text => sendMessageBox ic c text

/-- When a text stays in its buffers and has its end. -/
def Fits (ic : TextIconv) : Text → Prop
  | .chat c s msg cmsg behind => ChatFits ic c s msg cmsg behind
  | .bbchat c s msg len old =>
    match c.version with
    | .pc => JoinFits 12 4 (s.bbName.drop 4) msg old
    | .bb => JoinFits 16 8 s.bbName msg old
    | _ => (dcBbText ic c s msg len).length ≤ 65520 ∧ Closes .narrow 4 (dcBbText ic c s msg len)
  | .message1 c text => MessageFits ic c.version 512 65520 text
  | .txt c text =>
    if c.version = .dcv1 ∧ c.nte then
      Closes .narrow 4 (ic.convert (.fromUtf8 .sjis) 65520 (dcnteLine text))
    else MessageFits ic c.version 512 65520 text
  | .messageBox c text => MessageFits ic c.version 514 65500 text

theorem sendChat_iff (ic : TextIconv) (c : Reader) (s : Sender) (msg cmsg behind : List UInt8) :
    Sound (sendChat ic c s msg cmsg behind) ↔ ChatFits ic c s msg cmsg behind := by
  unfold sendChat ChatFits
  cases hv : c.version with
  | dcv1 | dcv2 | gc | ep3 | xbox => exact dcLobbyChat_iff msg cmsg
  | pc => exact pcLobbyChat_iff msg cmsg
  | bb => exact bbLobbyChat_iff msg cmsg behind

theorem sendMessage1_iff (ic : TextIconv) (c : Reader) (text : List UInt8) :
    Sound (sendMessage1 ic c text) ↔ MessageFits ic c.version 512 65520 text := by
  unfold sendMessage1
  split_ifs with hbb
  · exact bbMessage_iff hbb text
  · exact dcMessage_iff hbb text

/-- Texts stay in their buffers and have their ends exactly then. -/
theorem fits_iff (ic : TextIconv) :
    (∀ t p, textPacket ic t = some p → (Sound p ↔ Fits ic t)) ∧
    ∀ (s : ServerState) (c : Viewer) (menuCode : ℕ),
      ((∀ i ∈ shownShips s c menuCode, (entryName ic c.version (shipText s menuCode i)).Sound) ∧
        ∀ code ∈ otherMenus s c menuCode, (entryName ic c.version (menuText code)).Sound) ↔
      ∀ i ∈ shownShips s c menuCode, (shipText s menuCode i).length ≤ maxName c.version := by
  refine ⟨fun t p hp => ?_, shipNames_iff ic⟩
  cases t with
  | chat c s msg cmsg behind =>
    cases hp
    exact sendChat_iff ic c s msg cmsg behind
  | bbchat c s msg len old =>
    cases hp
    simp only [sendBbchat, Fits]
    cases hv : c.version with
    | dcv1 | dcv2 | gc | ep3 | xbox => exact dcLobbyBbchat_iff msg len
    | pc => exact wideBbchat_iff (by decide) (by decide) _ msg old
    | bb => exact wideBbchat_iff (by decide) (by decide) _ msg old
  | message1 c text =>
    cases hp
    exact sendMessage1_iff ic c text
  | txt c text =>
    cases hp
    simp only [sendTxt, Fits]
    by_cases hbb : c.version = .bb
    · rw [if_pos hbb, if_neg (by rw [hbb]; simp)]
      exact bbMessage_iff hbb text
    · rw [if_neg hbb]
      split_ifs with hnte
      · exact dcnteTxt_iff text
      · exact dcMessage_iff hbb text
  | messageBox c text =>
    change sendMessageBox ic c text = some p at hp
    unfold sendMessageBox at hp
    split_ifs at hp with hbb
    exact dcMessageBox_iff hbb hp

section Ascii

theorem widen_length (text : List UInt8) : (widen text).length = 2 * text.length := by
  induction text with
  | nil => rfl
  | cons a text ih =>
    change (widen text).length + 2 = 2 * (text.length + 1)
    rw [ih]
    omega

theorem hasZero16_take_widen (n : ℕ) {text : List UInt8} (hzero : 0 ∉ text) :
    hasZero16 ((widen text).take n) = false := by
  induction text generalizing n with
  | nil =>
    rw [widen, List.flatMap_nil, List.take_nil]
    rfl
  | cons a text ih =>
    rw [List.mem_cons, not_or] at hzero
    rcases n with _ | _ | n
    · rfl
    · rfl
    · change (decide (a = 0 ∧ _) || hasZero16 ((widen text).take n)) = false
      rw [ih n hzero.2, Bool.or_false]
      exact decide_eq_false fun h => hzero.1 h.1.symm

theorem asciiConvert_utf16_length (out : ℕ) (text : List UInt8) :
    (StaleBytes.asciiConvert (.fromUtf8 .utf16) out text).length = min out (2 * text.length) := by
  change ((widen text).take out).length = _
  rw [List.length_take, widen_length]

theorem asciiConvert_even (out : ℕ) (text : List UInt8) :
    2 ∣ (StaleBytes.asciiConvert (.fromUtf8 .utf16) (2 * out) text).length := by
  rw [asciiConvert_utf16_length]
  omega

theorem asciiConvert_utf16_le (out : ℕ) (text : List UInt8) :
    (StaleBytes.asciiConvert (.fromUtf8 .utf16) out text).length ≤ 2 * text.length := by
  rw [asciiConvert_utf16_length]
  omega

theorem asciiConvert_latin_length (out : ℕ) (text : List UInt8) :
    (StaleBytes.asciiConvert .latinToUtf16 (2 * out) text).length = 2 * min out text.length := by
  change ((widen text).take (2 * out)).length = _
  rw [List.length_take, widen_length]
  omega

/-- What `iconv` does with ASCII texts. -/
def asciiTextIconv : TextIconv where
  toIconv := StaleBytes.asciiIconv
  narrow _ out text := text.take out
  narrow_length_le _ _ _ := List.length_take_le _ _
  even := asciiConvert_even
  utf16_length_le := asciiConvert_utf16_le
  latin_length := asciiConvert_latin_length
  latin_nonzero out _ hzero := hasZero16_take_widen out hzero

end Ascii

def dcReader : Reader where
  version := .dcv2
  nte := false
  wordCensor := false
  typeShip := false
  gcMsgBoxes := false

/-- A message of 510 characters without a marker is moved over the end of its array. -/
theorem fits_not : ¬∀ (ic : TextIconv) (t : Text) (p : TextPacket), textPacket ic t = some p →
    Sound p := by
  intro h
  have hsound : Sound (sendDcMessage asciiTextIconv dcReader (List.replicate 510 65)) :=
    h asciiTextIconv (.txt dcReader (List.replicate 510 65)) _ rfl
  have hfits := ((dcMessage_iff (by decide) _).mp hsound).1
  have hcString : cString (formatted 512 (List.replicate 510 65)) = List.replicate 510 65 := by
    rw [formatted, List.take_of_length_le (List.length_replicate.trans_le (by decide)), cString,
      List.takeWhile_eq_self_iff]
    intro b hb
    rw [List.eq_of_mem_replicate hb]
    decide
  have hline : (messageLine (List.replicate 510 65)).length = 512 := by
    rw [messageLine, hcString, withMarker, if_neg (by decide), List.length_append,
      List.length_replicate]
    rfl
  rw [hline] at hfits
  exact absurd hfits (by decide)

end ShipServer.TextBuffers

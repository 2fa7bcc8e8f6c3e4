import ShipServer.QstFiles

set_option autoImplicit false

/-! What the reader of quest files makes of a file. -/

namespace ShipServer.QstFiles

open TracedReads Probe StringReads FieldReads
open QuestTransfer (lastDot dat)

namespace Layout

variable (L : Layout)

/-- A chunk with no data of a file that is not the .dat file. -/
def plainByte (o : ℕ) : UInt8 :=
  if o = L.chunkName then 0x2E
  else if o = L.typeAt then 0x13
  else if o = L.lenAt then UInt8.ofNat L.pktLen
  else if o = L.lenAt + 1 then UInt8.ofNat (L.pktLen / 256)
  else 0

/-- The second packet announces a .dat file of one byte, and there are only such chunks. -/
def plainMemory (j : ℕ) : UInt8 :=
  if j < L.base then
    if L.hdrSize + L.nameAt ≤ j ∧ j < L.hdrSize + L.nameAt + 4 then
      dat.getD (j - (L.hdrSize + L.nameAt)) 0
    else if j = L.hdrSize + L.lengthAt then 1
    else 0
  else L.plainByte ((j - L.base) % L.step)

theorem relocate_chunkHead (d : ℕ) : relocate d (L.chunkHead 0) = L.chunkHead d := by
  unfold chunkHead
  rw [relocate_bind, number_relocate, Nat.zero_add]
  refine congrArg _ (funext fun type => ?_)
  rw [relocate_ite, relocate_bind, number_relocate, Nat.zero_add]
  refine congrArg _ (congrArg _ (funext fun len => ?_))
  rw [relocate_ite, relocate_bind, text_relocate, Nat.zero_add]
  refine congrArg _ (congrArg _ (funext fun fn => ?_))
  rw [relocate_bind, number_relocate, Nat.zero_add]
  refine congrArg _ (funext fun clen => ?_)
  split
  · rfl
  · exact relocate_ite _ _ _ _

end Layout

section Plain

variable (v : QstKind)

theorem plain_size : v.layout.qstDatSize.result v.layout.plainMemory = 1 := by
  cases v <;> rfl

theorem plain_size_reads :
    v.layout.hdrSize + v.layout.lengthAt + 3 ∈
      v.layout.qstDatSize.reads v.layout.plainMemory := by
  cases v <;> decide

theorem plain_head :
    (v.layout.chunkHead 0).result (fun o => v.layout.plainByte (o % v.layout.step)) =
      some (false, 0) := by
  cases v <;> rfl

theorem plain_head_reads :
    v.layout.chunkSize - 1 ∈
      (v.layout.chunkHead 0).reads fun o => v.layout.plainByte (o % v.layout.step) := by
  cases v <;> decide

theorem plain_chunk (L : Layout) (k : ℕ) :
    (fun o => L.plainMemory (L.chunkAt k + o)) = fun o => L.plainByte (o % L.step) := by
  funext o
  have hplace : L.chunkAt k + o - L.base = o + L.step * k := by
    rw [Layout.chunkAt, Nat.mul_comm]
    omega
  rw [Layout.plainMemory, if_neg (by rw [Layout.chunkAt]; omega), hplace, Nat.add_mul_mod_self_left]

theorem plain_head_at (k : ℕ) :
    (v.layout.chunkHead (v.layout.chunkAt k)).result v.layout.plainMemory = some (false, 0) := by
  rw [← Layout.relocate_chunkHead, result_relocate, plain_chunk, plain_head]

theorem plain_head_at_reads (k : ℕ) :
    v.layout.chunkAt k + (v.layout.chunkSize - 1) ∈
      (v.layout.chunkHead (v.layout.chunkAt k)).reads v.layout.plainMemory := by
  rw [← Layout.relocate_chunkHead]
  refine mem_reads_relocate ?_
  rw [plain_chunk]
  exact plain_head_reads v

/-- The loop comes to each chunk that begins in the file, and reads all of it. -/
theorem plain_copy_reads {sz K : ℕ} (hK : v.layout.chunkAt K < sz) (hsz : sz < 2 ^ 32) (dsz : ℕ)
    {n k : ℕ} (hk : k + n = K) (out : List UInt8) :
    v.layout.chunkAt K + (v.layout.chunkSize - 1) ∈
      (v.layout.copyQstDat sz dsz (n + 1) (v.layout.chunkAt k) out).reads
        v.layout.plainMemory := by
  induction n generalizing k with
  | zero =>
    obtain rfl : k = K := hk
    rw [Layout.copyQstDat, if_pos hK, reads_bind]
    exact List.mem_append_left _ (plain_head_at_reads v k)
  | succ n ih =>
    have hnext := v.layout.chunkAt_succ k
    have hle : v.layout.chunkAt (k + 1) ≤ v.layout.chunkAt K := v.layout.chunkAt_le (by omega)
    rw [Layout.copyQstDat, if_pos (by omega), reads_bind, plain_head_at]
    dsimp only
    rw [hnext, Nat.mod_eq_of_lt (by omega)]
    exact List.mem_append_right _ (ih (by omega))

theorem plain_read_reads {sz i fuel : ℕ} (hsz : ¬sz < 120)
    (h : i ∈ v.layout.qstDatSize.reads v.layout.plainMemory ∨
      i ∈ (v.layout.copyQstDat sz 1 fuel v.layout.base []).reads v.layout.plainMemory) :
    i ∈ (v.layout.readQst sz fuel).reads v.layout.plainMemory := by
  rw [Layout.readQst, if_neg hsz, reads_bind, plain_size, if_neg one_ne_zero]
  exact List.mem_append.mpr h

/-- The start of a memory, as a file. -/
theorem memory_start (m : ℕ → UInt8) (n : ℕ) : memory ((List.range n).map m) m = m := by
  funext i
  rw [memory, List.getD_eq_getElem?_getD, List.getElem?_map]
  rcases Nat.lt_or_ge i n with h | h
  · rw [List.getElem?_range h]
    rfl
  · rw [List.getElem?_eq_none (by rwa [List.length_range])]
    rfl

/-- A file of any other size may be read wrongly. -/
theorem sizeOk_of_safelyReads {sz : ℕ} (hsz : sz < 2 ^ 32)
    (h : ∀ file : List UInt8, file.length = sz → SafelyReads v file) : SizeOk v sz := by
  by_contra hbad
  have hlen : ((List.range sz).map v.layout.plainMemory).length = sz := by
    rw [List.length_map, List.length_range]
  have hsafe := (h _ hlen v.layout.plainMemory).inside
  rw [memory_start, hlen] at hsafe
  rw [SizeOk, not_or, not_and, not_and] at hbad
  obtain ⟨hlong, hbad⟩ := hbad
  have hL := sound v
  by_cases hheads : v.layout.hdrSize + v.layout.lengthAt + 4 ≤ sz
  · have hbad := hbad hsz hheads
    rw [not_or, not_or] at hbad
    obtain ⟨hbase, hrest, hcut⟩ := hbad
    have hdiv := Nat.div_add_mod' (sz - v.layout.base) v.layout.step
    have hlast : v.layout.chunkAt ((sz - v.layout.base) / v.layout.step) < sz := by
      rw [Layout.chunkAt]
      omega
    have hread := plain_copy_reads v hlast hsz 1 (Nat.zero_add _) []
    rw [Layout.chunkAt_zero] at hread
    have hin := hsafe _ _ (plain_read_reads v hlong (Or.inr hread))
    rw [Layout.chunkAt] at hin
    omega
  · have hin := hsafe 0 _ (plain_read_reads v hlong (Or.inl (plain_size_reads v)))
    omega

end Plain

/-- A text that fits in the field of a file name. -/
structure FileName where
  text : List UInt8
  nonzero : ∀ b ∈ text, b ≠ 0
  short : text.length ≤ 16

/-- A part of a file, and what stands where nobody looks. -/
structure Piece where
  name : FileName
  data : List UInt8
  pos : 0 < data.length
  fits : data.length ≤ 1024
  fill : ℕ → UInt8

/-- A .dat file, cut into pieces among the pieces of other files. Both packets in front are there,
in either order. -/
structure Archive where
  datName : FileName
  datName_ext : lastDot datName.text = some dat
  otherName : FileName
  otherName_ext : lastDot otherName.text ≠ some dat
  otherLength : ℕ
  datFirst : Bool
  pieces : List Piece
  fill : ℕ → UInt8

def Piece.isDat (p : Piece) : Bool :=
  decide (lastDot p.name.text = some dat)

/-- What the pieces have of the .dat file. -/
def datOf (ps : List Piece) : List UInt8 :=
  (ps.filter Piece.isDat).flatMap Piece.data

def Archive.dat (a : Archive) : List UInt8 :=
  datOf a.pieces

def run (fill : ℕ → UInt8) (i n : ℕ) : List UInt8 :=
  (List.range n).map fun j => fill (i + j)

def FileName.field (name : FileName) : List UInt8 :=
  name.text ++ List.replicate (16 - name.text.length) 0

/-- A packet that announces a file. -/
def Layout.announcement (L : Layout) (fill : ℕ → UInt8) (name : FileName) (length : ℕ) :
    List UInt8 :=
  run fill 0 L.nameAt ++ (name.field ++
    (run fill (L.nameAt + 16) (L.lengthAt - (L.nameAt + 16)) ++ (leBytes 4 length ++
      run fill (L.lengthAt + 4) (L.hdrSize - (L.lengthAt + 4)))))

/-- The header of a chunk. -/
def QstKind.chunkHeader (v : QstKind) (fill : ℕ → UInt8) : List UInt8 :=
  match v with
  | .dc | .gc => [0x13, fill 1] ++ leBytes 2 0x0418
  | .pc => leBytes 2 0x0418 ++ [0x13, fill 3]
  | .bb => leBytes 2 0x041C ++ leBytes 2 0x0013 ++ run fill 4 4

/-- A packet with a chunk. -/
def QstKind.chunk (v : QstKind) (p : Piece) : List UInt8 :=
  v.chunkHeader p.fill ++ (p.name.field ++ (p.data ++
    (run p.fill (v.layout.chunkData + p.data.length) (1024 - p.data.length) ++
      (leBytes 4 p.data.length ++
        run p.fill v.layout.chunkSize (v.layout.step - v.layout.chunkSize)))))

/-- The .qst file. -/
def Archive.encode (v : QstKind) (a : Archive) : List UInt8 :=
  (if a.datFirst then
    v.layout.announcement a.fill a.datName a.dat.length ++
      v.layout.announcement a.fill a.otherName a.otherLength
  else
    v.layout.announcement a.fill a.otherName a.otherLength ++
      v.layout.announcement a.fill a.datName a.dat.length) ++ a.pieces.flatMap v.chunk

/-- The reader gives this content, when the loop has had enough turns. -/
def Decodes (v : QstKind) (file out : List UInt8) : Prop :=
  ∀ junk, ∃ n, ∀ fuel, n ≤ fuel →
    (v.layout.readQst file.length fuel).result (memory file junk) = some (some out)

section Packets

variable {m : ℕ → UInt8}

theorem length_run (fill : ℕ → UInt8) (i n : ℕ) : (run fill i n).length = n := by
  rw [run, List.length_map, List.length_range]

theorem FileName.length_field (name : FileName) : name.field.length = 16 := by
  rw [FileName.field, List.length_append, List.length_replicate]
  have hshort := name.short
  omega

theorem FileName.result_text (name : FileName) {i : ℕ} (h : Holds m i name.field) :
    (FieldReads.text 16 i).result m = name.text :=
  FieldReads.result_text name.nonzero name.short h

theorem length_announcement {L : Layout} (hL : L.Sound) (fill : ℕ → UInt8) (name : FileName)
    (length : ℕ) : (L.announcement fill name length).length = L.hdrSize := by
  have hname := hL.name
  have hlength := hL.length
  simp only [Layout.announcement, List.length_append, length_run, FileName.length_field,
    length_leBytes]
  omega

theorem length_chunk (v : QstKind) (p : Piece) : (v.chunk p).length = v.layout.step := by
  have hfits := p.fits
  cases v
  all_goals
    simp only [QstKind.chunk, QstKind.chunkHeader, QstKind.layout, gcLayout, pcLayout, dcLayout,
      bbLayout, List.length_append, List.length_cons, List.length_nil, length_run,
      FileName.length_field, length_leBytes]
    omega

theorem length_chunks (v : QstKind) (ps : List Piece) :
    (ps.flatMap v.chunk).length = ps.length * v.layout.step := by
  induction ps with
  | nil => exact (Nat.zero_mul _).symm
  | cons p ps ih =>
    rw [List.flatMap_cons, List.length_append, length_chunk, ih, List.length_cons, Nat.succ_mul,
      Nat.add_comm]

theorem length_encode (v : QstKind) (a : Archive) :
    (a.encode v).length = v.layout.chunkAt a.pieces.length := by
  rw [Archive.encode, List.length_append, length_chunks, Layout.chunkAt, (sound v).base]
  split
  all_goals
    rw [List.length_append, length_announcement (sound v), length_announcement (sound v)]
    omega

/-- What is read of a packet that announces a file. -/
theorem result_announced {L : Layout} (hL : L.Sound) {fill : ℕ → UInt8} {name : FileName}
    {length i : ℕ} (h : Holds m i (L.announcement fill name length)) :
    (L.announced i).result m =
      if lastDot name.text = some dat then some (length % 2 ^ 32) else none := by
  have hname := hL.name
  have hplace : i + L.nameAt + 16 + (L.lengthAt - (L.nameAt + 16)) = i + L.lengthAt := by omega
  rw [Layout.announcement, holds_append, holds_append, holds_append, holds_append, length_run,
    name.length_field, length_run, hplace] at h
  obtain ⟨_, hfield, _, hlength, _⟩ := h
  rw [Layout.announced, result_bind, name.result_text hfield, result_ite, result_bind,
    result_number hlength, result_pure, result_pure]
  rfl

/-- What the header of a chunk is checked for. -/
theorem result_header (v : QstKind) {fill : ℕ → UInt8} {i : ℕ}
    (h : Holds m i (v.chunkHeader fill)) :
    (number v.layout.typeSize (i + v.layout.typeAt)).result m = 0x13 ∧
      (number 2 (i + v.layout.lenAt)).result m = v.layout.pktLen := by
  cases v with
  | dc | gc =>
    obtain ⟨htype, _, hlow, hhigh, _⟩ := h
    exact ⟨@result_number m 1 _ 0x13 ⟨htype, trivial⟩,
      @result_number m 2 _ 0x0418 ⟨hlow, hhigh, trivial⟩⟩
  | pc =>
    obtain ⟨hlow, hhigh, htype, _, _⟩ := h
    exact ⟨@result_number m 1 _ 0x13 ⟨htype, trivial⟩,
      @result_number m 2 _ 0x0418 ⟨hlow, hhigh, trivial⟩⟩
  | bb =>
    obtain ⟨hlow, hhigh, htype, htype', _⟩ := h
    exact ⟨@result_number m 2 _ 0x13 ⟨htype, htype', trivial⟩,
      @result_number m 2 _ 0x041C ⟨hlow, hhigh, trivial⟩⟩

theorem length_chunkHeader (v : QstKind) (fill : ℕ → UInt8) :
    (v.chunkHeader fill).length = v.layout.chunkName := by
  cases v <;> rfl

/-- What is read of a chunk. -/
theorem result_chunk (v : QstKind) {p : Piece} {i : ℕ} (h : Holds m i (v.chunk p)) :
    (v.layout.chunkHead i).result m =
        (if (lastDot p.name.text).isSome then some (p.isDat, p.data.length) else none) ∧
      (bytes p.data.length (i + v.layout.chunkData)).result m = p.data := by
  have hfits := p.fits
  have hL := sound v
  have hname : i + v.layout.chunkName + 16 = i + v.layout.chunkData := by
    rw [Nat.add_assoc, hL.data]
  have hlast : i + v.layout.chunkData + p.data.length + (1024 - p.data.length) =
      i + v.layout.chunkLength := by
    have hchunk := hL.chunk
    omega
  have hsmall : p.data.length % 256 ^ 4 = p.data.length := Nat.mod_eq_of_lt (by omega)
  rw [QstKind.chunk, holds_append, holds_append, holds_append, holds_append, holds_append,
    length_chunkHeader, p.name.length_field, length_run, hname, hlast] at h
  obtain ⟨hheader, hfield, hdata, _, hlength, _⟩ := h
  obtain ⟨htype, hlen⟩ := result_header v hheader
  refine ⟨?_, result_bytes hdata rfl⟩
  rw [Layout.chunkHead, result_bind, htype, if_neg (not_not_intro rfl), result_bind, hlen,
    if_neg (not_not_intro rfl), result_bind, p.name.result_text hfield, result_bind,
    result_number hlength, hsmall, Piece.isDat]
  cases lastDot p.name.text with
  | none => rfl
  | some ext =>
    dsimp only [Option.isSome_some]
    rw [if_neg (by omega), if_pos rfl, result_pure]
    simp only [Option.some.injEq]

end Packets

section Copying

variable {m : ℕ → UInt8} (v : QstKind)

theorem datOf_cons (p : Piece) (ps : List Piece) :
    datOf (p :: ps) = (if p.isDat then p.data else []) ++ datOf ps := by
  unfold datOf
  rw [List.filter_cons]
  split <;> rfl

/-- A file that is no longer than the offsets go is copied to its end. -/
theorem result_copy {dsz : ℕ} (hdsz : dsz < 2 ^ 32) {ps : List Piece} {k : ℕ}
    (hlast : v.layout.chunkAt (k + ps.length) < 2 ^ 32)
    (h : Holds m (v.layout.chunkAt k) (ps.flatMap v.chunk)) {fuel : ℕ} (hfuel : ps.length < fuel)
    {out : List UInt8} (hout : (out ++ datOf ps).length = dsz) :
    (v.layout.copyQstDat (v.layout.chunkAt (k + ps.length)) dsz fuel (v.layout.chunkAt k)
        out).result m =
      some (if ∀ p ∈ ps, (lastDot p.name.text).isSome then some (out ++ datOf ps) else none) := by
  induction ps generalizing k fuel out with
  | nil =>
    cases fuel with
    | zero => exact absurd hfuel (Nat.not_lt_zero _)
    | succ fuel =>
      have hlen : out.length = dsz := by
        rw [← hout]
        exact congrArg List.length (List.append_nil out).symm
      have hend : ¬v.layout.chunkAt k < v.layout.chunkAt (k + 0) := lt_irrefl _
      rw [List.length_nil, Layout.copyQstDat, if_neg hend, result_pure, hlen,
        Nat.mod_eq_of_lt hdsz, if_pos rfl, if_pos (fun p hp => absurd hp List.not_mem_nil)]
      exact congrArg (fun l => some (some l)) (List.append_nil out).symm
  | cons p ps ih =>
    cases fuel with
    | zero => exact absurd hfuel (Nat.not_lt_zero _)
    | succ fuel =>
      rw [List.flatMap_cons, holds_append, length_chunk] at h
      obtain ⟨hchunk, hrest⟩ := h
      have hsucc := v.layout.chunkAt_succ k
      have hend : k + (p :: ps).length = k + 1 + ps.length := by
        rw [List.length_cons]
        omega
      have hle : v.layout.chunkAt (k + 1) ≤ v.layout.chunkAt (k + 1 + ps.length) :=
        v.layout.chunkAt_le (Nat.le_add_right _ _)
      have hstep : 0 < v.layout.step := by
        cases v <;> decide
      rw [hend] at hlast ⊢
      rw [hsucc] at hrest
      obtain ⟨hhead, hdata⟩ := result_chunk v hchunk
      rw [Layout.copyQstDat, if_pos (by omega), result_bind, hhead]
      by_cases hdot : (lastDot p.name.text).isSome
      · have hall : (∀ q ∈ p :: ps, (lastDot q.name.text).isSome = true) ↔
            ∀ q ∈ ps, (lastDot q.name.text).isSome = true := by
          rw [List.forall_mem_cons]
          exact and_iff_right hdot
        rw [if_pos hdot]
        simp only [hall]
        cases hdat : p.isDat with
        | true =>
          have hparts : out ++ datOf (p :: ps) = out ++ p.data ++ datOf ps := by
            rw [datOf_cons, hdat, if_pos rfl, List.append_assoc]
          rw [hparts] at hout ⊢
          have hfits : (out.length + p.data.length) % 2 ^ 32 ≤ dsz := by
            refine le_trans (Nat.mod_le _ _) ?_
            rw [← hout, List.length_append, List.length_append]
            exact Nat.le_add_right _ _
          dsimp only
          rw [if_neg (Nat.not_lt.mpr hfits), result_bind, hdata, hsucc,
            Nat.mod_eq_of_lt (by omega)]
          exact ih hlast hrest (Nat.lt_of_succ_lt_succ hfuel) hout
        | false =>
          have hparts : out ++ datOf (p :: ps) = out ++ datOf ps := by
            rw [datOf_cons, hdat]
            rfl
          rw [hparts] at hout ⊢
          dsimp only
          rw [hsucc, Nat.mod_eq_of_lt (by omega)]
          exact ih hlast hrest (Nat.lt_of_succ_lt_succ hfuel) hout
      · rw [if_neg hdot, if_neg fun hall => hdot (hall p (.head _))]
        rfl

/-- The loop does not come to the end of a file that is longer than the offsets go. -/
theorem copy_endless {L : Layout} {sz : ℕ} (hsz : 2 ^ 32 ≤ sz) {dsz fuel ptr : ℕ}
    (hptr : ptr < 2 ^ 32) {out out' : List UInt8} :
    (L.copyQstDat sz dsz fuel ptr out).result m ≠ some (some out') := by
  induction fuel generalizing ptr out with
  | zero =>
    intro h
    cases h
  | succ fuel ih =>
    have hnext : (ptr + L.step) % 2 ^ 32 < 2 ^ 32 := Nat.mod_lt _ (by decide)
    rw [Layout.copyQstDat, if_pos (lt_of_lt_of_le hptr hsz), result_bind]
    split
    · intro h
      cases h
    · rw [result_ite]
      split
      · intro h
        cases h
      · rw [result_bind]
        exact ih hnext
    · exact ih hnext

theorem length_datOf (ps : List Piece) : (datOf ps).length ≤ ps.length * 1024 := by
  induction ps with
  | nil => exact Nat.zero_le _
  | cons p ps ih =>
    have hfits := p.fits
    rw [datOf_cons, List.length_append, List.length_cons, Nat.succ_mul]
    split
    · omega
    · rw [List.length_nil]
      omega

/-- The packets in front tell the length of the .dat file. -/
theorem result_size (a : Archive) (junk : ℕ → UInt8) :
    v.layout.qstDatSize.result (memory (a.encode v) junk) = a.dat.length % 2 ^ 32 := by
  have hL := sound v
  have hfile := holds_memory (a.encode v) junk
  generalize memory (a.encode v) junk = m at hfile
  rw [Archive.encode, holds_append] at hfile
  obtain ⟨hheads, _⟩ := hfile
  rw [Layout.qstDatSize, result_bind]
  split at hheads
  all_goals
    rw [holds_append, length_announcement hL, Nat.zero_add] at hheads
    obtain ⟨hfirst, hsecond⟩ := hheads
    rw [result_announced hL hfirst]
  · rw [if_pos a.datName_ext]
    rfl
  · rw [if_neg a.otherName_ext]
    dsimp only
    rw [result_bind, result_announced hL hsecond, if_pos a.datName_ext]
    rfl

/-- The chunks stand behind the two packets. -/
theorem holds_chunks (a : Archive) (junk : ℕ → UInt8) :
    Holds (memory (a.encode v) junk) (v.layout.chunkAt 0) (a.pieces.flatMap v.chunk) := by
  have hL := sound v
  have hbase : v.layout.chunkAt 0 = v.layout.hdrSize + v.layout.hdrSize := by
    rw [Layout.chunkAt_zero, hL.base]
    omega
  have hfile := holds_memory (a.encode v) junk
  generalize memory (a.encode v) junk = m at hfile
  rw [Archive.encode, holds_append, Nat.zero_add] at hfile
  rw [hbase]
  split at hfile
  all_goals
    rw [List.length_append, length_announcement hL, length_announcement hL] at hfile
    exact hfile.2

theorem decodes_iff (a : Archive) :
    Decodes v (a.encode v) a.dat ↔
      a.dat ≠ [] ∧ (a.encode v).length < 2 ^ 32 ∧
        ∀ p ∈ a.pieces, (lastDot p.name.text).isSome := by
  have hL := sound v
  have hlong : ¬(a.encode v).length < 120 := by
    rw [length_encode, Layout.chunkAt]
    cases v
    all_goals
      simp only [QstKind.layout, dcLayout, pcLayout, gcLayout, bbLayout]
      omega
  by_cases hsz : (a.encode v).length < 2 ^ 32
  · have hend : v.layout.chunkAt (0 + a.pieces.length) = (a.encode v).length := by
      rw [Nat.zero_add, length_encode]
    have hdat : a.dat.length < 2 ^ 32 := by
      have hdatle := length_datOf a.pieces
      have hmul : a.pieces.length * 1024 ≤ a.pieces.length * v.layout.step := by
        refine Nat.mul_le_mul_left _ ?_
        have hchunk := hL.chunk
        have hsize := hL.size
        have hsizele := hL.size_le
        omega
      rw [length_encode, Layout.chunkAt] at hsz
      rw [Archive.dat]
      omega
    have hcopy (junk : ℕ → UInt8) {fuel : ℕ} (hfuel : a.pieces.length < fuel) :=
      @result_copy _ v a.dat.length hdat _ _ (hend ▸ hsz) (holds_chunks v a junk) _ hfuel [] rfl
    rw [hend, Layout.chunkAt_zero] at hcopy
    have hread (junk : ℕ → UInt8) {fuel : ℕ} (hfuel : a.pieces.length < fuel) :
        (v.layout.readQst (a.encode v).length fuel).result (memory (a.encode v) junk) =
          some (if a.dat ≠ [] ∧ ∀ p ∈ a.pieces, (lastDot p.name.text).isSome then some a.dat
            else none) := by
      rw [Layout.readQst, if_neg hlong, result_bind, result_size, Nat.mod_eq_of_lt hdat, result_ite]
      by_cases hempty : a.dat = []
      · rw [if_pos (List.length_eq_zero_iff.mpr hempty), if_neg fun h => h.1 hempty]
        rfl
      · rw [if_neg fun h => hempty (List.length_eq_zero_iff.mp h), hcopy junk hfuel]
        simp only [ne_eq, hempty, not_false_eq_true, true_and, List.nil_append]
        rfl
    constructor
    · intro h
      obtain ⟨n, hn⟩ := h fun _ => 0
      have hlast := hn (n + (a.pieces.length + 1)) (Nat.le_add_right _ _)
      rw [hread _ (by omega)] at hlast
      split at hlast
      · rename_i hall
        exact ⟨hall.1, hsz, hall.2⟩
      · cases hlast
    · rintro ⟨hne, _, hall⟩ junk
      refine ⟨a.pieces.length + 1, fun fuel hfuel => ?_⟩
      rw [hread junk hfuel, if_pos ⟨hne, hall⟩]
  · constructor
    · intro h
      obtain ⟨n, hn⟩ := h fun _ => 0
      have hlast := hn n le_rfl
      have hbase : v.layout.base < 2 ^ 32 := lt_of_le_of_lt hL.base_le (by decide)
      rw [Layout.readQst, if_neg hlong, result_bind, result_ite] at hlast
      split at hlast
      · cases hlast
      · exact absurd hlast (copy_endless (Nat.not_lt.mp hsz) hbase)
    · exact fun h => absurd h.2.1 hsz

end Copying

/-- Both packets in front, and the first byte of a chunk. -/
def cutFile : List UInt8 :=
  (List.range 121).map dcLayout.plainMemory

end ShipServer.QstFiles

import HostPimSim.Lib.ByteMemory
import HostPimSim.Vfile.DirScan

/-! The records of `getdents64` and of `getdents` in the caller's buffer, byte by byte, and
what a caller reads back of them over a series of calls. -/
namespace HostPimSim.Vfile.Dirents
open ByteMemory

/-- `vdev_dirent_row`; a name has no NUL in it. -/
structure Row where
  name : List Byte
  dtype : Byte
  ino : BitVec 64
  noNul : ∀ byte ∈ name, byte ≠ 0

/-- `vdir_linux_dirent64` and `vdir_linux_dirent` -/
inductive Format where
  | dirent64
  | dirent
  deriving DecidableEq

/-- `offsetof(DirentT, d_name)` -/
def Format.nameOffset : Format → Nat
  | .dirent64 => 19
  | .dirent => 18

/-- `kSuffixLen` -/
def Format.suffixLen : Format → Nat
  | .dirent64 => 1
  | .dirent => 2

/-- Where `d_type` is: in the header, or in the last byte of the record. -/
def Format.typePlace : Format → Nat → Nat
  | .dirent64, _ => 18
  | .dirent, reclen => reclen - 1

/-- `vdir_getdents_reclen` -/
def Format.reclen (fmt : Format) (row : Row) : Nat :=
  DirScan.direntAlignedReclen fmt.nameOffset row.name.length fmt.suffixLen 8

def fillHeader (memory : Memory) (dst reclen : Nat) (row : Row) (index : Nat) : Memory :=
  let zeroed := writeBytes memory dst (List.replicate reclen 0)
  let ino := writeBytes zeroed dst (leBytes 8 row.ino.toNat)
  let off := writeBytes ino (dst + 8) (leBytes 8 (index + 1))
  writeBytes off (dst + 16) (leBytes 2 reclen)

/-- `vdir_fill_dirent_common` -/
def Format.fillCommon (fmt : Format) (memory : Memory) (dst reclen : Nat) (row : Row)
    (index : Nat) : Memory :=
  let name := writeBytes (fillHeader memory dst reclen row index) (dst + fmt.nameOffset) row.name
  writeBytes name (dst + fmt.nameOffset + row.name.length) [0]

/-- `vdir_fill_getdents_record` -/
def Format.fillRecord (fmt : Format) (memory : Memory) (dst reclen : Nat) (row : Row)
    (index : Nat) : Memory :=
  writeBytes (fmt.fillCommon memory dst reclen row index) (dst + fmt.typePlace reclen) [row.dtype]

structure Emitted where
  memory : Memory
  used : Nat
  cursor : Nat

/-- The loop of `vdir_emit_cached_dirents_locked`; `none` is `EINVAL`. -/
def emitRows (fmt : Format) (count : Nat) : List Row → Emitted → Option Emitted
  | [], e => some e
  | row :: rest, e =>
      let reclen := fmt.reclen row
      if reclen = 0 ∨ reclen > count - e.used then
        if e.used = 0 then none else some e
      else
        emitRows fmt count rest
          ⟨fmt.fillRecord e.memory e.used reclen row e.cursor, e.used + reclen, e.cursor + 1⟩

structure Buffer where
  count : Nat
  memory : Memory

/-- What a call leaves; `none` is `EINVAL`. -/
structure Reply where
  memory : Memory
  cursor : Nat
  ret : Option Nat

/-- `vdir_emit_cached_dirents_locked`; the places are counted from `dirp`. -/
def getdents (fmt : Format) (rows : List Row) (cursor : Nat) (buffer : Buffer) : Reply :=
  if rows.length ≤ cursor then ⟨buffer.memory, cursor, some 0⟩
  else
    match emitRows fmt buffer.count (rows.drop cursor) ⟨buffer.memory, 0, cursor⟩ with
    | none => ⟨buffer.memory, cursor, none⟩
    | some e => ⟨e.memory, e.cursor, some e.used⟩

/-- One call after the other, each with a buffer of its own. -/
def replies (fmt : Format) (rows : List Row) : Nat → List Buffer → List Reply
  | _, [] => []
  | cursor, buffer :: rest =>
      let reply := getdents fmt rows cursor buffer
      reply :: replies fmt rows reply.cursor rest

def cursorAfter (fmt : Format) (rows : List Row) (cursor : Nat) (buffers : List Buffer) : Nat :=
  buffers.foldl (fun cursor buffer => (getdents fmt rows cursor buffer).cursor) cursor

structure Record where
  ino : Nat
  off : Nat
  reclen : Nat
  name : List Byte
  dtype : Byte
  deriving DecidableEq

def Format.record (fmt : Format) (row : Row) (index : Nat) : Record :=
  ⟨row.ino.toNat, index + 1, fmt.reclen row, row.name, row.dtype⟩

def Format.decode (fmt : Format) (memory : Memory) (place : Nat) : Record :=
  let reclen := leValue (readBytes memory (place + 16) 2)
  { ino := leValue (readBytes memory place 8)
    off := leValue (readBytes memory (place + 8) 8)
    reclen
    name := (readBytes memory (place + fmt.nameOffset) (reclen - fmt.nameOffset)).takeWhile (· ≠ 0)
    dtype := memory (place + fmt.typePlace reclen) }

/-- The records up to `stop`, each `d_reclen` bytes after the one before. -/
def Format.split (fmt : Format) (memory : Memory) (stop : Nat) : Nat → Nat → List Record
  | 0, _ => []
  | fuel + 1, place =>
      if place < stop then
        let record := fmt.decode memory place
        record :: split fmt memory stop fuel (place + record.reclen)
      else []

def Reply.records (fmt : Format) (reply : Reply) : List Record :=
  match reply.ret with
  | some used => fmt.split reply.memory used used 0
  | none => []

structure Fits (fmt : Format) (row : Row) : Prop where
  room : fmt.nameOffset + row.name.length + fmt.suffixLen ≤ fmt.reclen row
  aligned : 8 ∣ fmt.reclen row
  short : fmt.reclen row < 2 ^ 16

variable {fmt : Format} {row : Row} {memory other : Memory} {dst index place count : Nat}

theorem fits_of_ne_zero (h : fmt.reclen row ≠ 0) : Fits fmt row := by
  unfold Format.reclen DirScan.direntAlignedReclen at h
  dsimp only at h
  have heq : fmt.reclen row =
      (fmt.nameOffset + row.name.length + fmt.suffixLen + (8 - 1)) / 8 * 8 ∧
        fmt.reclen row ≤ 65535 := by
    unfold Format.reclen DirScan.direntAlignedReclen
    dsimp only
    split at h
    · exact absurd rfl h
    · rename_i hraw
      split at h
      · exact absurd rfl h
      · rename_i hshort
        rw [if_neg hraw, if_neg hshort]
        exact ⟨rfl, by omega⟩
  obtain ⟨heq, hshort⟩ := heq
  refine ⟨?_, ?_, by omega⟩
  · omega
  · rw [heq]
    exact Nat.dvd_mul_left 8 _

theorem nameOffset_bounds (fmt : Format) : 18 ≤ fmt.nameOffset ∧ fmt.nameOffset ≤ 19 := by
  cases fmt <;> decide

theorem typePlace_bounds (h : Fits fmt row) :
    18 ≤ fmt.typePlace (fmt.reclen row) ∧ fmt.typePlace (fmt.reclen row) < fmt.reclen row ∧
      (fmt.typePlace (fmt.reclen row) < fmt.nameOffset ∨
        fmt.nameOffset + row.name.length < fmt.typePlace (fmt.reclen row)) := by
  have hroom := h.room
  cases fmt with
  | dirent64 =>
      simp only [Format.typePlace, Format.nameOffset, Format.suffixLen] at hroom ⊢
      omega
  | dirent =>
      simp only [Format.typePlace, Format.nameOffset, Format.suffixLen] at hroom ⊢
      omega

theorem fillHeader_outside (h : Fits fmt row) {a : Nat}
    (ha : a < dst ∨ dst + fmt.reclen row ≤ a) :
    fillHeader memory dst (fmt.reclen row) row index a = memory a := by
  have hroom := h.room
  have hname := nameOffset_bounds fmt
  unfold fillHeader
  rw [write_outside, write_outside, write_outside, write_outside]
  · simpa using ha
  all_goals
    rw [length_leBytes]
    omega

theorem fillRecord_outside (h : Fits fmt row) {a : Nat}
    (ha : a < dst ∨ dst + fmt.reclen row ≤ a) :
    fmt.fillRecord memory dst (fmt.reclen row) row index a = memory a := by
  have hroom := h.room
  have htype := typePlace_bounds h
  have hsuffix : 1 ≤ fmt.suffixLen := by cases fmt <;> decide
  unfold Format.fillRecord Format.fillCommon
  dsimp only
  rw [write_outside, write_outside, write_outside, fillHeader_outside h ha]
  · omega
  · rw [List.length_singleton]
    omega
  · rw [List.length_singleton]
    omega

theorem read_fillRecord_header (h : Fits fmt row) {start : Nat} (hend : start + count ≤ dst + 18) :
    readBytes (fmt.fillRecord memory dst (fmt.reclen row) row index) start count =
      readBytes (fillHeader memory dst (fmt.reclen row) row index) start count := by
  have hname := nameOffset_bounds fmt
  have htype := typePlace_bounds h
  unfold Format.fillRecord Format.fillCommon
  dsimp only
  rw [read_write_outside (by omega), read_write_outside (by omega), read_write_outside (by omega)]

theorem read_ino (reclen : Nat) :
    leValue (readBytes (fillHeader memory dst reclen row index) dst 8) = row.ino.toNat := by
  unfold fillHeader
  dsimp only
  rw [read_write_outside (by omega), read_write_outside (by omega)]
  have hself := @read_write_self (writeBytes memory dst (List.replicate reclen 0)) dst
    (leBytes 8 row.ino.toNat)
  rw [length_leBytes] at hself
  rw [hself, leValue_leBytes]
  exact Nat.mod_eq_of_lt row.ino.isLt

theorem read_off (reclen : Nat) (hindex : index + 1 < 2 ^ 64) :
    leValue (readBytes (fillHeader memory dst reclen row index) (dst + 8) 8) = index + 1 := by
  unfold fillHeader
  dsimp only
  rw [read_write_outside (by omega)]
  have hself := @read_write_self
    (writeBytes (writeBytes memory dst (List.replicate reclen 0)) dst (leBytes 8 row.ino.toNat)) (dst + 8)
    (leBytes 8 (index + 1))
  rw [length_leBytes] at hself
  rw [hself, leValue_leBytes]
  exact Nat.mod_eq_of_lt hindex

theorem read_reclen {reclen : Nat} (hshort : reclen < 2 ^ 16) :
    leValue (readBytes (fillHeader memory dst reclen row index) (dst + 16) 2) = reclen := by
  unfold fillHeader
  dsimp only
  have hself := @read_write_self
    (writeBytes (writeBytes (writeBytes memory dst (List.replicate reclen 0)) dst (leBytes 8 row.ino.toNat))
      (dst + 8) (leBytes 8 (index + 1))) (dst + 16) (leBytes 2 reclen)
  rw [length_leBytes] at hself
  rw [hself, leValue_leBytes]
  exact Nat.mod_eq_of_lt hshort

theorem read_name (h : Fits fmt row) :
    readBytes (fmt.fillRecord memory dst (fmt.reclen row) row index) (dst + fmt.nameOffset)
      row.name.length = row.name := by
  have htype := typePlace_bounds h
  unfold Format.fillRecord Format.fillCommon
  dsimp only
  rw [read_write_outside, read_write_outside (by omega), read_write_self]
  rw [List.length_singleton]
  omega

theorem read_nul (h : Fits fmt row) :
    fmt.fillRecord memory dst (fmt.reclen row) row index
      (dst + fmt.nameOffset + row.name.length) = 0 := by
  have htype := typePlace_bounds h
  unfold Format.fillRecord
  rw [write_outside]
  · exact @write_inside _ _ [0] 0 Nat.zero_lt_one
  · rw [List.length_singleton]
    omega

theorem takeWhile_name (h : Fits fmt row) :
    (readBytes (fmt.fillRecord memory dst (fmt.reclen row) row index) (dst + fmt.nameOffset)
      (fmt.reclen row - fmt.nameOffset)).takeWhile (· ≠ 0) = row.name := by
  have hroom := h.room
  have hsuffix : 1 ≤ fmt.suffixLen := by cases fmt <;> decide
  obtain ⟨rest, hrest⟩ : ∃ rest, fmt.reclen row - fmt.nameOffset = row.name.length + (1 + rest) :=
    ⟨fmt.reclen row - fmt.nameOffset - row.name.length - 1, by omega⟩
  rw [hrest, read_add, read_add, read_name h]
  have hnul : readBytes (fmt.fillRecord memory dst (fmt.reclen row) row index)
      (dst + fmt.nameOffset + row.name.length) 1 = [0] := by
    unfold readBytes
    rw [List.range_one, List.map_singleton, Nat.add_zero, read_nul h]
  rw [hnul, List.takeWhile_append_of_pos]
  · simp
  · intro byte hbyte
    simpa using row.noNul byte hbyte

theorem decode_fillRecord (h : Fits fmt row) (hindex : index + 1 < 2 ^ 64) :
    fmt.decode (fmt.fillRecord memory dst (fmt.reclen row) row index) dst =
      fmt.record row index := by
  unfold Format.decode Format.record
  dsimp only
  rw [read_fillRecord_header h (by omega), read_fillRecord_header h (by omega),
    read_fillRecord_header h (by omega), read_ino, read_off _ hindex, read_reclen h.short,
    takeWhile_name h]
  congr 1
  exact @write_inside _ _ [row.dtype] 0 Nat.zero_lt_one

theorem decode_congr {record : Record} (hdecode : fmt.decode memory place = record)
    (hlen : 19 ≤ record.reclen)
    (htype : fmt.typePlace record.reclen < record.reclen)
    (h : ∀ a < place + record.reclen, other a = memory a) :
    fmt.decode other place = record := by
  have hname := nameOffset_bounds fmt
  subst hdecode
  have hreclen : leValue (readBytes other (place + 16) 2) = leValue (readBytes memory (place + 16) 2) := by
    rw [read_congr fun i hi => h _ (by omega)]
  unfold Format.decode at h hlen htype ⊢
  dsimp only at h hlen htype ⊢
  rw [hreclen, read_congr fun i hi => h _ (by omega), read_congr fun i hi => h _ (by omega),
    read_congr fun i hi => h _ (by omega), h _ (by omega)]

def Holds (fmt : Format) (memory : Memory) : Nat → Nat → List Row → Prop
  | _, _, [] => True
  | place, index, row :: rest =>
      fmt.decode memory place = fmt.record row index ∧
        Holds fmt memory (place + fmt.reclen row) (index + 1) rest

def totalLen (fmt : Format) (rows : List Row) : Nat := (rows.map fmt.reclen).sum

def recordsFrom (fmt : Format) : Nat → List Row → List Record
  | _, [] => []
  | index, row :: rest => fmt.record row index :: recordsFrom fmt (index + 1) rest

/-- What a caller finds by going from `d_reclen` to `d_reclen`. -/
theorem split_of_holds {rows : List Row} {fuel : Nat} (h : Holds fmt memory place index rows)
    (hfits : ∀ row ∈ rows, Fits fmt row) (hfuel : totalLen fmt rows ≤ fuel) :
    fmt.split memory (place + totalLen fmt rows) fuel place = recordsFrom fmt index rows := by
  induction rows generalizing place index fuel with
  | nil =>
      cases fuel with
      | zero => rfl
      | succ fuel =>
          unfold Format.split
          rw [if_neg (by simp [totalLen])]
          rfl
  | cons row rest ih =>
      have hroom := (hfits row List.mem_cons_self).room
      have hname := nameOffset_bounds fmt
      have htotal : totalLen fmt (row :: rest) = fmt.reclen row + totalLen fmt rest := by
        simp [totalLen]
      rw [htotal] at hfuel ⊢
      cases fuel with
      | zero => omega
      | succ fuel =>
          unfold Format.split
          rw [if_pos (by omega), h.1, ← Nat.add_assoc]
          have hreclen : (fmt.record row index).reclen = fmt.reclen row := rfl
          dsimp only
          rw [hreclen, ih h.2 (fun r hr => hfits r (List.mem_cons_of_mem _ hr)) (by omega)]
          rfl

structure Emits (fmt : Format) (count : Nat) (rows : List Row) (e f : Emitted) (out : List Row) :
    Prop where
  starts : out <+: rows
  cursor : f.cursor = e.cursor + out.length
  used : f.used = e.used + totalLen fmt out
  room : f.used ≤ count
  holds : Holds fmt f.memory e.used e.cursor out
  outside : ∀ a, a < e.used ∨ f.used ≤ a → f.memory a = e.memory a

theorem Emits.nil {e : Emitted} {rows : List Row} (h : e.used ≤ count) :
    Emits fmt count rows e e [] :=
  ⟨List.nil_prefix, rfl, rfl, h, trivial, fun _ _ => rfl⟩

theorem Emits.cons {e f : Emitted} {rows out : List Row} (hrow : Fits fmt row)
    (hindex : e.cursor + 1 < 2 ^ 64)
    (h : Emits fmt count rows
      ⟨fmt.fillRecord e.memory e.used (fmt.reclen row) row e.cursor, e.used + fmt.reclen row,
        e.cursor + 1⟩ f out) : Emits fmt count (row :: rows) e f (row :: out) := by
  have hused := h.used
  have hroom := hrow.room
  have hname := nameOffset_bounds fmt
  have hsuffix : 1 ≤ fmt.suffixLen := by cases fmt <;> decide
  have htotal : totalLen fmt (row :: out) = fmt.reclen row + totalLen fmt out := by
    simp [totalLen]
  dsimp only at hused
  refine ⟨(List.prefix_cons_inj row).mpr h.starts, ?_, ?_, h.room, ⟨?_, h.holds⟩, ?_⟩
  · have hcursor := h.cursor
    dsimp only at hcursor
    rw [hcursor, List.length_cons]
    omega
  · rw [hused, htotal, Nat.add_assoc]
  · have hdecoded := @decode_fillRecord fmt row e.memory e.used e.cursor hrow hindex
    refine decode_congr hdecoded ?_ (typePlace_bounds hrow).2.1 ?_
    · change 19 ≤ fmt.reclen row
      omega
    · intro a ha
      exact h.outside a (.inl ha)
  · intro a ha
    rw [h.outside a (by dsimp only; omega)]
    exact fillRecord_outside hrow (by omega)

/-- The loop fails if and only if it has a row, and has put nothing before it, that does not
fit. -/
theorem emitRows_cases (rows : List Row) (e : Emitted) (hfits : ∀ row ∈ rows, fmt.reclen row ≠ 0)
    (hused : e.used ≤ count) (hindex : e.cursor + rows.length < 2 ^ 64) :
    (emitRows fmt count rows e = none ∧ e.used = 0 ∧
      ∃ row ∈ rows.head?, count < fmt.reclen row) ∨
    ∃ f out, emitRows fmt count rows e = some f ∧ Emits fmt count rows e f out ∧
      (e.used = 0 → ∀ row ∈ rows.head?, fmt.reclen row ≤ count ∧ out ≠ []) := by
  induction rows generalizing e with
  | nil =>
      refine .inr ⟨e, [], rfl, .nil hused, ?_⟩
      intro _ row hrow
      cases hrow
  | cons row rest ih =>
      have hne : fmt.reclen row ≠ 0 := hfits row List.mem_cons_self
      unfold emitRows
      dsimp only
      split
      · rename_i hfull
        split
        · rename_i hzero
          exact .inl ⟨rfl, hzero, row, rfl, by omega⟩
        · rename_i hzero
          exact .inr ⟨e, [], rfl, .nil hused, fun h => absurd h hzero⟩
      · rename_i hfull
        rw [List.length_cons] at hindex
        rcases ih ⟨fmt.fillRecord e.memory e.used (fmt.reclen row) row e.cursor,
          e.used + fmt.reclen row, e.cursor + 1⟩ (fun r hr => hfits r (List.mem_cons_of_mem _ hr))
          (by dsimp only; omega) (by dsimp only; omega) with ⟨-, hzero, -⟩ | ⟨f, out, hf, h, -⟩
        · dsimp only at hzero
          omega
        · refine .inr ⟨f, row :: out, hf, h.cons (fits_of_ne_zero hne) (by omega), ?_⟩
          rintro hzero first ⟨⟩
          exact ⟨by omega, List.cons_ne_nil _ _⟩

/-- The cached rows of a directory.  Every record fits 16 bits, and a vector has less than
`PTRDIFF_MAX` of them. -/
structure Listing (fmt : Format) where
  rows : List Row
  fits : ∀ row ∈ rows, fmt.reclen row ≠ 0
  bound : rows.length < 2 ^ 63

structure Gives (fmt : Format) (rows : List Row) (cursor : Nat) (buffer : Buffer) (reply : Reply) :
    Prop where
  within : ∀ a, buffer.count ≤ a → reply.memory a = buffer.memory a
  forward : cursor ≤ reply.cursor
  stops : reply.cursor = cursor ∨ reply.cursor ≤ rows.length
  records : reply.records fmt =
    recordsFrom fmt cursor ((rows.drop cursor).take (reply.cursor - cursor))
  refused : reply.ret = none ↔ ∃ row, rows[cursor]? = some row ∧ buffer.count < fmt.reclen row
  kept : reply.ret = none → reply.cursor = cursor ∧ reply.memory = buffer.memory
  ended : reply.ret = some 0 ↔ rows.length ≤ cursor

theorem totalLen_pos {rows : List Row} (hne : rows ≠ []) (hfits : ∀ row ∈ rows, fmt.reclen row ≠ 0) :
    totalLen fmt rows ≠ 0 := by
  obtain ⟨row, rest, rfl⟩ := List.exists_cons_of_ne_nil hne
  have hrow := hfits row List.mem_cons_self
  have htotal : totalLen fmt (row :: rest) = fmt.reclen row + totalLen fmt rest := by
    simp [totalLen]
  omega

theorem getdents_gives (listing : Listing fmt) (cursor : Nat) (buffer : Buffer) :
    Gives fmt listing.rows cursor buffer (getdents fmt listing.rows cursor buffer) := by
  have hfits : ∀ row ∈ listing.rows.drop cursor, fmt.reclen row ≠ 0 :=
    fun row hrow => listing.fits row (List.drop_subset cursor _ hrow)
  unfold getdents
  split
  · rename_i hend
    refine ⟨fun _ _ => rfl, Nat.le_refl _, .inl rfl, ?_, ?_, fun h => (nomatch h),
      ⟨fun _ => hend, fun _ => rfl⟩⟩
    · rw [Nat.sub_self, List.take_zero]
      rfl
    · rw [List.getElem?_eq_none hend]
      simp
  · rename_i hmore
    have hbound := listing.bound
    have hhead : (listing.rows.drop cursor).head? = listing.rows[cursor]? := by
      rw [List.head?_drop]
    rcases @emitRows_cases fmt buffer.count (listing.rows.drop cursor)
        ⟨buffer.memory, 0, cursor⟩ hfits (Nat.zero_le _)
        (by rw [List.length_drop]; dsimp only; omega) with
      ⟨hnone, -, row, hrow, hlong⟩ | ⟨f, out, hf, hemits, hfirst⟩
    · rw [hnone]
      refine ⟨fun _ _ => rfl, Nat.le_refl _, .inl rfl, ?_,
        ⟨fun _ => ⟨row, hhead ▸ hrow, hlong⟩, fun _ => rfl⟩,
        fun _ => ⟨rfl, rfl⟩, ⟨fun h => (nomatch h), fun h => absurd h hmore⟩⟩
      rw [Nat.sub_self, List.take_zero]
      rfl
    · rw [hf]
      dsimp only
      obtain ⟨row, hrow⟩ : ∃ row, listing.rows[cursor]? = some row :=
        ⟨_, List.getElem?_eq_getElem (Nat.not_le.mp hmore)⟩
      obtain ⟨hshort, hne⟩ := hfirst rfl row (hhead ▸ hrow)
      have hcursor := hemits.cursor
      have hused := hemits.used
      dsimp only at hcursor hused
      rw [Nat.zero_add] at hused
      have hout : (listing.rows.drop cursor).take (f.cursor - cursor) = out := by
        rw [hcursor, Nat.add_sub_cancel_left]
        exact (List.prefix_iff_eq_take.mp hemits.starts).symm
      have houtFits : ∀ r ∈ out, fmt.reclen r ≠ 0 :=
        fun r hr => hfits r (hemits.starts.subset hr)
      have hlength : out.length ≤ listing.rows.length - cursor := by
        rw [← List.length_drop]
        exact hemits.starts.length_le
      refine ⟨?_, by dsimp only; omega, .inr (by dsimp only; omega), ?_, ?_,
        fun h => (nomatch h), ?_⟩
      · intro a ha
        exact hemits.outside a (.inr (Nat.le_trans hemits.room ha))
      · rw [hout]
        have hsplit : fmt.split f.memory (0 + totalLen fmt out) f.used 0 =
            recordsFrom fmt cursor out :=
          split_of_holds hemits.holds (fun r hr => fits_of_ne_zero (houtFits r hr))
            (Nat.le_of_eq hused.symm)
        rw [Nat.zero_add, ← hused] at hsplit
        exact hsplit
      · constructor
        · intro h
          cases h
        · rintro ⟨other, hother, hlong⟩
          cases hrow.symm.trans hother
          omega
      · constructor
        · intro h
          have hzero : f.used = 0 := Option.some.inj h
          exact absurd (hused.symm.trans hzero) (totalLen_pos hne houtFits)
        · exact fun h => absurd h hmore

theorem mem_recordsFrom {record : Record} {rows : List Row} (h : record ∈ recordsFrom fmt index rows) :
    ∃ row ∈ rows, record.reclen = fmt.reclen row := by
  induction rows generalizing index with
  | nil => cases h
  | cons row rest ih =>
      rcases List.mem_cons.mp h with rfl | hrest
      · exact ⟨row, List.mem_cons_self, rfl⟩
      · obtain ⟨other, hother, hlen⟩ := ih hrest
        exact ⟨other, List.mem_cons_of_mem row hother, hlen⟩

theorem getElem_recordsFrom {record : Record} {rows : List Row} {j : Nat}
    (h : (recordsFrom fmt index rows)[j]? = some record) :
    record.off = index + j + 1 ∧ j < rows.length := by
  induction rows generalizing index j with
  | nil => cases h
  | cons row rest ih =>
      cases j with
      | zero =>
          obtain rfl := Option.some.inj h
          exact ⟨rfl, Nat.succ_pos _⟩
      | succ j =>
          rw [recordsFrom, List.getElem?_cons_succ] at h
          obtain ⟨hoff, hlt⟩ := ih h
          exact ⟨by omega, Nat.succ_lt_succ hlt⟩

theorem recordsFrom_append (first second : List Row) :
    recordsFrom fmt index (first ++ second) =
      recordsFrom fmt index first ++ recordsFrom fmt (index + first.length) second := by
  induction first generalizing index with
  | nil => rfl
  | cons row rest ih =>
      rw [List.cons_append, recordsFrom, ih, recordsFrom, List.cons_append, List.length_cons,
        Nat.add_assoc, Nat.add_comm 1]

/-- The records of a series of calls are those of the rows that the cursor passes. -/
theorem replies_records (listing : Listing fmt) (cursor : Nat) (buffers : List Buffer) :
    cursor ≤ cursorAfter fmt listing.rows cursor buffers ∧
      (replies fmt listing.rows cursor buffers).flatMap (Reply.records fmt) =
        recordsFrom fmt cursor ((listing.rows.drop cursor).take
          (cursorAfter fmt listing.rows cursor buffers - cursor)) := by
  induction buffers generalizing cursor with
  | nil =>
      refine ⟨Nat.le_refl _, ?_⟩
      unfold cursorAfter
      rw [List.foldl_nil, Nat.sub_self, List.take_zero]
      rfl
  | cons buffer rest ih =>
      have hgives := getdents_gives listing cursor buffer
      obtain ⟨hforward, hrest⟩ := ih (getdents fmt listing.rows cursor buffer).cursor
      have hnext : cursorAfter fmt listing.rows cursor (buffer :: rest) =
          cursorAfter fmt listing.rows (getdents fmt listing.rows cursor buffer).cursor rest := rfl
      have hreplies : (replies fmt listing.rows cursor (buffer :: rest)).flatMap
          (Reply.records fmt) =
            (getdents fmt listing.rows cursor buffer).records fmt ++
              (replies fmt listing.rows (getdents fmt listing.rows cursor buffer).cursor
                rest).flatMap (Reply.records fmt) := List.flatMap_cons
      have hmiddle := hgives.forward
      have hstops := hgives.stops
      rw [hnext, hreplies, hgives.records, hrest]
      generalize (getdents fmt listing.rows cursor buffer).cursor = middle at *
      generalize cursorAfter fmt listing.rows middle rest = last at *
      have hsum : last - cursor = (middle - cursor) + (last - middle) := by omega
      have hlength : ((listing.rows.drop cursor).take (middle - cursor)).length =
          middle - cursor := by
        rw [List.length_take, List.length_drop]
        omega
      refine ⟨Nat.le_trans hmiddle hforward, ?_⟩
      rw [hsum, List.take_add, recordsFrom_append, hlength, List.drop_drop,
        Nat.add_sub_cancel' hmiddle]

section
variable {reclen : DirScan.Row → Nat} {fmt : Format} {f : DirScan.Row → Row}

theorem emitRows_fitting {rows : List DirScan.Row}
    (hreclen : ∀ row ∈ rows, reclen row = fmt.reclen (f row)) (count : Nat) (e : Emitted) :
    let out := DirScan.fitting reclen (count - e.used) rows
    (emitRows fmt count (rows.map f) e).map (fun left => (left.used, left.cursor)) =
      if out = [] ∧ rows ≠ [] ∧ e.used = 0 then none
      else some (e.used + (out.map reclen).sum, e.cursor + out.length) := by
  induction rows generalizing e with
  | nil => rfl
  | cons row rest ih =>
      obtain ⟨hrow, hrest⟩ := List.forall_mem_cons.mp hreclen
      intro out
      have hout : out = if reclen row = 0 ∨ reclen row > count - e.used then []
          else row :: DirScan.fitting reclen (count - e.used - reclen row) rest := rfl
      rw [List.map_cons, emitRows, ← hrow]
      by_cases hstop : reclen row = 0 ∨ reclen row > count - e.used
      · rw [if_pos hstop] at hout
        rw [if_pos hstop, hout]
        by_cases hused : e.used = 0
        · simp [hused]
        · simp [hused]
      · rw [if_neg hstop] at hout
        have hrec := ih hrest ⟨fmt.fillRecord e.memory e.used (reclen row) (f row) e.cursor,
          e.used + reclen row, e.cursor + 1⟩
        dsimp only at hrec
        rw [if_neg hstop, hrec, hout, if_neg (by omega), if_neg (by simp), Nat.sub_sub]
        simp [Nat.add_assoc, Nat.add_comm]

/-- The calls of `DirScan` are these, with the rows counted and not their bytes. -/
theorem getdents_emitCachedDirents {e : DirScan.Entry}
    (hreclen : ∀ row ∈ e.cachedRows, reclen row = fmt.reclen (f row)) (buffer : Buffer) :
    let reply := getdents fmt (e.cachedRows.map f) e.readOffset buffer
    let emitted := DirScan.emitCachedDirents reclen e buffer.count
    reply.cursor = emitted.1.readOffset ∧
      reply.ret.elim (-1) Int.ofNat = emitted.2.value reclen := by
  unfold getdents DirScan.emitCachedDirents
  rw [List.length_map]
  by_cases hend : e.cachedRows.length ≤ e.readOffset
  · rw [if_pos hend, if_pos hend]
    exact ⟨rfl, rfl⟩
  · rw [if_neg hend, if_neg hend, ← List.map_drop]
    have hrows : e.cachedRows.drop e.readOffset ≠ [] := by
      intro hnil
      exact hend (List.drop_eq_nil_iff.mp hnil)
    have hloop := emitRows_fitting
      (fun row (hrow : row ∈ e.cachedRows.drop e.readOffset) =>
        hreclen row (List.mem_of_mem_drop hrow)) buffer.count ⟨buffer.memory, 0, e.readOffset⟩
    dsimp only at hloop ⊢
    rw [Nat.sub_zero] at hloop
    by_cases hnone : DirScan.fitting reclen buffer.count (e.cachedRows.drop e.readOffset) = []
    · rw [if_pos ⟨hnone, hrows, rfl⟩, Option.map_eq_none_iff] at hloop
      rw [if_pos hnone, hloop]
      exact ⟨rfl, rfl⟩
    · rw [if_neg fun h => hnone h.1] at hloop
      obtain ⟨left, hleft, heq⟩ := Option.map_eq_some_iff.mp hloop
      obtain ⟨hused, hcursor⟩ := Prod.mk.inj heq
      rw [if_neg hnone, hleft]
      refine ⟨hcursor, ?_⟩
      change (left.used : Int) = _
      rw [hused, Nat.zero_add]
      rfl

end

/-- Every `d_reclen` is a multiple of 8, and a seek to the `d_off` of a record goes to the row
after it. -/
structure Exact (fmt : Format) (rows : List Row) (cursor : Nat) (buffer : Buffer) (reply : Reply) :
    Prop extends Gives fmt rows cursor buffer reply where
  aligned : ∀ record ∈ reply.records fmt, 8 ∣ record.reclen
  resumes : ∀ (j : Nat) (record : Record), (reply.records fmt)[j]? = some record →
    ∀ old, Attribute.seekCursor old record.off .set = some (cursor + j + 1)

theorem seekCursor_set (old : Nat) {off : Nat} (h : off < 2 ^ 63) :
    Attribute.seekCursor old off .set = some off := by
  unfold Attribute.seekCursor Attribute.llongMax Attribute.llongMin
  simp only [reduceCtorEq, false_and, or_self, if_false]
  rw [if_neg (by omega), if_neg (by omega), if_neg (by omega), Int.zero_add, Int.toNat_natCast]

/-- A caller reads consecutive rows, each once, over any series of buffers, and each of the
calls keeps to its buffer and to the cursor. -/
theorem getdents_exact (fmt : Format) (listing : Listing fmt) (cursor : Nat)
    (buffers : List Buffer) :
    (replies fmt listing.rows cursor buffers).flatMap (Reply.records fmt) =
        recordsFrom fmt cursor ((listing.rows.drop cursor).take
          (cursorAfter fmt listing.rows cursor buffers - cursor)) ∧
      ∀ place buffer,
        Exact fmt listing.rows place buffer (getdents fmt listing.rows place buffer) := by
  refine ⟨(replies_records listing cursor buffers).2, fun place buffer => ?_⟩
  have hgives := getdents_gives listing place buffer
  refine ⟨hgives, ?_, ?_⟩
  · intro record hrecord
    rw [hgives.records] at hrecord
    obtain ⟨row, hrow, hlen⟩ := mem_recordsFrom hrecord
    have hmem := List.drop_subset place _ (List.take_subset _ _ hrow)
    rw [hlen]
    exact (fits_of_ne_zero (listing.fits row hmem)).aligned
  · intro j record hrecord old
    rw [hgives.records] at hrecord
    obtain ⟨hoff, hlt⟩ := getElem_recordsFrom hrecord
    have hbound := listing.bound
    rw [List.length_take, List.length_drop] at hlt
    rw [hoff]
    exact seekCursor_set old (by omega)

/-- The rows of a directory itself and of the one above it. -/
def dotRows : List Row := [⟨[46], 4, 1, by decide⟩, ⟨[46, 46], 4, 1, by decide⟩]

def dotListing : Listing .dirent64 := ⟨dotRows, by decide, by decide⟩

theorem getdents_exact_dots :
    (replies .dirent64 dotRows 0 (List.replicate 3 ⟨40, fun _ => 0xFF⟩)).flatMap
        (Reply.records .dirent64) =
      [⟨1, 1, 24, [46], 4⟩, ⟨1, 2, 24, [46, 46], 4⟩] :=
  (getdents_exact .dirent64 dotListing 0 (List.replicate 3 ⟨40, fun _ => 0xFF⟩)).1.trans
    (by decide +kernel)

end HostPimSim.Vfile.Dirents

import Mathlib.Algebra.Order.Ring.Nat
import Mathlib.Data.List.Basic
import Mathlib.Data.BitVec

/-! Memory as one byte for each place: blocks of bytes written and read back, and numbers as
little-endian bytes. -/
namespace ByteMemory

abbrev Byte := BitVec 8

abbrev Memory := Nat → Byte

def writeBytes (memory : Memory) (place : Nat) (bytes : List Byte) : Memory := fun a =>
  if place ≤ a then (bytes[a - place]?).getD (memory a) else memory a

def readBytes (memory : Memory) (place count : Nat) : List Byte :=
  (List.range count).map fun i => memory (place + i)

variable {memory other : Memory} {place a count : Nat} {bytes : List Byte}

theorem write_outside (h : a < place ∨ place + bytes.length ≤ a) :
    writeBytes memory place bytes a = memory a := by
  unfold writeBytes
  split
  · rw [List.getElem?_eq_none (by omega)]
    rfl
  · rfl

theorem write_inside {i : Nat} (h : i < bytes.length) :
    writeBytes memory place bytes (place + i) = bytes[i] := by
  unfold writeBytes
  rw [if_pos (Nat.le_add_right place i), Nat.add_sub_cancel_left, List.getElem?_eq_getElem h]
  rfl

@[simp] theorem length_read : (readBytes memory place count).length = count := by
  simp [readBytes]

theorem read_congr (h : ∀ i < count, other (place + i) = memory (place + i)) :
    readBytes other place count = readBytes memory place count := by
  unfold readBytes
  apply List.map_congr_left
  intro i hi
  exact h i (List.mem_range.mp hi)

theorem read_write_self : readBytes (writeBytes memory place bytes) place bytes.length = bytes := by
  apply List.ext_getElem
  · simp
  · intro i hi hi'
    simp only [readBytes, List.getElem_map, List.getElem_range]
    exact write_inside hi'

theorem read_write_outside {start : Nat}
    (h : start + count ≤ place ∨ place + bytes.length ≤ start) :
    readBytes (writeBytes memory place bytes) start count = readBytes memory start count :=
  read_congr fun i hi => write_outside (by omega)

theorem read_add (m n : Nat) :
    readBytes memory place (m + n) = readBytes memory place m ++ readBytes memory (place + m) n := by
  unfold readBytes
  rw [List.range_add, List.map_append, List.map_map]
  simp [Function.comp_def, Nat.add_assoc]

def overwrite (file : List Byte) (offset : Nat) (bytes : List Byte) : List Byte :=
  file.take offset ++ bytes ++ file.drop (offset + bytes.length)

def slice (file : List Byte) (offset count : Nat) : List Byte := (file.drop offset).take count

theorem slice_read {offset size : Nat} (h : offset + count ≤ size) :
    slice (readBytes memory place size) offset count = readBytes memory (place + offset) count := by
  apply List.ext_getElem
  · simp only [slice, List.length_take, List.length_drop, length_read]
    omega
  · intro i hi hi'
    simp [slice, readBytes, Nat.add_assoc]

theorem read_write_inside {offset size : Nat} (h : offset + bytes.length ≤ size) :
    readBytes (writeBytes memory (place + offset) bytes) place size =
      overwrite (readBytes memory place size) offset bytes := by
  have hsize : size = offset + (bytes.length + (size - (offset + bytes.length))) := by omega
  have hfirst : (readBytes memory place size).take offset = readBytes memory place offset := by
    rw [hsize, read_add, List.take_left' length_read]
  have hlast : (readBytes memory place size).drop (offset + bytes.length) =
      readBytes memory (place + offset + bytes.length) (size - (offset + bytes.length)) := by
    rw [← Nat.add_assoc] at hsize
    rw [hsize, read_add, List.drop_left' length_read, Nat.add_sub_cancel_left, Nat.add_assoc]
  rw [overwrite, hfirst, hlast]
  nth_rewrite 1 [hsize]
  rw [read_add, read_add, read_write_outside (.inl (Nat.le_refl _)), read_write_self,
    read_write_outside (.inr (Nat.le_refl _)), List.append_assoc]

def leBytes : Nat → Nat → List Byte
  | 0, _ => []
  | count + 1, value => BitVec.ofNat 8 value :: leBytes count (value / 256)

def leValue : List Byte → Nat
  | [] => 0
  | byte :: rest => byte.toNat + 256 * leValue rest

@[simp] theorem length_leBytes (count value : Nat) : (leBytes count value).length = count := by
  induction count generalizing value with
  | zero => rfl
  | succ count ih => rw [leBytes, List.length_cons, ih]

theorem leValue_leBytes (count value : Nat) :
    leValue (leBytes count value) = value % 256 ^ count := by
  induction count generalizing value with
  | zero => rw [Nat.pow_zero, Nat.mod_one]; rfl
  | succ count ih =>
      have hpow : 256 ^ (count + 1) = 256 * 256 ^ count := Nat.pow_succ'
      rw [leBytes, leValue, ih, BitVec.toNat_ofNat, hpow, Nat.mod_mul]

theorem leBytes_eq (count value : Nat) :
    leBytes count value = (List.range count).map fun i => BitVec.ofNat 8 (value / 256 ^ i) := by
  induction count generalizing value with
  | zero => rfl
  | succ count ih =>
      rw [leBytes, ih, List.range_succ_eq_map, List.map_cons, List.map_map, Nat.pow_zero, Nat.div_one]
      congr 1
      apply List.map_congr_left
      intro i _
      rw [Function.comp_apply, Nat.pow_succ', Nat.div_div_eq_div_mul]

theorem leValue_append (first second : List Byte) :
    leValue (first ++ second) = leValue first + 256 ^ first.length * leValue second := by
  induction first with
  | nil => simp [leValue]
  | cons byte rest ih =>
      rw [List.cons_append, leValue, ih, leValue, List.length_cons, Nat.pow_succ', Nat.mul_add,
        Nat.add_assoc, Nat.mul_assoc]

theorem leValue_lt (bytes : List Byte) : leValue bytes < 256 ^ bytes.length := by
  induction bytes with
  | nil => exact Nat.one_pos
  | cons byte rest ih =>
      have hbyte : byte.toNat < 256 := byte.isLt
      rw [leValue, List.length_cons, Nat.pow_succ']
      omega

end ByteMemory

import Mathlib.Algebra.Ring.Nat
import Mathlib.Tactic.Common

/-!
# Lanes

A bit pattern as a sequence of lanes of one width, the least significant lane first, and
memory as lanes of eight bits.
-/

set_option autoImplicit false

namespace WasmToLlvm.Library

/-- The first `count` lanes of a bit pattern. -/
def unpack (width : Nat) : Nat → Nat → List Nat
  | 0, _ => []
  | count + 1, bits => bits % 2 ^ width :: unpack width count (bits / 2 ^ width)

/-- The bit pattern with these lanes. -/
def pack (width : Nat) : List Nat → Nat
  | [] => 0
  | lane :: lanes => lane + 2 ^ width * pack width lanes

section Lanes

variable {width count bits : Nat} {lanes : List Nat}

@[simp] theorem unpack_length : (unpack width count bits).length = count := by
  induction count generalizing bits with
  | zero => rfl
  | succ count ih => rw [unpack, List.length_cons, ih]

theorem unpack_getElem? {index : Nat} (inside : index < count) :
    (unpack width count bits)[index]? = some (bits / 2 ^ (width * index) % 2 ^ width) := by
  induction count generalizing bits index with
  | zero => exact absurd inside (Nat.not_lt_zero _)
  | succ count ih =>
      cases index with
      | zero => simp [unpack]
      | succ index =>
          have shifted : bits / 2 ^ width / 2 ^ (width * index) = bits / 2 ^ (width * (index + 1)) := by
            rw [Nat.div_div_eq_div_mul, ← Nat.pow_add, Nat.mul_succ, Nat.add_comm]
          rw [unpack, List.getElem?_cons_succ, ih (Nat.lt_of_succ_lt_succ inside), shifted]

/-- The lanes, one by one. -/
theorem unpack_eq_map :
    unpack width count bits =
      (List.range count).map fun index => bits / 2 ^ (width * index) % 2 ^ width := by
  refine List.ext_getElem? fun index => ?_
  by_cases inside : index < count
  · rw [unpack_getElem? inside, List.getElem?_map, List.getElem?_range inside, Option.map_some]
  · rw [List.getElem?_eq_none (by simpa using inside), List.getElem?_eq_none (by simpa using inside)]

theorem unpack_lt {lane : Nat} (member : lane ∈ unpack width count bits) : lane < 2 ^ width := by
  rw [unpack_eq_map] at member
  obtain ⟨index, _, rfl⟩ := List.mem_map.mp member
  exact Nat.mod_lt _ (Nat.two_pow_pos width)

/-- The lanes keep the bits they cover. -/
theorem pack_unpack : pack width (unpack width count bits) = bits % 2 ^ (width * count) := by
  induction count generalizing bits with
  | zero => rw [Nat.mul_zero, Nat.pow_zero, Nat.mod_one, unpack, pack]
  | succ count ih =>
      rw [unpack, pack, ih, Nat.mul_succ, Nat.add_comm (width * count), Nat.pow_add, Nat.mod_mul]

theorem pack_unpack_of_lt (small : bits < 2 ^ (width * count)) :
    pack width (unpack width count bits) = bits := by
  rw [pack_unpack, Nat.mod_eq_of_lt small]

theorem unpack_pack (fit : ∀ lane ∈ lanes, lane < 2 ^ width) :
    unpack width lanes.length (pack width lanes) = lanes := by
  induction lanes with
  | nil => rfl
  | cons lane lanes ih =>
      have small : lane < 2 ^ width := fit lane List.mem_cons_self
      have low : (lane + 2 ^ width * pack width lanes) % 2 ^ width = lane := by
        rw [Nat.add_mul_mod_self_left, Nat.mod_eq_of_lt small]
      have high : (lane + 2 ^ width * pack width lanes) / 2 ^ width = pack width lanes := by
        rw [Nat.add_mul_div_left _ _ (Nat.two_pow_pos width), Nat.div_eq_of_lt small, Nat.zero_add]
      rw [List.length_cons, pack, unpack, low, high,
        ih fun other member => fit other (List.mem_cons_of_mem _ member)]

theorem pack_lt (fit : ∀ lane ∈ lanes, lane < 2 ^ width) : pack width lanes < 2 ^ (width * lanes.length) := by
  have whole := congrArg (pack width) (unpack_pack fit)
  rw [pack_unpack] at whole
  rw [← whole]
  exact Nat.mod_lt _ (Nat.two_pow_pos _)

/-- A single lane holds the whole pattern. -/
theorem unpack_one (small : bits < 2 ^ width) : unpack width 1 bits = [bits] := by
  rw [unpack, unpack, Nat.mod_eq_of_lt small]

end Lanes

/-! ## Memory -/

abbrev Byte := BitVec 8

/-- The byte at each address. -/
abbrev Bytes := Nat → Byte

/-- The number that `count` bytes at an address stand for, the least significant first. -/
def Bytes.read (bytes : Bytes) (address count : Nat) : Nat :=
  pack 8 ((List.range count).map fun index => (bytes (address + index)).toNat)

def Bytes.write (bytes : Bytes) (address count value : Nat) : Bytes := fun place =>
  if address ≤ place ∧ place < address + count then
    BitVec.ofNat 8 (value / 2 ^ (8 * (place - address)))
  else bytes place

section Bytes

variable {bytes bytes' : Bytes} {address count value place : Nat}

theorem Bytes.lane_lt {lane : Nat}
    (member : lane ∈ (List.range count).map fun index => (bytes (address + index)).toNat) :
    lane < 2 ^ 8 := by
  obtain ⟨index, _, rfl⟩ := List.mem_map.mp member
  exact (bytes (address + index)).isLt

theorem Bytes.read_lt : bytes.read address count < 2 ^ (8 * count) := by
  have bound : bytes.read address count < _ := pack_lt fun _ => Bytes.lane_lt
  rwa [List.length_map, List.length_range] at bound

/-- Bytes outside the range that is written stay as they are. -/
theorem Bytes.write_outside (outside : place < address ∨ address + count ≤ place) :
    bytes.write address count value place = bytes place :=
  if_neg fun both => by omega

theorem Bytes.write_inside {index : Nat} (inside : index < count) :
    bytes.write address count value (address + index) = BitVec.ofNat 8 (value / 2 ^ (8 * index)) := by
  rw [Bytes.write, if_pos ⟨Nat.le_add_right _ _, Nat.add_lt_add_left inside _⟩,
    Nat.add_sub_cancel_left]

theorem Bytes.read_congr
    (same : ∀ index < count, bytes' (address + index) = bytes (address + index)) :
    bytes'.read address count = bytes.read address count := by
  refine congrArg (pack 8) (List.map_congr_left fun index member => ?_)
  rw [same index (List.mem_range.mp member)]

/-- What is read back is what was written, as far as it fits. -/
theorem Bytes.read_write : (bytes.write address count value).read address count = value % 2 ^ (8 * count) := by
  have written : (List.range count).map (fun index => (bytes.write address count value
      (address + index)).toNat) = unpack 8 count value := by
    rw [unpack_eq_map]
    refine List.map_congr_left fun index member => ?_
    rw [Bytes.write_inside (List.mem_range.mp member), BitVec.toNat_ofNat]
  rw [Bytes.read, written, pack_unpack]

/-- Each byte of a number that is read. -/
theorem Bytes.read_byte {index : Nat} (inside : index < count) :
    bytes.read address count / 2 ^ (8 * index) % 2 ^ 8 = (bytes (address + index)).toNat := by
  have lanes : (unpack 8 _ (bytes.read address count))[index]? = _ :=
    congrArg (·[index]?) (unpack_pack fun _ => Bytes.lane_lt)
  simp only [List.length_map, List.length_range, unpack_getElem? inside, List.getElem?_map,
    List.getElem?_range inside, Option.map_some, Option.some.injEq] at lanes
  exact lanes

end Bytes

/-! ## Ranges of memory -/

/-- The bytes of a number, the least significant first. -/
def byteOf (value index : Nat) : BitVec 8 := BitVec.ofNat 8 (value / 2 ^ (8 * index))

/-- A range has new bytes, and no other byte has changed. -/
structure Replaced (before after : Bytes) (address count : Nat) (content : Nat → BitVec 8) : Prop where
  inside : ∀ index < count, after (address + index) = content index
  outside : ∀ place, place < address ∨ address + count ≤ place → after place = before place

section Ranges

variable {bytes after after' : Bytes} {address count value : Nat} {content content' : Nat → BitVec 8}

theorem Bytes.write_replaced : Replaced bytes (bytes.write address count value) address count (byteOf value) where
  inside _ inside := Bytes.write_inside inside
  outside _ outside := Bytes.write_outside outside

/-- The bytes that were there are given by their number. -/
theorem byteOf_read {source index : Nat} (inside : index < count) :
    byteOf (bytes.read source count) index = bytes (source + index) := by
  apply BitVec.eq_of_toNat_eq
  rw [byteOf, BitVec.toNat_ofNat, Bytes.read_byte inside]

theorem byteOf_pack {lanes : List Nat} {index : Nat} (fit : ∀ lane ∈ lanes, lane < 2 ^ 8)
    (inside : index < lanes.length) : byteOf (pack 8 lanes) index = BitVec.ofNat 8 lanes[index] := by
  have lane : (unpack 8 lanes.length (pack 8 lanes))[index]? = lanes[index]? := by
    rw [unpack_pack fit]
  rw [unpack_getElem? inside, List.getElem?_eq_getElem inside, Option.some.injEq] at lane
  apply BitVec.eq_of_toNat_eq
  rw [byteOf, BitVec.toNat_ofNat, lane, BitVec.toNat_ofNat, Nat.mod_eq_of_lt (fit _ (List.getElem_mem inside))]

/-- The bytes of a number as far as they are kept. -/
theorem byteOf_mod {index : Nat} (inside : index < count) :
    byteOf (value % 2 ^ (8 * count)) index = byteOf value index := by
  have split : 8 * count = 8 * index + (8 + 8 * (count - index - 1)) := by omega
  apply BitVec.eq_of_toNat_eq
  rw [byteOf, byteOf, BitVec.toNat_ofNat, BitVec.toNat_ofNat, split, Nat.pow_add, Nat.mod_mul_right_div_self,
    Nat.mod_mod_of_dvd _ (Nat.pow_dvd_pow 2 (Nat.le_add_right 8 _))]

theorem Replaced.congr (replaced : Replaced bytes after address count content)
    (same : ∀ index < count, content index = content' index) :
    Replaced bytes after address count content' where
  inside index inside := (replaced.inside index inside).trans (same index inside)
  outside := replaced.outside

/-- Only the bits that fit into the range are written. -/
theorem Bytes.write_mod_replaced :
    Replaced bytes (bytes.write address count (value % 2 ^ (8 * count))) address count (byteOf value) :=
  Bytes.write_replaced.congr fun _ inside => byteOf_mod inside

/-- An empty range has no bytes. -/
theorem Bytes.write_none : bytes.write address 0 value = bytes := by
  funext place
  exact Bytes.write_outside (by omega)

/-- What is read from the range afterwards. -/
theorem Replaced.read (replaced : Replaced bytes after address count (byteOf value)) :
    after.read address count = value % 2 ^ (8 * count) := by
  have written : (bytes.write address count value).read address count = value % 2 ^ (8 * count) :=
    Bytes.read_write
  rw [← written]
  apply Bytes.read_congr
  intro index inside
  rw [replaced.inside index inside, Bytes.write_inside inside, byteOf]

end Ranges

end WasmToLlvm.Library

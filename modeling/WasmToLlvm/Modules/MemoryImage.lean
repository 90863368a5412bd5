import Mathlib.Algebra.Ring.Nat
import WasmToLlvm.Modules.Segments

/-!
# The image of a memory

What visiting a data segment does to the bytes of the initializer of its memory, and when
the check of its bounds is exact.
-/

set_option autoImplicit false

namespace WasmToLlvm.Modules

open Llvm Wasm Block Instruction Library

/-- The bytes of an initializer of a size; without one they are zeros. -/
def imageOf (arrays : DataArrays) (size : Nat) : Option Constant → Option (List Byte)
  | none | some (.zero _) => some (List.replicate size 0)
  | some (.data object) => arrays[object]?
  | some _ => none

/-- A memory of a size, with the bytes of its initializer. -/
structure HasImage (context : Context) (index mem size : Nat) (image : List Byte) : Prop where
  inMems : context.mems[index]? = some mem
  counted : index < context.memIndex
  variable_ : ∃ name linkage isConstant initializer section_,
    context.llvmModule.values[mem]? =
        some ⟨name, linkage, .variable (.array size (.int 8)) isConstant initializer section_⟩ ∧
      imageOf context.arrays size initializer = some image
  length : image.length = size

/-- Neither option that keeps data out of the initializer is set. -/
def Options.flattens (opts : Options) : Prop :=
  opts.splitMem = false ∧ opts.noMemInitializer = false

/-- The address of the data, as it is after `unwrapIntConstant`. -/
def DataSegment.address (segment : DataSegment) : Option (BitVec 64) :=
  match segment.offset with
  | [.const value] =>
      match visitConst value with
      | .int width number => some ((BitVec.ofNat width number).signExtend 64)
      | _ => none
  | _ => none

/-- The new bytes go to a new constant or to the object that there is. -/
def storeImage (mem : Nat) (initializer : Option Constant) (buffer : List Byte) : Translate Unit :=
  match initializer with
  | some (.data object) => modify fun context => { context with arrays := context.arrays.set object buffer }
  | _ => do
      let init ← getRawData buffer
      updateModule fun llvmModule => llvmModule.update mem fun value => value.setInitializer init

section Segment

variable {context after : Context} {segment : DataSegment} {mem size : Nat} {image buffer : List Byte}
  {memory : GlobalValue Body} {offset : BitVec 64} {u : BitVec 32} {data : List Byte}

theorem unwrapIntConstant_const :
    unwrapIntConstant (some (visitConst (.i32 u))) = pure (u.signExtend 64) := by
  rw [visitConst, unwrapIntConstant, BitVec.ofNat_toNat, BitVec.setWidth_eq]

theorem address_const (isOffset : segment.offset = [.const (.i32 u)]) :
    segment.address = some (u.signExtend 64) := by
  unfold DataSegment.address
  rw [isOffset]
  simp only [visitConst, BitVec.ofNat_toNat, BitVec.setWidth_eq]

/-- The address is read from the offset. -/
theorem address_some {address : BitVec 64} (isAddress : segment.address = some address) :
    ∃ value, visitInitExpr segment.offset = pure (some value) ∧ unwrapIntConstant (some value) = pure address := by
  unfold DataSegment.address at isAddress
  split at isAddress
  · rename_i const isOffset
    rw [isOffset]
    refine ⟨visitConst const, rfl, ?_⟩
    split at isAddress
    · rename_i width number isInt
      cases isAddress
      rw [isInt]
      rfl
    · cases isAddress
  · cases isAddress

/-- Visiting a segment copies its data into the image. -/
theorem visitDataSegment_eq {address : BitVec 64} (holds : HasImage context segment.memory mem size image)
    (found : context.llvmModule.values[mem]? = some memory) (flattens : context.opts.flattens)
    (isAddress : segment.address = some address) :
    visitDataSegment segment context =
      (copyData image address segment.data >>= storeImage mem memory.initializer) context := by
  obtain ⟨inMems, counted, ⟨name, linkage, isConstant, initializer, section_, isMemory, isImage⟩, length⟩ := holds
  obtain ⟨noSplit, initialized⟩ := flattens
  obtain ⟨value, isInit, unwraps⟩ := address_some isAddress
  cases found.symm.trans isMemory
  unfold visitDataSegment at_
  simp only [get_bind_run, if_neg (Nat.not_le_of_lt counted), inMems, found, isInit,
    pure_bind_run, noSplit, initialized, Bool.false_eq_true, if_false, unwraps]
  unfold imageOf at isImage
  cases initializer with
  | none =>
      cases isImage
      exact congrFun (bind_assoc (copyData _ _ _) getRawData _) context
  | some constant =>
      cases constant with
      | zero type =>
          cases isImage
          exact congrFun (bind_assoc (copyData _ _ _) getRawData _) context
      | data object =>
          have bytes : context.arrays[object]? = some image := isImage
          show modMemInitializer object address segment.data context = _
          unfold modMemInitializer at_
          simp only [get_bind_run, bytes, pure_bind_run]
          rfl
      | value value => cases isImage
      | pointers elements => cases isImage

/-! ## Storing an image -/

theorem getRaw_image (arrays : DataArrays) (bytes : List Byte) :
    imageOf (getRaw arrays bytes).2 bytes.length (some (getRaw arrays bytes).1) = some bytes := by
  unfold getRaw
  split
  · rename_i zeros
    have same : bytes = List.replicate bytes.length 0 :=
      List.eq_replicate_of_mem fun byte member => by simpa using List.all_eq_true.mp zeros byte member
    exact congrArg some same.symm
  · split
    · rename_i object found
      obtain ⟨inside, same, _⟩ := List.findIdx?_eq_some_iff_getElem.mp found
      show arrays[object]? = some bytes
      rw [List.getElem?_eq_getElem inside, eq_of_beq same]
    · show (arrays ++ [bytes])[arrays.length]? = some bytes
      rw [List.getElem?_append_right (Nat.le_refl _), Nat.sub_self]
      rfl

/-- The image is stored. -/
theorem storeImage_run {index : Nat} (holds : HasImage context index mem size image)
    (found : context.llvmModule.values[mem]? = some memory) (length : buffer.length = size) :
    ∃ after, storeImage mem memory.initializer buffer context = .ok ((), after) ∧
      HasImage after index mem size buffer := by
  obtain ⟨inMems, counted, ⟨name, linkage, isConstant, initializer, section_, isMemory, isImage⟩, sameLength⟩ := holds
  cases found.symm.trans isMemory
  have fresh : ∃ after, storeImage mem none buffer context = .ok ((), after) ∧
      HasImage after index mem size buffer := by
    refine ⟨_, rfl, inMems, counted, ⟨name, linkage, isConstant, some (getRaw context.arrays buffer).1, section_, ?_, ?_⟩,
      length⟩
    · simp only [Llvm.Module.update, List.getElem?_modify_eq, isMemory]
      rfl
    · rw [← length]
      exact getRaw_image context.arrays buffer
  cases initializer with
  | none => exact fresh
  | some constant =>
      cases constant with
      | zero type => exact fresh
      | data object =>
          have inside : object < context.arrays.length := (List.getElem?_eq_some_iff.mp isImage).1
          refine ⟨_, rfl, inMems, counted,
            ⟨name, linkage, isConstant, some (.data object), section_, isMemory, ?_⟩, length⟩
          exact List.getElem?_set_self inside
      | value value => cases isImage
      | pointers elements => cases isImage

/-! ## The check of the bounds -/

theorem fits_iff {size count : Nat} :
    fits size offset count = true ↔ (count + offset.toNat) % 2 ^ 64 ≤ size := by
  rw [fits, decide_eq_true_eq]

theorem copyData_rejects (beyond : buffer.length < (data.length + offset.toNat) % 2 ^ 64) :
    copyData buffer offset data context = .error (.abort .assertion) := by
  unfold copyData
  rw [if_pos (Bool.eq_false_iff.mpr fun accepted => Nat.not_le_of_lt beyond (fits_iff.mp accepted))]
  rfl

theorem copyData_accepted (accepted : (data.length + offset.toNat) % 2 ^ 64 ≤ buffer.length) :
    copyData buffer offset data context =
      if (writtenPlaces offset data.length).all (· < buffer.length) then
        .ok (overwrite buffer offset.toNat data, context)
      else .error .undefined := by
  unfold copyData
  rw [if_neg (by rw [fits_iff.mpr accepted]; exact Bool.noConfusion)]
  split <;> rfl

/-- Data inside the buffer is written to its place. -/
theorem copyData_inside (inside : offset.toNat + data.length ≤ buffer.length) (limited : buffer.length ≤ 2 ^ 32) :
    copyData buffer offset data context = .ok (overwrite buffer offset.toNat data, context) := by
  have places : (writtenPlaces offset data.length).all (· < buffer.length) = true := by
    rw [List.all_eq_true]
    intro place member
    obtain ⟨index, covered, rfl⟩ := List.mem_map.mp member
    have small : index < data.length := List.mem_range.mp covered
    rw [decide_eq_true_eq, Nat.mod_eq_of_lt (by omega)]
    omega
  rw [copyData_accepted (by rw [Nat.mod_eq_of_lt (by omega)]; omega), if_pos places]

/-- Where the sum wraps around the check is passed, but not all bytes stay in the buffer. -/
theorem copyData_outside (accepted : (data.length + offset.toNat) % 2 ^ 64 ≤ buffer.length)
    (outside : buffer.length < offset.toNat + data.length) (limited : buffer.length ≤ 2 ^ 32)
    (small : data.length < 2 ^ 63) : copyData buffer offset data context = .error .undefined := by
  have bound := offset.isLt
  have first : offset.toNat % 2 ^ 64 ∈ writtenPlaces offset data.length :=
    List.mem_map.mpr ⟨0, List.mem_range.mpr (by omega), by rw [Nat.add_zero]⟩
  rw [copyData_accepted accepted, if_neg]
  intro places
  have inside := decide_eq_true_eq.mp (List.all_eq_true.mp places _ first)
  omega

/-- Data inside the memory is written at its offset, and for other data the check stops the
translation. -/
structure ExactCheck (context : Context) (segment : DataSegment) (mem size : Nat) (image : List Byte)
    (offset : Nat) : Prop where
  accepts : offset + segment.data.length ≤ size → ∃ after,
    visitDataSegment segment context = .ok ((), after) ∧
      HasImage after segment.memory mem size (overwrite image offset segment.data)
  rejects : size < offset + segment.data.length →
    visitDataSegment segment context = .error (.abort .assertion)

theorem toNat_signExtend_64 :
    (u.signExtend 64).toNat = if u.toNat < 2 ^ 31 then u.toNat else u.toNat + (2 ^ 64 - 2 ^ 32) := by
  have bound := u.isLt
  rw [BitVec.toNat_signExtend, BitVec.toNat_setWidth, BitVec.msb_eq_decide, Nat.mod_eq_of_lt (by omega)]
  by_cases high : 2 ^ 31 ≤ u.toNat
  · rw [if_pos (decide_eq_true high), if_neg (Nat.not_lt_of_le high)]
  · rw [if_neg (by simpa using high), if_pos (Nat.lt_of_not_le high)]
    rfl

/-- A segment that lies in the memory. -/
theorem visitDataSegment_inside (holds : HasImage context segment.memory mem size image)
    (flattens : context.opts.flattens) (isOffset : segment.offset = [.const (.i32 u)])
    (small : u.toNat < 2 ^ 31) (inside : u.toNat + segment.data.length ≤ size) (limited : size ≤ 2 ^ 32) :
    ∃ after, visitDataSegment segment context = .ok ((), after) ∧
      HasImage after segment.memory mem size (overwrite image u.toNat segment.data) := by
  obtain ⟨name, linkage, isConstant, initializer, section_, isMemory, isImage⟩ := holds.variable_
  have exact_ : (u.signExtend 64).toNat = u.toNat := by
    rw [toNat_signExtend_64, if_pos small]
  have length := holds.length
  have copied : copyData image (u.signExtend 64) segment.data context = _ :=
    copyData_inside (by omega) (by omega)
  rw [visitDataSegment_eq holds isMemory flattens (address_const isOffset), bind_run_ok copied, exact_]
  exact storeImage_run holds isMemory ((overwrite_length (by omega)).trans length)

/-- The check is exact for offsets below 2 ^ 31. For others the comparison is between numbers
that have wrapped around. -/
theorem visitDataSegment_exact_iff {pages : Nat}
    (holds : HasImage context segment.memory mem (pages * 65536) image) (limited : pages ≤ 65536)
    (flattens : context.opts.flattens) (isOffset : segment.offset = [.const (.i32 u)])
    (small : segment.data.length < 2 ^ 63) :
    ExactCheck context segment mem (pages * 65536) image u.toNat ↔
      u.toNat < 2 ^ 31 ∨
        (pages * 65536 < u.toNat + segment.data.length ∧ u.toNat + segment.data.length < 2 ^ 32) ∨
        2 ^ 32 + pages * 65536 < u.toNat + segment.data.length := by
  obtain ⟨name, linkage, isConstant, initializer, section_, isMemory, isImage⟩ := holds.variable_
  have length := holds.length
  have bound := u.isLt
  have size : pages * 65536 ≤ 2 ^ 32 := by omega
  have run := visitDataSegment_eq holds isMemory flattens (address_const isOffset)
  have rejected : pages * 65536 < (segment.data.length + (u.signExtend 64).toNat) % 2 ^ 64 →
      visitDataSegment segment context = .error (.abort .assertion) := fun beyond =>
    run.trans (bind_run_error (copyData_rejects (by omega)))
  by_cases low : u.toNat < 2 ^ 31
  · refine iff_of_true ⟨fun inside => ?_, fun beyond => rejected ?_⟩ (Or.inl low)
    · exact visitDataSegment_inside holds flattens isOffset low inside size
    · rw [toNat_signExtend_64, if_pos low, Nat.mod_eq_of_lt (by omega)]
      omega
  · have high : (u.signExtend 64).toNat = u.toNat + (2 ^ 64 - 2 ^ 32) := by
      rw [toNat_signExtend_64, if_neg low]
    by_cases below : u.toNat + segment.data.length < 2 ^ 32
    · have stops : visitDataSegment segment context = .error (.abort .assertion) := rejected (by omega)
      constructor
      · intro exact_
        by_contra misses
        obtain ⟨after, ran, _⟩ := exact_.accepts (by omega)
        cases ran.symm.trans stops
      · intro beyond
        exact ⟨fun inside => absurd inside (by omega), fun _ => stops⟩
    · by_cases beyond : 2 ^ 32 + pages * 65536 < u.toNat + segment.data.length
      · have stops : visitDataSegment segment context = .error (.abort .assertion) := rejected (by omega)
        exact iff_of_true ⟨fun inside => absurd inside (by omega), fun _ => stops⟩ (Or.inr (Or.inr beyond))
      · have writes : visitDataSegment segment context = .error .undefined :=
          run.trans (bind_run_error (copyData_outside (by omega) (by omega) (by omega) small))
        refine iff_of_false (fun exact_ => ?_) (by omega)
        by_cases inside : u.toNat + segment.data.length ≤ pages * 65536
        · obtain ⟨after, ran, _⟩ := exact_.accepts inside
          cases ran.symm.trans writes
        · cases (exact_.rejects (Nat.lt_of_not_le inside)).symm.trans writes

end Segment

/-- A context in which a memory of one page has been declared. -/
def onePageDeclared : Context :=
  ⟨⟨false, false, false, false, false, false, false⟩, ⟨[], [], [], [], [], [], [], [], []⟩,
    ⟨[⟨"__notdec_mem0".toList, .internal,
      .variable (.array 65536 (.int 8)) false (some (.zero (.array 65536 (.int 8)))) none⟩], 0⟩,
    [], [], [], [0], [], 0, 0, 1, 0, [.memory 0]⟩

theorem onePageDeclared_image :
    HasImage onePageDeclared 0 0 (1 * 65536) (List.replicate 65536 0) where
  inMems := rfl
  counted := by decide
  variable_ := ⟨_, _, _, _, _, rfl, rfl⟩
  length := List.length_replicate

theorem visitDataSegment_exact_iff_low :
    ExactCheck onePageDeclared ⟨[], 0, [.const (.i32 8)], [1, 2]⟩ 0 (1 * 65536) (List.replicate 65536 0) 8 ↔
      8 < 2 ^ 31 ∨ (1 * 65536 < 8 + 2 ∧ 8 + 2 < 2 ^ 32) ∨ 2 ^ 32 + 1 * 65536 < 8 + 2 := by
  have limited : 1 ≤ 65536 := by decide
  have small : ([1, 2] : List Byte).length < 2 ^ 63 := by decide
  have check : ExactCheck onePageDeclared ⟨[], 0, [.const (.i32 8)], [1, 2]⟩ 0 (1 * 65536)
      (List.replicate 65536 0) (8 : BitVec 32).toNat ↔ _ :=
    visitDataSegment_exact_iff onePageDeclared_image limited ⟨rfl, rfl⟩ rfl small
  exact check

/-- Two bytes at the offset 2 ^ 32 - 1 pass the check, and are written in front of the buffer. -/
theorem visitDataSegment_wraps :
    ¬ExactCheck onePageDeclared ⟨[], 0, [.const (.i32 (BitVec.ofNat 32 (2 ^ 32 - 1)))], [1, 2]⟩ 0 (1 * 65536)
      (List.replicate 65536 0) (2 ^ 32 - 1) := by
  intro exact_
  have length : (List.replicate 65536 (0 : Byte)).length = 65536 := List.length_replicate
  have run : visitDataSegment ⟨[], 0, [.const (.i32 (BitVec.ofNat 32 (2 ^ 32 - 1)))], [1, 2]⟩ onePageDeclared = _ :=
    visitDataSegment_eq onePageDeclared_image rfl ⟨rfl, rfl⟩ (address_const rfl)
  have copied : copyData (List.replicate 65536 0) (BitVec.signExtend 64 (BitVec.ofNat 32 (2 ^ 32 - 1))) [1, 2]
      onePageDeclared = .error .undefined := by
    apply copyData_outside
    · rw [length]
      decide
    · rw [length]
      decide
    · rw [length]
      decide
    · decide
  cases (exact_.rejects (by decide)).symm.trans (run.trans (bind_run_error copied))

end WasmToLlvm.Modules

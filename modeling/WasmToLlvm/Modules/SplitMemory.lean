import WasmToLlvm.Modules.DataPhase

/-!
# Data segments as variables

Under the option `SplitMem` every data segment becomes a variable, and the name of its
section has the address. Laid over zeros these variables give the memory of the other way.
-/

set_option autoImplicit false

namespace WasmToLlvm.Modules

open Llvm Wasm Block Instruction Library

/-- The number in the name of a section. -/
def decodeAddress (section_ : Name) : Option Nat :=
  if section_.take 8 = ".addr_0x".toList then readHex (section_.drop 8) else none

theorem decodeAddress_intToHex (number : Nat) :
    decodeAddress (".addr_".toList ++ intToHex number) = some number := by
  have front : (".addr_".toList ++ intToHex number).take 8 = ".addr_0x".toList := rfl
  have back : (".addr_".toList ++ intToHex number).drop 8 = Nat.toDigits 16 number := rfl
  rw [decodeAddress, if_pos front, back, readHex_toDigits]

/-- The address and the bytes of a variable with a section. -/
def segmentOf (arrays : DataArrays) (gv : GlobalValue Body) : Option (Nat × List Byte) :=
  match gv.object with
  | .variable (.array count (.int 8)) _ initializer (some section_) =>
      (decodeAddress section_).bind fun address =>
        (imageOf arrays count initializer).map fun bytes => (address, bytes)
  | _ => none

theorem segmentOf_congr {arrays : DataArrays} {gv gv' : GlobalValue Body} (same : gv'.object = gv.object) :
    segmentOf arrays gv' = segmentOf arrays gv := by
  unfold segmentOf
  rw [same]

theorem isBytes_of_segmentOf {arrays : DataArrays} {gv : GlobalValue Body} {piece : Nat × List Byte}
    (isPiece : segmentOf arrays gv = some piece) : IsBytes gv := by
  unfold segmentOf at isPiece
  split at isPiece
  · rename_i count isConstant initializer section_ isObject
    refine ⟨count, ?_⟩
    unfold GlobalValue.valueType
    rw [isObject]
  · cases isPiece

/-! ## More arrays -/

section Extend

variable {arrays arrays' : DataArrays} {size : Nat} {initializer : Option Constant} {bytes : List Byte}

theorem getRaw_extends (arrays : DataArrays) (bytes : List Byte) : arrays <+: (getRaw arrays bytes).2 := by
  unfold getRaw
  split
  · exact List.prefix_refl arrays
  · split
    · exact List.prefix_refl arrays
    · exact List.prefix_append arrays [bytes]

/-- Arrays that are added change no image. -/
theorem imageOf_extends (added : arrays <+: arrays') (isImage : imageOf arrays size initializer = some bytes) :
    imageOf arrays' size initializer = some bytes := by
  cases initializer with
  | none => exact isImage
  | some constant =>
      cases constant with
      | data object =>
          obtain ⟨more, same⟩ := added
          have found : arrays[object]? = some bytes := isImage
          show arrays'[object]? = some bytes
          rw [← same, List.getElem?_append_left (List.getElem?_eq_some_iff.mp found).1, found]
      | zero type => exact isImage
      | value value => exact isImage
      | pointers elements => exact isImage

/-- The arrays are those before, and perhaps some more; an image is still there. -/
theorem HasImage.extend {before after : Context} {index mem : Nat} {more : List (GlobalValue Body)}
    (holds : HasImage before index mem size bytes) (mems : after.mems = before.mems)
    (memIndex : after.memIndex = before.memIndex) (values : after.llvmModule.values = before.llvmModule.values ++ more)
    (added : before.arrays <+: after.arrays) : HasImage after index mem size bytes := by
  obtain ⟨name, linkage, isConstant, initializer, section_, found, isImage⟩ := holds.variable_
  refine ⟨mems ▸ holds.inMems, memIndex ▸ holds.counted,
    ⟨name, linkage, isConstant, initializer, section_, ?_, imageOf_extends added isImage⟩, holds.length⟩
  rw [values, List.getElem?_append_left (List.getElem?_eq_some_iff.mp found).1, found]

end Extend

/-! ## The variables -/

theorem segmentOf_variable {arrays : DataArrays} {name : Name} {linkage : Linkage} {isConstant : Bool} {address : Nat}
    {bytes : List Byte} {init : Constant} (isImage : imageOf arrays bytes.length (some init) = some bytes) :
    segmentOf arrays ⟨name, linkage, .variable (.array bytes.length (.int 8)) isConstant (some init)
      (some (".addr_".toList ++ intToHex address))⟩ = some (address, bytes) := by
  unfold segmentOf
  simp only [decodeAddress_intToHex, Option.bind_some, isImage, Option.map_some]

section Visit

variable {before : Context} {segment : DataSegment} {index mem size : Nat} {image : List Byte}

/-- What a segment adds as a variable. -/
structure AddsVariable (before after : Context) (piece : Nat × List Byte) (gv : GlobalValue Body) : Prop where
  values : after.llvmModule.values = before.llvmModule.values ++ [gv]
  arrays : before.arrays <+: after.arrays
  holds : ∀ arrays, after.arrays <+: arrays → segmentOf arrays gv = some piece
  opts : after.opts = before.opts
  mems : after.mems = before.mems
  memIndex : after.memIndex = before.memIndex
  typed : Typed before → Typed after

theorem createSplitSegment_run (before : Context) (memory : GlobalValue Body) (segment : DataSegment) (width value : Nat) :
    ∃ after gv, createSplitSegment memory segment (some (.int width value)) before = .ok ((), after) ∧
      AddsVariable before after (value % 2 ^ width, segment.data) gv := by
  have initialized : ∀ unique section_, Initialized ⟨unique, .internal, .variable (.array segment.data.length (.int 8))
      (decide (removeDollar segment.name = ".rodata".toList)) (some (getRaw before.arrays segment.data).1) section_⟩ := by
    intro unique section_ constant full
    cases full
    exact getRaw_fits before.arrays segment.data
  refine ⟨_, _, rfl, rfl, getRaw_extends before.arrays segment.data, fun arrays added => ?_, rfl, rfl, rfl,
    fun typed => ?_⟩
  · exact segmentOf_variable (imageOf_extends added (getRaw_image before.arrays segment.data))
  · have typedArrays : Typed { before with arrays := (getRaw before.arrays segment.data).2 } :=
      ⟨typed.values, typed.tables⟩
    exact ((createGlobalValue_keeps (initialized · _)).run rfl typedArrays).1

/-- Under the option the variable for the segment is all that is created. -/
theorem visitDataSegment_splits (holds : HasImage before segment.memory mem size image)
    (split : before.opts.splitMem = true) {memory : GlobalValue Body}
    (found : before.llvmModule.values[mem]? = some memory) :
    visitDataSegment segment before =
      (visitInitExpr segment.offset >>= createSplitSegment memory segment) before := by
  unfold visitDataSegment at_
  simp only [get_bind_run, if_neg (Nat.not_le_of_lt holds.counted), holds.inMems, found, pure_bind_run, split, if_true]

/-- Visiting a segment creates one variable. -/
theorem visitDataSegment_split (holds : HasImage before segment.memory mem size image)
    (split : before.opts.splitMem = true) {u : BitVec 32} (isOffset : segment.offset = [.const (.i32 u)]) :
    ∃ after gv, visitDataSegment segment before = .ok ((), after) ∧ AddsVariable before after segment.piece gv := by
  obtain ⟨name, linkage, isConstant, initializer, section_, found, isImage⟩ := holds.variable_
  have piece : segment.piece = (u.toNat, segment.data) := by
    unfold DataSegment.piece
    rw [isOffset]
  have small : u.toNat % 2 ^ 32 = u.toNat := Nat.mod_eq_of_lt u.isLt
  obtain ⟨after, gv, ran, adds⟩ := createSplitSegment_run before _ segment 32 u.toNat
  refine ⟨after, gv, ?_, piece ▸ small ▸ adds⟩
  rw [visitDataSegment_splits holds split found, isOffset]
  exact ran

/-- Visiting segments creates one variable for each, in order. -/
theorem visitDataSegments_split {segments : List DataSegment} (holds : HasImage before index mem size image)
    (typed : Typed before) (split : before.opts.splitMem = true) (within : ∀ segment ∈ segments, Within size index segment) :
    ∃ after gvs, segments.forM visitDataSegment before = .ok ((), after) ∧
      after.llvmModule.values = before.llvmModule.values ++ gvs ∧
      List.Forall₂ (fun segment gv => segmentOf after.arrays gv = some segment.piece) segments gvs ∧
      before.arrays <+: after.arrays ∧ Typed after := by
  induction segments generalizing before with
  | nil => exact ⟨before, [], rfl, (List.append_nil _).symm, .nil, List.prefix_refl _, typed⟩
  | cons segment rest ih =>
      have first := within segment List.mem_cons_self
      obtain ⟨u, isOffset, _⟩ := first.inside
      have holdsFirst : HasImage before segment.memory mem size image := first.memory.symm ▸ holds
      obtain ⟨middle, gv, ran, adds⟩ := visitDataSegment_split holdsFirst split isOffset
      have holdsMiddle : HasImage middle index mem size image :=
        holds.extend adds.mems adds.memIndex adds.values adds.arrays
      obtain ⟨after, gvs, ranRest, values, pieces, arrays, typedAfter⟩ := ih holdsMiddle (adds.typed typed)
        (adds.opts ▸ split) fun other member => within other (List.mem_cons_of_mem _ member)
      refine ⟨after, gv :: gvs, forM_cons_ok.mpr ⟨middle, ran, ranRest⟩, ?_, .cons (adds.holds _ arrays) pieces,
        adds.arrays.trans arrays, typedAfter⟩
      rw [values, adds.values, List.append_assoc]
      rfl

end Visit

/-! ## The module -/

/-- Variables laid over zeros in the order of their creation. -/
def overlay (size : Nat) (arrays : DataArrays) (gvs : List (GlobalValue Body)) : Option (List Byte) :=
  (gvs.mapM (segmentOf arrays)).map (overwriteAll (List.replicate size 0))

/-- There is one variable for each data segment, with its address and its bytes. -/
def OnePerSegment (arrays : DataArrays) (segments : List DataSegment) (gvs : List (GlobalValue Body)) : Prop :=
  List.Forall₂ (fun segment gv => segmentOf arrays gv = some segment.piece) segments gvs

theorem OnePerSegment.overlay {arrays : DataArrays} {segments : List DataSegment} {gvs : List (GlobalValue Body)}
    {size : Nat} (one : OnePerSegment arrays segments gvs) :
    overlay size arrays gvs = some (referenceImage size segments) := by
  have pieces : gvs.mapM (segmentOf arrays) = some (segments.map DataSegment.piece) := by
    rw [mapM_eq_some_iff, List.forall₂_map_right_iff]
    exact one.flip
  rw [Modules.overlay, pieces]
  rfl

theorem OnePerSegment.getElem? {arrays : DataArrays} {segments : List DataSegment} {gvs : List (GlobalValue Body)}
    {index : Nat} {segment : DataSegment} (one : OnePerSegment arrays segments gvs)
    (isSegment : segments[index]? = some segment) :
    ∃ gv, gvs[index]? = some gv ∧ segmentOf arrays gv = some segment.piece := by
  obtain ⟨inside, same⟩ := List.getElem?_eq_some_iff.mp isSegment
  have insideVariables : index < gvs.length := one.length_eq ▸ inside
  have piece := one.get inside insideVariables
  rw [List.get_eq_getElem, List.get_eq_getElem, same] at piece
  exact ⟨gvs[index], List.getElem?_eq_getElem insideVariables, piece⟩

/-- The data segments of a module become variables, which agree with the memory of a
translation where they do not. -/
structure SplitsMemory (opts : Options) (arrays : DataArrays) (module : Module) (size : Nat) : Prop where
  created : ∀ declared, declareEntities module (Context.start opts arrays module) = .ok ((), declared) →
    ∃ after gvs, module.dataSegments.forM visitDataSegment declared = .ok ((), after) ∧
      after.llvmModule.values = declared.llvmModule.values ++ gvs ∧
      OnePerSegment after.arrays module.dataSegments gvs
  kept : ∀ context, translateModule opts arrays module = .ok context →
    ∃ first, ∀ (index : Nat) (segment : DataSegment), module.dataSegments[index]? = some segment →
      ∃ gv, context.llvmModule.values[first + index]? = some gv ∧ segmentOf context.arrays gv = some segment.piece
  agrees : ∀ arrays' gvs flat flatArrays context, OnePerSegment arrays' module.dataSegments gvs → flat.flattens →
    translateModule flat flatArrays module = .ok context →
      ∃ mem image, overlay size arrays' gvs = some image ∧ HasImage context 0 mem size image

theorem translateModule_split {opts : Options} {arrays : DataArrays} {module : Module} {memory : Memory}
    (listed : module.Listed) (single : module.memories = [memory]) (split : opts.splitMem = true)
    (small : memory.pages * 65536 < 2 ^ 31)
    (within : ∀ segment ∈ module.dataSegments, Within (memory.pages * 65536) 0 segment) :
    SplitsMemory opts arrays module (memory.pages * 65536) := by
  have phase : ∀ declared, declareEntities module (Context.start opts arrays module) = .ok ((), declared) →
      ∃ after gvs, module.dataSegments.forM visitDataSegment declared = .ok ((), after) ∧
        after.llvmModule.values = declared.llvmModule.values ++ gvs ∧
        OnePerSegment after.arrays module.dataSegments gvs ∧ Typed after := by
    intro declared ran
    obtain ⟨mem, holds, typed, same⟩ := declareEntities_image listed single ran
    obtain ⟨after, gvs, ranSplit, values, one, _, typedAfter⟩ :=
      visitDataSegments_split holds typed (same.opts ▸ split) within
    exact ⟨after, gvs, ranSplit, values, one, typedAfter⟩
  refine ⟨fun declared ran => ?_, fun context ran => ?_, fun arrays' gvs flat flatArrays context one flattens ran => ?_⟩
  · obtain ⟨after, gvs, ranSplit, values, one, _⟩ := phase declared ran
    exact ⟨after, gvs, ranSplit, values, one⟩
  · obtain ⟨declared, filled, ranDeclare, ranFill, ranFinish⟩ := translateModule_iff.mp ran
    obtain ⟨after, gvs, ranSplit, values, one, typed⟩ := phase declared ranDeclare
    cases ranFill.symm.trans ranSplit
    have keeps := ((finishModule_keeps module).run ranFinish typed).2
    refine ⟨declared.llvmModule.values.length, fun index segment isSegment => ?_⟩
    obtain ⟨gv, isVariable, piece⟩ := one.getElem? isSegment
    have found : filled.llvmModule.values[declared.llvmModule.values.length + index]? = some gv := by
      rw [values, List.getElem?_append_right (Nat.le_add_right _ _), Nat.add_sub_cancel_left, isVariable]
    obtain ⟨gv', found', _, same⟩ := keeps.values _ gv found
    refine ⟨gv', found', ?_⟩
    rw [segmentOf_congr (same (isBytes_of_segmentOf piece)), keeps.arrays, piece]
  · obtain ⟨mem, holds⟩ := (translateModule_image listed single flattens small within).final context ran
    exact ⟨mem, _, one.overlay, holds⟩

/-- The second of two segments at one address has another name. -/
theorem translateModule_split_twice : SplitsMemory ⟨false, false, false, false, true, false, false⟩ []
    (pageModule [dataAt 8 [1, 2], dataAt 8 [3], dataAt 0 []]) (1 * 65536) := by
  have within : ∀ segment ∈ [dataAt 8 [1, 2], dataAt 8 [3], dataAt 0 []], Within (1 * 65536) 0 segment := by
    intro segment member
    simp only [List.mem_cons, List.not_mem_nil, or_false] at member
    rcases member with rfl | rfl | rfl
    · exact ⟨rfl, 8, rfl, by decide⟩
    · exact ⟨rfl, 8, rfl, by decide⟩
    · exact ⟨rfl, 0, rfl, by decide⟩
  have check : SplitsMemory ⟨false, false, false, false, true, false, false⟩ []
      (pageModule [dataAt 8 [1, 2], dataAt 8 [3], dataAt 0 []]) (Memory.pages ⟨[], ⟨1, none⟩⟩ * 65536) :=
    translateModule_split ⟨rfl, rfl, rfl, rfl⟩ rfl rfl (by decide) within
  exact check

end WasmToLlvm.Modules

import WasmToLlvm.Library.Integers
import WasmToLlvm.Library.Lanes
import WasmToLlvm.Llvm.Execution
import WasmToLlvm.Llvm.Operation

/-!
# Running straight-line code

The meaning of operations on vectors and scalars lane by lane, with poison, and of the
accesses to the memory of a module. An execution that is undefined has no result.
-/

set_option autoImplicit false

namespace WasmToLlvm.Llvm

open Library

/-- The bits of a lane, or poison. -/
abbrev Lane := Option Nat

/-- The lanes of a value; a scalar has one. -/
abbrev Datum := List Lane

/-- Arithmetic on floating-point numbers, which are given by their bits, at each width. -/
structure Floats where
  binary : BinaryOperator → Nat → Nat → Nat → Nat
  neg : Nat → Nat → Nat
  unary : Intrinsic → Nat → Nat → Nat
  pair : Intrinsic → Nat → Nat → Nat → Nat
  compare : FloatPredicate → Nat → Nat → Nat → Bool
  convert : CastOp → Nat → Nat → Nat → Lane

/-- The variable that stands for the memory: its address and its size. -/
structure Space where
  base : Nat
  size : Nat

structure Machine where
  arguments : List Datum
  registers : Nat → Option Datum
  bytes : Bytes

/-! ## Lanes -/

def Datum.poison (type : Ty) : Datum := List.replicate type.lanes none

def Datum.ofBits (type : Ty) (bits : Nat) : Datum :=
  (unpack type.laneBits type.lanes bits).map some

/-- The bits of a value; one with a poison lane has none. -/
def Datum.bits? (type : Ty) (datum : Datum) : Option Nat :=
  (datum.mapM id).map (pack type.laneBits)

theorem mapM_some (bits : List Nat) : (bits.map some).mapM (id : Lane → Option Nat) = some bits := by
  induction bits with
  | nil => rfl
  | cons lane bits ih =>
      rw [List.map_cons, List.mapM_cons, ih]
      rfl

/-- A value keeps the bits that it is made of. -/
theorem Datum.bits?_ofBits {type : Ty} {bits : Nat} (small : bits < 2 ^ type.size) :
    (Datum.ofBits type bits).bits? type = some bits := by
  rw [Datum.ofBits, Datum.bits?, mapM_some, Option.map_some, pack_unpack_of_lt]
  rwa [Nat.mul_comm]

/-- Lane by lane; values of different shapes have no result. -/
def Datum.zip (combine : Lane → Lane → Option Lane) : Datum → Datum → Option Datum
  | [], [] => some []
  | x :: xs, y :: ys => (combine x y).bind fun lane => (Datum.zip combine xs ys).map (lane :: ·)
  | _, _ => none

theorem Datum.zip_single {combine : Lane → Lane → Option Lane} {x y : Lane} :
    Datum.zip combine [x] [y] = (combine x y).map fun lane => [lane] := by
  rw [Datum.zip, Datum.zip]
  cases combine x y <;> rfl

/-- An operation whose result is poison where an operand is. -/
def Lane.lift (operation : Nat → Nat → Option Lane) : Lane → Lane → Option Lane
  | some x, some y => operation x y
  | _, _ => some none

@[simp] theorem Lane.lift_some {operation : Nat → Nat → Option Lane} {x y : Nat} :
    Lane.lift operation (some x) (some y) = operation x y := rfl

/-- An integer operation; the outer `none` is undefined behaviour. -/
def BinaryOperator.onInt (operator : BinaryOperator) {width : Nat} (x y : BitVec width) :
    Option Lane :=
  match operator with
  | .add => some (x + y).toNat
  | .sub => some (x - y).toNat
  | .mul => some (x * y).toNat
  | .sdiv => if y = 0 ∨ (x = BitVec.intMin width ∧ y = -1) then none else some (x.sdiv y).toNat
  | .udiv => if y = 0 then none else some (x.udiv y).toNat
  | .srem => if y = 0 ∨ (x = BitVec.intMin width ∧ y = -1) then none else some (x.srem y).toNat
  | .urem => if y = 0 then none else some (x.umod y).toNat
  | .and => some (x &&& y).toNat
  | .or => some (x ||| y).toNat
  | .xor => some (x ^^^ y).toNat
  | .shl => some (if y.toNat < width then some (x <<< y.toNat).toNat else none)
  | .ashr => some (if y.toNat < width then some (x.sshiftRight y.toNat).toNat else none)
  | .lshr => some (if y.toNat < width then some (x >>> y.toNat).toNat else none)
  | .fadd | .fsub | .fmul | .fdiv => none

/-- A division by poison is undefined. -/
def BinaryOperator.lane (floats : Floats) (operator : BinaryOperator) (type : Ty) (left right : Lane) :
    Option Lane :=
  if operator.isFloat then
    Lane.lift (fun x y => some (some (floats.binary operator type.laneBits x y))) left right
  else if operator.isDivision ∧ right = none then none
  else Lane.lift (fun x y =>
    operator.onInt (BitVec.ofNat type.laneBits x) (BitVec.ofNat type.laneBits y)) left right

def bit (condition : Bool) : Nat := if condition then 1 else 0

def CastOp.lane (floats : Floats) (kind : CastOp) (source target : Nat) (x : Nat) : Lane :=
  match kind with
  | .trunc | .intToPtr => some (x % 2 ^ target)
  | .zext | .bitCast => some x
  | .sext => some ((BitVec.ofNat source x).signExtend target).toNat
  | .fpTrunc | .fpExt | .fpToSI | .fpToUI | .siToFP | .uiToFP => floats.convert kind source target x

/-- A bitcast regroups the bits; a poison lane spoils the whole value. -/
def CastOp.datum (floats : Floats) (kind : CastOp) (source target : Ty) (datum : Datum) : Datum :=
  match kind with
  | .bitCast =>
      match datum.bits? source with
      | some bits => Datum.ofBits target bits
      | none => Datum.poison target
  | _ => datum.map fun lane => lane.bind (kind.lane floats source.laneBits target.laneBits)

/-- The signed number nearest to an integer at a width. -/
def saturate (width : Nat) (value : Int) : BitVec width :=
  BitVec.ofInt width (clamp width value)

/-- The operands one above the other, shifted by a count modulo the width. -/
def funnelLeft {width : Nat} (x y count : BitVec width) : BitVec width :=
  ((x ++ y) <<< (count.toNat % width)).extractLsb' width width

def funnelRight {width : Nat} (x y count : BitVec width) : BitVec width :=
  ((x ++ y) >>> (count.toNat % width)).extractLsb' 0 width

def Intrinsic.datum (floats : Floats) (callee : Intrinsic) (type : Ty) (data : List Datum) :
    Option Datum :=
  let width := type.laneBits
  match callee, data with
  | .fabs, [x] | .ceil, [x] | .floor, [x] | .roundeven, [x] | .trunc, [x] | .sqrt, [x] =>
      some (x.map fun lane => lane.map (floats.unary callee width))
  | .copysign, [x, y] | .minnum, [x, y] | .maxnum, [x, y] =>
      x.zip (Lane.lift fun x y => some (some (floats.pair callee width x y))) y
  | .ctpop, [x] => some (x.map fun lane => lane.map fun x => (BitVec.ofNat width x).cpop.toNat)
  | .ctlz, [x, [some poisoned]] =>
      some (x.map fun lane => lane.bind fun x =>
        if poisoned ≠ 0 ∧ x = 0 then none else some (BitVec.ofNat width x).clz.toNat)
  | .cttz, [x, [some poisoned]] =>
      some (x.map fun lane => lane.bind fun x =>
        if poisoned ≠ 0 ∧ x = 0 then none else some (BitVec.ofNat width x).ctz.toNat)
  | .fshl, [[some x], [some y], [some count]] =>
      some [some (funnelLeft (BitVec.ofNat width x) (BitVec.ofNat width y)
        (BitVec.ofNat width count)).toNat]
  | .fshr, [[some x], [some y], [some count]] =>
      some [some (funnelRight (BitVec.ofNat width x) (BitVec.ofNat width y)
        (BitVec.ofNat width count)).toNat]
  | .saddSat, [x, y] =>
      x.zip (Lane.lift fun x y => some (some (saturate width
        ((BitVec.ofNat width x).toInt + (BitVec.ofNat width y).toInt)).toNat)) y
  | .ssubSat, [x, y] =>
      x.zip (Lane.lift fun x y => some (some (saturate width
        ((BitVec.ofNat width x).toInt - (BitVec.ofNat width y).toInt)).toNat)) y
  | _, _ => none

/-- A choice for each lane. -/
def Datum.choose : Datum → Datum → Datum → Option Datum
  | [], [], [] => some []
  | test :: tests, x :: xs, y :: ys =>
      (Datum.choose tests xs ys).map ((test.bind fun test => if test ≠ 0 then x else y) :: ·)
  | _, _, _ => none

/-- One condition for the whole value, or one for each lane. -/
def selectDatum (condition ifTrue ifFalse : Datum) (lanewise : Bool) : Option Datum :=
  if lanewise then condition.choose ifTrue ifFalse
  else
    match condition with
    | [some test] => some (if test ≠ 0 then ifTrue else ifFalse)
    | _ => some (ifTrue.map fun _ => none)

theorem selectDatum_lanewise (condition ifTrue ifFalse : Datum) :
    selectDatum condition ifTrue ifFalse true = condition.choose ifTrue ifFalse := rfl

/-! ## Memory -/

/-- The bytes a value takes in memory. -/
def Ty.bytes (type : Ty) : Nat := type.size / 8

/-- The ABI alignment of a scalar or vector under the data layout
"e-m:e-p:32:32-i64:64-n32:64-S128". An integer without an alignment of its own has that of
the next larger one, and none is larger than 64 bits. -/
def Ty.abiAlign : Ty → Nat
  | .int width => if width ≤ 8 then 1 else if width ≤ 16 then 2 else if width ≤ 32 then 4 else 8
  | .float | .ptr => 4
  | .double => 8
  | .vector lanes element => lanes * element.bits / 8
  | .array _ element => if element.bits ≤ 8 then 1 else 4
  | .void => 1

namespace Space

variable (space : Space)

/-- The range lies in the memory. -/
def Contains (address count : Nat) : Prop :=
  space.base ≤ address ∧ address + count ≤ space.base + space.size

instance (address count : Nat) : Decidable (space.Contains address count) :=
  inferInstanceAs (Decidable (_ ∧ _))

/-- An access with the alignment of its type. -/
def Accessible (type : Ty) (address : Nat) : Prop :=
  space.Contains address type.bytes ∧ type.abiAlign ∣ address

instance (type : Ty) (address : Nat) : Decidable (space.Accessible type address) :=
  inferInstanceAs (Decidable (_ ∧ _))

end Space

/-- Ranges that `llvm.memcpy` takes. -/
def CopyRanges (dest src count : Nat) : Prop :=
  dest = src ∨ dest + count ≤ src ∨ src + count ≤ dest

instance (dest src count : Nat) : Decidable (CopyRanges dest src count) :=
  inferInstanceAs (Decidable (_ ∨ _ ∨ _))

/-! ## Execution -/

namespace Machine

def define (machine : Machine) (id : Nat) (datum : Datum) : Machine :=
  { machine with
    registers := fun other => if other = id then some datum else machine.registers other }

@[simp] theorem define_bytes (machine : Machine) (id : Nat) (datum : Datum) :
    (machine.define id datum).bytes = machine.bytes := rfl

@[simp] theorem define_arguments (machine : Machine) (id : Nat) (datum : Datum) :
    (machine.define id datum).arguments = machine.arguments := rfl

theorem define_same (machine : Machine) (id : Nat) (datum : Datum) :
    (machine.define id datum).registers id = some datum :=
  if_pos rfl

theorem define_other (machine : Machine) {id other : Nat} (datum : Datum) (different : other ≠ id) :
    (machine.define id datum).registers other = machine.registers other :=
  if_neg different

end Machine

section Execution

variable (floats : Floats) (space : Space)

/-- The addresses of functions, tables and globals are not given. -/
def GlobalRef.datum : GlobalRef → Option Datum
  | .memory 0 => some [some space.base]
  | _ => none

/-- What an operand stands for. An undefined value is taken for poison. -/
def Value.datum (machine : Machine) : Value → Option Datum
  | .inst id _ => machine.registers id
  | .arg index _ => machine.arguments[index]?
  | .int width value => some [some (value % 2 ^ width)]
  | .float bits | .double bits => some [some bits]
  | .null type => some (List.replicate type.lanes (some 0))
  | .undef type => some (Datum.poison type)
  | .allOnes type => some (List.replicate type.lanes (some (2 ^ type.laneBits - 1)))
  | .splat lanes width value => some (List.replicate lanes (some (value % 2 ^ width)))
  | .constant _ _ lanes => some lanes
  | .global ref => ref.datum space

@[simp] theorem Value.datum_int (machine : Machine) (width value : Nat) :
    (Value.int width value).datum space machine = some [some (value % 2 ^ width)] := rfl

@[simp] theorem Value.datum_null (machine : Machine) (type : Ty) :
    (Value.null type).datum space machine = some (List.replicate type.lanes (some 0)) := rfl

@[simp] theorem Value.datum_undef (machine : Machine) (type : Ty) :
    (Value.undef type).datum space machine = some (Datum.poison type) := rfl

@[simp] theorem Value.datum_allOnes (machine : Machine) (type : Ty) :
    (Value.allOnes type).datum space machine =
      some (List.replicate type.lanes (some (2 ^ type.laneBits - 1))) := rfl

@[simp] theorem Value.datum_memory (machine : Machine) :
    (Value.global (.memory 0)).datum space machine = some [some space.base] := rfl

/-- The result of an operation that does not use memory. -/
def Operation.eval (operation : Operation) (types : List Ty) (result : Ty) (data : List Datum) :
    Option Datum :=
  match operation, types, data with
  | .binary operator, [type, _], [x, y] => x.zip (operator.lane floats type) y
  | .fneg, [type], [x] => some (x.map fun lane => lane.map (floats.neg type.laneBits))
  | .fcmp predicate, [type, _], [x, y] =>
      x.zip (Lane.lift fun x y => some (some (bit (floats.compare predicate type.laneBits x y)))) y
  | .cast kind, [type], [x] => some (kind.datum floats type result x)
  | .intrinsic callee declared, _, data => callee.datum floats declared data
  | .extractElement, _, [x, [some index]] => some [x[index]?.join]
  | .insertElement, _, [x, [element], [some index]] =>
      some (if index < x.length then x.set index element else Datum.poison result)
  | .shuffleVector mask, _, [x, y] =>
      some (mask.map fun entry => entry.bind fun index => (x ++ y)[index]?.join)
  | .getElementPtr (.array count element), _, [[some base], [some first], [some index]] =>
      some [some ((base + (first * count + index) * element.bytes) % 2 ^ 32)]
  | _, _, _ => none

/-- An instruction other than those for the storage of locals. -/
def Plain.execute (machine : Machine) (id : Nat) : Plain Operation → Option Machine
  | .icmp predicate left right =>
      (left.datum space machine).bind fun x => (right.datum space machine).bind fun y =>
        (x.zip (Lane.lift fun x y =>
          some (some (bit (predicate.holds left.type.laneBits x y)))) y).map (machine.define id)
  | .select condition ifTrue ifFalse =>
      (condition.datum space machine).bind fun test => (ifTrue.datum space machine).bind fun x =>
        (ifFalse.datum space machine).bind fun y =>
          (selectDatum test x y condition.type.isVector).map (machine.define id)
  | .op operation type operands =>
      (operands.mapM (Value.datum space machine)).bind fun data =>
        match operation, data with
        | .load, [[some address]] =>
            if space.Accessible type address then
              some (machine.define id (Datum.ofBits type (machine.bytes.read address type.bytes)))
            else none
        | .store, [datum, [some address]] =>
            (operands.head?).bind fun value => (datum.bits? value.type).bind fun bits =>
              if space.Accessible value.type address then
                some { machine with bytes := machine.bytes.write address value.type.bytes bits }
              else none
        | .memCpy, [[some dest], [some src], [some count]] =>
            if count = 0 ∨ space.Contains dest count ∧ space.Contains src count ∧
                CopyRanges dest src count then
              some { machine with
                bytes := machine.bytes.write dest count (machine.bytes.read src count) }
            else none
        | .memSet, [[some dest], [some byte], [some count]] =>
            if count = 0 ∨ space.Contains dest count then
              some { machine with
                bytes := machine.bytes.write dest count (pack 8 (List.replicate count byte)) }
            else none
        | _, _ =>
            (operation.eval floats (operands.map Value.type) type data).map (machine.define id)
  | .alloca _ | .load _ _ | .store _ _ => none

/-- The instructions of a block, the first one with the identity `id`. -/
def executeAll (machine : Machine) (id : Nat) : List (Plain Operation) → Option Machine
  | [] => some machine
  | plain :: code =>
      (plain.execute floats space machine id).bind fun machine => executeAll machine (id + 1) code

theorem executeAll_append {floats : Floats} {space : Space} {machine : Machine} {id : Nat}
    {code more : List (Plain Operation)} :
    executeAll floats space machine id (code ++ more) =
      (executeAll floats space machine id code).bind fun machine =>
        executeAll floats space machine (id + code.length) more := by
  induction code generalizing machine id with
  | nil => rfl
  | cons plain code ih =>
      rw [List.cons_append, executeAll, executeAll]
      cases plain.execute floats space machine id with
      | none => rfl
      | some machine =>
          simp only [Option.bind_some]
          rw [ih, List.length_cons, Nat.add_assoc, Nat.add_comm 1]

/-! ## One operation -/

section Operations

variable {floats space} {machine : Machine} {id address dest src byte count : Nat} {operation : Operation}
  {type type' result : Ty} {operands : List Value} {types : List Ty} {value : Value} {x y datum : Datum}

theorem Operation.eval_binary {operator : BinaryOperator} :
    Operation.eval floats (.binary operator) [type, type'] result [x, y] = x.zip (operator.lane floats type) y := rfl

theorem Operation.eval_fcmp {predicate : FloatPredicate} :
    Operation.eval floats (.fcmp predicate) [type, type'] result [x, y] =
      x.zip (Lane.lift fun x y => some (some (bit (floats.compare predicate type.laneBits x y)))) y := rfl

theorem Operation.eval_cast {kind : CastOp} :
    Operation.eval floats (.cast kind) [type] result [x] = some (kind.datum floats type result x) := rfl

theorem Operation.eval_extractElement {index : Nat} :
    Operation.eval floats .extractElement types result [x, [some index]] = some [x[index]?.join] := rfl

theorem Operation.eval_insertElement {index : Nat} {element : Lane} (inside : index < x.length) :
    Operation.eval floats .insertElement types result [x, [element], [some index]] = some (x.set index element) :=
  congrArg some (if_pos inside)

theorem Operation.eval_shuffleVector {mask : List (Option Nat)} :
    Operation.eval floats (.shuffleVector mask) types result [x, y] =
      some (mask.map fun entry => entry.bind fun index => (x ++ y)[index]?.join) := rfl

theorem Operation.eval_getElementPtr {base first index : Nat} :
    Operation.eval floats (.getElementPtr (.array count type)) types result [[some base], [some first], [some index]] =
      some [some ((base + (first * count + index) * type.bytes) % 2 ^ 32)] := rfl

theorem Plain.execute_icmp {predicate : IntPredicate} {left right : Value} (isLeft : left.datum space machine = some x)
    (isRight : right.datum space machine = some y) :
    Plain.execute floats space machine id (.icmp predicate left right) =
      (x.zip (Lane.lift fun x y => some (some (bit (predicate.holds left.type.laneBits x y)))) y).map
        (machine.define id) := by
  rw [Plain.execute, isLeft, isRight, Option.bind_some, Option.bind_some]

theorem Plain.execute_select {condition left right : Value} (isCondition : condition.datum space machine = some datum)
    (isLeft : left.datum space machine = some x) (isRight : right.datum space machine = some y) :
    Plain.execute floats space machine id (.select condition left right) =
      (selectDatum datum x y condition.type.isVector).map (machine.define id) := by
  rw [Plain.execute, isCondition, isLeft, isRight, Option.bind_some, Option.bind_some, Option.bind_some]

/-- The operation reads or writes memory. -/
def Operation.isMemory : Operation → Bool
  | .load | .store | .memCpy | .memSet => true
  | _ => false

theorem Plain.execute_op (pure_ : operation.isMemory = false) :
    Plain.execute floats space machine id (.op operation type operands) =
      (operands.mapM (Value.datum space machine)).bind fun data =>
        (operation.eval floats (operands.map Value.type) type data).map (machine.define id) := by
  cases operation <;> first | rfl | cases pure_

theorem Plain.execute_load (stand : operands.mapM (Value.datum space machine) = some [[some address]]) :
    Plain.execute floats space machine id (.op .load type operands) =
      if space.Accessible type address then
        some (machine.define id (Datum.ofBits type (machine.bytes.read address type.bytes)))
      else none := by
  rw [Plain.execute, stand]
  rfl

theorem Plain.execute_store {bits : Nat}
    (stand : (value :: operands).mapM (Value.datum space machine) = some [datum, [some address]])
    (isBits : datum.bits? value.type = some bits) :
    Plain.execute floats space machine id (.op .store type (value :: operands)) =
      if space.Accessible value.type address then
        some { machine with bytes := machine.bytes.write address value.type.bytes bits }
      else none := by
  rw [Plain.execute, stand]
  exact congrArg (fun bits : Option Nat => bits.bind fun bits =>
    if space.Accessible value.type address then
      some { machine with bytes := machine.bytes.write address value.type.bytes bits }
    else none) isBits

theorem Plain.execute_memCpy
    (stand : operands.mapM (Value.datum space machine) = some [[some dest], [some src], [some count]]) :
    Plain.execute floats space machine id (.op .memCpy type operands) =
      if count = 0 ∨ space.Contains dest count ∧ space.Contains src count ∧ CopyRanges dest src count then
        some { machine with bytes := machine.bytes.write dest count (machine.bytes.read src count) }
      else none := by
  rw [Plain.execute, stand]
  rfl

theorem Plain.execute_memSet
    (stand : operands.mapM (Value.datum space machine) = some [[some dest], [some byte], [some count]]) :
    Plain.execute floats space machine id (.op .memSet type operands) =
      if count = 0 ∨ space.Contains dest count then
        some { machine with bytes := machine.bytes.write dest count (pack 8 (List.replicate count byte)) }
      else none := by
  rw [Plain.execute, stand]
  rfl

end Operations

end Execution

end WasmToLlvm.Llvm

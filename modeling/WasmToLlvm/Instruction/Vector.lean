import WasmToLlvm.Instruction.Running

/-!
# Values of 128 bits

The operands of vector instructions are bits that may come in any type of 128 bits. A
bitcast regroups them, and operations go lane by lane.
-/

set_option autoImplicit false

namespace WasmToLlvm.Llvm

open Library

/-! ## Lanes -/

@[simp] theorem Ty.size_int (width : Nat) : (Ty.int width).size = width :=
  Nat.one_mul width

/-- An integer has a single lane. -/
theorem Datum.ofBits_int {width bits : Nat} (small : bits < 2 ^ width) :
    Datum.ofBits (.int width) bits = [some bits] :=
  congrArg (List.map some) (unpack_one small)

theorem Datum.zip_map {combine : Lane → Lane → Option Lane} {result : Nat → Nat → Lane} {xs ys : List Nat}
    (combines : ∀ x ∈ xs, ∀ y ∈ ys, combine (some x) (some y) = some (result x y))
    (same : xs.length = ys.length) :
    Datum.zip combine (xs.map some) (ys.map some) = some (List.zipWith result xs ys) := by
  induction xs generalizing ys with
  | nil =>
      cases ys with
      | nil => rfl
      | cons y ys => cases same
  | cons x xs ih =>
      cases ys with
      | nil => cases same
      | cons y ys =>
          have rest := ih (fun x inXs y inYs => combines x (List.mem_cons_of_mem _ inXs) y
            (List.mem_cons_of_mem _ inYs)) (Nat.succ.inj same)
          rw [List.map_cons, List.map_cons, Datum.zip,
            combines x List.mem_cons_self y List.mem_cons_self, Option.bind_some, rest]
          rfl

/-- A choice by a comparison of lanes. -/
theorem Datum.choose_map {test : Nat → Nat → Bool} {xs ys : List Nat} (same : xs.length = ys.length) :
    Datum.choose (List.zipWith (fun x y => some (bit (test x y))) xs ys) (xs.map some) (ys.map some) =
      some (List.zipWith (fun x y => some (if test x y then x else y)) xs ys) := by
  induction xs generalizing ys with
  | nil =>
      cases ys with
      | nil => rfl
      | cons y ys => cases same
  | cons x xs ih =>
      cases ys with
      | nil => cases same
      | cons y ys =>
          rw [List.zipWith_cons_cons, List.map_cons, List.map_cons, Datum.choose, ih (Nat.succ.inj same)]
          cases chosen : test x y <;> simp [bit, chosen]

theorem Datum.choose_map_swap {test : Nat → Nat → Bool} {xs ys : List Nat}
    (same : xs.length = ys.length) :
    Datum.choose (List.zipWith (fun x y => some (bit (test x y))) xs ys) (ys.map some) (xs.map some) =
      some (List.zipWith (fun x y => some (if test x y then y else x)) xs ys) := by
  induction xs generalizing ys with
  | nil =>
      cases ys with
      | nil => rfl
      | cons y ys => cases same
  | cons x xs ih =>
      cases ys with
      | nil => cases same
      | cons y ys =>
          rw [List.zipWith_cons_cons, List.map_cons, List.map_cons, Datum.choose, ih (Nat.succ.inj same)]
          cases chosen : test x y <;> simp [bit, chosen]

end WasmToLlvm.Llvm

namespace WasmToLlvm.Instruction

open Llvm Wasm Block Library

/-! ## Operands -/

/-- The value stands for the bits, in its own type. -/
structure IsV128 (space : Space) (setting : Setting) (value : Value) (bits : Nat) : Prop where
  size : value.type.size = 128
  scalar : value.type.scalar.isInt ∨ value.type.scalar.isFloat
  holds : Holds space setting value value.type (Datum.ofBits value.type bits)
  small : bits < 2 ^ 128

section Vectors

variable {floats : Floats} {space : Space} {setting setting' : Setting} {value p1 p2 : Value}
  {bits x y : Nat} {type shape : Ty} {outcome : Option Datum}

theorem IsV128.later (isV128 : IsV128 space setting value bits) (later : Later setting setting') :
    IsV128 space setting' value bits :=
  ⟨isV128.size, isV128.scalar, isV128.holds.later later, isV128.small⟩

theorem IsV128.popped (isV128 : IsV128 space setting value bits) (stack : List Value) :
    IsV128 space (setting.withStack stack) value bits :=
  ⟨isV128.size, isV128.scalar, isV128.holds.stack stack, isV128.small⟩

/-- A constant of 128 bits. -/
theorem isV128_const (small : bits < 2 ^ 128) : IsV128 space setting (.int 128 bits) bits where
  size := rfl
  scalar := Or.inl rfl
  holds := .constant rfl (by
    rw [Value.datum_int, Nat.mod_eq_of_lt small]
    exact congrArg some (Datum.ofBits_int small).symm) fun _ _ isInst => by cases isInst
  small := small

/-- A bitcast regroups the bits of a value. -/
theorem bitCast_computes (isV128 : IsV128 space setting value bits) (shape : Ty) :
    Computes floats space setting (createCast .bitCast value shape) shape
      (some (Datum.ofBits shape bits)) := by
  by_cases same : value.type = shape
  · have holds := isV128.holds
    rw [same] at holds
    exact createCast_same holds
  · have regrouped : CastOp.datum floats .bitCast value.type shape (Datum.ofBits value.type bits) =
        Datum.ofBits shape bits := by
      have kept := Datum.bits?_ofBits (isV128.size ▸ isV128.small)
      simp only [CastOp.datum, kept]
    rw [← regrouped]
    exact createCast_computes isV128.holds same

/-- An operation on two vectors of one shape; the top of the stack is on the left. -/
theorem emitSimdBinaryOp_computes {emitCode : Value → Value → Emit Value}
    (isX : IsV128 space setting p2 x) (isY : IsV128 space setting p1 y)
    (quiet : ∀ left right, Quiet (emitCode left right))
    (computes : ∀ {setting' left right}, Holds space setting' left shape (Datum.ofBits shape y) →
      Holds space setting' right shape (Datum.ofBits shape x) →
        Computes floats space setting' (emitCode left right) type outcome) :
    Computes floats space setting (emitSimdBinaryOp shape p1 p2 emitCode) type outcome := by
  rw [emitSimdBinaryOp]
  refine (bitCast_computes isX shape).andThen (createCast_quiet ..) (fun _ => quiet_bind
    (createCast_quiet ..) fun _ => quiet ..) fun later isRight => ?_
  refine (bitCast_computes (isY.later later) shape).andThen (createCast_quiet ..) (fun _ => quiet ..)
    fun later' isLeft => ?_
  exact computes isLeft (isRight.later later')

/-! ## Lane by lane -/

/-- Lanes of two vectors, combined. -/
def lanewise (shape : Ty) (combine : Nat → Nat → Nat) (x y : Nat) : Datum :=
  List.zipWith (fun x y => some (combine x y)) (unpack shape.laneBits shape.lanes x)
    (unpack shape.laneBits shape.lanes y)

variable {left right condition : Value} {conditionType : Ty} {test : Nat → Nat → Bool}

/-- An operation whose result is never poison. -/
theorem zip_lanewise {combine : Lane → Lane → Option Lane} {result : Nat → Nat → Nat}
    (combines : ∀ x < 2 ^ shape.laneBits, ∀ y < 2 ^ shape.laneBits,
      combine (some x) (some y) = some (some (result x y))) :
    Datum.zip combine (Datum.ofBits shape x) (Datum.ofBits shape y) = some (lanewise shape result x y) :=
  Datum.zip_map (fun x inX y inY => combines x (unpack_lt inX) y (unpack_lt inY))
    (by rw [unpack_length, unpack_length])

theorem createBinary_lanes {operator : BinaryOperator} {result : Nat → Nat → Nat}
    (isLeft : Holds space setting left shape (Datum.ofBits shape x))
    (isRight : Holds space setting right shape (Datum.ofBits shape y))
    (combines : ∀ x < 2 ^ shape.laneBits, ∀ y < 2 ^ shape.laneBits,
      operator.lane floats shape (some x) (some y) = some (some (result x y))) :
    Computes floats space setting (createBinary operator left right) shape
      (some (lanewise shape result x y)) := by
  rw [← zip_lanewise combines]
  exact createBinary_computes isLeft isRight

theorem createICmp_lanes {predicate : IntPredicate}
    (isLeft : Holds space setting left shape (Datum.ofBits shape x))
    (isRight : Holds space setting right shape (Datum.ofBits shape y))
    (tests : ∀ x < 2 ^ shape.laneBits, ∀ y < 2 ^ shape.laneBits,
      predicate.holds shape.laneBits x y = test x y) :
    Computes floats space setting (createICmp predicate left right) shape.comparison
      (some (lanewise shape (fun x y => bit (test x y)) x y)) := by
  have computes : Computes floats space setting (createICmp predicate left right) shape.comparison _ :=
    createICmp_computes isLeft isRight
  rwa [zip_lanewise] at computes
  intro x smallX y smallY
  rw [Lane.lift_some, tests x smallX y smallY]

theorem createFCmp_lanes {predicate : FloatPredicate}
    (isLeft : Holds space setting left shape (Datum.ofBits shape x))
    (isRight : Holds space setting right shape (Datum.ofBits shape y))
    (tests : ∀ x y, floats.compare predicate shape.laneBits x y = test x y) :
    Computes floats space setting (createFCmp predicate left right) shape.comparison
      (some (lanewise shape (fun x y => bit (test x y)) x y)) := by
  have computes : Computes floats space setting (createFCmp predicate left right) shape.comparison _ :=
    createFCmp_computes isLeft isRight
  rwa [zip_lanewise] at computes
  intro x smallX y smallY
  rw [Lane.lift_some, tests x y]

/-- The first operand of the comparison where it holds. -/
theorem createSelect_lanes (vector : conditionType.isVector = true)
    (isTest : Holds space setting condition conditionType (lanewise shape (fun x y => bit (test x y)) x y))
    (isLeft : Holds space setting left shape (Datum.ofBits shape x))
    (isRight : Holds space setting right shape (Datum.ofBits shape y)) :
    Computes floats space setting (createSelect condition left right) shape
      (some (lanewise shape (fun x y => if test x y then x else y) x y)) := by
  have computes : Computes floats space setting (createSelect condition left right) shape _ :=
    createSelect_computes isTest isLeft isRight
  rw [vector, selectDatum_lanewise, lanewise, Datum.ofBits, Datum.ofBits, Datum.choose_map] at computes
  · exact computes
  · rw [unpack_length, unpack_length]

/-- The second operand of the comparison where it holds. -/
theorem createSelect_lanes_swap (vector : conditionType.isVector = true)
    (isTest : Holds space setting condition conditionType (lanewise shape (fun x y => bit (test x y)) x y))
    (isLeft : Holds space setting left shape (Datum.ofBits shape y))
    (isRight : Holds space setting right shape (Datum.ofBits shape x)) :
    Computes floats space setting (createSelect condition left right) shape
      (some (lanewise shape (fun x y => if test x y then y else x) x y)) := by
  have computes : Computes floats space setting (createSelect condition left right) shape _ :=
    createSelect_computes isTest isLeft isRight
  rw [vector, selectDatum_lanewise, lanewise, Datum.ofBits, Datum.ofBits, Datum.choose_map_swap] at computes
  · exact computes
  · rw [unpack_length, unpack_length]

end Vectors

end WasmToLlvm.Instruction

import WasmToLlvm.Library.Integers
import WasmToLlvm.Library.Lanes

/-!
# Integer instructions

The meaning WebAssembly gives to the instructions on integers of one width. Operands and
results are numbers below a power of two.
-/

set_option autoImplicit false

namespace WasmToLlvm.Wasm

open Library

inductive IntUnary where
  | clz | ctz | popcnt
  deriving DecidableEq, Repr

inductive IntBinary where
  | add | sub | mul | divS | divU | remS | remU
  | and | or | xor | shl | shrS | shrU | rotl | rotr
  deriving DecidableEq, Repr

inductive IntRelation where
  | eq | ne | ltS | ltU | gtS | gtU | leS | leU | geS | geU
  deriving DecidableEq, Repr

def IntUnary.eval (operation : IntUnary) (width x : Nat) : Nat :=
  match operation with
  | .clz => leadingZeros width x
  | .ctz => trailingZeros width x
  | .popcnt => countOnes width x

/-- A trap has no result. Shifts take their count modulo the width. -/
def IntBinary.eval (operation : IntBinary) (width x y : Nat) : Option Nat :=
  match operation with
  | .add => some ((x + y) % 2 ^ width)
  | .sub => some (wrap width ((x : Int) - y))
  | .mul => some (x * y % 2 ^ width)
  | .divS =>
      if y = 0 ∨ (x = 2 ^ (width - 1) ∧ y = 2 ^ width - 1) then none
      else some (wrap width ((signed width x).tdiv (signed width y)))
  | .divU => if y = 0 then none else some (x / y)
  | .remS => if y = 0 then none else some (wrap width ((signed width x).tmod (signed width y)))
  | .remU => if y = 0 then none else some (x % y)
  | .and => some (x &&& y)
  | .or => some (x ||| y)
  | .xor => some (x ^^^ y)
  | .shl => some (x * 2 ^ (y % width) % 2 ^ width)
  | .shrS => some (wrap width (signed width x / 2 ^ (y % width)))
  | .shrU => some (x / 2 ^ (y % width))
  | .rotl => some (rotateLeft width x (y % width))
  | .rotr => some (rotateRight width x (y % width))

def IntRelation.holds (relation : IntRelation) (width x y : Nat) : Bool :=
  match relation with
  | .eq => x == y
  | .ne => x != y
  | .ltS => signed width x < signed width y
  | .ltU => x < y
  | .gtS => signed width x > signed width y
  | .gtU => x > y
  | .leS => signed width x ≤ signed width y
  | .leU => x ≤ y
  | .geS => signed width x ≥ signed width y
  | .geU => x ≥ y

/-- The instructions on scalar integers; `extend` reads the low bits of its operand as a
signed number, and `widen` is `i64.extend_i32`. -/
inductive IntOp where
  | unary (operation : IntUnary) (width : Nat)
  | binary (operation : IntBinary) (width : Nat)
  | compare (relation : IntRelation) (width : Nat)
  | eqz (width : Nat)
  | extend (low width : Nat)
  | widen (sign : Bool)
  | wrap
  deriving DecidableEq, Repr

namespace IntOp

/-- The widths of the operands, in the order in which they are pushed. -/
def inputs : IntOp → List Nat
  | .unary _ width | .eqz width | .extend _ width => [width]
  | .binary _ width | .compare _ width => [width, width]
  | .widen _ => [32]
  | .wrap => [64]

def output : IntOp → Nat
  | .unary _ width | .binary _ width | .extend _ width => width
  | .compare _ _ | .eqz _ | .wrap => 32
  | .widen _ => 64

def eval : IntOp → List Nat → Option Nat
  | .unary operation width, [x] => some (operation.eval width x)
  | .binary operation width, [x, y] => operation.eval width x y
  | .compare relation width, [x, y] => some (if relation.holds width x y then 1 else 0)
  | .eqz _, [x] => some (if x = 0 then 1 else 0)
  | .extend low width, [x] => some (Library.wrap width (signed low (x % 2 ^ low)))
  | .widen sign, [x] => some (if sign then Library.wrap 64 (signed 32 x) else x)
  | .wrap, [x] => some (x % 2 ^ 32)
  | _, _ => none

end IntOp

end WasmToLlvm.Wasm

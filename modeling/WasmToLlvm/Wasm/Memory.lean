import WasmToLlvm.Library.Integers
import WasmToLlvm.Library.Lanes

/-!
# Loads

What the loads of WebAssembly give for the bits that they read.
-/

set_option autoImplicit false

namespace WasmToLlvm.Wasm

open Library

/-- The ways to load, with the widths of what is read and of what is given. -/
inductive LoadKind where
  | whole (width : Nat)
  | extend (sign : Bool) (count source target : Nat)
  | splat (count width : Nat)
  | zero (source target : Nat)
  deriving DecidableEq, Repr

namespace LoadKind

/-- The number of bytes that are read. -/
def bytes : LoadKind → Nat
  | whole width | splat _ width | zero width _ => width / 8
  | extend _ count source _ => count * source / 8

/-- The width of the result. -/
def width : LoadKind → Nat
  | whole width => width
  | extend _ count _ target => count * target
  | splat count width => count * width
  | zero _ target => target

/-- A scalar is extended as a single lane. -/
def extendLane (sign : Bool) (source target lane : Nat) : Nat :=
  if sign then wrap target (signed source lane) else lane

/-- The result for the bits that are read. -/
def value : LoadKind → Nat → Nat
  | whole _, bits | zero _ _, bits => bits
  | extend sign count source target, bits =>
      pack target ((unpack source count bits).map (extendLane sign source target))
  | splat count width, bits => pack width (List.replicate count bits)

end LoadKind

end WasmToLlvm.Wasm

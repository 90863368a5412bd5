import WasmToLlvm.Library.Simulation
import WasmToLlvm.Llvm.Growth

/-!
# Execution of functions

Values at run time are bit patterns. Memory that `alloca` provides is numbered in
the order of its creation; the operations of straight-line code act on a store.
-/

set_option autoImplicit false

namespace WasmToLlvm.Llvm

open Library

/-- The effects of the operations of straight-line code. -/
abbrev Effect (Op Store : Type) := Op → List Nat → Store → Option (List Nat × Store)

abbrev Registers := Nat → Option Nat

namespace Registers

def empty : Registers := fun _ => none

def set (registers : Registers) (id value : Nat) : Registers :=
  fun other => if other = id then some value else registers other

/-- Phis take their values at the same time. -/
def setAll (registers : Registers) (ids values : List Nat) : Registers :=
  fun other => ((ids.zip values).find? fun pair => pair.1 == other).map (·.2) <|> registers other

@[simp] theorem set_same (registers : Registers) (id value : Nat) :
    registers.set id value id = some value := by
  simp [set]

theorem set_other {registers : Registers} {id other : Nat} (value : Nat) (different : other ≠ id) :
    registers.set id value other = registers other := by
  simp [set, different]

end Registers

/-- The width of a scalar type. -/
def Ty.scalarWidth? : Ty → Option Nat
  | .int width => some width
  | .float => some 32
  | .double => some 64
  | .ptr => some 32
  | .void | .vector _ _ | .array _ _ => none

def IntPredicate.holds (predicate : IntPredicate) (width left right : Nat) : Bool :=
  let x := BitVec.ofNat width left
  let y := BitVec.ofNat width right
  match predicate with
  | .eq => left == right
  | .ne => left != right
  | .sgt => y.slt x
  | .sge => y.sle x
  | .slt => x.slt y
  | .sle => x.sle y
  | .ugt => y.ult x
  | .uge => y.ule x
  | .ult => x.ult y
  | .ule => x.ule y

/-- The bit pattern of an operand. Vectors, undefined values and addresses of global
objects do not occur in code that transfers control, and have no meaning here. -/
def Value.eval (arguments : List Nat) (registers : Registers) : Value → Option Nat
  | .inst id _ => registers id
  | .arg index _ => arguments[index]?
  | .int width value => some (value % 2 ^ width)
  | .float bits => some bits
  | .double bits => some bits
  | .null _ => some 0
  | .undef _ | .allOnes _ | .splat _ _ _ | .constant _ _ _ | .global _ => none

structure State (Store : Type) where
  block : Nat
  position : Nat
  registers : Registers
  slots : List (Option Nat)
  store : Store

section Machine

variable {Op Store : Type}

namespace State

abbrev Next (Op Store : Type) := Move (State Store) (Op × List Nat) (Ending Nat Store)

/-- Behind an instruction with a result. -/
def define (state : State Store) (id value : Nat) : State Store :=
  { state with position := state.position + 1, registers := state.registers.set id value }

/-- The value of a phi for the edge from the current block. -/
def phiValue (function : Function Op) (arguments : List Nat) (state : State Store) (phi : Nat) :
    Option Nat :=
  ((function.entries phi).find? fun entry => entry.2 == some state.block).bind fun entry =>
    entry.1.eval arguments state.registers

def jump (function : Function Op) (arguments : List Nat) (state : State Store) (target : Nat) :
    Next Op Store :=
  let phis := function.leadingPhis target
  match phis.mapM (state.phiValue function arguments) with
  | none => .stuck
  | some values =>
      .step none { state with
        block := target
        position := phis.length
        registers := state.registers.setAll phis values }

def executePlain (effect : Effect Op Store) (arguments : List Nat) (state : State Store) (id : Nat) :
    Plain Op → Next Op Store
  | .alloca _ =>
      .step none { state.define id state.slots.length with slots := state.slots ++ [none] }
  | .load _ address =>
      match (address.eval arguments state.registers).bind fun slot => state.slots[slot]?.join with
      | some value => .step none (state.define id value)
      | none => .stuck
  | .store value address =>
      match value.eval arguments state.registers, address.eval arguments state.registers with
      | some value, some slot =>
          if slot < state.slots.length then
            .step none { state with
              position := state.position + 1
              slots := state.slots.set slot (some value) }
          else .stuck
      | _, _ => .stuck
  | .icmp predicate left right =>
      match left.type.scalarWidth?, left.eval arguments state.registers,
        right.eval arguments state.registers with
      | some width, some x, some y =>
          .step none (state.define id (if predicate.holds width x y then 1 else 0))
      | _, _, _ => .stuck
  | .select condition ifTrue ifFalse =>
      match condition.type.scalarWidth?, condition.eval arguments state.registers,
        ifTrue.eval arguments state.registers, ifFalse.eval arguments state.registers with
      | some _, some test, some x, some y => .step none (state.define id (if test ≠ 0 then x else y))
      | _, _, _, _ => .stuck
  | .op op _ operands =>
      match operands.mapM (Value.eval arguments state.registers) with
      | none => .stuck
      | some values =>
          match effect op values state.store with
          | none => .halt (.trapped state.store)
          | some (results, after) =>
              .step (some (op, values)) { state with
                position := state.position + 1
                registers := results.head?.elim state.registers (state.registers.set id)
                store := after }

def execute (effect : Effect Op Store) (function : Function Op) (arguments : List Nat)
    (state : State Store) (id : Nat) : Inst Op → Next Op Store
  | .plain code => state.executePlain effect arguments id code
  | .phi _ _ => .stuck
  | .br target => state.jump function arguments target
  | .condBr condition ifTrue ifFalse =>
      match condition.eval arguments state.registers with
      | some test => state.jump function arguments (if test ≠ 0 then ifTrue else ifFalse)
      | none => .stuck
  | .switch condition default =>
      match condition.eval arguments state.registers with
      | some test =>
          state.jump function arguments
            (((function.casesOf id).find? fun case => case.1 == test).elim default (·.2))
      | none => .stuck
  | .ret none => .halt (.returned [] state.store)
  | .ret (some value) =>
      match value.eval arguments state.registers with
      | some value => .halt (.returned [value] state.store)
      | none => .stuck
  | .unreachable => .halt (.trapped state.store)

/-- One instruction; the phis of a block are executed by the jump to it. -/
def step (effect : Effect Op Store) (function : Function Op) (arguments : List Nat)
    (state : State Store) : Next Op Store :=
  match (function.body state.block)[state.position]? with
  | none => .stuck
  | some id =>
      match function.insts[id]? with
      | none => .stuck
      | some inst => state.execute effect function arguments id inst

/-- The call of a function. -/
def start (store : Store) : State Store := ⟨0, 0, .empty, [], store⟩

theorem executePlain_op {effect : Effect Op Store} {arguments values : List Nat} {state : State Store}
    {op : Op} {operands : List Value} (id : Nat) (type : Ty)
    (evaluates : operands.mapM (Value.eval arguments state.registers) = some values) :
    state.executePlain effect arguments id (.op op type operands) =
      match effect op values state.store with
      | none => .halt (.trapped state.store)
      | some (results, after) =>
          .step (some (op, values)) { state with
            position := state.position + 1
            registers := results.head?.elim state.registers (state.registers.set id)
            store := after } := by
  simp only [executePlain, evaluates]

theorem step_eq {effect : Effect Op Store} {function : Function Op} {arguments : List Nat}
    {state : State Store} {id : Nat} {inst : Inst Op}
    (here : (function.body state.block)[state.position]? = some id)
    (found : function.insts[id]? = some inst) :
    state.step effect function arguments = state.execute effect function arguments id inst := by
  rw [step, here]
  dsimp only
  rw [found]

end State

end Machine

/-! ## Code in place -/

section Code

variable {Op : Type} {function larger : Function Op} {block : Nat}

/-- Code at the end of a block is found there in every extension. -/
theorem Function.Grows.code {insts : List (Inst Op)} (bound : block < function.blocks.length)
    (grows : (function.appendAll block insts).Grows larger) {index : Nat} {inst : Inst Op}
    (found : insts[index]? = some inst) :
    (larger.body block)[(function.body block).length + index]? = some (function.insts.length + index) ∧
      larger.insts[function.insts.length + index]? = some inst := by
  have inside := (List.getElem?_eq_some_iff.mp found).1
  constructor
  · obtain ⟨more, whole⟩ := grows.bodies block
    rw [← whole, Function.body_appendAll_self bound, List.getElem?_append_left (by simpa using inside),
      List.getElem?_append_right (Nat.le_add_right _ _), Nat.add_sub_cancel_left,
      List.getElem?_range' inside, Nat.one_mul]
  · refine grows.inst ?_
    rw [Function.insts_appendAll, List.getElem?_append_right (Nat.le_add_right _ _),
      Nat.add_sub_cancel_left, found]

end Code

/-! ## Phis at a jump -/

section Phis

theorem Registers.setAll_other {registers : Registers} {ids values : List Nat} {other : Nat}
    (absent : other ∉ ids) : registers.setAll ids values other = registers other := by
  have none : (ids.zip values).find? (fun pair => pair.1 == other) = none := by
    rw [List.find?_eq_none]
    intro pair member same
    exact absent (eq_of_beq same ▸ (List.of_mem_zip member).1)
  rw [setAll, none]
  rfl

theorem Registers.setAll_get {registers : Registers} {ids values : List Nat} {index id value : Nat}
    (unique : ids.Nodup) (found : ids[index]? = some id) (given : values[index]? = some value) :
    registers.setAll ids values id = some value := by
  have here : (ids.zip values).find? (fun pair => pair.1 == id) = some (id, value) := by
    induction ids generalizing values index with
    | nil => simp at found
    | cons first ids ih =>
        cases values with
        | nil => simp at given
        | cons firstValue values =>
            obtain ⟨apart, unique⟩ := List.nodup_cons.mp unique
            cases index with
            | zero =>
                obtain rfl : first = id := by simpa using found
                obtain rfl : firstValue = value := by simpa using given
                simp
            | succ index =>
                have member : id ∈ ids := List.mem_of_getElem? (by simpa using found)
                have different : (first == id) = false := by
                  rw [beq_eq_false_iff_ne]
                  rintro rfl
                  exact apart member
                rw [List.zip_cons_cons, List.find?_cons_of_neg (by simp [different])]
                exact ih unique (by simpa using found) (by simpa using given)
  rw [setAll, here]
  rfl

end Phis

end WasmToLlvm.Llvm

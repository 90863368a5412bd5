import WasmToLlvm.Block.Lowering

/-!
# Values at run time

What the values of the symbolic stack stand for when the translated function runs,
and what a jump does to them: the phis of the target take the values that the edge
carries.
-/

set_option autoImplicit false

namespace WasmToLlvm.Llvm

theorem Value.eval_congr {arguments : List Nat} {registers registers' : Registers} {value : Value}
    (same : ∀ id, value.instId? = some id → registers' id = registers id) :
    value.eval arguments registers' = value.eval arguments registers := by
  cases value <;> first | rfl | exact same _ rfl

end WasmToLlvm.Llvm

namespace WasmToLlvm.Block

open Llvm Wasm Library BlockContext

/-- The operands that symbolic values stand for. -/
abbrev Denotes (arguments : List Nat) (registers : Registers) (values : List Value)
    (operands : List Nat) : Prop :=
  List.Forall₂ (fun value operand => value.eval arguments registers = some operand) values operands

/-- The same values in the registers with smaller numbers. -/
def Agree (count : Nat) (registers registers' : Registers) : Prop :=
  ∀ id < count, registers' id = registers id

section Denotes

variable {arguments : List Nat} {registers registers' : Registers} {values : List Value}
  {operands : List Nat} {count : Nat}

theorem Agree.trans {registers'' : Registers} (first : Agree count registers registers')
    (second : Agree count registers' registers'') : Agree count registers registers'' :=
  fun id bound => (second id bound).trans (first id bound)

theorem agree_refl : Agree count registers registers :=
  fun _ _ => rfl

theorem agree_set {id : Nat} (value : Nat) (above : count ≤ id) :
    Agree count registers (registers.set id value) :=
  fun _ bound => Registers.set_other value (Nat.ne_of_lt (Nat.lt_of_lt_of_le bound above))

theorem Denotes.update (denotes : Denotes arguments registers values operands)
    (known : ∀ value ∈ values, value.Known count) (agree : Agree count registers registers') :
    Denotes arguments registers' values operands := by
  induction denotes with
  | nil => exact .nil
  | @cons value operand values operands found rest ih =>
      refine .cons ?_ (ih fun other member => known other (List.mem_cons_of_mem _ member))
      rw [Value.eval_congr fun id is => agree id ((known value List.mem_cons_self).older id is), found]

theorem Denotes.append {values' : List Value} {operands' : List Nat}
    (first : Denotes arguments registers values operands)
    (second : Denotes arguments registers values' operands') :
    Denotes arguments registers (values ++ values') (operands ++ operands') :=
  List.rel_append first second

end Denotes

/-! ## Jumps -/

/-- What is known of a finished translation whose phi entries name the edges they are for. -/
structure Settled {Op : Type} (final : BlockContext Op) : Prop where
  numbered : final.function.Numbered
  recorded : Recorded final.function final.edges
  consistent : Consistent final.edges
  faithful : final.Faithful

section Jumps

variable {Op Store : Type} {final : BlockContext Op} {arguments : List Nat} {state : State Store}
  {edge : Edge}

/-- The entry of a phi for the current block is the value that the edge carries. -/
theorem Settled.phiValue (settled : Settled final) (member : edge ∈ final.edges)
    (source : edge.source = state.block) {id index : Nat} {type : Ty}
    (phi : PhiAt final.function edge.target id index type) {value : Value}
    (carried : edge.carried[index]? = some value) :
    state.phiValue final.function arguments id = value.eval arguments state.registers := by
  have recorded := settled.recorded edge.target id index type phi
  have named : ∀ other ∈ final.edges, ∀ value, other.carried[index]? = some value →
      other.recorded = some other.source := by
    intro other inside value given
    rcases settled.faithful other inside with empty | named
    · rw [empty] at given
      cases given
    · exact named
  have into : edge ∈ edgesInto final.edges edge.target := by simp [edgesInto, member]
  obtain ⟨entry, inEntries, same⟩ := List.mem_map.mp (recorded ▸ List.mem_map_of_mem into)
  rw [named edge member value carried, source, Prod.mk.injEq] at same
  rw [State.phiValue]
  cases found : (final.function.entries id).find? fun entry => entry.2 == some state.block with
  | none =>
      have absent := List.find?_eq_none.mp found entry inEntries
      simp [same.2] at absent
  | some first =>
      have here : first.2 = some state.block := by simpa using List.find?_some found
      have inside := List.mem_map_of_mem (f := fun entry : Value × Option Nat => (some entry.1, entry.2))
        (List.mem_of_find?_eq_some found)
      rw [recorded] at inside
      obtain ⟨other, intoOther, same⟩ := List.mem_map.mp inside
      obtain ⟨memberOther, target⟩ := List.mem_filter.mp intoOther
      obtain ⟨given, recordedOther⟩ := Prod.mk.inj same
      have from_ := named other memberOther first.1 given
      rw [recordedOther, here, Option.some.injEq] at from_
      have both := settled.consistent other memberOther edge member (by rw [source, from_])
        (eq_of_beq target)
      rw [both, carried] at given
      rw [Option.bind_some, Option.some.inj given]

/-- A jump along an edge to a label. -/
theorem Settled.jump (settled : Settled final) {label : BreakoutTarget} {stack : List Value}
    {operands : List Nat} (member : edge ∈ final.edges) (source : edge.source = state.block)
    (target : edge.target = label.target)
    (carried : edge.carried = carriedValues stack label.phis.length)
    (labelled : ∀ id index type, label.phis[index]? = some ⟨id, type⟩ →
      PhiAt final.function label.target id index type)
    (unique : (label.phis.map PHINode.id).Nodup)
    (leading : final.function.leadingPhis label.target = label.phis.map PHINode.id)
    (denotes : Denotes arguments state.registers stack operands)
    (enough : label.phis.length ≤ operands.length) :
    ∃ registers, (state.jump final.function arguments label.target : State.Next Op Store) =
        .step none { state with
          block := label.target, position := label.phis.length, registers } ∧
      Denotes arguments registers (label.phis.map PHINode.value).reverse
        (operands.take label.phis.length) ∧
      ∀ id ∉ label.phis.map PHINode.id, registers id = state.registers id := by
  obtain ⟨news, isNews⟩ : ∃ news : List Nat, operands.take label.phis.length = news.reverse :=
    ⟨_, (List.reverse_reverse _).symm⟩
  have values : Denotes arguments state.registers edge.carried news := by
    rw [carried, carriedValues, ← List.reverse_reverse news, ← isNews]
    exact List.forall₂_reverse_iff.mpr (List.forall₂_take _ denotes)
  have count : news.length = label.phis.length := by
    rw [← List.length_reverse, ← isNews, List.length_take]
    exact Nat.min_eq_left enough
  have sized : edge.carried.length = label.phis.length := values.length_eq.trans count
  have taken : (label.phis.map PHINode.id).mapM (state.phiValue final.function arguments) = some news := by
    rw [mapM_eq_some_iff, List.forall₂_iff_get]
    refine ⟨by rw [List.length_map, count], fun index inside inside' => ?_⟩
    rw [List.length_map] at inside
    have phi := labelled _ _ _ (List.getElem?_eq_getElem inside)
    rw [← target] at phi
    have insideCarried : index < edge.carried.length := sized ▸ inside
    have given : edge.carried[index]? = some edge.carried[index] :=
      List.getElem?_eq_getElem insideCarried
    have value := (List.forall₂_iff_get.mp values).2 index insideCarried inside'
    simp only [List.get_eq_getElem, List.getElem_map] at value ⊢
    exact (settled.phiValue member source phi given).trans value
  refine ⟨state.registers.setAll (label.phis.map PHINode.id) news, ?_, ?_,
    fun id absent => Registers.setAll_other absent⟩
  · rw [State.jump, leading, taken, List.length_map]
  · rw [isNews]
    refine List.forall₂_reverse_iff.mpr (List.forall₂_iff_get.mpr
      ⟨by rw [List.length_map, count], fun index inside inside' => ?_⟩)
    rw [List.length_map] at inside
    simp only [List.get_eq_getElem, List.getElem_map]
    exact Registers.setAll_get unique (by simp [List.getElem?_eq_getElem inside])
      (List.getElem?_eq_getElem inside')

/-- A jump to a block without phis. -/
theorem jump_plain {target : Nat} (leading : final.function.leadingPhis target = []) :
    (state.jump final.function arguments target : State.Next Op Store) =
      .step none { state with block := target, position := 0 } := by
  have nothing : state.registers.setAll [] [] = state.registers := rfl
  rw [State.jump, leading]
  exact congrArg (fun registers => Move.step none { state with
    block := target, position := 0, registers }) nothing

end Jumps

/-- The phis that a block starts with are settled when it is left. -/
theorem BlockContext.Extends.leadingPhis {Op : Type} {context larger : BlockContext Op} {block : Nat}
    (extends_ : context.Extends larger) (numbered : larger.function.Numbered)
    (bound : block < context.function.blocks.length)
    (phis : ∀ id ∈ context.function.body block, ∃ index type,
      context.function.insts[id]? = some (.phi index type)) :
    larger.function.leadingPhis block = context.function.body block := by
  obtain ⟨more, whole⟩ := extends_.grows.bodies block
  have isPhi : ∀ id ∈ context.function.body block, larger.function.isPhi id := by
    intro id member
    obtain ⟨index, type, found⟩ := phis id member
    rw [Function.isPhi, extends_.grows.inst found]
    rfl
  rw [Function.leadingPhis, ← whole, List.takeWhile_append_of_pos isPhi]
  cases more with
  | nil => simp
  | cons next more =>
      have other : larger.function.isPhi next = false := by
        by_contra is
        rw [Bool.not_eq_false, Function.isPhi] at is
        have inside : next ∈ larger.function.body block := by simp [← whole]
        cases found : larger.function.insts[next]? with
        | none => simp [found] at is
        | some inst =>
            rw [found] at is
            cases inst with
            | phi index type =>
                -- a phi of the block is one that it had before
                have old := extends_.phis block bound next index type ⟨inside, found⟩
                have nodup := numbered.nodup block
                rw [← whole] at nodup
                exact (List.nodup_append.mp nodup).2.2 next old.member next List.mem_cons_self rfl
            | _ => cases is
      rw [List.takeWhile_cons, other, if_neg Bool.false_ne_true, List.append_nil]

end WasmToLlvm.Block

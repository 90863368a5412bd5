import WasmToLlvm.Block.Dataflow
import WasmToLlvm.Block.Layout
import WasmToLlvm.Block.Start
import WasmToLlvm.Block.ValidRuns

/-!
# Definitions dominate uses

The values that a body may take from the symbolic stack are defined above the block that
instructions are inserted into, in the tree of blocks. What is left below them, such as the
results of an arm whose end cannot be reached, may be defined anywhere.
-/

set_option autoImplicit false

namespace WasmToLlvm.Block

open Llvm Wasm Library BlockContext

/-! ## The upper part of a stack -/

/-- The values above the lowest ones have a property. -/
def Upper (holds : Value → Prop) (base : Nat) (stack : List Value) : Prop :=
  ∃ front low, stack = front ++ low ∧ low.length = base ∧ ∀ value ∈ front, holds value

section Upper

variable {holds holds' : Value → Prop} {base base' : Nat} {stack stack' front : List Value} {value : Value}

theorem Upper.mono (upper : Upper holds base stack) (weaker : ∀ value, holds value → holds' value) :
    Upper holds' base stack := by
  obtain ⟨front, low, rfl, sized, all⟩ := upper
  exact ⟨front, low, rfl, sized, fun value member => weaker value (all value member)⟩

theorem upper_nil : Upper holds 0 [] :=
  ⟨[], [], rfl, rfl, fun _ member => absurd member List.not_mem_nil⟩

theorem upper_append {low : List Value} (sized : low.length = base) (all : ∀ value ∈ front, holds value) :
    Upper holds base (front ++ low) :=
  ⟨front, low, rfl, sized, all⟩

theorem Upper.push (upper : Upper holds base stack) (all : ∀ value ∈ front, holds value) :
    Upper holds base (front ++ stack) := by
  obtain ⟨more, low, rfl, sized, others⟩ := upper
  refine ⟨front ++ more, low, (List.append_assoc _ _ _).symm, sized, fun value member => ?_⟩
  rcases List.mem_append.mp member with new | old
  · exact all value new
  · exact others value old

/-- So many values on top of the stack. -/
theorem Upper.split (upper : Upper holds base stack) {count : Nat} (enough : base + count ≤ stack.length) :
    (∀ value ∈ stack.take count, holds value) ∧ Upper holds base (stack.drop count) := by
  obtain ⟨front, low, rfl, sized, all⟩ := upper
  have inside : count ≤ front.length := by
    rw [List.length_append] at enough
    omega
  rw [List.take_append_of_le_length inside, List.drop_append_of_le_length inside]
  exact ⟨fun value member => all value (List.mem_of_mem_take member),
    upper_append sized fun value member => all value (List.mem_of_mem_drop member)⟩

theorem Upper.pop (upper : Upper holds base (value :: stack)) (enough : base < (value :: stack).length) :
    holds value ∧ Upper holds base stack := by
  obtain ⟨all, rest⟩ := upper.split (show base + 1 ≤ _ from enough)
  exact ⟨all value (List.mem_singleton_self _), rest⟩

theorem Upper.raise (upper : Upper holds base stack) (more : base ≤ base') (enough : base' ≤ stack.length) :
    Upper holds base' stack := by
  obtain ⟨front, low, rfl, sized, all⟩ := upper
  rw [List.length_append] at enough
  have inside : front.length + low.length - base' ≤ front.length := by omega
  refine ⟨front.take (front.length + low.length - base'), front.drop (front.length + low.length - base') ++ low, ?_, ?_,
    fun value member => all value (List.mem_of_mem_take member)⟩
  · rw [← List.append_assoc, List.take_append_drop]
  · rw [List.length_append, List.length_drop]
    omega

/-- A stack that keeps the bottom of another one. -/
theorem Upper.keeps (upper : Upper holds base stack) (keeps : Keeps base' stack stack') (more : base ≤ base')
    (enough : base' ≤ stack.length) (above : Upper holds base' stack') : Upper holds base stack' := by
  obtain ⟨front, low, rfl, sized, all⟩ := above
  have same : low = stack.drop (stack.length - base') := by
    obtain ⟨front', split⟩ := keeps (stack.drop (stack.length - base')) (by rw [List.length_drop]; omega)
      (List.drop_suffix _ _)
    refine (List.append_inj' split ?_).2.symm
    rw [List.length_drop]
    omega
  rw [same]
  exact ((upper.split (by omega)).2).push all

end Upper

variable {I : InstructionSet}

/-! ## Straight-line code -/

section Straight

variable {validation : ValidationContext I.Instr} {operands operandsAfter : Operands} {expr : Expr I.Instr}
  {visit : Visit I.Op Unit} {context : BlockContext I.Op} {after : Straight I.Op} {block base : Nat}
  {above : Nat → Nat → Prop}

/-- What the visit of an expression takes from the stack is there by validation. -/
theorem straightVisit_feeds (code : straightVisit I expr = some visit)
    (feeds : ∀ instr, expr = .instr instr → I.FeedsAt validation.signature instr)
    (checked : checkExpr validation expr operands = some operandsAfter) (live : operands.Live) :
    ∃ takes leaves, Feeds takes leaves [] visit ∧ takes ≤ operands.types.length := by
  cases expr with
  | nop =>
      cases code
      exact ⟨0, 0, feeds_pure (by simp), Nat.zero_le _⟩
  | drop =>
      cases code
      obtain ⟨type, popped⟩ := checkExpr_drop checked
      have length := (live.pop popped).length
      exact ⟨1, 0, popStack_feeds.bind fun _ => feeds_pure (by simp), by omega⟩
  | select resultType =>
      cases code
      obtain ⟨rest, pops, _, _⟩ := checkExpr_select live checked
      have length := pops.length
      exact ⟨3, 1, visitSelectExpr_feeds, by omega⟩
  | localGet index =>
      cases code
      exact ⟨0, 1, visitLocalGet_feeds index, Nat.zero_le _⟩
  | localSet index =>
      cases code
      obtain ⟨type, _, popped⟩ := checkExpr_localSet checked
      have length := (live.popExpect popped).length
      exact ⟨1, 0, visitLocalSet_feeds index, by omega⟩
  | localTee index =>
      cases code
      obtain ⟨type, rest, _, popped, _⟩ := checkExpr_localTee checked
      have length := (live.popExpect popped).length
      exact ⟨1, 1, visitLocalTee_feeds index, by omega⟩
  | instr instr =>
      cases code
      obtain ⟨type, rest, found, popped, _⟩ := checkExpr_instr checked
      have length := (live.popList popped).length
      exact ⟨_, _, feeds instr rfl type found, by omega⟩
  | _ => cases code

/-- The code of a visit uses what is known at the end of the block, and leaves values that
are known there. -/
theorem Feeds.emitted {takes leaves : Nat} (feeds : Feeds takes leaves [] visit)
    (ran : visit (visitStart context) = .ok ((), after)) (here : context.At block)
    (uses : context.function.Uses above) (bodies : context.function.Inside) (refl : above block block)
    (locals : ∀ alloca ∈ context.locals, ∃ home, alloca.id ∈ context.function.body home ∧ above home block)
    (upper : Upper (fun value => context.function.DefinedIn above value block) base context.stack)
    (enough : base + takes ≤ context.stack.length) :
    (context.afterVisit block after).function.Uses above ∧
      Upper (fun value => (context.afterVisit block after).function.DefinedIn above value block) base after.stack := by
  obtain ⟨front, below, split, sized, all⟩ : ∃ front below, context.stack = front ++ below ∧ front.length = takes ∧
      ∀ value ∈ front, context.function.DefinedIn above value block :=
    ⟨_, _, (List.take_append_drop takes _).symm, List.length_take_of_le (by omega), (upper.split enough).1⟩
  have start : Supplied (fun id => ∃ home, id ∈ context.function.body home ∧ above home block) below takes []
      (visitStart context) := by
    refine ⟨⟨front, split, sized, fun value member id is => .inl (all value member id is)⟩, ?_, locals, ?_⟩
    · exact fun _ member => absurd member List.not_mem_nil
    · exact fun _ _ found => nomatch found
  obtain ⟨next, _, ⟨front', stack, _, given⟩, _, _, fed⟩ := feeds.run start ran
  replace next : after.next = context.function.insts.length := next
  rw [next] at given fed
  have grows : context.function.Grows (context.afterVisit block after).function := (Function.Grows.refl _).appendAll _ _
  refine ⟨uses.appendAll bodies here.bound refl fun position inst found value member => ?_, ?_⟩
  · rw [List.getElem?_map, Option.map_eq_some_iff] at found
    obtain ⟨plain, there, rfl⟩ := found
    cases is : value.instId? with
    | none => exact .inl (Function.definedIn_constant is)
    | some id =>
        rcases fed position plain there value member id is with allowed | ⟨new, early⟩
        · refine .inl fun other same => ?_
          obtain rfl := Option.some.inj (is.symm.trans same)
          exact allowed
        · exact .inr ⟨id - context.function.insts.length, by omega, congrArg some (by omega)⟩
  · have rest : Upper (fun value => context.function.DefinedIn above value block) base below := by
      have dropped := (upper.split enough).2
      rwa [split, ← sized, List.drop_left] at dropped
    rw [stack]
    refine (rest.mono fun value known => known.grows grows).push fun value member id is => ?_
    rcases given value member id is with ⟨home, inside, higher⟩ | ⟨new, early⟩
    · exact ⟨home, grows.member inside, higher⟩
    · refine ⟨block, ?_, refl⟩
      show id ∈ (context.function.appendAll block (after.code.map .plain)).body block
      rw [Function.body_appendAll_self here.bound, List.length_map]
      exact List.mem_append_right _ (List.mem_range'_1.mpr ⟨new, early⟩)

end Straight

/-! ## Branches -/

section Branches

variable {Op : Type} {context : BlockContext Op} {above : Nat → Nat → Prop} {block base : Nat}

/-- The values that a branch passes stand on top of the stack. -/
theorem entriesFor_taken {phis : List PHINode} {stack : List Value} {entry : Nat × Value}
    (member : entry ∈ entriesFor phis stack) : entry.2 ∈ stack.take phis.length := by
  obtain ⟨⟨phi, value⟩, inZip, rfl⟩ := List.mem_map.mp member
  obtain ⟨index, bound, same⟩ := List.mem_iff_getElem.mp inZip
  rw [List.length_zip, List.length_reverse] at bound
  rw [List.getElem_zip, Prod.mk.injEq] at same
  rw [List.mem_take_iff_getElem]
  exact ⟨index, by omega, same.2⟩

theorem passing_uses {function : Function Op} (uses : function.Uses above) {phis : List PHINode}
    {stack : List Value} (known : ∀ value ∈ stack.take phis.length, function.DefinedIn above value block) :
    (function.addIncomings (entriesFor phis stack) (some block)).Uses above := by
  refine uses.addIncomings fun entry member source same => ?_
  obtain rfl := Option.some.inj same
  exact known _ (entriesFor_taken member)

theorem addTargets_uses (uses : context.function.Uses above) (switch source i : Nat) (labels : List BreakoutTarget) :
    (context.addTargets switch source labels i).function.Uses above := by
  induction labels generalizing context i with
  | nil => exact uses
  | cons label labels ih =>
      refine ih ?_ (i + 1)
      exact (uses.addCase switch i label.target).addIncomings fun _ _ _ from_ => nomatch from_

end Branches

section Steps

variable {validation : ValidationContext I.Instr} {operands operandsAfter : Operands} {expr : Expr I.Instr}
  {context next : BlockContext I.Op} {block base : Nat} {pending order : List Nat} {parent : Nat → Option Nat}

/-- The invariant on the instructions made so far. -/
structure Scope {Op : Type} (pending : List Nat) (parent : Nat → Option Nat) (order : List Nat)
    (context : BlockContext Op) : Prop where
  laid : Laid pending parent order context
  logged : context.Logged
  uses : context.function.Uses (Above parent)
  locals : ∀ alloca ∈ context.locals, alloca.id ∈ context.function.body 0

/-- The values above a base are known in the block that instructions are inserted into. -/
structure Scoped {Op : Type} (base : Nat) (pending : List Nat) (parent : Nat → Option Nat) (order : List Nat)
    (context : BlockContext Op) : Prop extends Scope pending parent order context where
  stack : ∀ block, context.At block →
    Upper (fun value => context.function.DefinedIn (Above parent) value block) base context.stack

theorem Matches.arity (matched : Matches context validation) {depth : Nat} {label : BreakoutTarget}
    {types : List ValType} (found : context.blockStack[depth]? = some label)
    (valid : validation.labels[depth]? = some types) : label.phis.length = types.length := by
  obtain ⟨other, same, sized⟩ := matched.label valid
  rwa [Option.some.inj (found.symm.trans same)]

theorem Matches.lastArity (matched : Matches context validation) {depth : Nat} {label : BreakoutTarget}
    (found : context.blockStack[depth]? = some label) (last : depth + 1 = context.blockStack.length) :
    label.phis.length = validation.results.length := by
  obtain ⟨front, outermost, stack, _, sized⟩ := matched.outermost
  rw [stack, List.length_append, List.length_singleton] at last
  obtain rfl : depth = front.length := by omega
  rw [stack, List.getElem?_concat_length] at found
  rwa [← Option.some.inj found]

/-- What a step adds uses what is known at the end of the block. -/
theorem Step.uses (step : Step I context block expr next) (ahead : Ahead validation base operands context block)
    (feeds : ∀ instr, expr = .instr instr → I.FeedsAt validation.signature instr)
    (checked : checkExpr validation expr operands = some operandsAfter)
    (within : Scoped base pending parent order context) :
    next.function.Uses (Above parent) ∧ (next.insertPoint ≠ none →
      Upper (fun value => next.function.DefinedIn (Above parent) value block) base next.stack) := by
  obtain ⟨here, matched, live, height⟩ := ahead
  have bodies : context.function.Inside := within.logged.traced.numbered.bodies
  have upper := within.stack block here
  cases step with
  | @straight _ visit after code ran =>
      obtain ⟨takes, leaves, feeding, enough⟩ := straightVisit_feeds code feeds checked live
      have inside := within.laid.layout.rooted block (Function.names_length _ ▸ here.bound)
      obtain ⟨uses, kept⟩ := feeding.emitted ran here within.uses bodies .refl
        (fun alloca member => ⟨0, within.locals alloca member, inside⟩) upper (by omega)
      exact ⟨uses, fun _ => kept⟩
  | unreachable =>
      exact ⟨within.uses.append bodies block _ (fun _ member => absurd member List.not_mem_nil), fun reached => absurd rfl reached⟩
  | @br depth label branches =>
      obtain ⟨types, rest, found, popped⟩ := checkExpr_br checked
      have length := (live.popList popped).length
      have arity := matched.arity branches.found found
      have passed := passing_uses within.uses (upper.split (show base + label.phis.length ≤ _ by omega)).1
      exact ⟨passed.append bodies block _ (fun _ member => absurd member List.not_mem_nil), fun reached => absurd rfl reached⟩
  | @return_ depth label last branches =>
      obtain ⟨rest, popped⟩ := checkExpr_return checked
      have length := (live.popList popped).length
      have arity := matched.lastArity branches.found last
      have passed := passing_uses within.uses (upper.split (show base + label.phis.length ≤ _ by omega)).1
      exact ⟨passed.append bodies block _ (fun _ member => absurd member List.not_mem_nil), fun reached => absurd rfl reached⟩
  | @brIf depth value rest label top branches =>
      obtain ⟨condition, types, below, popTop, found, popped, _⟩ := checkExpr_brIf checked
      have pops := live.popExpect popTop
      have length := (pops.live.popList popped).length
      have lengthTop := pops.length
      have arity : label.phis.length = types.length := matched.arity branches.found found
      rw [top] at upper height
      obtain ⟨known, upper⟩ := upper.pop (by omega)
      rw [List.length_cons] at height
      have compared := within.uses.append bodies block (.plain (.icmp .ne value (.null value.type))) (by
        intro other member
        rcases List.mem_pair.mp member with rfl | rfl
        · exact known
        · exact Function.definedIn_constant rfl)
      have grows : context.function.Grows ((context.function.append block
          (.plain (.icmp .ne value (.null value.type)))).newBlock "brif_next") :=
        ((Function.Grows.refl _).append _ _).newBlock _
      have passed := passing_uses (compared.newBlock "brif_next") fun other member =>
        ((upper.split (show base + label.phis.length ≤ _ by omega)).1 other member).grows grows
      have inside := (Function.Inside.append bodies block
        (.plain (.icmp .ne value (.null value.type)))).newBlock "brif_next"
      have used := passed.append inside block
        (.condBr (context.compared value) label.target context.function.blocks.length) (by
          intro other member
          obtain rfl := List.mem_singleton.mp member
          refine Function.definedIn_home ?_ .refl
          show _ ∈ ((context.function.append block _).newBlock "brif_next").body block
          rw [Function.body_newBlock, Function.body_append_self here.bound]
          exact List.mem_append_right _ (List.mem_singleton_self _))
      refine ⟨used, fun _ => upper.mono fun other is => is.grows ?_⟩
      exact (grows.addIncomings _ _).append _ _
  | @brTable default targets value rest label labels top branches all =>
      obtain ⟨condition, types, final, below, popTop, found, checkedAll, popped⟩ := checkExpr_brTable checked
      have pops := live.popExpect popTop
      obtain ⟨_, _, finalLive, same⟩ := checkTargets_length checkedAll pops.live
      have length := (finalLive.popList popped).length
      have lengthTop := pops.length
      have arity : label.phis.length = types.length := matched.arity branches.found found
      rw [top] at upper height
      obtain ⟨known, upper⟩ := upper.pop (by omega)
      rw [List.length_cons] at height
      have passed := passing_uses within.uses (upper.split (show base + label.phis.length ≤ _ by omega)).1
      have used := passed.append bodies block (.switch value label.target) (by
        intro other member
        obtain rfl := List.mem_singleton.mp member
        exact known)
      refine ⟨addTargets_uses used _ _ _ _, fun reached => absurd ?_ reached⟩
      simp [startTable]

/-- What is known at the end of a block is known below it, later on. -/
theorem known_below {function larger : Llvm.Function I.Op} {parent' : Nat → Option Nat} {lower : Nat} {value : Value}
    (known : function.DefinedIn (Above parent) value block) (grows : function.Grows larger)
    (embeds : Embeds parent parent') (under : Above parent' block lower) :
    larger.DefinedIn (Above parent') value lower :=
  ((known.grows grows).mono fun _ _ higher => higher.mono embeds).below fun _ higher => higher.trans under

theorem locals_kept {larger : BlockContext I.Op} (within : Scope pending parent order context)
    (grows : context.function.Grows larger.function) (locals : larger.locals = context.locals) :
    ∀ alloca ∈ larger.locals, alloca.id ∈ larger.function.body 0 := by
  intro alloca member
  exact grows.member (within.locals alloca (locals ▸ member))

/-- Every step keeps the invariant. -/
theorem Step.scoped (step : Step I context block expr next) (ahead : Ahead validation base operands context block)
    (feeds : ∀ instr, expr = .instr instr → I.FeedsAt validation.signature instr)
    (checked : checkExpr validation expr operands = some operandsAfter)
    (within : Scoped base pending parent order context) :
    ∃ parent' order', Scoped base pending parent' order' next ∧ Grows parent context parent' next := by
  obtain ⟨uses, upper⟩ := step.uses ahead feeds checked within
  obtain ⟨parent', order', laid, grows⟩ := step.laid ahead.here within.laid
  have embeds := within.laid.layout.embeds grows.later
  have grown := step.grows (.refl context.function)
  refine ⟨parent', order', ⟨⟨laid, step.logged ahead.here within.logged, ?_, ?_⟩, fun other there => ?_⟩, grows⟩
  · exact uses.mono fun _ _ higher => higher.mono embeds
  · exact locals_kept within.toScope grown step.locals
  · refine (upper there.reachable).mono fun value known => ?_
    exact known_below known (.refl _) embeds (grows.under block other ahead.here there)

end Steps

/-! ## Constructs -/

section Constructs

variable {context inner : BlockContext I.Op} {block base base' target : Nat} {pending order : List Nat}
  {parent : Nat → Option Nat} {decl : BlockDeclaration} {types : List Ty}

/-- The phis of a label stand in its target. -/
theorem LabelPhis.known {Op : Type} {function : Llvm.Function Op} {label : BreakoutTarget}
    (labelled : LabelPhis function label) :
    ∀ value ∈ (label.phis.map PHINode.value).reverse, function.DefinedIn (Above parent) value label.target := by
  intro value member
  obtain ⟨phi, inPhis, rfl⟩ := List.mem_map.mp (List.mem_reverse.mp member)
  obtain ⟨index, found⟩ := List.mem_iff_getElem?.mp inPhis
  exact Function.definedIn_home ((labelled.phis phi.id index phi.type).mpr found).member .refl

theorem startBlock_scoped (here : context.At block) (within : Scoped base pending parent order context)
    (more : base ≤ base') (enough : base' ≤ context.stack.length) :
    Scoped base' (context.function.blocks.length :: pending) (below parent context.function.blocks.length block) order
      (context.startBlock block decl types) where
  laid := startBlock_laid here within.laid
  logged := startBlock_logged within.logged
  uses := by
    have later : Later parent context.function.names (below parent context.function.blocks.length block)
        (context.startBlock block decl types).function.names := startBlock_later
    have embeds := within.laid.layout.embeds later
    have bodies : context.function.Inside := within.logged.traced.numbered.bodies
    exact ((within.uses.newBlock "blk_exit").appendPhis (bodies.newBlock _) _ (phiInsts_isPhi types 0)).mono
      fun _ _ higher => higher.mono embeds
  locals := locals_kept within.toScope (startBlock_grows (.refl _) _ _ _) rfl
  stack := by
    intro other there
    obtain rfl := there.unique (startBlock_at decl types here)
    have later : Later parent context.function.names (below parent context.function.blocks.length other)
        (context.startBlock other decl types).function.names := startBlock_later
    have embeds := within.laid.layout.embeds later
    exact ((within.stack other here).raise more enough).mono fun value known =>
      known_below known (startBlock_grows (.refl _) _ _ _) embeds .refl

/-- The phis of a loop take the place of its parameters. -/
theorem startLoop_scoped (here : context.At block) (within : Scoped base pending parent order context)
    (all : Convert decl.params.reverse types) (more : base ≤ base')
    (enough : base' + decl.params.length ≤ context.stack.length) :
    Scoped base' pending (below parent context.function.blocks.length block) (order ++ [context.function.blocks.length])
      (context.startLoop block decl types) := by
  have bodies : context.function.Inside := within.logged.traced.numbered.bodies
  have later : Later parent context.function.names (below parent context.function.blocks.length block)
      (context.startLoop block decl types).function.names := startLoop_later
  have embeds := within.laid.layout.embeds later
  have under : Above (below parent context.function.blocks.length block) block context.function.blocks.length :=
    .up below_new .refl
  have logged := startLoop_logged here within.logged all (by omega)
  have count : types.length = decl.params.length := by simpa using all.length_eq.symm
  have sized := loopLabel_sized (context.branchToLoop block decl) context.function.blocks.length all
  have upper := (within.stack block here).raise more (by omega)
  obtain ⟨taken, left⟩ := upper.split enough
  have opened : ((context.branchToLoop block decl).function.appendAll context.function.blocks.length
      (paramInsts types)).Uses (Above (below parent context.function.blocks.length block)) := by
    have branched := (within.uses.newBlock "loop_entry").append (bodies.newBlock _) block
      (.br context.function.blocks.length) fun _ member => absurd member List.not_mem_nil
    exact (branched.appendPhis ((bodies.newBlock "loop_entry").append block _) _ (paramInsts_isPhi types)).mono
      fun _ _ higher => higher.mono embeds
  refine ⟨⟨startLoop_laid here within.laid, logged, ?_, ?_⟩, fun other there => ?_⟩
  · show Function.Uses (Function.addIncomings _ (loopEntries _ types.length context.stack) _) _
    have entries := loopEntries_eq (context.branchToLoop block decl) context.function.blocks.length decl types context.stack
    rw [entries]
    refine passing_uses opened fun value member => ?_
    rw [sized] at member
    refine known_below (taken value member) ?_ embeds under
    exact (((Function.Grows.refl _).newBlock _).append _ _).appendAll _ _
  · exact locals_kept within.toScope (startLoop_grows (.refl _) _ _ _) rfl
  · obtain rfl := there.unique (startLoop_at decl types)
    show Upper _ base' (_ ++ context.stack.drop types.length)
    rw [count]
    refine Upper.push (left.mono fun value known => ?_) ?_
    · exact known_below known (startLoop_grows (.refl _) _ _ _) embeds under
    · exact (logged.labelled _ List.mem_cons_self).known

theorem startThen_scoped {value : Value} {rest : List Value} (here : context.At block)
    (within : Scoped base pending parent order context) (top : context.stack = value :: rest) (more : base ≤ base')
    (enough : base' ≤ rest.length) :
    Scoped base' ((context.function.blocks.length + 1) :: (context.function.blocks.length + 2) :: pending)
      (belowArms parent context.function.blocks.length block) (order ++ [context.function.blocks.length])
      (context.startThen block value rest decl types) := by
  have bodies : context.function.Inside := within.logged.traced.numbered.bodies
  have later : Later parent context.function.names (belowArms parent context.function.blocks.length block)
      (context.startThen block value rest decl types).function.names := startThen_later value rest
  have embeds := within.laid.layout.embeds later
  have under : Above (belowArms parent context.function.blocks.length block) block context.function.blocks.length :=
    .up (belowArms_new (.inl rfl)) .refl
  have upper := within.stack block here
  rw [top] at upper
  obtain ⟨known, left⟩ := upper.pop (by rw [List.length_cons]; omega)
  have compared := within.uses.append bodies block (.plain (.icmp .ne value (.null value.type))) (by
    intro other member
    rcases List.mem_pair.mp member with rfl | rfl
    · exact known
    · exact Function.definedIn_constant rfl)
  have arms := ((compared.newBlock "ifblk").newBlock "elseblk").newBlock "ifblk_exit"
  have inside := (((Function.Inside.append bodies block
    (.plain (.icmp .ne value (.null value.type)))).newBlock "ifblk").newBlock "elseblk").newBlock "ifblk_exit"
  have branched := arms.append inside block
    (.condBr (context.compared value) context.function.blocks.length (context.function.blocks.length + 1)) (by
      intro other member
      obtain rfl := List.mem_singleton.mp member
      refine Function.definedIn_home ?_ .refl
      rw [Function.body_newBlock, Function.body_newBlock, Function.body_newBlock, Function.body_append_self here.bound]
      exact List.mem_append_right _ (List.mem_singleton_self _))
  have opened := branched.appendPhis (inside.append block _) (context.function.blocks.length + 2)
    (phiInsts_isPhi types 0)
  refine ⟨⟨startThen_laid here value rest within.laid, startThen_logged here within.logged value rest, ?_, ?_⟩,
    fun other there => ?_⟩
  · exact opened.mono fun _ _ higher => higher.mono embeds
  · exact locals_kept within.toScope (startThen_grows (.refl _) _ _ _ _ _) rfl
  · obtain rfl := there.unique (startThen_at decl types value rest)
    refine (left.raise more enough).mono fun other is => ?_
    exact known_below is (startThen_grows (.refl _) _ _ _ _ _) embeds under

/-- The end of a body passes its results on. -/
theorem leave_uses {label : BreakoutTarget} {arity : Nat} (lty : LabelType) (placed : inner.Placed)
    (within : Scoped base (target :: pending) parent order inner) (sized : label.phis.length = arity)
    (closable : Closable inner label.pos arity) (pos : label.pos = base) :
    (inner.leave lty label).function.Uses (Above parent) := by
  have bodies : inner.function.Inside := within.logged.traced.numbered.bodies
  show (inner.flowInto label.target label.phis).function.Uses (Above parent)
  rcases placed with nowhere | ⟨block, here⟩
  · rw [flowInto, show inner.getInsertBlock = none by simp [getInsertBlock, nowhere]]
    exact within.uses
  · have height := closable.exact here.reachable
    have taken := ((within.stack block here).split (show base + label.phis.length ≤ _ by omega)).1
    rw [flowInto, here.getInsertBlock]
    exact (passing_uses within.uses taken).append bodies block _ fun _ member => absurd member List.not_mem_nil

theorem leave_scope {label : BreakoutTarget} {arity : Nat} (lty : LabelType) (placed : inner.Placed)
    (within : Scoped base (target :: pending) parent order inner) (member : label ∈ inner.blockStack)
    (sized : label.phis.length = arity) (closable : Closable inner label.pos arity) (pos : label.pos = base)
    (laid : Laid pending parent (order ++ [target]) ((inner.leave lty label).moveTo target)) :
    Scope pending parent (order ++ [target]) ((inner.leave lty label).moveTo target) where
  laid := laid
  logged := leave_logged lty placed within.logged member sized closable
  uses := leave_uses lty placed within sized closable pos
  locals := locals_kept within.toScope (flowInto_grows (.refl _) _ _) (leave_locals inner label lty)

/-- Behind a construct stand its results and what it left alone. -/
theorem leave_upper {label : BreakoutTarget} {stack : List Value} {holds : Value → Prop} {lty : LabelType}
    (notFirst : lty ≠ .if_) (keeps : Keeps base' stack inner.stack) (pos : label.pos = base')
    (more : base ≤ base') (enough : base' ≤ stack.length) (upper : Upper holds base stack)
    (results : ∀ value ∈ (label.phis.map PHINode.value).reverse, holds value) :
    Upper holds base (inner.leave lty label).stack := by
  have sized : (stack.drop (stack.length - base')).length = base' := by
    rw [List.length_drop]
    omega
  rw [leave_stack lty (keeps _ sized (List.drop_suffix _ _)) (by rw [pos, sized]),
    if_neg fun both => notFirst both.1]
  exact ((upper.split (by omega)).2).push results

theorem leave_scoped {label : BreakoutTarget} {arity : Nat} (lty : LabelType) {stack : List Value}
    (notFirst : lty ≠ .if_) (placed : inner.Placed) (within : Scoped base' (target :: pending) parent order inner)
    (member : label ∈ inner.blockStack) (goal : label.target = target) (sized : label.phis.length = arity)
    (closable : Closable inner label.pos arity) (pos : label.pos = base')
    (laid : Laid pending parent (order ++ [target]) ((inner.leave lty label).moveTo target))
    (keeps : Keeps base' stack inner.stack) (more : base ≤ base') (enough : base' ≤ stack.length)
    (upper : Upper (fun value => inner.function.DefinedIn (Above parent) value target) base stack) :
    Scoped base pending parent (order ++ [target]) ((inner.leave lty label).moveTo target) where
  toScope := leave_scope lty placed within member sized closable pos laid
  stack := by
    intro other there
    have labelled := within.logged.labelled label member
    have grown : inner.function.Grows (inner.leave lty label).function := flowInto_grows (.refl _) _ _
    have bound : target < (inner.leave lty label).function.blocks.length :=
      goal ▸ Nat.lt_of_lt_of_le labelled.bound grown.count
    obtain rfl := there.unique (moveTo_at bound)
    refine leave_upper notFirst keeps pos more enough (upper.mono fun value known => known.grows grown) ?_
    exact fun value among => (goal ▸ labelled.known value among).grows grown

/-- The second arm of a conditional starts with the parameters again; what the first one
left is below them. -/
theorem startElse_scoped {label : BreakoutTarget} {arity elseBlock : Nat} {params : List Value} (placed : inner.Placed)
    (within : Scoped base' (elseBlock :: pending) parent order inner) (member : label ∈ inner.blockStack)
    (sized : label.phis.length = arity) (closable : Closable inner label.pos arity) (pos : label.pos = base')
    (laid : Laid pending parent (order ++ [elseBlock]) (inner.startElse label elseBlock params))
    (known : ∀ value ∈ params, inner.function.DefinedIn (Above parent) value elseBlock) :
    Scoped (base' + if inner.insertPoint = none then arity else 0) pending parent (order ++ [elseBlock])
      (inner.startElse label elseBlock params) := by
  have grown : inner.function.Grows (inner.leave .if_ label).function := flowInto_grows (.refl _) _ _
  refine ⟨⟨laid, leave_logged .if_ placed within.logged member sized closable, leave_uses .if_ placed within sized
    closable pos, locals_kept within.toScope grown (leave_locals inner label .if_)⟩, fun other there => ?_⟩
  have bound : elseBlock < (inner.leave .if_ label).function.blocks.length := by
    rw [leave_blocks_length, ← Function.names_length]
    exact (within.laid.layout.apart elseBlock List.mem_cons_self).1
  have here : (inner.startElse label elseBlock params).At elseBlock := moveTo_at bound
  obtain rfl := there.unique here
  refine upper_append ?_ fun value among => (known value among).grows grown
  have enough := closable.enough
  rw [leave_stack_length .if_ sized pos (by omega)]
  by_cases nowhere : inner.insertPoint = none <;> simp [nowhere, Nat.add_comm]

end Constructs

/-! ## Runs -/

section Runs

variable {holds : I.Instr → Bool} {validation : ValidationContext I.Instr} {operands after : Operands} {base : Nat}
  {context final : BlockContext I.Op} {exprs : List (Expr I.Instr)} {pending order : List Nat}
  {parent : Nat → Option Nat}

theorem ValidRun.reached (run : ValidRun I holds validation base operands context exprs after final)
    (placed : context.Placed) (reachable : final.insertPoint ≠ none) : ∃ start, context.At start := by
  rcases placed with nowhere | here
  · cases run with
    | nil _ => exact absurd nowhere reachable
    | skipped _ _ => exact absurd nowhere reachable
    | step ahead _ _ _ _ => exact ⟨_, ahead.here⟩
    | block ahead _ _ _ _ _ _ _ _ _ => exact ⟨_, ahead.here⟩
    | loop ahead _ _ _ _ _ _ _ _ _ => exact ⟨_, ahead.here⟩
    | if_ ahead _ _ _ _ _ _ _ _ _ _ _ _ _ _ _ _ => exact ⟨_, ahead.here⟩
  · exact here

section Constructs

variable {below condition frame : Operands} {inner first second : BlockContext I.Op} {block : Nat} {value : Value}
  {rest : List Value} {decl : BlockDeclaration} {types : List Ty} {body other : List (Expr I.Instr)}
  {parent₁ parent₂ : Nat → Option Nat} {order₁ order₂ : List Nat}

/-- From a block to its exit. -/
theorem leaveBlock_scoped (here : context.At block) (opens : Opens decl operands below context.stack base)
    (all : Convert decl.results types) (emits : Emits I (context.startBlock block decl types) body inner)
    (closable : Closable inner (context.blockLabel decl types).pos decl.results.length)
    (keeps : Keeps (base + below.types.length) context.stack inner.stack)
    (within : Scoped base pending parent order context)
    (inside : Scoped (base + below.types.length) (context.function.blocks.length :: pending) parent₁ order₁ inner)
    (grows : Grows (Block.below parent context.function.blocks.length block) (context.startBlock block decl types) parent₁
      inner) :
    Scoped base pending parent₁ (order₁ ++ [context.function.blocks.length])
        ((inner.leave .block (context.blockLabel decl types)).moveTo context.function.blocks.length) ∧
      Grows parent context parent₁
        ((inner.leave .block (context.blockLabel decl types)).moveTo context.function.blocks.length) := by
  have height := opens.height
  have top : inner.blockStack = context.blockLabel decl types :: context.blockStack := emits.blockStack
  obtain ⟨later, under⟩ := startBlock_later.child grows.later below_new (by simp)
  have grown := emits.grows (startBlock_grows (.refl context.function) block decl types)
  have upper := (within.stack block here).mono fun value known =>
    known_below known grown (within.laid.layout.embeds later) under
  have placed := emits.placed (.inr ⟨_, startBlock_at _ _ here⟩)
  have laid := leave_laid .block placed inside.laid (top ▸ List.mem_cons_self)
    (by simpa [leave, top] using within.laid.labelsBelow here later under)
  have there := afterBlock_at (context.blockLabel decl types) emits
  refine ⟨?_, grows_to here ?_ under there.bound⟩
  · exact leave_scoped .block (by decide) placed inside (top ▸ List.mem_cons_self) rfl (exitLabel_sized _ _ _ all)
      closable (opens.pos .block (by decide)) laid keeps (Nat.le_add_right _ _) (by omega) upper
  · simpa [leave] using later

/-- From a loop to the end of its body, if it can be reached. -/
theorem leaveLoop_scoped (here : context.At block) (opens : Opens decl operands below context.stack base)
    (emits : Emits I (context.startLoop block decl types) body inner)
    (keeps : Keeps (base + below.types.length) context.stack inner.stack)
    (within : Scoped base pending parent order context)
    (inside : Scoped (base + below.types.length) pending parent₁ order₁ inner)
    (grows : Grows (Block.below parent context.function.blocks.length block) (context.startLoop block decl types) parent₁
      inner) :
    Scoped base pending parent₁ order₁ (inner.withLabels inner.blockStack.tail) ∧
      Grows parent context parent₁ (inner.withLabels inner.blockStack.tail) := by
  have height := opens.height
  obtain ⟨later, under⟩ := startLoop_later.child grows.later below_new (by simp)
  have grown := emits.grows (startLoop_grows (.refl context.function) block decl types)
  have kept : Grows parent context parent₁ (inner.withLabels inner.blockStack.tail) := by
    refine ⟨later, fun start finish from_ there => ?_⟩
    rw [from_.unique here]
    exact under.trans (grows.under _ _ (startLoop_at decl types) ⟨there.point, there.bound⟩)
  have fewer : ∀ label ∈ inner.blockStack.tail, label ∈ inner.blockStack :=
    fun label member => List.mem_of_mem_tail member
  refine ⟨⟨⟨inside.laid.withLabels fewer, inside.logged.subset fewer, inside.uses, inside.locals⟩,
    fun other there => ?_⟩, kept⟩
  have upper := (within.stack block here).mono fun value known =>
    known_below known grown (within.laid.layout.embeds later) (kept.under block other here there)
  exact upper.keeps keeps (Nat.le_add_right _ _) (by omega) (inside.stack other ⟨there.point, there.bound⟩)

/-- The values below the condition of a conditional. -/
theorem Scoped.underCondition (within : Scoped base pending parent order context) (here : context.At block)
    (top : context.stack = value :: rest) (enough : base ≤ rest.length) :
    Upper (fun value => context.function.DefinedIn (Above parent) value block) base rest := by
  have upper := within.stack block here
  rw [top] at upper
  exact (upper.pop (Nat.lt_succ_of_le enough)).2

/-- From the first arm of a conditional to the second one. -/
theorem nextArm_scoped (here : context.At block) (top : context.stack = value :: rest)
    (opens : Opens decl condition below rest base) (all : Convert decl.results types)
    (emits : Emits I (context.startThen block value rest decl types) body first)
    (closable : Closable first (context.ifLabel block value rest decl types).pos decl.results.length)
    (within : Scoped base pending parent order context)
    (inside : Scoped (base + below.types.length)
      ((context.function.blocks.length + 1) :: (context.function.blocks.length + 2) :: pending) parent₁ order₁ first)
    (grows : Grows (belowArms parent context.function.blocks.length block)
      (context.startThen block value rest decl types) parent₁ first) :
    Scoped (base + below.types.length + if first.insertPoint = none then decl.results.length else 0)
      ((context.function.blocks.length + 2) :: pending) parent₁ (order₁ ++ [context.function.blocks.length + 1])
      (first.startElse (context.ifLabel block value rest decl types) (context.function.blocks.length + 1)
        (rest.take decl.params.length)) := by
  have height := opens.height
  have isTop : first.blockStack = context.ifLabel block value rest decl types :: context.blockStack := emits.blockStack
  have placed := emits.placed (.inr ⟨_, startThen_at decl types value rest⟩)
  have grown := emits.grows (startThen_grows (.refl context.function) block value rest decl types)
  obtain ⟨later, under⟩ := (startThen_later value rest).child grows.later (belowArms_new (.inr (.inl rfl))) (by simp)
  have laid := startElse_laid here within.laid (rest.take decl.params.length) emits inside.laid grows.later
  have params := ((within.underCondition here top (by omega)).split (show base + decl.params.length ≤ _ by omega)).1
  exact startElse_scoped placed inside (isTop ▸ List.mem_cons_self) (exitLabel_sized _ _ _ all) closable
    (opens.pos .if_ (by decide)) laid fun param among =>
      known_below (params param among) grown (within.laid.layout.embeds later) under

/-- From a conditional to its exit. An end of the second arm that can be reached has nothing
of the first one below it. -/
theorem leaveIf_scoped (here : context.At block) (top : context.stack = value :: rest)
    (opens : Opens decl condition below rest base) (all : Convert decl.results types)
    (framed : Framed validation decl.results decl other frame)
    (emitsTrue : Emits I (context.startThen block value rest decl types) body first)
    (emits : Emits I (first.startElse (context.ifLabel block value rest decl types)
      (context.function.blocks.length + 1) (rest.take decl.params.length)) other second)
    (closable : Closable second (context.ifLabel block value rest decl types).pos decl.results.length)
    (keeps : Keeps (base + below.types.length) rest second.stack)
    (standing : Standing (base + below.types.length + if first.insertPoint = none then decl.results.length else 0) second
      frame)
    (within : Scoped base pending parent order context)
    (growsTrue : Grows (belowArms parent context.function.blocks.length block)
      (context.startThen block value rest decl types) parent₁ first)
    (inside : Scoped (base + below.types.length + if first.insertPoint = none then decl.results.length else 0)
      ((context.function.blocks.length + 2) :: pending) parent₂ order₂ second)
    (grows : Grows parent₁ (first.startElse (context.ifLabel block value rest decl types)
      (context.function.blocks.length + 1) (rest.take decl.params.length)) parent₂ second) :
    Scoped base pending parent₂ (order₂ ++ [context.function.blocks.length + 2])
        ((second.leave .else_ (context.ifLabel block value rest decl types)).moveTo (context.function.blocks.length + 2)) ∧
      Grows parent context parent₂
        ((second.leave .else_ (context.ifLabel block value rest decl types)).moveTo
          (context.function.blocks.length + 2)) := by
  have height := opens.height
  have pos := opens.pos .if_ (by decide)
  have isTop : second.blockStack = context.ifLabel block value rest decl types :: context.blockStack :=
    emits.blockStack.trans (startElse_blockStack emitsTrue)
  have placed := emits.placed (.inr ⟨_, startElse_placed emitsTrue⟩)
  have laterFalse : Later parent₁ first.function.names parent₂ second.function.names := by
    simpa [startElse, leave] using grows.later
  obtain ⟨later, under⟩ := (startThen_later value rest).child (growsTrue.later.trans laterFalse)
    (belowArms_new (.inr (.inr rfl))) (by simp)
  have grownTrue := emitsTrue.grows (startThen_grows (.refl context.function) block value rest decl types)
  have left : context.function.Grows (first.startElse (context.ifLabel block value rest decl types)
      (context.function.blocks.length + 1) (rest.take decl.params.length)).function :=
    flowInto_grows grownTrue _ _
  have grown := emits.grows left
  have settled : Scoped (base + below.types.length) ((context.function.blocks.length + 2) :: pending) parent₂ order₂
      second := by
    refine ⟨inside.toScope, fun other there => ?_⟩
    obtain ⟨live, tall⟩ := standing.live there.reachable
    have closed := live.closeFrame framed.closed
    have exact_ := closable.exact there.reachable
    have nothing : (if first.insertPoint = none then decl.results.length else 0) = 0 := by
      rw [show (context.ifLabel block value rest decl types).pos = _ from pos] at exact_
      omega
    have upper := inside.stack other there
    rwa [nothing] at upper
  have laid := leave_laid .else_ placed inside.laid (isTop ▸ List.mem_cons_self)
    (by simpa [leave, isTop] using within.laid.labelsBelow here later under)
  have there : ((second.leave .else_ (context.ifLabel block value rest decl types)).moveTo
      (context.function.blocks.length + 2)).At (context.function.blocks.length + 2) := afterIf_at emitsTrue emits
  refine ⟨?_, grows_to here ?_ under there.bound⟩
  · exact leave_scoped .else_ (by decide) placed settled (isTop ▸ List.mem_cons_self) rfl (exitLabel_sized _ _ _ all)
      closable pos laid keeps (Nat.le_add_right _ _) (by omega) ((within.underCondition here top (by omega)).mono fun _ known =>
        known_below known grown (within.laid.layout.embeds later) under)
  · simpa [leave] using later

end Constructs

end Runs

end WasmToLlvm.Block

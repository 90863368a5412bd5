import WasmToLlvm.Block.Denotation
import WasmToLlvm.Block.Opaque
import WasmToLlvm.Wasm.Safety

/-!
# The relation of configurations and states

A configuration of the WebAssembly machine and a state of the translated function
are related if the code that is left to run is the code whose translation starts
where the state is, and the same holds for what stands behind each label.
-/

set_option autoImplicit false

namespace WasmToLlvm.Block

open Llvm Wasm Library BlockContext

variable {Instr Store : Type}

/-- The storage of the locals. -/
structure Stored (locals : List AllocaInst) (registers : Registers) (slots : List (Option Nat))
    (values : List Nat) : Prop where
  count : locals.length = values.length
  slots : slots = values.map some
  addresses : ∀ {index : Nat} {alloca : AllocaInst}, locals[index]? = some alloca →
    registers alloca.id = some index

theorem Stored.update {locals : List AllocaInst} {registers registers' : Registers}
    {slots : List (Option Nat)} {values : List Nat} {count : Nat}
    (stored : Stored locals registers slots values) (older : ∀ alloca ∈ locals, alloca.id < count)
    (agree : Agree count registers registers') : Stored locals registers' slots values where
  count := stored.count
  slots := stored.slots
  addresses := by
    intro index alloca found
    rw [agree _ (older alloca (List.mem_of_getElem? found)), stored.addresses found]

theorem Stored.set {locals : List AllocaInst} {registers : Registers} {slots : List (Option Nat)}
    {values : List Nat} (stored : Stored locals registers slots values) (index value : Nat) :
    Stored locals registers (slots.set index (some value)) (values.set index value) where
  count := by rw [List.length_set, stored.count]
  slots := by rw [stored.slots, List.map_set]
  addresses := stored.addresses

/-- The labels of a configuration and the places that the translation has for them.
`base` is what stands on the symbolic stack below the operands of the running code. -/
inductive Nest (signature : Instr → Option FuncSignature) (final : BlockContext Instr)
    (arguments : List Nat) (registers : Registers) (locals : List AllocaInst) :
    BlockContext Instr → List Value → List BreakoutTarget → List (Label Instr) → Prop where
  | func {inner resume : BlockContext Instr} {label : BreakoutTarget} {entry : Label Instr}
      (exit : Exit label [] [] inner resume) (extends_ : resume.Extends final)
      (returned : final = resume.finish label.target label.phis.length)
      (single : label.phis.length ≤ 1) (arity : entry.arity = label.phis.length)
      (once : entry.again = none) (rest : entry.rest = []) (nothing : entry.below = [])
      (same : resume.locals = locals) :
      Nest signature final arguments registers locals inner [] [label] [entry]
  | exit {inner resume after : BlockContext Instr} {label : BreakoutTarget}
      {labels : List BreakoutTarget} {entry : Label Instr} {entries : List (Label Instr)}
      {junk below base : List Value} (exit : Exit label below base inner resume)
      (tail : Lowers (I := opaqueSet Instr signature) signature base resume entry.rest after)
      (arity : entry.arity = label.phis.length) (once : entry.again = none)
      (stays : resume.blockStack = labels) (same : resume.locals = locals)
      (denotes : Denotes arguments registers below entry.below)
      (outer : Nest signature final arguments registers locals after base labels entries) :
      Nest signature final arguments registers locals inner (junk ++ (below ++ base)) (label :: labels)
        (entry :: entries)
  | loop {opened inner after : BlockContext Instr} {label : BreakoutTarget}
      {labels : List BreakoutTarget} {entry : Label Instr} {entries : List (Label Instr)}
      {body : List (Expr Instr)} {below base : List Value} (there : opened.At label.target)
      (nothing : opened.function.body label.target = []) (stack : opened.stack = below ++ base)
      (phis : label.phis = [])
      (run : Lowers (I := opaqueSet Instr signature) signature (below ++ base) opened body inner)
      (tail : Lowers (I := opaqueSet Instr signature) signature base (inner.withLabels labels) entry.rest
        after)
      (arity : entry.arity = 0) (again : entry.again = some body)
      (stays : opened.blockStack = label :: labels) (same : opened.locals = locals)
      (denotes : Denotes arguments registers below entry.below)
      (outer : Nest signature final arguments registers locals after base labels entries) :
      Nest signature final arguments registers locals inner (below ++ base) (label :: labels)
        (entry :: entries)

/-- The code that runs is translated where the state is. -/
structure Running (signature : Instr → Option FuncSignature) (final : BlockContext Instr)
    (arguments : List Nat) (context inner : BlockContext Instr) (base values : List Value)
    (config : Config Instr Store) (state : State Store) : Prop where
  here : context.At state.block
  position : state.position = (context.function.body state.block).length
  lowers : Lowers (I := opaqueSet Instr signature) signature base context config.exprs inner
  nest : Nest signature final arguments state.registers context.locals inner base context.blockStack
    config.labels
  stack : context.stack = values ++ base
  denotes : Denotes arguments state.registers values config.operands
  stored : Stored context.locals state.registers state.slots config.locals
  store : state.store = config.store
  valid : Valid signature config

inductive Related (signature : Instr → Option FuncSignature) (final : BlockContext Instr)
    (arguments : List Nat) (config : Config Instr Store) (state : State Store) : Prop where
  | running {context inner : BlockContext Instr} {base values : List Value}
      (running : Running signature final arguments context inner base values config state)
  | returned {context : BlockContext Instr} {arity : Nat} (here : context.At state.block)
      (position : state.position = (context.function.body state.block).length)
      (ends : config.exprs = []) (outermost : config.labels = [])
      (returned : final = context.finish state.block arity) (single : arity ≤ 1)
      (height : context.stack.length = arity)
      (denotes : Denotes arguments state.registers context.stack config.operands)
      (store : state.store = config.store)

section Nest

variable {signature : Instr → Option FuncSignature} {final inner : BlockContext Instr}
  {arguments : List Nat} {registers registers' : Registers} {locals : List AllocaInst}
  {base : List Value} {labels : List BreakoutTarget} {entries : List (Label Instr)}

theorem Nest.extends (nest : Nest signature final arguments registers locals inner base labels entries) :
    inner.Extends final := by
  induction nest with
  | func exit extends_ => exact exit.extends_.trans extends_
  | exit exit tail _ _ _ _ _ _ ih => exact (exit.extends_.trans tail.extends).trans ih
  | @loop _ inner _ _ labels _ _ _ _ _ _ _ _ _ _ tail _ _ _ _ _ _ ih =>
      have left : inner.Extends (inner.withLabels labels) := (Extends.refl inner).congr rfl rfl
      exact (left.trans tail.extends).trans ih

/-- New values in registers that the stack does not refer to. -/
theorem Nest.update {count : Nat}
    (nest : Nest signature final arguments registers locals inner base labels entries)
    (known : ∀ value ∈ base, value.Known count) (agree : Agree count registers registers') :
    Nest signature final arguments registers' locals inner base labels entries := by
  induction nest with
  | func exit extends_ returned single arity once rest nothing same =>
      exact .func exit extends_ returned single arity once rest nothing same
  | exit exit tail arity once stays same denotes outer ih =>
      refine .exit exit tail arity once stays same (denotes.update (fun value member => ?_) agree)
        (ih fun value member => ?_)
      · exact known value (by simp [member])
      · exact known value (by simp [member])
  | loop there nothing stack phis run tail arity again stays same denotes outer ih =>
      refine .loop there nothing stack phis run tail arity again stays same
        (denotes.update (fun value member => ?_) agree) (ih fun value member => ?_)
      · exact known value (by simp [member])
      · exact known value (by simp [member])

/-- The labels from a branch depth on. -/
theorem Nest.drop (nest : Nest signature final arguments registers locals inner base labels entries)
    {depth : Nat} (deep : depth < labels.length) :
    ∃ inner' front base', base = front ++ base' ∧ Nest signature final arguments registers locals inner'
      base' (labels.drop depth) (entries.drop depth) := by
  induction depth generalizing inner base labels entries with
  | zero => exact ⟨inner, [], base, rfl, nest⟩
  | succ depth ih =>
      cases nest with
      | func => simp at deep
      | @exit _ _ _ _ _ _ _ junk below base exit tail arity once stays same denotes outer =>
          obtain ⟨inner', front, base', rfl, deeper⟩ := ih outer (Nat.lt_of_succ_lt_succ deep)
          exact ⟨inner', junk ++ (below ++ front), base', by simp, deeper⟩
      | @loop _ _ _ _ _ _ _ _ below base there nothing stack phis run tail arity again stays same denotes
          outer =>
          obtain ⟨inner', front, base', rfl, deeper⟩ := ih outer (Nat.lt_of_succ_lt_succ deep)
          exact ⟨inner', below ++ front, base', by simp, deeper⟩

theorem Nest.length (nest : Nest signature final arguments registers locals inner base labels entries) :
    labels.length = entries.length := by
  induction nest with
  | func => rfl
  | exit _ _ _ _ _ _ _ _ ih => simp [ih]
  | loop _ _ _ _ _ _ _ _ _ _ _ _ ih => simp [ih]

end Nest

/-! ## Branches -/

/-- The configuration behind a branch to a label. -/
def landing (config : Config Instr Store) (operands : List Nat) (entry : Label Instr)
    (entries : List (Label Instr)) : Config Instr Store :=
  match entry.again with
  | none => { config with
      exprs := entry.rest, operands := operands.take entry.arity ++ entry.below, labels := entries }
  | some body => { config with
      exprs := body, operands := operands.take entry.arity, labels := entry :: entries }

theorem branch_moves {config next : Config Instr Store} {depth : Nat} {event : Option (Event Instr)}
    (moves : config.branch depth = .step event next) :
    ∃ entry, config.labels[depth]? = some entry ∧ entry.arity ≤ config.operands.length ∧ event = none ∧
      next = landing config config.operands entry (config.labels.drop (depth + 1)) := by
  rw [Config.branch] at moves
  cases found : config.labels[depth]? with
  | none =>
      rw [found] at moves
      cases moves
  | some entry =>
      rw [found] at moves
      dsimp only at moves
      split at moves
      · rename_i enough
        refine ⟨entry, rfl, enough, ?_⟩
        rw [landing]
        cases again : entry.again with
        | none =>
            rw [again] at moves
            obtain ⟨rfl, rfl⟩ := Move.step.inj moves
            exact ⟨rfl, rfl⟩
        | some body =>
            rw [again] at moves
            obtain ⟨rfl, rfl⟩ := Move.step.inj moves
            obtain ⟨inside, rfl⟩ := List.getElem?_eq_some_iff.mp found
            exact ⟨rfl, by rw [List.drop_eq_getElem_cons inside]⟩
      · cases moves

section Arrive

variable {signature : Instr → Option FuncSignature} {final inner : BlockContext Instr}
  {arguments : List Nat} {locals : List AllocaInst} {base values : List Value}
  {label : BreakoutTarget} {labels : List BreakoutTarget} {entry : Label Instr}
  {entries : List (Label Instr)} {config : Config Instr Store} {state : State Store}
  {operands : List Nat} {edge : Edge}

/-- A jump to a label is the branch to it. -/
theorem Nest.arrive (settled : Settled final)
    (nest : Nest signature final arguments state.registers locals inner base (label :: labels)
      (entry :: entries))
    (labelled : ∀ id index type, label.phis[index]? = some ⟨id, type⟩ →
      PhiAt final.function label.target id index type)
    (unique : (label.phis.map PHINode.id).Nodup) (member : edge ∈ final.edges)
    (source : edge.source = state.block) (target : edge.target = label.target)
    (carried : edge.carried = carriedValues values label.phis.length)
    (denotes : Denotes arguments state.registers values operands)
    (enough : entry.arity ≤ operands.length)
    (stored : Stored locals state.registers state.slots config.locals)
    (store : state.store = config.store) (valid : Valid signature (landing config operands entry entries)) :
    ∃ state', (state.jump final.function arguments label.target : State.Next Instr Store) =
      .step none state' ∧ Related signature final arguments (landing config operands entry entries) state' := by
  have jumps : ∀ (opened : BlockContext Instr), opened.At label.target → opened.Extends final →
      opened.function.body label.target = label.phis.map PHINode.id → entry.arity = label.phis.length →
      ∃ registers, (state.jump final.function arguments label.target : State.Next Instr Store) =
        .step none { state with
          block := label.target, position := (opened.function.body label.target).length, registers } ∧
        Denotes arguments registers (label.phis.map PHINode.value).reverse (operands.take entry.arity) ∧
        ∀ id ∉ label.phis.map PHINode.id, registers id = state.registers id := by
    intro opened there extends_ body arity
    rw [body, List.length_map, arity]
    refine settled.jump member source target carried labelled unique ?_ denotes (arity ▸ enough)
    rw [extends_.leadingPhis settled.numbered there.bound, body]
    intro id inside
    rw [body] at inside
    obtain ⟨phi, inPhis, rfl⟩ := List.mem_map.mp inside
    obtain ⟨index, found⟩ := List.mem_iff_getElem?.mp inPhis
    have old := extends_.phis _ there.bound _ _ _ (labelled phi.id index phi.type found)
    exact ⟨_, _, old.found⟩
  have agrees : ∀ {registers : Registers} {start : Nat}, (∀ phi ∈ label.phis, start ≤ phi.id) →
      (∀ id ∉ label.phis.map PHINode.id, registers id = state.registers id) →
      Agree start state.registers registers := by
    intro registers start fresh others id bound
    refine others id fun inside => ?_
    obtain ⟨phi, inPhis, rfl⟩ := List.mem_map.mp inside
    exact absurd (fresh phi inPhis) (Nat.not_le_of_lt bound)
  cases nest with
  | @func _ resume _ _ exit extends_ returned single arity once rest nothing same =>
      obtain ⟨registers, jump, taken, _⟩ := jumps resume exit.there extends_ exit.body arity
      refine ⟨_, jump, ?_⟩
      rw [landing, once]
      refine .returned exit.there rfl rest rfl returned single ?_ ?_ store
      · rw [exit.stack]
        simp
      · rw [exit.stack, nothing, List.append_nil, List.append_nil, List.append_nil]
        exact taken
  | @exit _ resume after _ _ _ _ junk below base exit tail arity once stays same below' outer =>
      obtain ⟨registers, jump, taken, others⟩ := jumps resume exit.there
        (tail.extends.trans outer.extends) exit.body arity
      obtain ⟨start, fresh, known, knownLocals⟩ := exit.older
      have agree := agrees fresh others
      have knownBase : ∀ value ∈ base, value.Known start :=
        fun value inside => known value (List.mem_append_right _ inside)
      have stack : resume.stack = ((label.phis.map PHINode.value).reverse ++ below) ++ base := by
        rw [exit.stack, List.append_assoc]
      refine ⟨_, jump, ?_⟩
      rw [landing, once] at valid ⊢
      refine .running ⟨exit.there, rfl, tail, ?_, stack,
        (taken.append (below'.update (fun value inside => known value (List.mem_append_left _ inside)) agree)),
        ?_, store, valid⟩
      · rw [same, stays]
        exact outer.update knownBase agree
      · rw [same] at knownLocals ⊢
        exact stored.update knownLocals agree
  | @loop opened _ after _ _ _ _ body below base there nothing stack phis run tail arity again stays same
      below' outer =>
      have extends_ : opened.Extends final :=
        run.extends.trans (Nest.loop there nothing stack phis run tail arity again stays same below'
          outer).extends
      obtain ⟨registers, jump, taken, others⟩ := jumps opened there extends_ (by rw [nothing, phis]; rfl)
        (by rw [arity, phis]; rfl)
      have unchanged : registers = state.registers := funext fun id => others id (by simp [phis])
      subst unchanged
      have split : opened.stack = [] ++ (below ++ base) := stack
      refine ⟨_, jump, ?_⟩
      rw [landing, again] at valid ⊢
      refine .running ⟨there, rfl, run, ?_, split, ?_, ?_, store, valid⟩
      · rw [same, stays]
        exact .loop there nothing stack phis run tail arity again stays same below' outer
      · rw [arity, List.take_zero]
        exact .nil
      · rw [same]
        exact stored

end Arrive

/-! ## Moves -/

mutual

def exprSize : Expr Instr → Nat
  | .block _ body => 2 + exprsSize body
  | _ => 1

def exprsSize : List (Expr Instr) → Nat
  | [] => 0
  | expr :: exprs => exprSize expr + exprsSize exprs

end

/-- The code that is left decreases where the translation emits nothing. -/
def rank (config : Config Instr Store) : Nat :=
  exprsSize config.exprs + (config.labels.map fun label => 1 + exprsSize label.rest).sum

section Moves

variable {signature : Instr → Option FuncSignature} (effects : Effects Instr Store signature)
  (final : BlockContext Instr) (arguments : List Nat)

/-- The machine of the translated function. -/
abbrev translated (state : State Store) : State.Next Instr Store :=
  state.step effects.run final.function arguments

/-- The translated function follows a move. -/
def Follows (config : Config Instr Store) (state : State Store) (event : Option (Event Instr))
    (next : Config Instr Store) : Prop :=
  ∃ count state', Runs (translated effects final arguments) count state event.toList state' ∧
    Related signature final arguments next state' ∧ (count = 0 → rank next < rank config)

variable {effects final arguments}
variable {config next : Config Instr Store} {state state' : State Store} {event : Option (Event Instr)}

theorem follows_one (moves : translated effects final arguments state = .step event state')
    (related : Related signature final arguments next state') :
    Follows effects final arguments config state event next :=
  ⟨1, state', .single moves, related, nofun⟩

theorem follows_two {middle : State Store}
    (first : translated effects final arguments state = .step none middle)
    (second : translated effects final arguments middle = .step event state')
    (related : Related signature final arguments next state') :
    Follows effects final arguments config state event next :=
  ⟨2, state', (Runs.single first).trans (.single second), related, nofun⟩

theorem follows_none (smaller : rank next < rank config)
    (related : Related signature final arguments next state) :
    Follows effects final arguments config state none next :=
  ⟨0, state, .refl, related, fun _ => smaller⟩

/-- An instruction at the end of what is built of the current block. -/
theorem step_at {context : BlockContext Instr} {block : Nat} (insts : List (Inst Instr)) (index : Nat)
    {inst : Inst Instr} (here : context.At block)
    (grows : (context.function.appendAll block insts).Grows final.function)
    (found : insts[index]? = some inst) (atBlock : state.block = block)
    (position : state.position = (context.function.body block).length + index) :
    translated effects final arguments state =
      state.execute effects.run final.function arguments (context.function.insts.length + index) inst := by
  obtain ⟨inBody, object⟩ := grows.code here.bound found
  subst atBlock
  exact State.step_eq (by rw [position]; exact inBody) object

section Running

variable {context inner : BlockContext Instr} {base values : List Value}

theorem Running.extends (running : Running signature final arguments context inner base values config state) :
    context.Extends final :=
  running.lowers.extends.trans running.nest.extends

theorem Running.known (running : Running signature final arguments context inner base values config state) :
    (∀ value ∈ values ++ base, value.Known context.function.insts.length) ∧
      ∀ alloca ∈ context.locals, alloca.id < context.function.insts.length := by
  have sound := running.lowers.sound
  exact ⟨fun value member => sound.stack value (running.stack ▸ member),
    fun alloca member => (sound.locals alloca member).1⟩

/-- The current block goes on behind straight code. -/
theorem Running.stay (running : Running signature final arguments context inner base values config state)
    {after : Straight Instr} {operands : List Nat} {values' : List Value} {registers : Registers}
    {slots : List (Option Nat)} {locals : List Nat} {store store' : Store} {rest : List (Expr Instr)}
    (lowers : Lowers (I := opaqueSet Instr signature) signature base
      (context.afterVisit state.block after) rest inner)
    (agree : Agree context.function.insts.length state.registers registers)
    (stack : after.stack = values' ++ base) (denotes : Denotes arguments registers values' operands)
    (stored : Stored context.locals registers slots locals) (same : store' = store)
    (valid : Valid signature { config with exprs := rest, operands, locals, store }) :
    Related signature final arguments { config with exprs := rest, operands, locals, store }
      ⟨state.block, state.position + after.code.length, registers, slots, store'⟩ := by
  obtain ⟨known, _⟩ := running.known
  have there : (context.afterVisit state.block after).At state.block :=
    ⟨rfl, by simpa [afterVisit] using running.here.bound⟩
  refine .running ⟨there, ?_, lowers, ?_, stack, denotes, stored, same, valid⟩
  · refine (congrArg (· + after.code.length) running.position).trans ?_
    show _ = ((context.function.appendAll state.block (after.code.map .plain)).body state.block).length
    rw [Function.body_appendAll_self running.here.bound]
    simp
  · exact running.nest.update (fun value member => known value (List.mem_append_right _ member)) agree

variable {expr : Expr Instr} {rest : List (Expr Instr)} {visit : Visit Instr Unit}
  {after : Straight Instr}

theorem Running.visited (running : Running signature final arguments context inner base values config state)
    (exprs : config.exprs = expr :: rest)
    (code : straightVisit (opaqueSet Instr signature) expr = some visit) :
    ∃ after, visit (visitStart context) = .ok ((), after) ∧
      Lowers (I := opaqueSet Instr signature) signature base (context.afterVisit state.block after) rest
        inner := by
  have lowers := running.lowers
  rw [exprs] at lowers
  exact lowers.ofStraight running.here code (opaqueSet_tracks signature) (opaqueSet_scalar signature)

theorem Running.plain (running : Running signature final arguments context inner base values config state)
    (lowers : Lowers (I := opaqueSet Instr signature) signature base
      (context.afterVisit state.block after) rest inner) (index : Nat) (plain : Plain Instr)
    (found : after.code[index]? = some plain) (sameBlock : state'.block = state.block)
    (position : state'.position = state.position + index) :
    translated effects final arguments state' =
      state'.executePlain effects.run arguments (context.function.insts.length + index) plain := by
  have grows := (lowers.extends.trans running.nest.extends).grows
  have placed : (after.code.map Inst.plain)[index]? = some (.plain plain) := by simp [found]
  exact step_at _ index running.here grows placed sameBlock (by rw [position, running.position])

end Running

end Moves

end WasmToLlvm.Block

import WasmToLlvm.Block.Dominance
import WasmToLlvm.Block.AllPlaces

/-!
# Values on the symbolic stack are defined above

At every expression that is visited the operands that validation gives it are defined in
blocks above the one that instructions are inserted into, and so the definitions of a
translated function dominate their uses.
-/

set_option autoImplicit false

namespace WasmToLlvm.Block

open Llvm Wasm Library BlockContext

variable {I : InstructionSet}

/-! ## Operands -/

section Founded

variable {signature : I.Instr → Option FuncSignature} {func : Func I.Instr} {above above' : Nat → Nat → Prop}
  {function larger : Llvm.Function I.Op} {place : Place I}

/-- The operands that validation gives to an expression are on the stack, and known in the
block that instructions are inserted into. -/
def Founded (signature : I.Instr → Option FuncSignature) (func : Func I.Instr) (above : Nat → Nat → Prop)
    (function : Llvm.Function I.Op) (place : Place I) : Prop :=
  ∃ block operands after, place.context.At block ∧
    checkExpr (frameValidation signature func place.frames) place.expr operands = some after ∧ operands.Live ∧
      operands.types.length ≤ place.context.stack.length ∧
        ∀ value ∈ place.context.stack.take operands.types.length, function.DefinedIn above value block

theorem Founded.mono (founded : Founded signature func above function place) (grows : function.Grows larger)
    (weaker : ∀ first second, above first second → above' first second) :
    Founded signature func above' larger place := by
  obtain ⟨block, operands, after, here, checked, live, enough, known⟩ := founded
  exact ⟨block, operands, after, here, checked, live, enough, fun value member =>
    ((known value member).grows grows).mono weaker⟩

section Ahead

variable {context : BlockContext I.Op} {expr : Expr I.Instr} {frames : List Frame} {block base : Nat}
  {operands after : Operands} {pending order : List Nat} {parent : Nat → Option Nat}

theorem Ahead.founded (ahead : Ahead (frameValidation signature func frames) base operands context block)
    (checked : checkExpr (frameValidation signature func frames) expr operands = some after)
    (within : Scoped base pending parent order context) (entry : Option Nat) (exit : Nat) :
    Founded signature func (Above parent) context.function ⟨context, entry, exit, expr, frames⟩ := by
  have height := ahead.height
  have known := ((within.stack block ahead.here).split (show base + operands.types.length ≤ _ by omega)).1
  refine ⟨block, operands, after, ahead.here, checked, ahead.live, ?_, known⟩
  show operands.types.length ≤ context.stack.length
  omega

end Ahead

end Founded

/-! ## Runs -/

section Runs

variable {holds : I.Instr → Bool} {validation : ValidationContext I.Instr} {operands after : Operands} {base : Nat}
  {context final : BlockContext I.Op} {exprs : List (Expr I.Instr)} {pending order : List Nat}
  {parent : Nat → Option Nat}

theorem ValidRun.grown (run : ValidRun I holds validation base operands context exprs after final)
    {function : Llvm.Function I.Op} (grows : function.Grows context.function) : function.Grows final.function := by
  induction run with
  | nil _ => exact grows
  | skipped _ _ => exact grows
  | step _ _ _ head _ ih => exact ih (head.grows grows)
  | block _ _ _ _ _ _ emits _ _ _ _ ih => exact ih (flowInto_grows (emits.grows (startBlock_grows grows _ _ _)) _ _)
  | loop _ _ _ _ _ _ emits _ _ _ _ ih => exact ih (emits.grows (startLoop_grows grows _ _ _))
  | if_ _ _ _ _ _ _ _ _ _ emitsTrue _ _ _ emitsFalse _ _ _ _ _ ih =>
      have first := flowInto_grows (emitsTrue.grows (startThen_grows grows _ _ _ _ _))
      exact ih (flowInto_grows (emitsFalse.grows (first _ _)) _ _)

/-- Every run of validated code keeps the invariant, and the operands of all expressions
that are visited are known. -/
theorem ValidRun.founded {signature : I.Instr → Option FuncSignature} {func : Func I.Instr}
    (run : ValidRun I holds validation base operands context exprs after final) (frames : List Frame)
    (same : validation = frameValidation signature func frames)
    (feeds : ∀ instr, holds instr → I.FeedsAt signature instr) (within : Scoped base pending parent order context) :
    ∃ parent' order', Scoped base pending parent' order' final ∧ Grows parent context parent' final ∧
      AllPlaces (Founded signature func (Above parent') final.function) context exprs frames := by
  induction run generalizing pending parent order frames with
  | nil _ => exact ⟨parent, order, within, .refl, allPlaces_nil⟩
  | skipped nowhere _ => exact ⟨parent, order, within, .refl, allPlaces_skipped nowhere⟩
  | @step _ base _ _ _ context next final block expr exprs ahead checked visited head tail ih =>
      subst same
      have feedsHead : ∀ instr, expr = .instr instr → I.FeedsAt signature instr := by
        intro instr same
        rw [same] at visited
        exact feeds instr visited
      obtain ⟨parent₁, order₁, middle, grows⟩ := head.scoped ahead feedsHead checked within
      obtain ⟨parent₂, order₂, last, grows', founded⟩ := ih frames rfl middle
      have whole := grows.trans grows' (middle.laid.layout.embeds grows'.later)
        (tail.reached (head.placed ahead.here))
      refine ⟨parent₂, order₂, last, whole, allPlaces_step ahead.here head (fun exit => ?_) founded⟩
      exact (ahead.founded checked within _ exit).mono (tail.grown (head.grows (.refl _))) fun _ _ higher =>
        higher.mono (within.laid.layout.embeds whole.later)
  | @block _ _ _ below _ _ context inner final block decl _ _ types ahead checked opens _ all _ emits closable keeps
      tail ihRun ihTail =>
      subst same
      have height := opens.height
      obtain ⟨parent₁, order₁, inside, grows, foundedRun⟩ :=
        ihRun (⟨.block, decl, context.function.blocks.length, context.stack.length - decl.params.length⟩ :: frames) rfl
          (startBlock_scoped ahead.here within (Nat.le_add_right _ _) (by omega))
      obtain ⟨left, kept⟩ := leaveBlock_scoped ahead.here opens all emits closable keeps within inside grows
      obtain ⟨parent₂, order₂, last, grows', founded⟩ := ihTail frames rfl left
      have embeds := left.laid.layout.embeds grows'.later
      have whole := kept.trans grows' embeds fun _ => ⟨_, afterBlock_at (context.blockLabel decl types) emits⟩
      have grown : inner.function.Grows final.function := tail.grown (flowInto_grows (.refl _) _ _)
      refine ⟨parent₂, order₂, last, whole, allPlaces_block ahead.here all emits closable (fun exit => ?_)
        (foundedRun.mono fun _ known => known.mono grown fun _ _ higher => higher.mono embeds) founded⟩
      exact (ahead.founded checked within _ exit).mono ((emits.grows (startBlock_grows (.refl _) _ _ _)).trans grown)
        fun _ _ higher => higher.mono (within.laid.layout.embeds whole.later)
  | @loop _ _ _ below _ _ context inner final block decl _ _ types ahead checked opens _ all _ emits closable keeps
      tail ihRun ihTail =>
      subst same
      have height := opens.height
      obtain ⟨parent₁, order₁, inside, grows, foundedRun⟩ :=
        ihRun (⟨.loop, decl, context.function.blocks.length, context.stack.length - decl.params.length⟩ :: frames) rfl
          (startLoop_scoped ahead.here within all (Nat.le_add_right _ _) (by omega))
      obtain ⟨left, kept⟩ := leaveLoop_scoped ahead.here opens emits keeps within inside grows
      obtain ⟨parent₂, order₂, last, grows', founded⟩ := ihTail frames rfl left
      have embeds := left.laid.layout.embeds grows'.later
      have started : (context.startLoop block decl types).At context.function.blocks.length := startLoop_at decl types
      have placed := emits.placed (.inr ⟨_, started⟩)
      have whole := kept.trans grows' embeds
        (tail.reached (placed.imp_right fun there => there.imp fun _ at_ => at_.withLabels _))
      have grown : inner.function.Grows final.function := tail.grown (.refl _)
      refine ⟨parent₂, order₂, last, whole, allPlaces_loop ahead.here all (by omega) emits closable (fun exit => ?_)
        (foundedRun.mono fun _ known => known.mono grown fun _ _ higher => higher.mono embeds) founded⟩
      exact (ahead.founded checked within _ exit).mono ((emits.grows (startLoop_grows (.refl _) _ _ _)).trans grown)
        fun _ _ higher => higher.mono (within.laid.layout.embeds whole.later)
  | @if_ _ _ _ _ below _ _ _ context first second final block value rest decl _ _ _ types ahead checked top _ opens _
      framed all _ emitsTrue closableTrue _ runFalse emits closable keeps tail ihTrue ihFalse ihTail =>
      subst same
      have height := opens.height
      let frame : Frame :=
        ⟨.if_, decl, context.function.blocks.length + 2, context.stack.length - 1 - decl.params.length⟩
      obtain ⟨parent₁, order₁, insideTrue, growsTrue, foundedTrue⟩ := ihTrue (frame :: frames) rfl
        (startThen_scoped ahead.here within top (Nat.le_add_right _ _) (by omega))
      have arm := nextArm_scoped ahead.here top opens all emitsTrue closableTrue within insideTrue growsTrue
      obtain ⟨parent₂, order₂, inside, grows, foundedFalse⟩ := ihFalse (frame :: frames) rfl arm
      obtain ⟨left, kept⟩ := leaveIf_scoped ahead.here top opens all framed emitsTrue emits closable keeps
        runFalse.standing within growsTrue inside grows
      obtain ⟨parent₃, order₃, last, grows', founded⟩ := ihTail frames rfl left
      have embeds := left.laid.layout.embeds grows'.later
      have whole := kept.trans grows' embeds fun _ => ⟨_, afterIf_at emitsTrue emits⟩
      have grown : second.function.Grows final.function := tail.grown (flowInto_grows (.refl _) _ _)
      have grownTrue : first.function.Grows final.function :=
        (emits.grows (flowInto_grows (.refl first.function) _ _)).trans grown
      refine ⟨parent₃, order₃, last, whole, allPlaces_if ahead.here top (by omega) all emitsTrue closableTrue emits
        closable (fun exit => ?_) (foundedTrue.mono fun _ known => known.mono grownTrue fun _ _ higher => ?_)
        (foundedFalse.mono fun _ known => known.mono grown fun _ _ higher => higher.mono embeds) founded⟩
      · exact (ahead.founded checked within _ exit).mono
          ((emitsTrue.grows (startThen_grows (.refl _) _ _ _ _ _)).trans grownTrue) fun _ _ higher =>
            higher.mono (within.laid.layout.embeds whole.later)
      · exact (higher.mono (arm.laid.layout.embeds grows.later)).mono embeds

end Runs

/-! ## Functions -/

section Functions

variable {Op : Type} {context : BlockContext Op} {above : Nat → Nat → Prop} {block : Nat} {entries : List (Ty × Value)}
  {params locals results : List Ty} {decl : BlockDeclaration}

/-- Storage is initialized with constants or arguments. -/
theorem storage_operands (constant : ∀ entry ∈ entries, entry.2.instId? = none) (next : Nat) :
    ∀ (position : Nat) (inst : Inst Op), (storage next entries)[position]? = some inst → ∀ value ∈ inst.operands,
      value.instId? = none ∨ ∃ earlier < position, value.instId? = some (next + earlier) := by
  induction entries generalizing next with
  | nil => exact fun _ _ found => nomatch found
  | cons entry entries ih =>
      intro position inst found value member
      rcases position with _ | _ | position
      · obtain rfl := Option.some.inj found
        cases member
      · obtain rfl := Option.some.inj found
        rcases List.mem_pair.mp member with rfl | rfl
        · exact .inl (constant entry List.mem_cons_self)
        · exact .inr ⟨0, Nat.zero_lt_succ _, rfl⟩
      · have rest := ih (fun other among => constant other (List.mem_cons_of_mem _ among)) (next + 2) position inst
          found value member
        refine rest.imp_right fun ⟨earlier, before, is⟩ => ⟨earlier + 2, Nat.add_lt_add_right before 2, ?_⟩
        rw [is, Nat.add_assoc, Nat.add_comm 2]

theorem arguments_constant (types : List Ty) (index : Nat) : ∀ entry ∈ arguments index types, entry.2.instId? = none := by
  induction types generalizing index with
  | nil => exact fun _ member => absurd member List.not_mem_nil
  | cons type types ih =>
      intro entry member
      rcases List.mem_cons.mp member with rfl | member
      · rfl
      · exact ih (index + 1) entry member

theorem zeros_constant (types : List Ty) : ∀ entry ∈ zeros types, entry.2.instId? = none := by
  intro entry member
  obtain ⟨type, _, rfl⟩ := List.mem_map.mp member
  cases type <;> rfl

theorem store_uses (uses : context.function.Uses above) (bodies : context.function.Inside)
    (bound : block < context.function.blocks.length) (refl : above block block)
    (constant : ∀ entry ∈ entries, entry.2.instId? = none) : (context.store block entries).function.Uses above := by
  refine uses.appendAll bodies bound refl fun position inst found value member => ?_
  exact (storage_operands constant _ position inst found value member).imp_left Function.definedIn_constant

theorem storageLocals_new (next : Nat) :
    ∀ alloca ∈ storageLocals next entries, next ≤ alloca.id ∧ alloca.id < next + 2 * entries.length := by
  induction entries generalizing next with
  | nil => exact fun _ member => absurd member List.not_mem_nil
  | cons entry entries ih =>
      intro alloca member
      rw [List.length_cons]
      rcases List.mem_cons.mp member with rfl | member
      · dsimp only
        omega
      · have rest := ih (next + 2) alloca member
        omega

theorem store_inside (entries : List (Ty × Value)) (bound : block < context.function.blocks.length)
    (old : ∀ alloca ∈ context.locals, alloca.id ∈ context.function.body block) :
    ∀ alloca ∈ (context.store block entries).locals, alloca.id ∈ (context.store block entries).function.body block := by
  intro alloca member
  show _ ∈ (context.function.appendAll block (storage _ entries)).body block
  rw [Function.body_appendAll_self bound, storage_length]
  rcases List.mem_append.mp member with before | new
  · exact List.mem_append_left _ (old alloca before)
  · exact List.mem_append_right _ (List.mem_range'_1.mpr (storageLocals_new _ alloca new))

/-- The invariant holds in front of the body. -/
theorem startFunc_scoped : Scoped 0 [1] (below (fun _ => none) 1 0) [0]
    (startFunc params locals results decl : BlockContext Op) := by
  let opened : BlockContext Op := (BlockContext.newBlock ⟨.empty, none, [], [], [], []⟩ "allocator").moveTo 0
  have bound : 0 < opened.function.blocks.length := by simp [opened, Function.empty]
  have bound' : 0 < (opened.store 0 (arguments 0 params)).function.blocks.length := by
    simpa [store] using bound
  have numbered : ((opened.store 0 (arguments 0 params)).store 0 (zeros locals)).function.Numbered :=
    ((Function.numbered_empty.newBlock "allocator").appendAll 0 _).appendAll 0 _
  have first : opened.function.Uses (Above (below (fun _ => none) 1 0)) := Function.uses_empty.newBlock "allocator"
  have stored := store_uses (store_uses first (Function.numbered_empty.newBlock "allocator").bodies bound .refl
    (arguments_constant params 0)) ((Function.numbered_empty.newBlock "allocator").appendAll 0 _).bodies bound' .refl
      (zeros_constant locals)
  have uses := (stored.newBlock "return").appendPhis (numbered.newBlock "return").bodies 1 (phiInsts_isPhi results 0)
  refine ⟨⟨startFunc_laid, startFunc_logged _ _ _ _, uses, ?_⟩, fun other there => upper_nil⟩
  have inside := store_inside (zeros locals) bound' (store_inside (arguments 0 params) bound
    fun _ member => absurd member List.not_mem_nil)
  intro alloca member
  have grows : ((opened.store 0 (arguments 0 params)).store 0 (zeros locals)).function.Grows
      (startFunc params locals results decl : BlockContext Op).function :=
    ((Function.Grows.refl _).newBlock "return").appendAll 1 _
  exact grows.member (inside alloca member)

/-- What an instruction takes and leaves is what it is fed with. -/
theorem InstructionSet.FeedsAt.tracksAt {signature : I.Instr → Option FuncSignature} {instr : I.Instr}
    (feeds : I.FeedsAt signature instr) : I.TracksAt signature instr := by
  intro type found straight after enough ran
  have start : Supplied (fun _ => True) (straight.stack.drop type.params.length) type.params.length []
      { straight with code := straight.code } := by
    refine ⟨⟨straight.stack.take type.params.length, (List.take_append_drop _ _).symm,
      List.length_take_of_le enough, fun _ _ _ _ => .inl trivial⟩, ?_, fun _ _ => trivial, ?_⟩
    · exact fun _ member => absurd member List.not_mem_nil
    · exact fun _ _ _ _ _ _ _ => .inl trivial
  obtain ⟨_, _, ⟨front, stack, count, _⟩, _, _, _⟩ := (feeds type found).run start ran
  exact ⟨front, stack, count⟩

variable {holds : I.Instr → Bool} {signature : I.Instr → Option FuncSignature} {func : Func I.Instr}
  {final : BlockContext I.Op}

/-- The tree of a translated function, in which definitions are above their uses. -/
structure Settles (parent : Nat → Option Nat) (order : List Nat) (final : BlockContext I.Op) : Prop where
  layout : Layout [] parent order final.function.names final.edges
  uses : final.function.Uses (Above parent)

theorem finish_grows {context : BlockContext I.Op} {function : Llvm.Function I.Op}
    (grows : function.Grows context.function) (block arity : Nat) :
    function.Grows (context.finish block arity).function := by
  rcases arity with _ | arity
  · exact grows.append block _
  · cases top : context.stack with
    | nil =>
        simp only [finish, top]
        exact grows
    | cons value rest =>
        simp only [finish, top]
        exact grows.append block _

theorem finish_uses {context : BlockContext I.Op} {above : Nat → Nat → Prop} {block : Nat}
    (uses : context.function.Uses above) (bodies : context.function.Inside)
    (upper : Upper (fun value => context.function.DefinedIn above value block) 0 context.stack) (arity : Nat) :
    (context.finish block arity).function.Uses above := by
  rcases arity with _ | arity
  · exact uses.append bodies block _ fun _ member => absurd member List.not_mem_nil
  · cases top : context.stack with
    | nil =>
        simp only [finish, top]
        exact uses
    | cons value rest =>
        rw [top] at upper
        simp only [finish, top]
        refine uses.append bodies block _ fun other member => ?_
        obtain rfl := Option.some.inj (Option.mem_toList.mp member)
        exact (upper.pop (Nat.zero_lt_succ _)).1

/-- The end of a function returns what its label has. -/
theorem leave_settles {inner : BlockContext I.Op} {parent : Nat → Option Nat} {order : List Nat}
    (within : Scoped 0 [1] parent order inner) (placed : inner.Placed)
    (top : inner.blockStack = [funcLabel I.Op params locals results func.decl])
    (all : Convert func.decl.results results)
    (closable : Closable inner (funcLabel I.Op params locals results func.decl).pos func.decl.results.length) :
    Settles parent (order ++ [1]) (((inner.leave .func (funcLabel I.Op params locals results func.decl)).moveTo 1).finish 1
      func.decl.results.length) := by
  have member : funcLabel I.Op params locals results func.decl ∈ inner.blockStack := top ▸ List.mem_cons_self
  have laid := leave_laid .func placed within.laid member (by simp [leave, top])
  have left := leave_scoped .func (by decide) placed within member rfl (exitLabel_sized _ _ _ all) closable (by rfl) laid
    (fun low sized _ => by rw [List.length_eq_zero_iff.mp sized]; exact List.nil_suffix) (Nat.le_refl 0)
    (Nat.zero_le _) upper_nil
  have bodies : Function.Inside _ := left.logged.traced.numbered.bodies
  have bound : 1 < (inner.leave .func (funcLabel I.Op params locals results func.decl)).function.blocks.length := by
    rw [leave_blocks_length]
    exact (within.logged.labelled _ member).bound
  refine ⟨by rw [finish_names, finish_edges]; exact left.laid.layout, ?_⟩
  exact finish_uses left.uses bodies (left.stack 1 (moveTo_at bound)) _

variable {validation : ValidationContext I.Instr}

/-- In a translated function definitions are above uses, if its visited instructions feed on
their operands. -/
theorem EmitsFunc.settles (emits : EmitsFunc I func final) (validated : Validated signature func)
    (feeds : ∀ instr, holds instr → I.FeedsAt signature instr) (visited : ExprList.visitedAll holds func.exprs) :
    ∃ parent order, Settles parent order final ∧
      ∀ place, FuncVisits I func place → Founded signature func (Above parent) final.function place := by
  obtain @⟨params, locals, results, inner, paramsOk, localsOk, resultsOk, run, closable, single⟩ := emits
  obtain ⟨operands, checked, _⟩ := validated_iff.mp validated
  have validRun : ValidRun I holds (funcValidation signature func) 0 (Operands.live []) _ func.exprs operands inner :=
    run.validRun (startFunc_matches paramsOk localsOk resultsOk) (fun instr is => (feeds instr is).tracksAt) visited
      checked startFunc_standing
  obtain ⟨parent, order, inside, _, founded⟩ := validRun.founded [⟨.func, func.decl, 1, 0⟩] rfl feeds startFunc_scoped
  have placed := run.placed (.inr ⟨0, startFunc_at _ _ _ _⟩)
  refine ⟨parent, _, leave_settles inside placed run.blockStack resultsOk closable, fun place visits => ?_⟩
  obtain ⟨allocaBlock, returnBlock, stackPos, phis, opened, opens, visits⟩ := visits
  obtain ⟨rfl, rfl, params', locals', results', paramsOk', localsOk', resultsOk', rfl⟩ := beginFunc_starts opens
  obtain rfl := Convert.unique paramsOk paramsOk'
  obtain rfl := Convert.unique localsOk localsOk'
  obtain rfl := Convert.unique resultsOk resultsOk'
  have left : inner.function.Grows ((inner.leave .func (funcLabel I.Op params locals results func.decl)).moveTo
      1).function := flowInto_grows (.refl _) _ _
  exact (founded _ _ place (.inr ⟨0, startFunc_at _ _ _ _, rfl⟩) visits).mono (finish_grows left 1 _) fun _ _ higher => higher

theorem Settles.ssa {parent : Nat → Option Nat} {order : List Nat} (settles : Settles parent order final)
    (traced : Traced final.function final.edges) : final.function.SSA :=
  settles.uses.ssa fun _ _ above => settles.layout.dominates traced above

end Functions

end WasmToLlvm.Block

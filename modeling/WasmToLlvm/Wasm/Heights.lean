import WasmToLlvm.Wasm.Validation

/-!
# Stack heights

The number of operands that an expression leaves is known from the expression
alone. Validation agrees with it at every place that can be reached.
-/

set_option autoImplicit false

namespace WasmToLlvm.Wasm

-- the equations of the mutual recursion are generated here, once for all proofs
attribute [local simp] checkExpr checkExprs

/-- The height behind an expression that control passes, from the height in front of it. -/
def Expr.height {Instr : Type} (signature : Instr → Option FuncSignature) (height : Nat) :
    Expr Instr → Nat
  | .block decl _ | .loop decl _ => height - decl.params.length + decl.results.length
  | .if_ decl _ _ => height - 1 - decl.params.length + decl.results.length
  | .br _ | .return_ | .unreachable | .nop | .localTee _ => height
  | .brIf _ | .brTable _ _ | .drop | .localSet _ => height - 1
  | .select _ => height - 2
  | .localGet _ => height + 1
  | .instr op =>
      match signature op with
      | some type => height - type.params.length + type.results.length
      | none => height

namespace Operands

/-- No unconditional transfer stands in front of this place. -/
def Live (operands : Operands) : Prop :=
  operands.unreachable = false

section Lengths

variable {operands rest : Operands} {types : List ValType}

theorem live_live (types : List ValType) : (Operands.live types).Live := rfl

theorem Live.push (live : operands.Live) (type : Option ValType) : (operands.push type).Live := live

theorem Live.pushList (live : operands.Live) (types : List ValType) : (operands.pushList types).Live :=
  live

@[simp] theorem live_types_length (types : List ValType) :
    (Operands.live types).types.length = types.length := by
  simp [Operands.live]

@[simp] theorem push_types_length (type : Option ValType) :
    (operands.push type).types.length = operands.types.length + 1 := rfl

@[simp] theorem pushList_types_length :
    (operands.pushList types).types.length = types.length + operands.types.length := by
  simp [pushList]

/-- Popping shortens live operands. -/
structure Pops (operands : Operands) (count : Nat) (rest : Operands) : Prop where
  live : rest.Live
  length : rest.types.length + count = operands.types.length

theorem Live.pop {type : Option ValType} (live : operands.Live)
    (popped : operands.pop = some (type, rest)) : operands.Pops 1 rest := by
  obtain ⟨types, unreachable⟩ := operands
  cases types with
  | nil =>
      obtain rfl : unreachable = false := live
      cases popped
  | cons top types =>
      obtain ⟨rfl, rfl⟩ := Prod.mk.inj (Option.some.inj popped)
      exact ⟨live, rfl⟩

theorem Live.popExpect {expected : ValType} (live : operands.Live)
    (popped : operands.popExpect expected = some rest) : operands.Pops 1 rest := by
  simp only [Operands.popExpect, Option.bind_eq_bind, Option.bind_eq_some_iff] at popped
  obtain ⟨⟨type, below⟩, top, matched⟩ := popped
  have pops := live.pop top
  split at matched
  · obtain rfl := Option.some.inj matched
    exact pops
  · cases matched

theorem Pops.trans {middle : Operands} {first second : Nat} (front : operands.Pops first middle)
    (back : middle.Pops second rest) : operands.Pops (first + second) rest :=
  ⟨back.live, by rw [← front.length, ← back.length]; omega⟩

theorem Live.popList (live : operands.Live) (popped : operands.popList types = some rest) :
    operands.Pops types.length rest := by
  rw [Operands.popList] at popped
  rw [← List.length_reverse]
  generalize types.reverse = reversed at popped ⊢
  induction reversed generalizing operands with
  | nil =>
      obtain rfl := Option.some.inj popped
      exact ⟨live, rfl⟩
  | cons type reversed ih =>
      rw [List.foldlM_cons, Option.bind_eq_bind, Option.bind_eq_some_iff] at popped
      obtain ⟨middle, top, below⟩ := popped
      have pops := live.popExpect top
      rw [List.length_cons, Nat.add_comm]
      exact pops.trans (ih pops.live below)

theorem Live.closeFrame {final : Operands} {results : List ValType} (live : final.Live)
    (closed : closeFrame results final = some ()) : final.types.length = results.length := by
  simp only [Wasm.closeFrame, Option.bind_eq_bind, Option.bind_eq_some_iff] at closed
  obtain ⟨rest, popped, empty⟩ := closed
  have pops := live.popList popped
  split at empty
  · rename_i nothing
    rw [← pops.length, nothing]
    simp
  · cases empty

/-- What is pushed can be popped. -/
theorem popList_pushList (types : List ValType) (operands : Operands) :
    (operands.pushList types).popList types = some operands := by
  obtain ⟨below, unreachable⟩ := operands
  simp only [popList, pushList]
  induction types.reverse with
  | nil => rfl
  | cons type types ih =>
      rw [List.foldlM_cons, List.map_cons, List.cons_append]
      simpa [popExpect, pop] using ih

end Lengths

end Operands

/-! ## Validated expressions -/

section Inversion

variable {Instr : Type} {context : ValidationContext Instr} {operands after : Operands}
  {decl : BlockDeclaration} {body other : List (Expr Instr)}

theorem checkExprs_cons {expr : Expr Instr} {exprs : List (Expr Instr)}
    (checked : checkExprs context (expr :: exprs) operands = some after) :
    ∃ next, checkExpr context expr operands = some next ∧
      checkExprs context exprs next = some after := by
  rwa [checkExprs, Option.bind_eq_bind, Option.bind_eq_some_iff] at checked

/-- A body that is validated in a frame of its own. -/
structure Framed (context : ValidationContext Instr) (label : List ValType) (decl : BlockDeclaration)
    (body : List (Expr Instr)) (final : Operands) : Prop where
  checked : checkExprs (context.withLabel label) body (Operands.live decl.params.reverse) = some final
  closed : closeFrame decl.results final = some ()

theorem checkExpr_block (checked : checkExpr context (.block decl body) operands = some after) :
    ∃ rest final, operands.popList decl.params = some rest ∧
      Framed context decl.results decl body final ∧ after = rest.pushList decl.results := by
  simp only [checkExpr, Option.bind_eq_bind, Option.bind_eq_some_iff, Option.pure_def] at checked
  obtain ⟨rest, popped, final, inner, ⟨⟩, closed, pushed⟩ := checked
  exact ⟨rest, final, popped, ⟨inner, closed⟩, (Option.some.inj pushed).symm⟩

theorem checkExpr_loop (checked : checkExpr context (.loop decl body) operands = some after) :
    ∃ rest final, operands.popList decl.params = some rest ∧
      Framed context decl.params decl body final ∧ after = rest.pushList decl.results := by
  simp only [checkExpr, Option.bind_eq_bind, Option.bind_eq_some_iff, Option.pure_def] at checked
  obtain ⟨rest, popped, final, inner, ⟨⟩, closed, pushed⟩ := checked
  exact ⟨rest, final, popped, ⟨inner, closed⟩, (Option.some.inj pushed).symm⟩

theorem checkExpr_if (checked : checkExpr context (.if_ decl body other) operands = some after) :
    ∃ condition rest trueFinal falseFinal, operands.popExpect .i32 = some condition ∧
      condition.popList decl.params = some rest ∧
      Framed context decl.results decl body trueFinal ∧
      Framed context decl.results decl other falseFinal ∧ after = rest.pushList decl.results := by
  simp only [checkExpr, Option.bind_eq_bind, Option.bind_eq_some_iff, Option.pure_def] at checked
  obtain ⟨condition, top, rest, popped, trueFinal, trueInner, ⟨⟩, trueClosed, falseFinal, falseInner,
    ⟨⟩, falseClosed, pushed⟩ := checked
  exact ⟨condition, rest, trueFinal, falseFinal, top, popped, ⟨trueInner, trueClosed⟩,
    ⟨falseInner, falseClosed⟩, (Option.some.inj pushed).symm⟩

theorem checkExpr_br {depth : Nat} (checked : checkExpr context (.br depth) operands = some after) :
    ∃ label rest, context.labels[depth]? = some label ∧ operands.popList label = some rest := by
  simp only [checkExpr, Option.bind_eq_bind, Option.bind_eq_some_iff, Option.pure_def] at checked
  obtain ⟨label, found, rest, popped, _⟩ := checked
  exact ⟨label, rest, found, popped⟩

theorem checkExpr_return (checked : checkExpr context .return_ operands = some after) :
    ∃ rest, operands.popList context.results = some rest := by
  simp only [checkExpr, Option.bind_eq_bind, Option.bind_eq_some_iff, Option.pure_def] at checked
  obtain ⟨rest, popped, _⟩ := checked
  exact ⟨rest, popped⟩

theorem checkExpr_brIf {depth : Nat} (checked : checkExpr context (.brIf depth) operands = some after) :
    ∃ rest label below, operands.popExpect .i32 = some rest ∧ context.labels[depth]? = some label ∧
      rest.popList label = some below ∧ after = below.pushList label := by
  simp only [checkExpr, Option.bind_eq_bind, Option.bind_eq_some_iff, Option.pure_def] at checked
  obtain ⟨rest, top, label, found, below, popped, pushed⟩ := checked
  exact ⟨rest, label, below, top, found, popped, (Option.some.inj pushed).symm⟩

theorem checkExpr_brTable {targets : List Nat} {default : Nat}
    (checked : checkExpr context (.brTable targets default) operands = some after) :
    ∃ rest label final below, operands.popExpect .i32 = some rest ∧
      context.labels[default]? = some label ∧
      checkTargets context label.length rest targets = some final ∧ final.popList label = some below := by
  simp only [checkExpr, Option.bind_eq_bind, Option.bind_eq_some_iff, Option.pure_def] at checked
  obtain ⟨rest, top, label, found, final, all, below, popped, _⟩ := checked
  exact ⟨rest, label, final, below, top, found, all, popped⟩

theorem checkExpr_instr {instr : Instr} (checked : checkExpr context (.instr instr) operands = some after) :
    ∃ type rest, context.signature instr = some type ∧ operands.popList type.params = some rest ∧
      after = rest.pushList type.results := by
  simp only [checkExpr, Option.bind_eq_bind, Option.bind_eq_some_iff, Option.pure_def] at checked
  obtain ⟨type, found, rest, popped, pushed⟩ := checked
  exact ⟨type, rest, found, popped, (Option.some.inj pushed).symm⟩

theorem checkExpr_drop (checked : checkExpr context (.drop : Expr Instr) operands = some after) :
    ∃ type, operands.pop = some (type, after) := by
  simp only [checkExpr, Option.bind_eq_bind, Option.bind_eq_some_iff, Option.pure_def] at checked
  obtain ⟨⟨type, rest⟩, popped, same⟩ := checked
  obtain rfl := Option.some.inj same
  exact ⟨type, popped⟩

theorem checkExpr_localGet {index : Nat}
    (checked : checkExpr context (.localGet index) operands = some after) :
    ∃ type, context.locals[index]? = some type ∧ after = operands.push (some type) := by
  simp only [checkExpr, Option.bind_eq_bind, Option.bind_eq_some_iff, Option.pure_def] at checked
  obtain ⟨type, found, pushed⟩ := checked
  exact ⟨type, found, (Option.some.inj pushed).symm⟩

theorem checkExpr_localSet {index : Nat}
    (checked : checkExpr context (.localSet index) operands = some after) :
    ∃ type, context.locals[index]? = some type ∧ operands.popExpect type = some after := by
  simpa only [checkExpr, Option.bind_eq_bind, Option.bind_eq_some_iff] using checked

theorem checkExpr_localTee {index : Nat}
    (checked : checkExpr context (.localTee index) operands = some after) :
    ∃ type rest, context.locals[index]? = some type ∧ operands.popExpect type = some rest ∧
      after = rest.push (some type) := by
  simp only [checkExpr, Option.bind_eq_bind, Option.bind_eq_some_iff, Option.pure_def] at checked
  obtain ⟨type, found, rest, popped, pushed⟩ := checked
  exact ⟨type, rest, found, popped, (Option.some.inj pushed).symm⟩

/-- Both kinds of `select` take a condition and two operands. -/
theorem checkExpr_select {resultType : Option ValType} (live : operands.Live)
    (checked : checkExpr context (.select resultType) operands = some after) :
    ∃ rest, operands.Pops 3 rest ∧ after.Live ∧ after.types.length = rest.types.length + 1 := by
  cases resultType with
  | none =>
      simp only [checkExpr, Option.bind_eq_bind, Option.bind_eq_some_iff, Option.pure_def] at checked
      obtain ⟨first, top, ⟨right, second⟩, popRight, ⟨left, third⟩, popLeft, type, _, pushed⟩ := checked
      obtain rfl := Option.some.inj pushed
      have pops := live.popExpect top
      have both := (pops.trans (pops.live.pop popRight)).trans ((pops.live.pop popRight).live.pop popLeft)
      exact ⟨third, both, both.live.push _, rfl⟩
  | some type =>
      simp only [checkExpr, Option.bind_eq_bind, Option.bind_eq_some_iff, Option.pure_def] at checked
      obtain ⟨first, top, second, popped, pushed⟩ := checked
      obtain rfl := Option.some.inj pushed
      have pops := live.popExpect top
      have both := pops.trans (pops.live.popList popped)
      exact ⟨second, both, both.live.pushList _, by simp [Nat.add_comm]⟩

end Inversion

/-- The operands that a construct takes, the top first. -/
def Expr.taken {Instr : Type} : Expr Instr → Option (List ValType)
  | .block decl _ | .loop decl _ => some decl.params.reverse
  | .if_ decl _ _ => some (.i32 :: decl.params.reverse)
  | _ => none

/-- A construct is validated against the operands that it takes. -/
theorem checkExpr_taken {Instr : Type} {context : ValidationContext Instr} {expr : Expr Instr}
    {operands after : Operands} {types : List ValType} (taken : expr.taken = some types)
    (checked : checkExpr context expr operands = some after) (live : operands.Live) :
    types.length ≤ operands.types.length ∧
      ∃ own, checkExpr context expr (Operands.live types) = some own := by
  have alone : ∀ params : List ValType,
      (Operands.live params.reverse).popList params = some (Operands.live []) := by
    intro params
    have popped := Operands.popList_pushList params (Operands.live [])
    rwa [Operands.pushList, show (Operands.live []).types = [] from rfl, List.append_nil] at popped
  cases expr with
  | block decl body =>
      obtain rfl := Option.some.inj taken
      obtain ⟨rest, final, popped, framed, rfl⟩ := checkExpr_block checked
      have length := (live.popList popped).length
      refine ⟨by rw [List.length_reverse]; omega, (Operands.live []).pushList decl.results, ?_⟩
      simp [checkExpr, alone, framed.checked, framed.closed]
  | loop decl body =>
      obtain rfl := Option.some.inj taken
      obtain ⟨rest, final, popped, framed, rfl⟩ := checkExpr_loop checked
      have length := (live.popList popped).length
      refine ⟨by rw [List.length_reverse]; omega, (Operands.live []).pushList decl.results, ?_⟩
      simp [checkExpr, alone, framed.checked, framed.closed]
  | if_ decl body other =>
      obtain rfl := Option.some.inj taken
      obtain ⟨condition, rest, _, _, top, popped, framed, framedElse, rfl⟩ := checkExpr_if checked
      have pops := live.popExpect top
      have lengthTop := pops.length
      have length := (pops.live.popList popped).length
      have popTop : (Operands.live (.i32 :: decl.params.reverse)).popExpect .i32 =
          some (Operands.live decl.params.reverse) := by
        simp [Operands.popExpect, Operands.pop, Operands.live]
      refine ⟨by rw [List.length_cons, List.length_reverse]; omega,
        (Operands.live []).pushList decl.results, ?_⟩
      simp [checkExpr, popTop, alone, framed.checked, framed.closed, framedElse.checked, framedElse.closed]
  | _ => cases taken

/-- Behind an expression that control passes, the operands are live and as many as
the expression says. -/
theorem checkExpr_height {Instr : Type} {context : ValidationContext Instr} {expr : Expr Instr}
    {operands after : Operands} (checked : checkExpr context expr operands = some after)
    (live : operands.Live) (stays : expr.diverges = false) (base : Nat) :
    after.Live ∧
      expr.height context.signature (base + operands.types.length) = base + after.types.length := by
  cases expr with
  | block decl body =>
      obtain ⟨rest, final, popped, _, rfl⟩ := checkExpr_block checked
      have pops := live.popList popped
      have length := pops.length
      refine ⟨pops.live.pushList _, ?_⟩
      simp only [Expr.height, Operands.pushList_types_length]
      omega
  | loop decl body =>
      obtain ⟨rest, final, popped, _, rfl⟩ := checkExpr_loop checked
      have pops := live.popList popped
      have length := pops.length
      refine ⟨pops.live.pushList _, ?_⟩
      simp only [Expr.height, Operands.pushList_types_length]
      omega
  | if_ decl body other =>
      obtain ⟨condition, rest, _, _, top, popped, _, _, rfl⟩ := checkExpr_if checked
      have first := live.popExpect top
      have pops := first.live.popList popped
      have lengthFirst := first.length
      have length := pops.length
      refine ⟨pops.live.pushList _, ?_⟩
      simp only [Expr.height, Operands.pushList_types_length]
      omega
  | br | brTable | return_ | unreachable => cases stays
  | brIf depth =>
      obtain ⟨rest, label, below, top, _, popped, rfl⟩ := checkExpr_brIf checked
      have first := live.popExpect top
      have pops := first.live.popList popped
      have lengthFirst := first.length
      have length := pops.length
      refine ⟨pops.live.pushList _, ?_⟩
      simp only [Expr.height, Operands.pushList_types_length]
      omega
  | nop =>
      obtain rfl : operands = after := by simpa [checkExpr] using checked
      exact ⟨live, rfl⟩
  | drop =>
      obtain ⟨type, popped⟩ := checkExpr_drop checked
      have pops := live.pop popped
      have length := pops.length
      refine ⟨pops.live, ?_⟩
      simp only [Expr.height]
      omega
  | select resultType =>
      obtain ⟨rest, pops, live, pushed⟩ := checkExpr_select live checked
      have length := pops.length
      refine ⟨live, ?_⟩
      simp only [Expr.height]
      omega
  | localGet index =>
      obtain ⟨type, _, rfl⟩ := checkExpr_localGet checked
      exact ⟨live.push _, rfl⟩
  | localSet index =>
      obtain ⟨type, _, popped⟩ := checkExpr_localSet checked
      have pops := live.popExpect popped
      have length := pops.length
      refine ⟨pops.live, ?_⟩
      simp only [Expr.height]
      omega
  | localTee index =>
      obtain ⟨type, rest, _, popped, rfl⟩ := checkExpr_localTee checked
      have pops := live.popExpect popped
      have length := pops.length
      refine ⟨pops.live.push _, ?_⟩
      simp only [Expr.height, Operands.push_types_length]
      omega
  | instr instr =>
      obtain ⟨type, rest, found, popped, rfl⟩ := checkExpr_instr checked
      have pops := live.popList popped
      have length := pops.length
      refine ⟨pops.live.pushList _, ?_⟩
      simp only [Expr.height, found, Operands.pushList_types_length]
      omega

/-- The targets of a `br_table` find the operands as they were. -/
theorem checkTargets_length {Instr : Type} {context : ValidationContext Instr} {arity : Nat}
    {operands after : Operands} {targets : List Nat}
    (checked : checkTargets context arity operands targets = some after) (live : operands.Live) :
    (∀ depth ∈ targets, ∃ label, context.labels[depth]? = some label ∧ label.length = arity) ∧
      (targets ≠ [] → arity ≤ operands.types.length) ∧ after.Live ∧
        after.types.length = operands.types.length := by
  induction targets generalizing operands with
  | nil =>
      obtain rfl : operands = after := by simpa [checkTargets] using checked
      exact ⟨by simp, by simp, live, rfl⟩
  | cons depth targets ih =>
      simp only [checkTargets, Option.bind_eq_bind, Option.bind_eq_some_iff] at checked
      obtain ⟨label, found, checked⟩ := checked
      split at checked
      · simp at checked
      · rename_i sized
        simp only [ne_eq, Decidable.not_not] at sized
        simp only [Option.bind_eq_some_iff] at checked
        obtain ⟨rest, popped, checked⟩ := checked
        have pops := live.popList popped
        have length := pops.length
        obtain ⟨all, _, afterLive, same⟩ := ih checked live
        refine ⟨?_, fun _ => by omega, afterLive, by omega⟩
        intro other member
        rcases List.mem_cons.mp member with rfl | member
        · exact ⟨label, found, sized⟩
        · exact all other member

end WasmToLlvm.Wasm

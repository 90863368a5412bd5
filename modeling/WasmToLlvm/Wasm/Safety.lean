import WasmToLlvm.Wasm.Execution
import WasmToLlvm.Wasm.Heights

/-!
# Safety of execution

A validated function is never stuck: every configuration that it reaches has as
many operands as validation says, and labels that validated code stands behind.
-/

set_option autoImplicit false

namespace WasmToLlvm.Wasm

open Library

variable {Instr Store : Type}

/-- The labels of a configuration, against what the running code is validated in:
`results` are those of the innermost construct. -/
inductive Resumes : List (Label Instr) → ValidationContext Instr → List ValType → Prop where
  | done {outer : ValidationContext Instr} {results : List ValType} (outermost : outer.labels = []) :
      Resumes [] outer results
  | label {label : Label Instr} {labels : List (Label Instr)} {outer : ValidationContext Instr}
      {outerResults results branch : List ValType} {below after : Operands}
      (outside : Resumes labels outer outerResults) (live : below.Live)
      (kept : label.below.length = below.types.length)
      (checked : checkExprs outer label.rest (below.pushList results) = some after)
      (closed : closeFrame outerResults after = some ())
      (arity : label.arity = branch.length)
      (leaves : label.again = none → branch = results)
      (again : ∀ body, label.again = some body → ∃ final,
        checkExprs (outer.withLabel branch) body (Operands.live branch.reverse) = some final ∧
          closeFrame results final = some ())
      (ends : labels = [] → label.rest = []) :
      Resumes (label :: labels) (outer.withLabel branch) results

/-- A configuration that validation accounts for. -/
inductive Valid (signature : Instr → Option FuncSignature) : Config Instr Store → Prop where
  | intro {config : Config Instr Store} {validation : ValidationContext Instr}
      {types after : Operands} {results : List ValType}
      (outside : Resumes config.labels validation results) (live : types.Live)
      (count : config.operands.length = types.types.length)
      (checked : checkExprs validation config.exprs types = some after)
      (closed : closeFrame results after = some ())
      (locals : config.locals.length = validation.locals.length)
      (typed : validation.signature = signature)
      (outermost : config.labels ≠ [] → ∃ front, validation.labels = front ++ [validation.results])
      (ends : config.labels = [] → config.exprs = []) : Valid signature config

section Labels

variable {labels : List (Label Instr)} {validation : ValidationContext Instr} {results : List ValType}

theorem Resumes.length (resumes : Resumes labels validation results) :
    labels.length = validation.labels.length := by
  induction resumes with
  | done outermost => simp [outermost]
  | label outside _ _ _ _ _ _ _ _ ih => simp [ih]

theorem Resumes.drop (resumes : Resumes labels validation results) (depth : Nat) :
    ∃ outerResults, Resumes (labels.drop depth)
      { validation with labels := validation.labels.drop depth } outerResults := by
  induction depth generalizing labels validation results with
  | zero => exact ⟨results, resumes⟩
  | succ depth ih =>
      cases resumes with
      | done outermost => exact ⟨results, .done (by simp [outermost])⟩
      | label outside _ _ _ _ _ _ _ _ => exact ih outside

end Labels

/-- A valid configuration ends or goes on to a valid one. -/
def Progresses (signature : Instr → Option FuncSignature) (move : Config.Next Instr Store) : Prop :=
  (∃ result, move = .halt result) ∨ ∃ event next, move = .step event next ∧ Valid signature next

section Moves

variable {signature : Instr → Option FuncSignature} {config : Config Instr Store}
  {validation : ValidationContext Instr} {results : List ValType} {types : Operands}

theorem branch_progresses {depth : Nat} {label : List ValType}
    (outside : Resumes config.labels validation results)
    (found : validation.labels[depth]? = some label) (enough : label.length ≤ config.operands.length)
    (locals : config.locals.length = validation.locals.length)
    (typed : validation.signature = signature)
    (outermost : ∃ front, validation.labels = front ++ [validation.results]) :
    Progresses signature (config.branch depth) := by
  obtain ⟨outerResults, dropped⟩ := outside.drop depth
  have inside : depth < validation.labels.length := (List.getElem?_eq_some_iff.mp found).1
  have shown : validation.labels.drop depth = label :: validation.labels.drop (depth + 1) := by
    rw [List.drop_eq_getElem_cons inside, (List.getElem?_eq_some_iff.mp found).2]
  have deep : depth < config.labels.length := outside.length ▸ inside
  rw [List.drop_eq_getElem_cons deep] at dropped
  generalize target : config.labels[depth] = actual at dropped
  have foundLabel : config.labels[depth]? = some actual := by
    rw [List.getElem?_eq_getElem deep, target]
  generalize context : { validation with labels := validation.labels.drop depth } = inner at dropped
  have lasts : validation.labels.drop (depth + 1) ≠ [] →
      ∃ front, validation.labels.drop (depth + 1) = front ++ [validation.results] := by
    intro nonempty
    obtain ⟨front, whole⟩ := outermost
    refine ⟨front.drop (depth + 1), ?_⟩
    rw [whole] at nonempty ⊢
    rw [List.drop_append_of_le_length]
    by_contra beyond
    refine nonempty (List.drop_eq_nil_of_le ?_)
    rw [List.length_append, List.length_singleton]
    omega
  cases dropped with
  | @label _ _ outer outerResults' _ branch below after outside live kept checked closed arity leaves again
      ends =>
      have parts := congrArg ValidationContext.labels context
      rw [shown, ValidationContext.withLabel_labels] at parts
      obtain ⟨rfl, restLabels⟩ := List.cons.inj parts
      have sameLocals : validation.locals = outer.locals := by
        simpa using congrArg ValidationContext.locals context
      have sameResults : validation.results = outer.results := by
        simpa using congrArg ValidationContext.results context
      have sameSignature : validation.signature = outer.signature := by
        simpa using congrArg ValidationContext.signature context
      refine .inr ⟨none, ?_⟩
      rw [Config.branch, foundLabel]
      simp only [arity, enough, if_true]
      cases loop : actual.again with
      | none =>
          obtain rfl := leaves loop
          refine ⟨_, rfl, .intro outside (live.pushList _) ?_ checked closed ?_ ?_ ?_ ends⟩
          · simp only [List.length_append, List.length_take, kept, Operands.pushList_types_length]
            omega
          · rw [← sameLocals]
            exact locals
          · rw [← sameSignature]
            exact typed
          · intro nonempty
            rw [← restLabels, ← sameResults]
            refine lasts fun empty => nonempty ?_
            have count := outside.length
            rw [← restLabels, empty] at count
            exact List.eq_nil_of_length_eq_zero count
      | some body =>
          obtain ⟨final, bodyChecked, bodyClosed⟩ := again body loop
          have inner : Resumes (config.labels.drop depth) (outer.withLabel label) outerResults := by
            rw [List.drop_eq_getElem_cons deep, target]
            exact .label outside live kept checked closed arity leaves again ends
          refine ⟨_, rfl, .intro inner (Operands.live_live _) ?_ bodyChecked bodyClosed ?_ ?_ ?_ ?_⟩
          · simp only [List.length_take, Operands.live_types_length, List.length_reverse]
            omega
          · rw [ValidationContext.withLabel_locals, ← sameLocals]
            exact locals
          · rw [ValidationContext.withLabel_signature, ← sameSignature]
            exact typed
          · intro _
            obtain ⟨front, whole⟩ := outermost
            rw [ValidationContext.withLabel_labels, ValidationContext.withLabel_results, ← restLabels,
              ← sameResults, ← shown]
            refine ⟨front.drop depth, ?_⟩
            rw [whole] at inside ⊢
            rw [List.drop_append_of_le_length]
            rw [List.length_append, List.length_singleton] at inside
            omega
          · intro empty
            have count := congrArg List.length empty
            simp at count
            omega

theorem enter_progresses {decl : BlockDeclaration} {body rest : List (Expr Instr)}
    {again : Option (List (Expr Instr))} {label : List ValType} {below final after : Operands}
    (outside : Resumes config.labels validation results) (inside : config.labels ≠ [])
    (framed : Framed validation label decl body final) (live : below.Live)
    (count : below.types.length + decl.params.length = config.operands.length)
    (checked : checkExprs validation rest (below.pushList decl.results) = some after)
    (closed : closeFrame results after = some ())
    (leaves : again = none → label = decl.results)
    (loops : ∀ inner, again = some inner → inner = body ∧ label = decl.params)
    (locals : config.locals.length = validation.locals.length)
    (typed : validation.signature = signature)
    (outermost : ∃ front, validation.labels = front ++ [validation.results]) :
    Progresses signature (config.enter label.length decl.params.length again body rest) := by
  refine .inr ⟨none, ?_⟩
  have enough : decl.params.length ≤ config.operands.length := by omega
  rw [Config.enter, if_pos enough]
  refine ⟨_, rfl, .intro (.label outside live ?_ checked closed rfl leaves ?_ fun empty =>
    absurd empty inside) (Operands.live_live _) ?_ framed.checked framed.closed locals typed
    (fun _ => ?_) fun empty => nomatch empty⟩
  · simp only [List.length_drop]
    omega
  · intro inner loop
    obtain ⟨rfl, rfl⟩ := loops inner loop
    exact ⟨final, framed.checked, framed.closed⟩
  · rw [List.length_take, Operands.live_types_length, List.length_reverse]
    exact Nat.min_eq_left enough
  · obtain ⟨front, whole⟩ := outermost
    exact ⟨label :: front, by rw [ValidationContext.withLabel_labels, whole]; rfl⟩

theorem leave_progresses (valid : Valid signature config) (ended : config.exprs = []) :
    Progresses signature config.leave := by
  obtain ⟨outside, live, count, checked, closed, locals, typed, outermost, _⟩ := valid
  rw [ended, checkExprs] at checked
  obtain rfl := Option.some.inj checked
  rw [Config.leave]
  cases labels : config.labels with
  | nil => exact .inl ⟨_, rfl⟩
  | cons label labels' =>
      rw [labels] at outside outermost
      cases outside with
      | @label _ _ outer _ _ branch below after outside belowLive kept checked closedAfter arity leaves
          again ends =>
          obtain ⟨front, whole⟩ := outermost (List.cons_ne_nil _ _)
          refine .inr ⟨none, _, rfl, .intro outside (belowLive.pushList _) ?_ checked closedAfter locals
            typed (fun nonempty => ?_) ends⟩
          · have exact := live.closeFrame closed
            simp only [List.length_append, kept, Operands.pushList_types_length]
            omega
          · rw [ValidationContext.withLabel_labels, ValidationContext.withLabel_results] at whole
            cases front with
            | nil =>
                have count := outside.length
                rw [(List.cons.inj whole).2] at count
                exact absurd (List.eq_nil_of_length_eq_zero count) nonempty
            | cons first front => exact ⟨front, (List.cons.inj whole).2⟩

end Moves

/-- Execution of validated code goes on until it ends. -/
theorem Valid.progresses {signature : Instr → Option FuncSignature} {config : Config Instr Store}
    (effects : Effects Instr Store signature) (valid : Valid signature config) :
    Progresses signature (config.step effects) := by
  cases exprs : config.exprs with
  | nil =>
      rw [Config.step, exprs]
      exact leave_progresses valid exprs
  | cons expr rest =>
  obtain @⟨validation, types, after, results, outside, live, count, checked, closed, locals, typed,
    outermost, ends⟩ := valid
  have inside : config.labels ≠ [] := fun empty => by simp [ends empty] at exprs
  rw [exprs] at checked
  obtain ⟨next, first, more⟩ := checkExprs_cons checked
  have goesOn : ∀ {operands locals'} {store : Store}, expr.diverges = false →
      operands.length = expr.height signature config.operands.length →
      locals'.length = config.locals.length →
      Valid signature { config with exprs := rest, operands, locals := locals', store } := by
    intro operands locals' store stays height sameLocals
    obtain ⟨nextLive, same⟩ := checkExpr_height first live stays 0
    rw [typed] at same
    simp only [Nat.zero_add] at same
    exact .intro outside nextLive (by rw [height, count, same]) more closed (sameLocals.trans locals)
      typed outermost (fun empty => absurd empty inside)
  have stepped : config.step effects = config.stepExpr effects expr rest := by
    rw [Config.step, exprs]
  rw [stepped]
  cases expr with
  | block decl body =>
      obtain ⟨below, final, popped, framed, rfl⟩ := checkExpr_block first
      have pops := live.popList popped
      have length := pops.length
      exact enter_progresses outside inside framed pops.live (by omega) more closed (fun _ => rfl)
        (fun _ loop => nomatch loop) locals typed (outermost inside)
  | loop decl body =>
      obtain ⟨below, final, popped, framed, rfl⟩ := checkExpr_loop first
      have pops := live.popList popped
      have length := pops.length
      exact enter_progresses outside inside framed pops.live (by omega) more closed
        (fun loop => nomatch loop) (fun _ loop => ⟨(Option.some.inj loop).symm, rfl⟩) locals typed
        (outermost inside)
  | if_ decl trueExprs falseExprs =>
      obtain ⟨condition, below, _, _, top, popped, framedTrue, framedFalse, rfl⟩ := checkExpr_if first
      have pops := live.popExpect top
      have popsAll := pops.live.popList popped
      have lengthTop := pops.length
      have length := popsAll.length
      rw [Config.stepExpr]
      cases operands : config.operands with
      | nil => simp [operands] at count; omega
      | cons value kept =>
          rw [operands, List.length_cons] at count
          dsimp only
          split
          · exact enter_progresses outside inside framedTrue popsAll.live (by dsimp only; omega) more
              closed (fun _ => rfl) (fun _ loop => nomatch loop) locals typed (outermost inside)
          · exact enter_progresses outside inside framedFalse popsAll.live (by dsimp only; omega) more
              closed (fun _ => rfl) (fun _ loop => nomatch loop) locals typed (outermost inside)
  | br depth =>
      obtain ⟨label, below, found, popped⟩ := checkExpr_br first
      have length := (live.popList popped).length
      exact branch_progresses outside found (by omega) locals typed (outermost inside)
  | brIf depth =>
      obtain ⟨lower, label, below, top, found, popped, rfl⟩ := checkExpr_brIf first
      have pops := live.popExpect top
      have lengthTop := pops.length
      have length := (pops.live.popList popped).length
      rw [Config.stepExpr]
      cases operands : config.operands with
      | nil => simp [operands] at count; omega
      | cons value kept =>
          rw [operands, List.length_cons] at count
          dsimp only
          split
          · exact branch_progresses outside found (by dsimp only; omega) locals typed (outermost inside)
          · exact .inr ⟨none, _, rfl, goesOn rfl (by rw [operands]; rfl) rfl⟩
  | brTable targets default =>
      obtain ⟨lower, label, final, below, top, found, all, popped⟩ := checkExpr_brTable first
      have pops := live.popExpect top
      have lengthTop := pops.length
      obtain ⟨every, enough, finalLive, same⟩ := checkTargets_length all pops.live
      have length := (finalLive.popList popped).length
      rw [Config.stepExpr]
      cases operands : config.operands with
      | nil => simp [operands] at count; omega
      | cons value kept =>
          rw [operands, List.length_cons] at count
          dsimp only
          cases target : targets[value]? with
          | none =>
              exact branch_progresses outside found (by dsimp only; omega) locals typed (outermost inside)
          | some depth =>
              obtain ⟨other, foundOther, sized⟩ := every depth (List.mem_of_getElem? target)
              exact branch_progresses outside foundOther (by dsimp only; omega) locals typed
                (outermost inside)
  | return_ =>
      obtain ⟨below, popped⟩ := checkExpr_return first
      have length := (live.popList popped).length
      obtain ⟨front, whole⟩ := outermost inside
      have found : validation.labels[config.labels.length - 1]? = some validation.results := by
        rw [outside.length, whole]
        simp
      exact branch_progresses outside found (by omega) locals typed (outermost inside)
  | unreachable => exact .inl ⟨_, rfl⟩
  | nop => exact .inr ⟨none, _, rfl, goesOn rfl rfl rfl⟩
  | drop =>
      obtain ⟨type, popped⟩ := checkExpr_drop first
      have length := (live.pop popped).length
      rw [Config.stepExpr]
      cases operands : config.operands with
      | nil => simp [operands] at count; omega
      | cons value kept => exact .inr ⟨none, _, rfl, goesOn rfl (by rw [operands]; rfl) rfl⟩
  | select resultType =>
      obtain ⟨below, pops, _, _⟩ := checkExpr_select live first
      have length := pops.length
      have tall : config.operands.length = below.types.length + 3 := by omega
      rw [Config.stepExpr]
      match operands : config.operands with
      | condition :: right :: left :: kept =>
          exact .inr ⟨none, _, rfl, goesOn rfl (by rw [operands]; rfl) rfl⟩
      | [] | [_] | [_, _] => simp [operands] at tall; try omega
  | localGet index =>
      obtain ⟨type, found, rfl⟩ := checkExpr_localGet first
      have bound : index < config.locals.length := by
        rw [locals]
        exact (List.getElem?_eq_some_iff.mp found).1
      rw [Config.stepExpr, List.getElem?_eq_getElem bound]
      exact .inr ⟨none, _, rfl, goesOn rfl rfl rfl⟩
  | localSet index =>
      obtain ⟨type, found, popped⟩ := checkExpr_localSet first
      have length := (live.popExpect popped).length
      have bound : index < config.locals.length := by
        rw [locals]
        exact (List.getElem?_eq_some_iff.mp found).1
      rw [Config.stepExpr]
      cases operands : config.operands with
      | nil => simp [operands] at count; omega
      | cons value kept =>
          dsimp only
          rw [if_pos bound]
          exact .inr ⟨none, _, rfl, goesOn rfl (by rw [operands]; rfl) (List.length_set)⟩
  | localTee index =>
      obtain ⟨type, lower, found, popped, rfl⟩ := checkExpr_localTee first
      have length := (live.popExpect popped).length
      have bound : index < config.locals.length := by
        rw [locals]
        exact (List.getElem?_eq_some_iff.mp found).1
      rw [Config.stepExpr]
      cases operands : config.operands with
      | nil => simp [operands] at count; omega
      | cons value kept =>
          dsimp only
          rw [if_pos bound]
          exact .inr ⟨none, _, rfl, goesOn rfl (by rw [operands]; rfl) (List.length_set)⟩
  | instr instr =>
      obtain ⟨type, below, found, popped, rfl⟩ := checkExpr_instr first
      have length := (live.popList popped).length
      rw [typed] at found
      have enough : type.params.length ≤ config.operands.length := by omega
      rw [Config.stepExpr, Config.perform, found]
      dsimp only
      rw [if_pos enough]
      cases ran : effects.run instr (config.operands.take type.params.length).reverse config.store with
      | none => exact .inl ⟨_, rfl⟩
      | some pair =>
          obtain ⟨values, store⟩ := pair
          refine .inr ⟨_, _, rfl, goesOn rfl ?_ rfl⟩
          have sized := effects.sized found ran
          rw [Expr.height, found, List.length_append, List.length_reverse, List.length_drop, sized]
          exact Nat.add_comm _ _

/-- A call of a validated function is valid. -/
theorem start_valid {signature : Instr → Option FuncSignature} {func : Func Instr}
    (validated : Validated signature func) {arguments : List Nat}
    (fits : arguments.length = func.decl.params.length) (store : Store) :
    Valid signature (func.start arguments store) := by
  simp only [Validated, validates, Option.bind_eq_bind, Option.bind_eq_some_iff] at validated
  obtain ⟨final, checked, closed⟩ := validated
  have outer : Resumes ([] : List (Label Instr))
      ⟨[], func.locals, func.decl.results, signature⟩ func.decl.results := .done rfl
  have all : closeFrame func.decl.results ((Operands.live []).pushList func.decl.results) = some () := by
    simp only [closeFrame, Operands.popList_pushList, Option.bind_eq_bind, Option.bind_some]
    rfl
  refine .intro (.label outer (Operands.live_live []) rfl (by rw [checkExprs]) all rfl (fun _ => rfl)
    (fun _ loop => absurd loop (by simp)) fun _ => rfl) (Operands.live_live []) rfl checked closed ?_ rfl
    (fun _ => ⟨[], rfl⟩) (fun empty => absurd empty (List.cons_ne_nil _ _))
  simp [Func.start, Func.locals, fits, ValidationContext.withLabel]

end WasmToLlvm.Wasm

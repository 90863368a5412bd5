import WasmToLlvm.Modules.Naming

/-!
# The names of exported functions

What the exports and the default names do to the symbol table, with the option
`ForceExportName` and without it.
-/

set_option autoImplicit false

namespace WasmToLlvm.Modules

open Llvm Wasm Block Instruction Library

/-- The names under which a function is exported, in order. -/
def exportedNames (exports : List Export) (index : Nat) : List Name :=
  (exports.filter fun entity => entity.kind = .func ∧ entity.index = index ∧ entity.name ≠ []).map Export.name

/-- The names under which functions are exported. -/
def functionExports (exports : List Export) : List Name :=
  (exports.filter fun entity => entity.kind = .func ∧ entity.name ≠ []).map Export.name

def linkageAt (llvmModule : Llvm.Module Body) (id : Nat) : Option Linkage :=
  (symbolAt llvmModule id).map Symbol.linkage

/-- What visiting an export does. -/
inductive Exports (before : Context) (entity : Export) : Context → Prop where
  | func {function : Nat} (isFunc : entity.kind = .func) (found : before.funcs[entity.index]? = some function) :
      Exports before entity { before with
        llvmModule := exportName before.opts function entity.name (before.llvmModule.setLinkage function .external) }
  | external {id : Nat} (notFunc : entity.kind ≠ .func) :
      Exports before entity { before with llvmModule := before.llvmModule.setLinkage id .external }
  | skipped (notFunc : entity.kind ≠ .func) : Exports before entity before

section Visit

variable {before after : Context} {entity : Export} {exports done : List Export} {index : Nat} {name : Name}

theorem exportEntity_ok {values : List Nat} {id : Nat}
    (ran : exportEntity values index before = .ok (id, after)) :
    values[index]? = some id ∧ after = { before with llvmModule := before.llvmModule.setLinkage id .external } := by
  unfold exportEntity at ran
  obtain ⟨value, middle, ranAt, ran⟩ := bind_ok.mp ran
  obtain ⟨found, same⟩ := at_ok ranAt
  cases same
  cases ran
  exact ⟨found, rfl⟩

theorem visitExport_ok (ran : visitExport entity before = .ok ((), after)) : Exports before entity after := by
  unfold visitExport at ran
  rw [get_bind_run] at ran
  cases kind : entity.kind with
  | func =>
      rw [kind] at ran
      obtain ⟨function, middle, ranExport, ran⟩ := bind_ok.mp ran
      obtain ⟨found, same⟩ := exportEntity_ok ranExport
      cases same
      cases ran
      exact .func kind found
  | memory =>
      rw [kind] at ran
      obtain ⟨id, middle, ranExport, ran⟩ := bind_ok.mp ran
      obtain ⟨found, same⟩ := exportEntity_ok ranExport
      cases same
      cases ran
      exact .external (by rw [kind]; exact ExternalKind.noConfusion)
  | global =>
      rw [kind] at ran
      obtain ⟨id, middle, ranExport, ran⟩ := bind_ok.mp ran
      obtain ⟨found, same⟩ := exportEntity_ok ranExport
      cases same
      cases ran
      exact .external (by rw [kind]; exact ExternalKind.noConfusion)
  | table =>
      rw [kind] at ran
      cases ran
      exact .skipped (by rw [kind]; exact ExternalKind.noConfusion)
  | tag =>
      rw [kind] at ran
      cases ran
      exact .skipped (by rw [kind]; exact ExternalKind.noConfusion)

theorem exportedNames_concat : exportedNames (done ++ [entity]) index = exportedNames done index ++
    if entity.kind = .func ∧ entity.index = index ∧ entity.name ≠ [] then [entity.name] else [] := by
  unfold exportedNames
  rw [List.filter_append, List.map_append, List.filter_cons, List.filter_nil]
  by_cases names : entity.kind = .func ∧ entity.index = index ∧ entity.name ≠ []
  · rw [if_pos (decide_eq_true names), if_pos names]
    rfl
  · rw [if_neg (by simpa using names), if_neg names]
    rfl

/-- The name of an export of the function comes last. -/
theorem exportedNames_here (isFunc : entity.kind = .func) (isIndex : entity.index = index) (named : entity.name ≠ []) :
    exportedNames (done ++ [entity]) index = exportedNames done index ++ [entity.name] := by
  rw [exportedNames_concat, if_pos ⟨isFunc, isIndex, named⟩]

theorem exportedNames_elsewhere (other : ¬(entity.kind = .func ∧ entity.index = index ∧ entity.name ≠ [])) :
    exportedNames (done ++ [entity]) index = exportedNames done index := by
  rw [exportedNames_concat, if_neg other, List.append_nil]

theorem functionExports_here (isFunc : entity.kind = .func) (named : entity.name ≠ []) :
    functionExports (done ++ [entity]) = functionExports done ++ [entity.name] := by
  unfold functionExports
  rw [List.filter_append, List.map_append, List.filter_cons, if_pos (decide_eq_true ⟨isFunc, named⟩)]
  rfl

theorem functionExports_elsewhere (other : ¬(entity.kind = .func ∧ entity.name ≠ [])) :
    functionExports (done ++ [entity]) = functionExports done := by
  unfold functionExports
  rw [List.filter_append, List.map_append, List.filter_cons, if_neg (by simpa using other)]
  exact List.append_nil _

/-- The places of different functions differ. -/
theorem place_eq {funcs : List Nat} {function id : Nat} (distinct : funcs.Nodup)
    (found : funcs[entity.index]? = some function) (foundId : funcs[index]? = some id) (same : id = function) :
    index = entity.index := by
  have inside := (List.getElem?_eq_some_iff.mp foundId).1
  exact (List.getElem?_inj inside distinct).mp (foundId.trans (same ▸ found.symm))

/-- Other functions are exported as before. -/
theorem exportedNames_other {funcs : List Nat} {function id : Nat} (found : funcs[entity.index]? = some function)
    (foundId : funcs[index]? = some id) (apart : id ≠ function) :
    exportedNames (done ++ [entity]) index = exportedNames done index := by
  refine exportedNames_elsewhere fun names => apart ?_
  rw [names.2.1] at found
  exact Option.some.inj (foundId.symm.trans found)

theorem fresh_of_nodup {rest : List Export} (unique : ((done ++ [entity] ++ rest).map Export.name).Nodup) :
    entity.name ∉ done.map Export.name := by
  rw [List.map_append, List.map_append, List.append_assoc] at unique
  intro member
  exact (List.nodup_append.mp unique).2.2 _ member _ (List.mem_append_left _ List.mem_cons_self) rfl

theorem mem_exportedNames (member : name ∈ exportedNames done index) : name ∈ done.map Export.name ∧ name ≠ [] := by
  obtain ⟨entity, inFilter, rfl⟩ := List.mem_map.mp member
  obtain ⟨inDone, names⟩ := List.mem_filter.mp inFilter
  exact ⟨List.mem_map_of_mem inDone, (of_decide_eq_true names).2.2⟩

end Visit

/-! ## One export -/

section Export

variable {llvmModule : Llvm.Module Body} {opts : Options} {function id : Nat} {name : Name}

theorem linkageAt_setName : linkageAt (llvmModule.setName function name) id = linkageAt llvmModule id := by
  by_cases here : id = function
  · rw [here]
    unfold linkageAt Llvm.Module.setName
    split
    · rfl
    · show (symbolAt ((llvmModule.update function _).update function _) function).map _ = _
      rw [symbolAt_update_self, Llvm.Module.update, List.getElem?_modify_eq, symbolAt]
      cases llvmModule.values[function]? <;> rfl
  · rw [linkageAt, setName_other here, linkageAt]

theorem linkageAt_exportName : linkageAt (exportName opts function name llvmModule) id = linkageAt llvmModule id := by
  have cleared : linkageAt (clearName name llvmModule) id = linkageAt llvmModule id := by
    unfold clearName
    split
    · exact linkageAt_setName
    · rfl
  unfold exportName
  split
  · rfl
  · split
    · exact linkageAt_setName.trans cleared
    · split
      · exact linkageAt_setName
      · rfl

/-- External linkage stays. -/
theorem linkageAt_setLinkage (external : linkageAt llvmModule id = some .external) :
    linkageAt (llvmModule.setLinkage function .external) id = some .external := by
  by_cases here : id = function
  · rw [linkageAt, here, setLinkage_self, Option.map_map]
    rw [linkageAt, here] at external
    obtain ⟨symbol, same, _⟩ := Option.map_eq_some_iff.mp external
    rw [same]
    rfl
  · rw [linkageAt, setLinkage_other here, ← linkageAt, external]

/-- With the option the function gets the name, unless a variable has it, and another
function that has it loses it. -/
structure Forces (before : Llvm.Module Body) (function : Nat) (name : Name) (after : Llvm.Module Body) : Prop where
  own : (∀ other, functionName before other = name → isFunctionAt before other) → functionName after function = name
  source : '.' ∉ functionName after function → functionName after function = name
  others : ∀ other, other ≠ function → functionName after other = functionName before other ∨
    (functionName before other = name ∧ isFunctionAt before other ∧ functionName after other = [])
  lost : ∀ other, other ≠ function → functionName before other = name → isFunctionAt before other →
    functionName after other = []

theorem exportName_forces (distinct : Distinct llvmModule) (force : opts.forceExportName = true) (named : name ≠ [])
    (isFunction : isFunctionAt llvmModule function) :
    Forces llvmModule function name (exportName opts function name llvmModule) := by
  unfold exportName
  rw [if_neg named, if_pos force]
  have isFunctionCleared : isFunctionAt (clearName name llvmModule) function :=
    ((Renames.clearName distinct).2 function).mpr isFunction
  have distinctCleared : Distinct (clearName name llvmModule) := distinct.clearName
  have chosen := setName_chosen name distinctCleared isFunctionCleared
  have cleared : ∀ other, functionName (clearName name llvmModule) other = functionName llvmModule other ∨
      (functionName llvmModule other = name ∧ isFunctionAt llvmModule other ∧
        functionName (clearName name llvmModule) other = []) := by
    intro other
    by_cases has : functionName llvmModule other = name ∧ isFunctionAt llvmModule other
    · refine .inr ⟨has.1, has.2, ?_⟩
      rw [functionName_eq, clearName_self distinct named has.1 has.2]
      cases symbolAt llvmModule other <;> rfl
    · exact .inl (functionName_congr (clearName_other distinct named fun same isFunction => has ⟨same, isFunction⟩))
  refine ⟨fun free => chosen.of_free fun other _ taken => ?_, chosen.of_no_dot, fun other apart => ?_,
    fun other apart has isFunctionOther => ?_⟩
  · cases cleared other with
    | inl kept =>
        have has : functionName llvmModule other = name := kept.symm.trans taken
        have lost : functionName (clearName name llvmModule) other = [] := by
          rw [functionName_eq, clearName_self distinct named has (free other has)]
          cases symbolAt llvmModule other <;> rfl
        exact named (taken.symm.trans lost)
    | inr lost => exact named (taken.symm.trans lost.2.2)
  · rw [functionName_congr (setName_other apart)]
    exact cleared other
  · rw [functionName_congr (setName_other apart), functionName_eq, clearName_self distinct named has isFunctionOther]
    cases symbolAt llvmModule other <;> rfl

theorem exportName_nil (nameless : name = []) : exportName opts function name llvmModule = llvmModule := by
  rw [exportName, if_pos nameless]

/-- Without the option only a function that has no name gets one. -/
theorem exportName_keeps (force : opts.forceExportName = false)
    (kept : id ≠ function ∨ functionName llvmModule function ≠ []) :
    functionName (exportName opts function name llvmModule) id = functionName llvmModule id := by
  unfold exportName
  split
  · rfl
  · rw [force, if_neg Bool.false_ne_true]
    split
    · rename_i nameless
      exact functionName_congr (setName_other (kept.resolve_right (not_not.mpr nameless)))
    · rfl

/-- Without the option a function that has no name gets it, if no value has it. -/
theorem exportName_prefers (distinct : Distinct llvmModule) (force : opts.forceExportName = false) (named : name ≠ [])
    (nameless : functionName llvmModule function = []) (isFunction : isFunctionAt llvmModule function) :
    Chosen llvmModule function name (functionName (exportName opts function name llvmModule) function) := by
  unfold exportName
  rw [if_neg named, force, if_neg Bool.false_ne_true, if_pos nameless]
  exact setName_chosen name distinct isFunction

end Export

/-! ## All exports, with the option -/

/-- The state after some exports, compared with the one before all of them. -/
structure Forced (before : Context) (done : List Export) (state : Context) : Prop where
  named : Named state
  funcs : state.funcs = before.funcs
  opts : state.opts = before.opts
  kinds : ∀ id, isFunctionAt state.llvmModule id ↔ isFunctionAt before.llvmModule id
  others : ∀ id, ¬isFunctionAt before.llvmModule id →
    functionName state.llvmModule id = functionName before.llvmModule id
  names : ∀ index id name, before.funcs[index]? = some id → (exportedNames done index).getLast? = some name →
    (∀ other, functionName before.llvmModule other = name → isFunctionAt before.llvmModule other) →
      functionName state.llvmModule id = name
  sources : ∀ index id name, before.funcs[index]? = some id → '.' ∉ name → name ≠ [] →
    functionName before.llvmModule id ≠ name → functionName state.llvmModule id = name →
      (exportedNames done index).getLast? = some name
  linkage : ∀ index id, before.funcs[index]? = some id → (∃ entity ∈ done, entity.kind = .func ∧ entity.index = index) →
    linkageAt state.llvmModule id = some .external
  outside : ∀ id, isFunctionAt before.llvmModule id → id ∉ before.funcs → functionName state.llvmModule id =
    if functionName before.llvmModule id ∈ functionExports done then [] else functionName before.llvmModule id

section Force

variable {before state after : Context} {done : List Export} {entity : Export}

theorem Forced.start (named : Named before) : Forced before [] before where
  named := named
  funcs := rfl
  opts := rfl
  kinds _ := Iff.rfl
  others _ _ := rfl
  names _ _ _ _ none_ := nomatch none_
  sources _ _ _ _ _ _ differs same := absurd same differs
  linkage _ _ _ exported := by
    obtain ⟨entity, member, _⟩ := exported
    cases member
  outside _ _ _ := (if_neg List.not_mem_nil).symm

theorem Forced.setLinkage (forced : Forced before done state) (id : Nat) :
    Forced before done { state with llvmModule := state.llvmModule.setLinkage id .external } := by
  obtain ⟨distinct, kinds⟩ := Renames.setLinkage (forced.named.distinct)
  refine ⟨⟨distinct, fun other member => (kinds other).mpr (forced.named.functions other member), forced.named.nodup⟩,
    forced.funcs, forced.opts, fun other => (kinds other).trans (forced.kinds other), ?_, ?_, ?_, ?_, ?_⟩
  · intro other notFunction
    exact setLinkage_name.trans (forced.others other notFunction)
  · intro index other name found last free
    exact setLinkage_name.trans (forced.names index other name found last free)
  · intro index other name found noDot named differs same
    exact forced.sources index other name found noDot named differs (setLinkage_name.symm.trans same)
  · intro index other found exported
    exact linkageAt_setLinkage (forced.linkage index other found exported)
  · intro other isFunction outside
    exact setLinkage_name.trans (forced.outside other isFunction outside)

/-- Exports of other kinds and exports without a name change no name. -/
theorem Forced.skip (forced : Forced before done state) (nameless : entity.kind = .func → entity.name = [])
    (external : ∀ id, entity.kind = .func → before.funcs[entity.index]? = some id →
      linkageAt state.llvmModule id = some .external) : Forced before (done ++ [entity]) state := by
  have elsewhere : ∀ index, exportedNames (done ++ [entity]) index = exportedNames done index :=
    fun index => exportedNames_elsewhere fun names => names.2.2 (nameless names.1)
  refine ⟨forced.named, forced.funcs, forced.opts, forced.kinds, forced.others, ?_, ?_, ?_, ?_⟩
  · intro index id name found last free
    exact forced.names index id name found (elsewhere index ▸ last) free
  · intro index id name found noDot named differs same
    rw [elsewhere]
    exact forced.sources index id name found noDot named differs same
  · intro index id found exported
    obtain ⟨other, member, isFunc, isIndex⟩ := exported
    cases List.mem_append.mp member with
    | inl older => exact forced.linkage index id found ⟨other, older, isFunc, isIndex⟩
    | inr new =>
        cases List.mem_singleton.mp new
        exact external id isFunc (isIndex ▸ found)
  · rw [functionExports_elsewhere fun names => names.2 (nameless names.1)]
    exact forced.outside

/-- An export of a function whose linkage is external already. -/
theorem Forced.export (forced : Forced before done state) (isFunc : entity.kind = .func) {function : Nat}
    (found : before.funcs[entity.index]? = some function) (force : state.opts.forceExportName = true)
    (external : linkageAt state.llvmModule function = some .external)
    (named : entity.name ≠ []) (fresh : entity.name ∉ done.map Export.name) (distinctFuncs : before.funcs.Nodup) :
    Forced before (done ++ [entity]) { state with
      llvmModule := exportName state.opts function entity.name state.llvmModule } := by
  have isFunction : isFunctionAt state.llvmModule function :=
    forced.named.functions function (forced.funcs ▸ List.mem_of_getElem? found)
  obtain ⟨distinct, kinds⟩ := Renames.exportName state.opts function entity.name forced.named.distinct
  have forces := exportName_forces forced.named.distinct force named isFunction
  refine ⟨⟨distinct, fun other member => (kinds other).mpr (forced.named.functions other member), forced.named.nodup⟩,
    forced.funcs, forced.opts, fun other => (kinds other).trans (forced.kinds other), ?_, ?_, ?_, ?_, ?_⟩
  · intro other notFunction
    have apart : other ≠ function := fun same => notFunction ((forced.kinds other).mp (same ▸ isFunction))
    cases forces.others other apart with
    | inl kept => exact kept.trans (forced.others other notFunction)
    | inr lost => exact absurd ((forced.kinds other).mp lost.2.1) notFunction
  · intro index id name foundId last free
    by_cases here : id = function
    · rw [place_eq distinctFuncs found foundId here, exportedNames_here isFunc rfl named, List.getLast?_append] at last
      have same : entity.name = name := Option.some.inj last
      rw [here]
      refine (forces.own fun other has => ?_).trans same
      by_contra notFunction
      have notBefore : ¬isFunctionAt before.llvmModule other := fun was => notFunction ((forced.kinds other).mpr was)
      exact notBefore (free other ((forced.others other notBefore).symm.trans (has.trans same)))
    · rw [exportedNames_other found foundId here] at last
      have own := forced.names index id name foundId last free
      cases forces.others id here with
      | inl kept => exact kept.trans own
      | inr lost =>
          have old := (mem_exportedNames (List.mem_of_getLast? last)).1
          rw [← own, lost.1] at old
          exact absurd old fresh
  · intro index id name foundId noDot nameNamed differs same
    by_cases here : id = function
    · rw [here] at same
      have isName : name = entity.name := same.symm.trans (forces.source (same ▸ noDot))
      rw [place_eq distinctFuncs found foundId here, exportedNames_here isFunc rfl named, List.getLast?_append, isName]
      rfl
    · rw [exportedNames_other found foundId here]
      cases forces.others id here with
      | inl kept => exact forced.sources index id name foundId noDot nameNamed differs (kept.symm.trans same)
      | inr lost => exact absurd (same.symm.trans lost.2.2) nameNamed
  · intro index id foundId exported
    refine linkageAt_exportName.trans ?_
    by_cases here : id = function
    · rw [here, external]
    · obtain ⟨other, member, isFuncOther, isIndex⟩ := exported
      refine forced.linkage index id foundId ⟨other, ?_, isFuncOther, isIndex⟩
      cases List.mem_append.mp member with
      | inl older => exact older
      | inr new =>
          cases List.mem_singleton.mp new
          rw [isIndex] at found
          exact absurd (Option.some.inj (foundId.symm.trans found)) here
  · intro id isFunctionId outside
    have apart : id ≠ function := fun same => outside (same ▸ List.mem_of_getElem? found)
    have old := forced.outside id isFunctionId outside
    rw [functionExports_here isFunc named]
    by_cases exported : functionName before.llvmModule id ∈ functionExports done
    · rw [if_pos exported] at old
      rw [if_pos (List.mem_append_left _ exported)]
      cases forces.others id apart with
      | inl kept => exact kept.trans old
      | inr lost => exact lost.2.2
    · rw [if_neg exported] at old
      by_cases here : functionName before.llvmModule id = entity.name
      · rw [if_pos (List.mem_append_right _ (List.mem_singleton.mpr here))]
        exact forces.lost id apart (old.trans here) ((forced.kinds id).mpr isFunctionId)
      · rw [if_neg fun member => (List.mem_append.mp member).elim exported fun new => here (List.mem_singleton.mp new)]
        cases forces.others id apart with
        | inl kept => exact kept.trans old
        | inr lost => exact absurd (old.symm.trans lost.1) here

/-- Exports of a module, one after another. -/
theorem visitExports_forced {rest : List Export} (forced : Forced before done state)
    (unique : ((done ++ rest).map Export.name).Nodup) (force : before.opts.forceExportName = true)
    (distinctFuncs : before.funcs.Nodup) (ran : rest.forM visitExport state = .ok ((), after)) :
    Forced before (done ++ rest) after := by
  induction rest generalizing done state with
  | nil =>
      cases ran
      rw [List.append_nil]
      exact forced
  | cons entity rest ih =>
      obtain ⟨middle, ranFirst, ranRest⟩ := forM_cons_ok.mp ran
      rw [List.append_cons] at unique ⊢
      refine ih ?_ unique ranRest
      cases visitExport_ok ranFirst with
      | skipped notFunc => exact forced.skip (fun isFunc => absurd isFunc notFunc) fun _ isFunc => absurd isFunc notFunc
      | external notFunc =>
          exact (forced.setLinkage _).skip (fun isFunc => absurd isFunc notFunc) fun _ isFunc => absurd isFunc notFunc
      | @func function isFunc found =>
          have linked := forced.setLinkage function
          rw [forced.funcs] at found
          have isFunction : isFunctionAt state.llvmModule function :=
            forced.named.functions function (forced.funcs ▸ List.mem_of_getElem? found)
          have external : linkageAt (state.llvmModule.setLinkage function .external) function = some .external := by
            obtain ⟨symbol, isSymbol, _⟩ := Option.map_eq_some_iff.mp isFunction
            rw [linkageAt, setLinkage_self, isSymbol]
            rfl
          by_cases named : entity.name = []
          · rw [exportName_nil named]
            refine linked.skip (fun _ => named) fun id _ foundId => ?_
            cases found.symm.trans foundId
            exact external
          · exact linked.export isFunc found (forced.opts ▸ force) external named (fresh_of_nodup unique) distinctFuncs

end Force

/-! ## All exports, without the option -/

/-- A function got a name for the first name under which it is exported. -/
structure GotName (before : Context) (id : Nat) (name : Name) (state : Context) : Prop where
  named : functionName state.llvmModule id ≠ []
  source : '.' ∉ functionName state.llvmModule id → functionName state.llvmModule id = name
  free : (∀ other, functionName before.llvmModule other ≠ name) → '.' ∉ name → functionName state.llvmModule id = name

/-- The state after some exports, compared with the one before all of them. -/
structure Preferred (before : Context) (done : List Export) (state : Context) : Prop where
  named : Named state
  funcs : state.funcs = before.funcs
  opts : state.opts = before.opts
  kinds : ∀ id, isFunctionAt state.llvmModule id ↔ isFunctionAt before.llvmModule id
  kept : ∀ id, functionName before.llvmModule id ≠ [] →
    functionName state.llvmModule id = functionName before.llvmModule id
  first : ∀ index id name, before.funcs[index]? = some id → functionName before.llvmModule id = [] →
    (exportedNames done index).head? = some name → GotName before id name state
  rest : ∀ id, functionName before.llvmModule id = [] →
    (∀ index, before.funcs[index]? = some id → exportedNames done index = []) → functionName state.llvmModule id = []

section Prefer

variable {before state after : Context} {done : List Export} {entity : Export}

theorem Preferred.start (named : Named before) : Preferred before [] before where
  named := named
  funcs := rfl
  opts := rfl
  kinds _ := Iff.rfl
  kept _ _ := rfl
  first _ _ _ _ _ none_ := nomatch none_
  rest _ nameless _ := nameless

theorem Preferred.setLinkage (preferred : Preferred before done state) (id : Nat) :
    Preferred before done { state with llvmModule := state.llvmModule.setLinkage id .external } := by
  obtain ⟨distinct, kinds⟩ := Renames.setLinkage preferred.named.distinct
  refine ⟨⟨distinct, fun other member => (kinds other).mpr (preferred.named.functions other member), preferred.named.nodup⟩,
    preferred.funcs, preferred.opts, fun other => (kinds other).trans (preferred.kinds other), ?_, ?_, ?_⟩
  · intro other hasName
    exact setLinkage_name.trans (preferred.kept other hasName)
  · intro index other name found nameless head
    obtain ⟨named, source, free⟩ := preferred.first index other name found nameless head
    exact ⟨setLinkage_name.symm ▸ named, setLinkage_name.symm ▸ source, setLinkage_name.symm ▸ free⟩
  · intro other nameless none_
    exact setLinkage_name.trans (preferred.rest other nameless none_)

theorem Preferred.skip (preferred : Preferred before done state) (nameless : entity.kind = .func → entity.name = []) :
    Preferred before (done ++ [entity]) state := by
  have elsewhere : ∀ index, exportedNames (done ++ [entity]) index = exportedNames done index :=
    fun index => exportedNames_elsewhere fun names => names.2.2 (nameless names.1)
  refine ⟨preferred.named, preferred.funcs, preferred.opts, preferred.kinds, preferred.kept, ?_, ?_⟩
  · intro index id name found isNameless head
    exact preferred.first index id name found isNameless (elsewhere index ▸ head)
  · intro id isNameless none_
    exact preferred.rest id isNameless fun index found => elsewhere index ▸ none_ index found

/-- A name that no value had before was not given to another function. -/
theorem Preferred.unused (preferred : Preferred before done state) {name : Name}
    (free : ∀ other, functionName before.llvmModule other ≠ name) (noDot : '.' ∉ name) (named : name ≠ [])
    (fresh : name ∉ done.map Export.name) (other : Nat) : functionName state.llvmModule other ≠ name := by
  intro same
  by_cases nameless : functionName before.llvmModule other = []
  · refine named (same.symm.trans (preferred.rest other nameless fun index found => ?_))
    cases names : exportedNames done index with
    | nil => rfl
    | cons first rest =>
        have got := preferred.first index other first found nameless (by rw [names]; rfl)
        have isFirst : name = first := same.symm.trans (got.source (same ▸ noDot))
        have member : first ∈ exportedNames done index := names ▸ List.mem_cons_self
        exact absurd (isFirst ▸ (mem_exportedNames member).1) fresh
  · exact free other ((preferred.kept other nameless).symm.trans same)

/-- A function that has no name gets one. -/
theorem Preferred.export {function : Nat} (preferred : Preferred before done state) (isFunc : entity.kind = .func)
    (found : before.funcs[entity.index]? = some function) (force : state.opts.forceExportName = false)
    (named : entity.name ≠ []) (fresh : entity.name ∉ done.map Export.name) (distinctFuncs : before.funcs.Nodup) :
    Preferred before (done ++ [entity]) { state with
      llvmModule := exportName state.opts function entity.name state.llvmModule } := by
  have isFunction : isFunctionAt state.llvmModule function :=
    preferred.named.functions function (preferred.funcs ▸ List.mem_of_getElem? found)
  obtain ⟨distinct, kinds⟩ := Renames.exportName state.opts function entity.name preferred.named.distinct
  have here_ : exportedNames (done ++ [entity]) entity.index = exportedNames done entity.index ++ [entity.name] :=
    exportedNames_here isFunc rfl named
  refine ⟨⟨distinct, fun other member => (kinds other).mpr (preferred.named.functions other member), preferred.named.nodup⟩,
    preferred.funcs, preferred.opts, fun other => (kinds other).trans (preferred.kinds other), ?_, ?_, ?_⟩
  · intro id hasName
    have kept := preferred.kept id hasName
    refine (exportName_keeps force ?_).trans kept
    by_cases here : id = function
    · exact .inr (here ▸ kept.symm ▸ hasName)
    · exact .inl here
  · intro index id name foundId nameless head
    by_cases here : id = function
    · rw [place_eq distinctFuncs found foundId here, here_] at head
      cases names : exportedNames done entity.index with
      | nil =>
          rw [names] at head
          cases head
          have stillNameless : functionName state.llvmModule function = [] := by
            refine preferred.rest function (here ▸ nameless) fun index foundIndex => ?_
            rw [place_eq distinctFuncs found foundIndex rfl, names]
          have chosen := exportName_prefers preferred.named.distinct force named stillNameless isFunction
          rw [here]
          exact ⟨chosen.ne_nil named, chosen.of_no_dot,
            fun free noDot => chosen.of_free fun other _ => preferred.unused free noDot named fresh other⟩
      | cons first rest =>
          rw [names] at head
          cases head
          obtain ⟨hasName, source, free⟩ := preferred.first entity.index function _ found (here ▸ nameless) (by rw [names]; rfl)
          have kept : functionName (exportName state.opts function entity.name state.llvmModule) function =
              functionName state.llvmModule function := exportName_keeps force (.inr hasName)
          rw [here]
          exact ⟨kept.symm ▸ hasName, kept.symm ▸ source, kept.symm ▸ free⟩
    · rw [exportedNames_other found foundId here] at head
      obtain ⟨hasName, source, free⟩ := preferred.first index id name foundId nameless head
      have kept : functionName (exportName state.opts function entity.name state.llvmModule) id =
          functionName state.llvmModule id := exportName_keeps force (.inl here)
      exact ⟨kept.symm ▸ hasName, kept.symm ▸ source, kept.symm ▸ free⟩
  · intro id nameless none_
    have apart : id ≠ function := by
      intro same
      have names := none_ entity.index (same ▸ found)
      rw [here_] at names
      cases List.append_eq_nil_iff.mp names |>.2
    refine (exportName_keeps force (.inl apart)).trans (preferred.rest id nameless fun index foundId => ?_)
    rw [← exportedNames_other found foundId apart]
    exact none_ index foundId

theorem visitExports_preferred {rest : List Export} (preferred : Preferred before done state)
    (unique : ((done ++ rest).map Export.name).Nodup) (force : before.opts.forceExportName = false)
    (distinctFuncs : before.funcs.Nodup) (ran : rest.forM visitExport state = .ok ((), after)) :
    Preferred before (done ++ rest) after := by
  induction rest generalizing done state with
  | nil =>
      cases ran
      rw [List.append_nil]
      exact preferred
  | cons entity rest ih =>
      obtain ⟨middle, ranFirst, ranRest⟩ := forM_cons_ok.mp ran
      rw [List.append_cons] at unique ⊢
      refine ih ?_ unique ranRest
      cases visitExport_ok ranFirst with
      | skipped notFunc => exact preferred.skip fun isFunc => absurd isFunc notFunc
      | external notFunc => exact (preferred.setLinkage _).skip fun isFunc => absurd isFunc notFunc
      | @func function isFunc found =>
          have linked := preferred.setLinkage function
          rw [preferred.funcs] at found
          by_cases named : entity.name = []
          · rw [exportName_nil named]
            exact linked.skip fun _ => named
          · exact linked.export isFunc found (preferred.opts ▸ force) named (fresh_of_nodup unique) distinctFuncs

end Prefer

/-! ## Default names -/

/-- The prefix of default names, with a number. -/
def defaultBase (index : Nat) : Name := "func_".toList ++ digits index

/-- Functions that have no name get one. -/
structure Defaults (before : Context) (functions : List Nat) (after : Context) : Prop where
  named : Named after
  funcs : after.funcs = before.funcs
  opts : after.opts = before.opts
  kept : ∀ id, functionName before.llvmModule id ≠ [] →
    functionName after.llvmModule id = functionName before.llvmModule id
  given : ∀ id ∈ functions, isFunctionAt before.llvmModule id → functionName after.llvmModule id ≠ []
  new : ∀ id, isFunctionAt before.llvmModule id → functionName before.llvmModule id = [] →
    '.' ∉ functionName after.llvmModule id → functionName after.llvmModule id = [] ∨
      ∃ index, functionName after.llvmModule id = defaultBase index
  linkage : ∀ id, linkageAt after.llvmModule id = linkageAt before.llvmModule id
  kinds : ∀ id, isFunctionAt after.llvmModule id ↔ isFunctionAt before.llvmModule id
  others : ∀ id ∉ functions, functionName after.llvmModule id = functionName before.llvmModule id

section Default

variable {before after : Context} {functions : List Nat} {index : Nat}

theorem defaultBase_ne_nil : defaultBase index ≠ [] := List.cons_ne_nil _ _

theorem defaultName_defaults (named : Named before) (index function : Nat) : Defaults before [function]
    { before with llvmModule := defaultName index function before.llvmModule } := by
  obtain ⟨distinct, kinds⟩ := Renames.defaultName index function named.distinct
  have after : Named { before with llvmModule := defaultName index function before.llvmModule } :=
    ⟨distinct, fun id member => (kinds id).mpr (named.functions id member), named.nodup⟩
  by_cases nameless : functionName before.llvmModule function = []
  · have renamed : defaultName index function before.llvmModule =
        before.llvmModule.setName function (defaultBase index) := by
      rw [defaultName, if_pos nameless]
      rfl
    have chosen : isFunctionAt before.llvmModule function → Chosen before.llvmModule function (defaultBase index)
        (functionName (before.llvmModule.setName function (defaultBase index)) function) :=
      setName_chosen (defaultBase index) named.distinct
    rw [renamed] at after kinds ⊢
    refine ⟨after, rfl, rfl, fun id hasName => ?_, fun id member isFunction => ?_,
      fun id isFunction isNameless noDot => ?_, fun id => linkageAt_setName, kinds, fun id outside => ?_⟩
    · exact functionName_congr (setName_other fun same => hasName (same ▸ nameless))
    · cases List.mem_singleton.mp member
      exact (chosen isFunction).ne_nil defaultBase_ne_nil
    · by_cases here : id = function
      · rw [here] at isFunction noDot ⊢
        exact .inr ⟨index, (chosen isFunction).of_no_dot noDot⟩
      · exact .inl ((functionName_congr (setName_other here)).trans isNameless)
    · exact functionName_congr (setName_other fun same => outside (List.mem_singleton.mpr same))
  · have same : defaultName index function before.llvmModule = before.llvmModule := by
      rw [defaultName, if_neg nameless]
    rw [same]
    refine ⟨named, rfl, rfl, fun _ _ => rfl, fun id member _ => ?_, fun _ _ isNameless _ => .inl isNameless,
      fun _ => rfl, fun _ => Iff.rfl, fun _ _ => rfl⟩
    cases List.mem_singleton.mp member
    exact nameless

theorem Defaults.trans {middle : Context} {functions' : List Nat} (first : Defaults before functions middle)
    (second : Defaults middle functions' after) : Defaults before (functions ++ functions') after where
  named := second.named
  funcs := second.funcs.trans first.funcs
  opts := second.opts.trans first.opts
  kept id hasName := (second.kept id ((first.kept id hasName).symm ▸ hasName)).trans (first.kept id hasName)
  given id member isFunction := by
    cases List.mem_append.mp member with
    | inl inFirst =>
        have hasName := first.given id inFirst isFunction
        rw [second.kept id hasName]
        exact hasName
    | inr inSecond => exact second.given id inSecond ((first.kinds id).mpr isFunction)
  new id isFunction nameless noDot := by
    by_cases still : functionName middle.llvmModule id = []
    · exact second.new id ((first.kinds id).mpr isFunction) still noDot
    · rw [second.kept id still] at noDot ⊢
      exact first.new id isFunction nameless noDot
  linkage id := (second.linkage id).trans (first.linkage id)
  kinds id := (second.kinds id).trans (first.kinds id)
  others id outside := (second.others id fun member => outside (List.mem_append_right _ member)).trans
    (first.others id fun member => outside (List.mem_append_left _ member))

theorem assignDefaultNames_ok (named : Named before)
    (ran : assignDefaultNames functions index before = .ok ((), after)) : Defaults before functions after := by
  induction functions generalizing before index with
  | nil =>
      cases ran
      exact ⟨named, rfl, rfl, fun _ _ => rfl, nofun, fun _ _ nameless _ => .inl nameless, fun _ => rfl,
        fun _ => Iff.rfl, fun _ _ => rfl⟩
  | cons function functions ih =>
      obtain ⟨_, middle, ranFirst, ranRest⟩ := bind_ok.mp ran
      cases ranFirst
      have first := defaultName_defaults named index function
      exact first.trans (ih first.named ranRest)

end Default

/-! ## The module -/

/-- Every exported function has the last of its names and external linkage, and every
function of the LLVM module has a name. -/
structure ExportsNamed (exports : List Export) (context : Context) : Prop where
  symbols : ∀ (index id : Nat) (name : Name), context.funcs[index]? = some id →
    (exportedNames exports index).getLast? = some name → functionName context.llvmModule id = name
  external : ∀ (index id : Nat), context.funcs[index]? = some id →
    (∃ entity ∈ exports, entity.kind = .func ∧ entity.index = index) → linkageAt context.llvmModule id = some .external
  names : ∀ id, isFunctionAt context.llvmModule id → functionName context.llvmModule id ≠ []

/-- The last name of an exported function is not the name of a variable. -/
def NoVariableNamed (exports : List Export) (before : Context) : Prop :=
  ∀ (index function : Nat) (name : Name), before.funcs[index]? = some function →
    (exportedNames exports index).getLast? = some name →
      ∀ other, functionName before.llvmModule other = name → isFunctionAt before.llvmModule other

/-- The other functions, which are declarations of intrinsics, have names under which no
function is exported. -/
def NoDeclarationNamed (exports : List Export) (before : Context) : Prop :=
  ∀ id, isFunctionAt before.llvmModule id → id ∉ before.funcs →
    functionName before.llvmModule id ≠ [] ∧ functionName before.llvmModule id ∉ functionExports exports

section Module

variable {opts : Options} {arrays : DataArrays} {module : Module} {before exported named context : Context}

/-- Element segments leave all symbols alone. -/
theorem fillTables_symbols (ran : fillTables module before = .ok ((), context)) (id : Nat) :
    symbolAt context.llvmModule id = symbolAt before.llvmModule id := by
  let grading : Grading Context Unit :=
    .ofPreorder (fun before after => ∀ id, symbolAt after.llvmModule id = symbolAt before.llvmModule id)
      (fun _ _ => rfl) fun left right id => (right id).trans (left id)
  have visits : ∀ elem ∈ module.elemSegments, ∀ before, Effect grading before (visitElem elem) 1 := by
    intro elem _ before
    refine ⟨fun ran => ?_⟩
    obtain ⟨id, gv, init, _, replaces⟩ := visitElem_ok ran
    cases replaces with
    | set empty => exact fun _ => symbolAt_update_same (symbolOf_setInitializer init)
    | everywhere full used different => exact fun _ => symbolAt_replaceAllUsesWith ..
    | unused full unused => exact fun _ => rfl
  have fills : Effect grading before (fillTables module) 1 := fillTables_effect module visits
  exact fills.run ran id

/-- The phases from the exports on. -/
theorem translateModule_phases (ran : translateModule opts arrays module = .ok context) : ∃ before exported named,
    beforeExports module (Context.start opts arrays module) = .ok ((), before) ∧ Named before ∧ before.opts = opts ∧
      module.exports.forM visitExport before = .ok ((), exported) ∧
      (Named exported → Defaults exported exported.funcs named ∧ Named context ∧ Steady named context ∧
        ∀ id, symbolAt context.llvmModule id = symbolAt named.llvmModule id) := by
  obtain ⟨before, named, ranBefore, ranNames, ranTables⟩ := translateModule_exports ran
  have remains := (beforeExports_named module).run ranBefore (start_named opts arrays module)
  obtain ⟨_, exported, ranExports, ranDefaults⟩ := bind_ok.mp ranNames
  rw [get_bind_run] at ranDefaults
  refine ⟨before, exported, named, ranBefore, remains.named, remains.opts, ranExports, fun isNamed => ?_⟩
  have defaults := assignDefaultNames_ok isNamed ranDefaults
  obtain ⟨namedContext, steady⟩ := (fillTables_leaves module).run ranTables defaults.named
  exact ⟨defaults, namedContext, steady, fillTables_symbols ranTables⟩

/-- With the option the exported functions get their names, and no function is left without
one, exactly when no variable and no declaration has one of these names. -/
theorem translateModule_exportNames_iff (unique : (module.exports.map Export.name).Nodup)
    (force : opts.forceExportName = true) (ran : translateModule opts arrays module = .ok context) :
    ExportsNamed module.exports context ↔
      ∀ before, beforeExports module (Context.start opts arrays module) = .ok ((), before) →
        NoVariableNamed module.exports before ∧ NoDeclarationNamed module.exports before := by
  obtain ⟨before, exported, named, ranBefore, isNamed, isOpts, ranExports, rest⟩ := translateModule_phases ran
  have forced : Forced before module.exports exported :=
    visitExports_forced (.start isNamed) unique (isOpts ▸ force) isNamed.nodup ranExports
  obtain ⟨defaults, namedContext, steady, symbols⟩ := rest forced.named
  have funcs : context.funcs = before.funcs := steady.funcs.trans (defaults.funcs.trans forced.funcs)
  -- what has a name after the exports keeps it
  have keeps : ∀ id, functionName exported.llvmModule id ≠ [] →
      functionName context.llvmModule id = functionName exported.llvmModule id := by
    intro id hasName
    have kept := defaults.kept id hasName
    exact (steady.name (kept.symm ▸ hasName)).trans kept
  have isFunction : ∀ id ∈ before.funcs, isFunctionAt named.llvmModule id := fun id member =>
    (defaults.kinds id).mpr ((forced.kinds id).mpr (isNamed.functions id member))
  have kinds : ∀ id, isFunctionAt context.llvmModule id ↔ isFunctionAt before.llvmModule id := by
    intro id
    rw [isFunctionAt, symbols id]
    exact (defaults.kinds id).trans (forced.kinds id)
  constructor
  · intro exports other ranOther
    cases ranBefore.symm.trans ranOther
    refine ⟨fun index function name found last id has => ?_, fun id isFunctionId outside => ?_⟩
    · by_contra notFunction
      have nonempty : name ≠ [] := (mem_exportedNames (List.mem_of_getLast? last)).2
      have variableNamed : functionName exported.llvmModule id = name := (forced.others id notFunction).trans has
      have stillNamed : functionName context.llvmModule id = name :=
        (keeps id (variableNamed.symm ▸ nonempty)).trans variableNamed
      have exportNamed : functionName context.llvmModule function = name :=
        exports.symbols index function name (funcs.symm ▸ found) last
      have same := namedContext.distinct id function (stillNamed.trans exportNamed.symm) (stillNamed.symm ▸ nonempty)
      exact notFunction (same ▸ isNamed.functions function (List.mem_of_getElem? found))
    · -- a declaration that lost its name has none in the end
      have hasName := exports.names id ((kinds id).mpr isFunctionId)
      rw [functionName_congr (symbols id), defaults.others id (forced.funcs.symm ▸ outside),
        forced.outside id isFunctionId outside] at hasName
      by_cases isExported : functionName before.llvmModule id ∈ functionExports module.exports
      · rw [if_pos isExported] at hasName
        exact absurd rfl hasName
      · rw [if_neg isExported] at hasName
        exact ⟨hasName, isExported⟩
  · intro free
    obtain ⟨noVariable, noDeclaration⟩ := free before ranBefore
    refine ⟨?_, ?_, ?_⟩
    · intro index id name found last
      have nonempty : name ≠ [] := (mem_exportedNames (List.mem_of_getLast? last)).2
      have exportNamed : functionName exported.llvmModule id = name :=
        forced.names index id name (funcs ▸ found) last (noVariable index id name (funcs ▸ found) last)
      exact (keeps id (exportNamed.symm ▸ nonempty)).trans exportNamed
    · intro index id found isExported
      rw [funcs] at found
      have external := forced.linkage index id found isExported
      have same := steady.function (isFunction id (List.mem_of_getElem? found))
      rw [linkageAt, same]
      exact (defaults.linkage id).trans external
    · intro id isFunctionId
      have isFunctionBefore := (kinds id).mp isFunctionId
      by_cases member : id ∈ before.funcs
      · rw [functionName_congr (symbols id)]
        exact defaults.given id (forced.funcs.symm ▸ member) ((forced.kinds id).mpr isFunctionBefore)
      · obtain ⟨hasName, notExported⟩ := noDeclaration id isFunctionBefore member
        have kept := forced.outside id isFunctionBefore member
        rw [if_neg notExported] at kept
        rw [keeps id (kept.symm ▸ hasName), kept]
        exact hasName

end Module

/-- Two functions; the first one is exported under two names. -/
def exportingModule (globals : List Global) : Module where
  name := []
  funcs := [⟨"$g".toList, ⟨[], []⟩, [], []⟩, ⟨"$f".toList, ⟨[], []⟩, [], []⟩]
  globals := globals
  tables := []
  memories := []
  imports := []
  fields := (List.range globals.length).map .global ++ [.func 0, .func 1]
  exports := [⟨"h".toList, .func, 0⟩, ⟨"f".toList, .func, 0⟩]
  elemSegments := []

/-- The second function loses its name to the first one. -/
theorem exportingModule_named : ∃ context, translateModule ⟨false, false, false, true, false, false, false⟩ []
    (exportingModule []) = .ok context ∧ (ExportsNamed (exportingModule []).exports context ↔
      ∀ before, beforeExports (exportingModule []) (Context.start ⟨false, false, false, true, false, false, false⟩ []
        (exportingModule [])) = .ok ((), before) → NoVariableNamed (exportingModule []).exports before ∧
          NoDeclarationNamed (exportingModule []).exports before) := by
  obtain ⟨context, ran⟩ := translateModule_completes
    (show (translateModule ⟨false, false, false, true, false, false, false⟩ [] (exportingModule [])).isOk = true by decide +kernel)
  exact ⟨context, ran, translateModule_exportNames_iff (by decide) rfl ran⟩

/-- `(global $f (mut i32) (i32.const 0))`. -/
def sameName : Global :=
  ⟨"$f".toList, .i32, true, [.const (.i32 0)]⟩

/-- A global has the name under which the function is exported. -/
theorem exportingModule_clash : ∃ context, translateModule ⟨false, false, false, true, false, false, false⟩ []
    (exportingModule [sameName]) = .ok context ∧ ¬ExportsNamed (exportingModule [sameName]).exports context := by
  have suffixed : ((translateModule ⟨false, false, false, true, false, false, false⟩ []
      (exportingModule [sameName])).toOption.bind fun context =>
        context.funcs[0]?.map (functionName context.llvmModule)) = some "f.2".toList := by
    decide +kernel
  cases ran : translateModule ⟨false, false, false, true, false, false, false⟩ [] (exportingModule [sameName]) with
  | error failure => rw [ran] at suffixed; cases suffixed
  | ok context =>
      refine ⟨context, rfl, fun named => ?_⟩
      rw [ran] at suffixed
      obtain ⟨id, found, isName⟩ := Option.map_eq_some_iff.mp suffixed
      have symbol := named.symbols 0 id "f".toList found rfl
      rw [isName] at symbol
      cases symbol

/-- `(func $g (export "llvm.ctpop.i32") (param i32) (result i32) (i32.popcnt (local.get 0)))`. -/
def countingModule : Module where
  name := []
  funcs := [⟨"$g".toList, ⟨[.i32], [.i32]⟩, [], [.localGet 0, .instr (.unary .i32Popcnt)]⟩]
  globals := []
  tables := []
  memories := []
  imports := []
  fields := [.func 0]
  exports := [⟨"llvm.ctpop.i32".toList, .func, 0⟩]
  elemSegments := []

/-- The declaration that the body calls loses its name. -/
example : (translateModule ⟨false, false, false, true, false, false, false⟩ [] countingModule).toOption.map
    (fun context => context.llvmModule.values.map GlobalValue.name) = some ["llvm.ctpop.i32".toList, []] := by
  decide +kernel

end WasmToLlvm.Modules

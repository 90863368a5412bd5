import WasmToLlvm.Modules.Visit

/-!
# The symbol table

Names, linkages and kinds of values, and what naming a value does to them.
-/

set_option autoImplicit false

namespace WasmToLlvm.Modules

open Llvm Wasm Block Instruction Library

structure Symbol where
  name : Name
  linkage : Linkage
  isFunction : Bool

def symbolOf (gv : GlobalValue Body) : Symbol := ⟨gv.name, gv.linkage, gv.isFunction⟩

def symbolAt (llvmModule : Llvm.Module Body) (id : Nat) : Option Symbol :=
  (llvmModule.values[id]?).map symbolOf

/-- No two values have one name; names may be missing. -/
def Distinct (llvmModule : Llvm.Module Body) : Prop :=
  ∀ id other, functionName llvmModule id = functionName llvmModule other → functionName llvmModule id ≠ [] → id = other

section Symbols

variable {llvmModule after : Llvm.Module Body} {id other : Nat} {name : Name} {gv : GlobalValue Body} {symbol : Symbol}
  {change : GlobalValue Body → GlobalValue Body}

theorem functionName_eq : functionName llvmModule id = ((symbolAt llvmModule id).map Symbol.name).getD [] := by
  unfold functionName symbolAt
  cases llvmModule.values[id]? <;> rfl

theorem functionName_found (found : llvmModule.values[id]? = some gv) : functionName llvmModule id = gv.name := by
  rw [functionName, found]
  rfl

theorem functionName_congr (same : symbolAt after id = symbolAt llvmModule id) :
    functionName after id = functionName llvmModule id := by
  rw [functionName_eq, functionName_eq, same]

theorem functionName_outside (outside : llvmModule.values.length ≤ id) : functionName llvmModule id = [] := by
  rw [functionName, List.getElem?_eq_none outside]
  rfl

theorem inside_of_named (named : functionName llvmModule id ≠ []) : id < llvmModule.values.length := by
  by_contra outside
  exact named (functionName_outside (Nat.le_of_not_lt outside))

theorem mem_names_iff : name ∈ llvmModule.names ↔ name ≠ [] ∧ ∃ id, functionName llvmModule id = name := by
  unfold Llvm.Module.names
  rw [List.mem_filter, List.mem_map, decide_eq_true_eq, and_comm]
  refine and_congr_right fun nonempty => ?_
  constructor
  · intro member
    obtain ⟨gv, member, same⟩ := member
    obtain ⟨id, found⟩ := List.getElem?_of_mem member
    exact ⟨id, (functionName_found found).trans same⟩
  · intro named
    obtain ⟨id, same⟩ := named
    have inside := inside_of_named (same ▸ nonempty)
    have found := List.getElem?_eq_getElem inside
    exact ⟨_, List.getElem_mem inside, (functionName_found found).symm.trans same⟩

/-! ## Changes of one value -/

theorem symbolAt_update_self : symbolAt (llvmModule.update id change) id =
    (llvmModule.values[id]?).map fun gv => symbolOf (change gv) := by
  rw [symbolAt, Llvm.Module.update, List.getElem?_modify_eq]
  exact Option.map_map ..

theorem symbolAt_update_other (apart : other ≠ id) :
    symbolAt (llvmModule.update id change) other = symbolAt llvmModule other := by
  rw [symbolAt, Llvm.Module.update, List.getElem?_modify_ne _ _ apart.symm, symbolAt]

/-- A change that the symbol table does not see. -/
theorem symbolAt_update_same (same : ∀ gv, symbolOf (change gv) = symbolOf gv) :
    symbolAt (llvmModule.update id change) other = symbolAt llvmModule other := by
  by_cases here : other = id
  · rw [here, symbolAt_update_self, symbolAt]
    simp only [same]
  · exact symbolAt_update_other here

theorem Distinct.congr (distinct : Distinct llvmModule) (same : ∀ id, symbolAt after id = symbolAt llvmModule id) :
    Distinct after := by
  intro id other sameName named
  rw [functionName_congr (same id)] at sameName named
  rw [functionName_congr (same other)] at sameName
  exact distinct id other sameName named

/-! ## `setName` -/

/-- The name that a value gets for a name: the name itself unless another value has it, and
otherwise one with a number that no other value has. -/
inductive Chosen (llvmModule : Llvm.Module Body) (id : Nat) (name : Name) : Name → Prop where
  | free (free : ∀ other, other ≠ id → functionName llvmModule other = name → name = []) :
      Chosen llvmModule id name name
  | numbered {number other : Nat} (apart : other ≠ id) (taken : functionName llvmModule other = name)
      (named : name ≠ []) (free : ∀ other, other ≠ id → functionName llvmModule other ≠ numbered name number) :
      Chosen llvmModule id name (numbered name number)

theorem setName_other (apart : other ≠ id) :
    symbolAt (llvmModule.setName id name) other = symbolAt llvmModule other := by
  unfold Llvm.Module.setName
  split
  · rfl
  · exact (symbolAt_update_other apart).trans (symbolAt_update_other apart)

/-- The names of the other values. -/
theorem mem_cleared_names_iff : name ∈ (llvmModule.update id fun value => { value with name := [] }).names ↔
    name ≠ [] ∧ ∃ other, other ≠ id ∧ functionName llvmModule other = name := by
  rw [mem_names_iff]
  refine and_congr_right fun nonempty => exists_congr fun other => ?_
  by_cases here : other = id
  · have cleared : functionName (llvmModule.update id fun value => { value with name := [] }) id = [] := by
      rw [functionName_eq, symbolAt_update_self]
      cases llvmModule.values[id]? <;> rfl
    rw [here, cleared]
    exact iff_of_false nonempty.symm fun apart => apart.1 rfl
  · rw [functionName_congr (symbolAt_update_other here)]
    exact (and_iff_right here).symm

theorem setName_self (id : Nat) (name : Name) (distinct : Distinct llvmModule) : ∃ unique, Chosen llvmModule id name unique ∧
    symbolAt (llvmModule.setName id name) id = (symbolAt llvmModule id).map ({ · with name := unique }) := by
  unfold Llvm.Module.setName
  by_cases has : (llvmModule.values[id]?).map GlobalValue.name = some name
  · rw [if_pos has]
    obtain ⟨gv, found, isName⟩ := Option.map_eq_some_iff.mp has
    refine ⟨name, .free fun other apart same => ?_, ?_⟩
    · by_contra named
      have own := (functionName_found found).trans isName
      exact apart (distinct other id (same.trans own.symm) (same ▸ named))
    · rw [symbolAt, found, Option.map_some, Option.map_some, ← isName]
      rfl
  · rw [if_neg has]
    have symbols : ∀ unique last, symbolAt { (llvmModule.update id fun value => { value with name := [] }).update id
        fun value => { value with name := unique } with lastUnique := last } id =
          (symbolAt llvmModule id).map ({ · with name := unique }) := by
      intro unique last
      show symbolAt ((llvmModule.update id fun value => { value with name := [] }).update id _) id = _
      rw [symbolAt_update_self, Llvm.Module.update, List.getElem?_modify_eq, symbolAt]
      cases llvmModule.values[id]? <;> rfl
    refine ⟨(uniqueName (llvmModule.update id fun value => { value with name := [] }).names
      (llvmModule.update id fun value => { value with name := [] }).lastUnique name).1, ?_, symbols _ _⟩
    cases uniqueName_cases (llvmModule.update id fun value => { value with name := [] }).names
        (llvmModule.update id fun value => { value with name := [] }).lastUnique name with
    | inl free =>
        rw [free.2]
        refine .free fun other apart same => ?_
        by_contra named
        exact free.1 (mem_cleared_names_iff.mpr ⟨named, other, apart, same⟩)
    | inr suffixed =>
        obtain ⟨taken, number, isNumbered, free⟩ := suffixed
        obtain ⟨named, other, apart, same⟩ := mem_cleared_names_iff.mp taken
        rw [isNumbered]
        refine .numbered apart same named fun other apart same => free (mem_cleared_names_iff.mpr ⟨?_, other, apart, same⟩)
        intro empty
        have dot := dot_mem_numbered name number
        rw [empty] at dot
        cases dot

/-- A name without a dot is chosen only for itself. -/
theorem Chosen.of_no_dot {unique : Name} (chosen : Chosen llvmModule id name unique) (noDot : '.' ∉ unique) :
    unique = name := by
  cases chosen with
  | free _ => rfl
  | numbered _ _ _ _ => exact absurd (dot_mem_numbered _ _) noDot

theorem Chosen.of_free {unique : Name} (chosen : Chosen llvmModule id name unique)
    (free : ∀ other, other ≠ id → functionName llvmModule other ≠ name) : unique = name := by
  cases chosen with
  | free _ => rfl
  | numbered apart taken _ _ => exact absurd taken (free _ apart)

/-- A name is chosen for a name. -/
theorem Chosen.ne_nil {unique : Name} (chosen : Chosen llvmModule id name unique) (named : name ≠ []) :
    unique ≠ [] := by
  intro empty
  have same := chosen.of_no_dot (empty ▸ List.not_mem_nil)
  exact named (same.symm.trans empty)

theorem Chosen.distinct {unique : Name} (chosen : Chosen llvmModule id name unique) (apart : other ≠ id)
    (same : functionName llvmModule other = unique) : unique = [] := by
  cases chosen with
  | free free => exact free other apart same
  | numbered _ _ _ free => exact absurd same (free other apart)

/-- Names of different values still differ. -/
theorem Distinct.setName (distinct : Distinct llvmModule) : Distinct (llvmModule.setName id name) := by
  obtain ⟨unique, chosen, self⟩ := setName_self id name distinct
  have own : functionName (llvmModule.setName id name) id ≠ [] →
      functionName (llvmModule.setName id name) id = unique := by
    intro named
    rw [functionName_eq, self] at named ⊢
    cases symbol : symbolAt llvmModule id with
    | none => rw [symbol] at named; exact absurd rfl named
    | some symbol => rfl
  have rest : ∀ other, other ≠ id → functionName (llvmModule.setName id name) other = functionName llvmModule other :=
    fun other apart => functionName_congr (setName_other apart)
  intro first second same named
  by_cases isFirst : first = id
  · by_cases isSecond : second = id
    · rw [isFirst, isSecond]
    · rw [isFirst] at same named
      rw [rest second isSecond, own named] at same
      rw [own named] at named
      exact absurd (chosen.distinct isSecond same.symm) named
  · rw [rest first isFirst] at same named
    by_cases isSecond : second = id
    · rw [isSecond] at same
      rw [own (same ▸ named)] at same
      exact absurd (same.trans (chosen.distinct isFirst same)) named
    · rw [rest second isSecond] at same
      exact distinct first second same named

/-! ## New values -/

theorem create_older {linkage : Linkage} {object : GlobalObject Body} (older : id < llvmModule.values.length) :
    symbolAt (llvmModule.create name linkage object).2 id = symbolAt llvmModule id := by
  show (llvmModule.values ++ [_])[id]?.map symbolOf = _
  rw [List.getElem?_append_left older]
  rfl

theorem create_new {linkage : Linkage} {object : GlobalObject Body} :
    symbolAt (llvmModule.create name linkage object).2 llvmModule.values.length =
      some (symbolOf ⟨(uniqueName llvmModule.names llvmModule.lastUnique name).1, linkage, object⟩) := by
  show (llvmModule.values ++ [_])[llvmModule.values.length]?.map symbolOf = _
  rw [List.getElem?_append_right (Nat.le_refl _), Nat.sub_self]
  rfl

theorem Distinct.create {linkage : Linkage} {object : GlobalObject Body} (distinct : Distinct llvmModule) :
    Distinct (llvmModule.create name linkage object).2 := by
  have own : functionName (llvmModule.create name linkage object).2 llvmModule.values.length =
      (uniqueName llvmModule.names llvmModule.lastUnique name).1 := by
    rw [functionName_eq, create_new]
    rfl
  have fresh : ∀ id, functionName llvmModule id = (uniqueName llvmModule.names llvmModule.lastUnique name).1 →
      functionName llvmModule id = [] := by
    intro id same
    by_contra named
    exact uniqueName_not_mem llvmModule.names llvmModule.lastUnique name
      (mem_names_iff.mpr ⟨same ▸ named, id, same⟩)
  have bound : ∀ id, functionName (llvmModule.create name linkage object).2 id ≠ [] →
      id < llvmModule.values.length ∨ id = llvmModule.values.length := by
    intro id named
    have inside : id < (llvmModule.values ++ [_]).length := inside_of_named named
    rw [List.length_append] at inside
    exact Nat.lt_or_eq_of_le (Nat.le_of_lt_succ inside)
  intro first second same named
  cases bound first named with
  | inl older =>
      rw [functionName_congr (create_older older)] at same named
      cases bound second (same ▸ named) with
      | inl olderSecond =>
          rw [functionName_congr (create_older olderSecond)] at same
          exact distinct first second same named
      | inr new =>
          rw [new, own] at same
          exact absurd (fresh first same) named
  | inr new =>
      rw [new, own] at same named
      cases bound second (same ▸ named) with
      | inl olderSecond =>
          rw [functionName_congr (create_older olderSecond)] at same
          exact absurd (same.trans (fresh second same.symm)) named
      | inr newSecond => rw [new, newSecond]

/-! ## `getFunction` and `setLinkage` -/

theorem setLinkage_other {linkage : Linkage} (apart : other ≠ id) :
    symbolAt (llvmModule.setLinkage id linkage) other = symbolAt llvmModule other :=
  symbolAt_update_other apart

theorem setLinkage_self {linkage : Linkage} :
    symbolAt (llvmModule.setLinkage id linkage) id = (symbolAt llvmModule id).map ({ · with linkage := linkage }) := by
  rw [Llvm.Module.setLinkage, symbolAt_update_self, symbolAt]
  cases llvmModule.values[id]? <;> rfl

theorem setLinkage_name {linkage : Linkage} :
    functionName (llvmModule.setLinkage id linkage) other = functionName llvmModule other := by
  by_cases here : other = id
  · rw [here, functionName_eq, setLinkage_self, functionName_eq]
    cases symbolAt llvmModule id <;> rfl
  · exact functionName_congr (setLinkage_other here)

theorem Distinct.setLinkage {linkage : Linkage} (distinct : Distinct llvmModule) :
    Distinct (llvmModule.setLinkage id linkage) := by
  intro first second same named
  rw [setLinkage_name] at same named
  rw [setLinkage_name] at same
  exact distinct first second same named

def isFunctionAt (llvmModule : Llvm.Module Body) (id : Nat) : Prop :=
  (symbolAt llvmModule id).map Symbol.isFunction = some true

/-- The name of a function after `setName`. -/
theorem setName_chosen (name : Name) (distinct : Distinct llvmModule) (isFunction : isFunctionAt llvmModule id) :
    Chosen llvmModule id name (functionName (llvmModule.setName id name) id) := by
  obtain ⟨unique, chosen, self⟩ := setName_self id name distinct
  obtain ⟨symbol, isSymbol, _⟩ := Option.map_eq_some_iff.mp isFunction
  rw [functionName_eq, self, isSymbol]
  exact chosen

theorem findIdx?_name_iff (distinct : Distinct llvmModule) (named : name ≠ []) :
    (llvmModule.values.findIdx? fun value => value.name = name) = some id ↔ functionName llvmModule id = name := by
  rw [List.findIdx?_eq_some_iff_getElem]
  constructor
  · intro first
    obtain ⟨inside, same, _⟩ := first
    rw [functionName_found (List.getElem?_eq_getElem inside)]
    exact of_decide_eq_true same
  · intro same
    have inside := inside_of_named (same ▸ named)
    rw [functionName_found (List.getElem?_eq_getElem inside)] at same
    refine ⟨inside, decide_eq_true same, fun earlier before has => ?_⟩
    have insideEarlier : earlier < llvmModule.values.length := Nat.lt_trans before inside
    have sameEarlier : functionName llvmModule earlier = name := by
      rw [functionName_found (List.getElem?_eq_getElem insideEarlier)]
      exact of_decide_eq_true has
    have sameId : functionName llvmModule id = name := by
      rw [functionName_found (List.getElem?_eq_getElem inside), same]
    have equal := distinct earlier id (sameEarlier.trans sameId.symm) (sameEarlier ▸ named)
    exact Nat.lt_irrefl id (equal ▸ before)

/-- The function with a name is found, and a variable is not. -/
theorem getFunction_iff (distinct : Distinct llvmModule) (named : name ≠ []) :
    llvmModule.getFunction name = some id ↔ functionName llvmModule id = name ∧ isFunctionAt llvmModule id := by
  unfold Llvm.Module.getFunction
  rw [if_neg named, Option.filter_eq_some_iff, findIdx?_name_iff distinct named]
  refine and_congr_right fun same => ?_
  unfold isFunctionAt symbolAt
  cases llvmModule.values[id]? with
  | none => exact iff_of_false (nomatch ·) (nomatch ·)
  | some gv =>
      rw [Option.map_some, Option.map_some]
      exact ⟨congrArg some, Option.some.inj⟩

/-! ## `clearName` -/

/-- A function that has the name loses it. -/
theorem clearName_self (distinct : Distinct llvmModule) (named : name ≠ [])
    (has : functionName llvmModule id = name) (isFunction : isFunctionAt llvmModule id) :
    symbolAt (clearName name llvmModule) id = (symbolAt llvmModule id).map ({ · with name := [] }) := by
  have found := (getFunction_iff distinct named).mpr ⟨has, isFunction⟩
  rw [clearName, found]
  obtain ⟨unique, chosen, self⟩ := setName_self id [] distinct
  cases chosen with
  | free free => exact self
  | numbered _ _ contradicts _ => exact absurd rfl contradicts

/-- What does not have the name, and what is no function, stays as it is. -/
theorem clearName_other (distinct : Distinct llvmModule) (named : name ≠ [])
    (apart : functionName llvmModule id = name → ¬isFunctionAt llvmModule id) :
    symbolAt (clearName name llvmModule) id = symbolAt llvmModule id := by
  unfold clearName
  split
  · rename_i func found
    have has := (getFunction_iff distinct named).mp found
    refine setName_other fun same => ?_
    exact apart (same ▸ has.1) (same ▸ has.2)
  · rfl

theorem Distinct.clearName (distinct : Distinct llvmModule) : Distinct (clearName name llvmModule) := by
  unfold Modules.clearName
  split
  · exact distinct.setName
  · exact distinct

end Symbols

end WasmToLlvm.Modules

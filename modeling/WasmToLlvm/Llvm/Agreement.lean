import WasmToLlvm.Llvm.Growth
import WasmToLlvm.Llvm.Operation

/-!
# Operands of the types that are required

What LLVM's verifier requires of the types of the operands of an instruction, of the values
of phis and of the value that is returned.
-/

set_option autoImplicit false

namespace WasmToLlvm.Llvm

variable {Op : Type}

/-- `agrees` is what an operation requires of the types of its operands and its result. -/
def Plain.Agrees (agrees : Op → List Ty → Ty → Prop) : Plain Op → Prop
  | .alloca _ => True
  | .load _ address => address.type = .ptr
  | .store _ address => address.type = .ptr
  | .icmp _ left right => left.type = right.type ∧ (left.type.scalar.isInt ∨ left.type = .ptr)
  | .select condition ifTrue ifFalse =>
      ifTrue.type = ifFalse.type ∧
        (condition.type = .int 1 ∨ ifTrue.type.isVector ∧ condition.type = .vector ifTrue.type.lanes (.int 1))
  | .op operation type operands => agrees operation (operands.map Value.type) type

/-- `results` are the types of the values that the function returns. -/
def Inst.Agrees (agrees : Op → List Ty → Ty → Prop) (results : List Ty) : Inst Op → Prop
  | .plain code => code.Agrees agrees
  | .condBr condition _ _ => condition.type = .int 1
  | .switch condition _ => condition.type.isInt
  | .ret value => value.toList.map Value.type = results
  | .phi _ _ | .br _ | .unreachable => True

namespace Function

/-- The phi has the type of its value. -/
def EntryAgrees (function : Function Op) (entry : Incoming) : Prop :=
  ∃ index, function.insts[entry.phi]? = some (.phi index entry.value.type)

structure Agrees (agrees : Op → List Ty → Ty → Prop) (results : List Ty) (function : Function Op) : Prop where
  insts : ∀ inst ∈ function.insts, inst.Agrees agrees results
  entries : ∀ entry ∈ function.incoming, function.EntryAgrees entry

variable {agrees : Op → List Ty → Ty → Prop} {results : List Ty} {function larger : Function Op} {entry : Incoming}

theorem EntryAgrees.grows (agreed : function.EntryAgrees entry) (grows : function.Grows larger) :
    larger.EntryAgrees entry := by
  obtain ⟨index, found⟩ := agreed
  exact ⟨index, grows.inst found⟩

theorem agrees_empty : (empty : Function Op).Agrees agrees results where
  insts := fun _ member => absurd member List.not_mem_nil
  entries := fun _ member => absurd member List.not_mem_nil

theorem Agrees.newBlock (agreed : function.Agrees agrees results) (name : String) :
    (function.newBlock name).Agrees agrees results where
  insts := agreed.insts
  entries := fun entry member => (agreed.entries entry member).grows ((Grows.refl _).newBlock name)

theorem Agrees.append (agreed : function.Agrees agrees results) (block : Nat) {inst : Inst Op}
    (new : inst.Agrees agrees results) : (function.append block inst).Agrees agrees results where
  insts := by
    intro other member
    rw [insts_append] at member
    rcases List.mem_append.mp member with old | last
    · exact agreed.insts other old
    · rwa [List.mem_singleton.mp last]
  entries := fun entry member => (agreed.entries entry member).grows ((Grows.refl _).append block inst)

theorem Agrees.appendAll (agreed : function.Agrees agrees results) (block : Nat) {insts : List (Inst Op)}
    (new : ∀ inst ∈ insts, inst.Agrees agrees results) : (function.appendAll block insts).Agrees agrees results := by
  induction insts generalizing function with
  | nil => exact agreed
  | cons inst insts ih =>
      rw [appendAll_cons]
      exact ih (agreed.append block (new inst List.mem_cons_self)) fun other member =>
        new other (List.mem_cons_of_mem _ member)

theorem Agrees.appendPhis (agreed : function.Agrees agrees results) (block : Nat) {insts : List (Inst Op)}
    (phis : ∀ inst ∈ insts, inst.isPhi) : (function.appendAll block insts).Agrees agrees results := by
  refine agreed.appendAll block fun inst member => ?_
  have isPhi := phis inst member
  cases inst with
  | phi _ _ => exact trivial
  | _ => cases isPhi

theorem Agrees.addIncomings (agreed : function.Agrees agrees results) {entries : List (Nat × Value)}
    (from? : Option Nat) (typed : ∀ entry ∈ entries, ∃ index,
      function.insts[entry.1]? = some (.phi index entry.2.type)) :
    (function.addIncomings entries from?).Agrees agrees results where
  insts := agreed.insts
  entries := by
    intro entry member
    rcases List.mem_append.mp member with old | new
    · exact agreed.entries entry old
    · obtain ⟨pair, inside, rfl⟩ := List.mem_map.mp new
      exact typed pair inside

theorem Agrees.addCase (agreed : function.Agrees agrees results) (switch number target : Nat) :
    (function.addCase switch number target).Agrees agrees results :=
  ⟨agreed.insts, agreed.entries⟩

end Function

end WasmToLlvm.Llvm

import WasmToLlvm.Llvm.Building

/-!
# Extensions of a function

A function extends another if it has all its instruction objects, blocks, phi
entries and cases, and every block only got longer. All that is said about an
instruction in its block then stays true.
-/

set_option autoImplicit false

namespace WasmToLlvm.Llvm

namespace Function

variable {Op : Type}

structure Grows (function larger : Function Op) : Prop where
  insts : function.insts <+: larger.insts
  count : function.blocks.length ≤ larger.blocks.length
  bodies : ∀ block, function.body block <+: larger.body block
  incoming : function.incoming <+: larger.incoming
  cases : function.cases <+: larger.cases

section Grows

variable {function larger largest : Function Op}

theorem Grows.refl (function : Function Op) : function.Grows function :=
  ⟨List.prefix_refl _, Nat.le_refl _, fun _ => List.prefix_refl _, List.prefix_refl _,
    List.prefix_refl _⟩

theorem Grows.trans (first : function.Grows larger) (second : larger.Grows largest) :
    function.Grows largest :=
  ⟨first.insts.trans second.insts, Nat.le_trans first.count second.count,
    fun block => (first.bodies block).trans (second.bodies block),
    first.incoming.trans second.incoming, first.cases.trans second.cases⟩

theorem Grows.newBlock (grows : function.Grows larger) (name : String) :
    function.Grows (larger.newBlock name) := by
  refine grows.trans ⟨List.prefix_refl _, ?_, fun block => ?_, List.prefix_refl _,
    List.prefix_refl _⟩
  · simp
  · exact (body_newBlock larger name block).symm ▸ List.prefix_refl _

theorem Grows.append (grows : function.Grows larger) (block : Nat) (inst : Inst Op) :
    function.Grows (larger.append block inst) := by
  refine grows.trans ⟨List.prefix_append _ _, ?_, fun other => ?_, List.prefix_refl _,
    List.prefix_refl _⟩
  · simp
  · rw [body_append]
    split
    · exact List.prefix_append _ _
    · exact List.prefix_refl _

theorem Grows.appendAll (grows : function.Grows larger) (block : Nat) (insts : List (Inst Op)) :
    function.Grows (larger.appendAll block insts) := by
  induction insts generalizing larger with
  | nil => exact grows
  | cons inst insts ih => exact ih (grows.append block inst)

theorem Grows.addIncomings (grows : function.Grows larger) (entries : List (Nat × Value))
    (from? : Option Nat) : function.Grows (larger.addIncomings entries from?) :=
  grows.trans ⟨List.prefix_refl _, Nat.le_refl _, fun _ => List.prefix_refl _,
    List.prefix_append _ _, List.prefix_refl _⟩

theorem Grows.addCase (grows : function.Grows larger) (switch value target : Nat) :
    function.Grows (larger.addCase switch value target) :=
  grows.trans ⟨List.prefix_refl _, Nat.le_refl _, fun _ => List.prefix_refl _,
    List.prefix_refl _, List.prefix_append _ _⟩

theorem Grows.inst (grows : function.Grows larger) {id : Nat} {inst : Inst Op}
    (found : function.insts[id]? = some inst) : larger.insts[id]? = some inst := by
  obtain ⟨more, same⟩ := grows.insts
  rw [← same, List.getElem?_append_left (List.getElem?_eq_some_iff.mp found).1, found]

theorem Grows.member (grows : function.Grows larger) {block id : Nat}
    (member : id ∈ function.body block) : id ∈ larger.body block :=
  (grows.bodies block).subset member

end Grows

end Function

end WasmToLlvm.Llvm

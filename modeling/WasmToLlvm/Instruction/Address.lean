import WasmToLlvm.Instruction.Integer

/-!
# Effective addresses

The address that `convertStackAddr` forms from the top of the stack and a static offset.
-/

set_option autoImplicit false

namespace WasmToLlvm.Instruction

open Llvm Wasm Block Library

/-- Where the memory begins: at its variable, or at address 0 where addresses are converted
integers. -/
def memoryBase (environment : Environment) (space : Space) : Nat :=
  if environment.genIntToPtr then 0 else space.base

/-- The address that is formed, in the 32 bits of a pointer. -/
def formedAddress (environment : Environment) (space : Space) (base offset : Nat) : Nat :=
  (memoryBase environment space + (base + offset) % 2 ^ 32) % 2 ^ 32

section Address

variable {floats : Floats} {space : Space} {setting : Setting} {environment : Environment}
  {top value : Value} {rest : List Value} {base offset size : Nat}

theorem createBinary_add_computes {x y : Nat} {left right : Value} (smallX : x < 2 ^ 32)
    (isLeft : Holds space setting left i32Type [some x])
    (isRight : Holds space setting right i32Type [some (y % 2 ^ 32)]) :
    Computes floats space setting (createBinary .add left right) i32Type
      (some [some ((x + y) % 2 ^ 32)]) := by
  apply createBinary_int_computes isLeft isRight rfl
  rw [BinaryOperator.onInt, toNat_add_ofNat smallX (Nat.mod_lt y (Nat.two_pow_pos 32)), Nat.add_mod_mod]
  rfl

/-- Everything behind the pop of the base. -/
theorem convertStackAddr_computes (isBase : IsInt space setting top (32, base)) :
    Computes floats space setting
      (createBinary .add top (.int top.type.bits offset) >>= fun base =>
        if environment.genIntToPtr then createCast .intToPtr base .ptr
        else createGEP (.array size i8Type) (.global (.memory 0)) base) .ptr
      (some [some (formedAddress environment space base offset)]) := by
  have isOffset : Holds space setting (.int top.type.bits offset) i32Type [some (offset % 2 ^ 32)] := by
    rw [isBase.holds.type]
    exact .constant rfl (Value.datum_int ..) fun _ _ isInst => by cases isInst
  apply (createBinary_add_computes isBase.small isBase.holds isOffset).andThen (createBinary_quiet ..)
    fun _ => quiet_ite (createCast_quiet ..) (createGEP_quiet ..)
  intro sum setting' later isSum
  cases mode : environment.genIntToPtr with
  | true =>
      have wrapped : formedAddress environment space base offset = (base + offset) % 2 ^ 32 % 2 ^ 32 := by
        rw [formedAddress, memoryBase, mode, if_pos rfl, Nat.zero_add]
      rw [if_pos rfl, wrapped]
      exact createCast_computes isSum (by decide)
  | false =>
      have variable_ : Holds space setting' (.global (.memory 0)) .ptr [some space.base] :=
        .constant rfl (Value.datum_memory ..) fun _ _ isInst => by cases isInst
      rw [if_neg Bool.false_ne_true, formedAddress, memoryBase, mode, if_neg Bool.false_ne_true]
      exact createGEP_computes variable_ isSum

theorem convertStackAddr_appends : Appends (convertStackAddr environment offset) := by
  unfold convertStackAddr
  refine (memAt_quiet environment).appends.bind fun size => popStack_appends.bind fun top => ?_
  exact (quiet_bind (createBinary_quiet ..) fun _ =>
    quiet_ite (createCast_quiet ..) (createGEP_quiet ..)).appends

/-- The base is popped and a pointer is formed. -/
theorem convertStackAddr_runs (memory : environment.mems[0]? = some size)
    (stack : setting.straight.stack = top :: rest) (isBase : IsInt space setting top (32, base)) :
    ∃ value setting', runCode floats space (convertStackAddr environment offset) setting =
        some (value, setting') ∧
      Later (setting.withStack rest) setting' ∧
      Holds space setting' value .ptr [some (formedAddress environment space base offset)] := by
  have popped : IsInt space (setting.withStack rest) top (32, base) :=
    ⟨isBase.holds.stack rest, isBase.small⟩
  have computes : Computes floats space (setting.withStack rest)
      (createBinary .add top (.int top.type.bits offset) >>= fun base =>
        if environment.genIntToPtr then createCast .intToPtr base .ptr
        else createGEP (.array size i8Type) (.global (.memory 0)) base) .ptr
      (some [some (formedAddress environment space base offset)]) :=
    convertStackAddr_computes popped
  obtain ⟨value, setting', ran, later, holds⟩ := computes
  refine ⟨value, setting', ?_, later, holds⟩
  have found : memAt environment = pure size := by
    rw [memAt, memory]
  rw [← ran, convertStackAddr, found, pure_bind]
  exact runCode_popStack stack fun top => (quiet_bind (createBinary_quiet ..) fun _ =>
    quiet_ite (createCast_quiet ..) (createGEP_quiet ..)).appends

/-! ## Exact addresses -/

/-- The pointer is the exact sum, and an access through it lies in the first bytes of the
memory only where it does in WebAssembly. -/
structure Exact (environment : Environment) (space : Space) (setting : Setting) (value : Value)
    (base offset : Nat) : Prop where
  address : Holds space setting value .ptr [some (memoryBase environment space + (base + offset))]
  inside : ∀ address width length, Holds space setting value .ptr [some address] →
    memoryBase environment space ≤ address →
    address + width ≤ memoryBase environment space + length → base + offset + width ≤ length

/-- The address is exact just where the sum does not reach the end of the address space. -/
theorem convertStackAddr_exact_iff (memory : environment.mems[0]? = some size)
    (stack : setting.straight.stack = top :: rest) (isBase : IsInt space setting top (32, base)) :
    (∃ value setting', runCode floats space (convertStackAddr environment offset) setting =
        some (value, setting') ∧
      setting'.straight.stack = rest ∧ Exact environment space setting' value base offset) ↔
      memoryBase environment space + base + offset < 2 ^ 32 := by
  have runs : ∃ value setting', runCode floats space (convertStackAddr environment offset) setting =
      some (value, setting') ∧ Later (setting.withStack rest) setting' ∧
      Holds space setting' value .ptr [some (formedAddress environment space base offset)] :=
    convertStackAddr_runs memory stack isBase
  obtain ⟨value, setting', ran, later, holds⟩ := runs
  constructor
  · rintro ⟨value', setting'', ran', _, exact_⟩
    obtain ⟨rfl, rfl⟩ := Prod.mk.inj (Option.some.inj (ran.symm.trans ran'))
    have same := holds.datum.symm.trans exact_.address.datum
    have bound : formedAddress environment space base offset < 2 ^ 32 := Nat.mod_lt _ (Nat.two_pow_pos 32)
    simp only [Option.some.injEq, List.cons.injEq, and_true] at same
    omega
  · intro small
    have exactSum : formedAddress environment space base offset =
        memoryBase environment space + (base + offset) := by
      rw [formedAddress, Nat.mod_eq_of_lt (a := base + offset) (by omega), Nat.mod_eq_of_lt (by omega)]
    rw [exactSum] at holds
    refine ⟨value, setting', ran, later.stack, holds, fun address width length isAddress _ fits => ?_⟩
    have same := holds.datum.symm.trans isAddress.datum
    simp only [Option.some.injEq, List.cons.injEq, and_true] at same
    omega

end Address

theorem convertStackAddr_exact_iff_const :
    (∃ value setting', runCode (.choosing true) ⟨0, 65536⟩ (convertStackAddr onePage 4)
        (.start [.int 32 8]) = some (value, setting') ∧
      setting'.straight.stack = [] ∧ Exact onePage ⟨0, 65536⟩ setting' value 8 4) ↔
      memoryBase onePage ⟨0, 65536⟩ + 8 + 4 < 2 ^ 32 := by
  have isBase : IsInt ⟨0, 65536⟩ (.start [.int 32 8]) (.int 32 8) (32, 8) := isInt_const (by decide)
  exact convertStackAddr_exact_iff rfl rfl isBase

/-- With the greatest base and the offset 1 the address is that of the first byte. -/
theorem convertStackAddr_wraps :
    ¬∃ value setting', runCode (.choosing true) ⟨0, 65536⟩ (convertStackAddr onePage 1)
        (.start [.int 32 (2 ^ 32 - 1)]) = some (value, setting') ∧
      setting'.straight.stack = [] ∧ Exact onePage ⟨0, 65536⟩ setting' value (2 ^ 32 - 1) 1 := by
  have isBase : IsInt ⟨0, 65536⟩ (.start [.int 32 (2 ^ 32 - 1)]) (.int 32 (2 ^ 32 - 1)) (32, 2 ^ 32 - 1) :=
    isInt_const (by decide)
  have runs : ∃ value setting', runCode (.choosing true) ⟨0, 65536⟩ (convertStackAddr onePage 1)
      (.start [.int 32 (2 ^ 32 - 1)]) = some (value, setting') ∧ Later _ setting' ∧
      Holds ⟨0, 65536⟩ setting' value .ptr [some (formedAddress onePage ⟨0, 65536⟩ (2 ^ 32 - 1) 1)] :=
    convertStackAddr_runs rfl rfl isBase
  obtain ⟨value, setting', ran, _, holds⟩ := runs
  have first : formedAddress onePage ⟨0, 65536⟩ (2 ^ 32 - 1) 1 = 0 := by decide
  rw [first] at holds
  rintro ⟨value', setting'', ran', _, exact_⟩
  obtain ⟨rfl, rfl⟩ := Prod.mk.inj (Option.some.inj (ran.symm.trans ran'))
  -- the access to the first byte is inside one page, but that to the byte 2 ^ 32 is not
  exact absurd (exact_.inside 0 1 65536 holds (by decide) (by decide)) (by decide)

end WasmToLlvm.Instruction

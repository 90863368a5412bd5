import WasmToLlvm.Instruction.Memory

/-!
# Copies and fills of memory

A fill is that of WebAssembly. A copy is where its ranges do not overlap, or are the same.
-/

set_option autoImplicit false

namespace WasmToLlvm.Instruction

open Llvm Wasm Block Library

section Bulk

variable {floats : Floats} {space : Space} {setting : Setting} {environment : Environment}
  {num src dest byte destAddr srcAddr : Value} {rest : List Value} {n d s value place source : Nat}

theorem createMemCpy_writes (isDest : Holds space setting dest .ptr [some place])
    (isSrc : Holds space setting src .ptr [some source]) (isNum : Holds space setting num i32Type [some n]) :
    Writes floats space setting (createMemCpy dest src num >>= fun _ => pure ()) setting.straight.stack
      (if n = 0 ∨ space.Contains place n ∧ space.Contains source n ∧ CopyRanges place source n then
        some (setting.machine.bytes.write place n (setting.machine.bytes.read source n))
      else none) := by
  apply create_writes
  have stand : [dest, src, num].mapM (Value.datum space setting.machine) =
      some [[some place], [some source], [some n]] := by
    simp [isDest.datum, isSrc.datum, isNum.datum]
  rw [Plain.execute_memCpy stand]
  split <;> rfl

theorem createMemSet_writes (isDest : Holds space setting dest .ptr [some place])
    (isByte : Holds space setting byte i8Type [some value]) (isNum : Holds space setting num i32Type [some n]) :
    Writes floats space setting (createMemSet dest byte num >>= fun _ => pure ()) setting.straight.stack
      (if n = 0 ∨ space.Contains place n then
        some (setting.machine.bytes.write place n (pack 8 (List.replicate n value)))
      else none) := by
  apply create_writes
  have stand : [dest, byte, num].mapM (Value.datum space setting.machine) =
      some [[some place], [some value], [some n]] := by
    simp [isDest.datum, isByte.datum, isNum.datum]
  rw [Plain.execute_memSet stand]
  split <;> rfl

/-- The visit is defined and gives the range its new bytes. -/
def Moves (floats : Floats) (space : Space) (setting : Setting) (visit : Emit Unit) (rest : List Value)
    (address count : Nat) (content : Nat → BitVec 8) : Prop :=
  ∃ bytes, Writes floats space setting visit rest (some bytes) ∧
    Replaced setting.machine.bytes bytes address count content

/-- The address of a range with bytes; one without any is not looked at. -/
theorem formedAddress_range (placed : Placed environment space) (inside : d + n ≤ space.size) :
    n = 0 ∨ formedAddress environment space d 0 = space.base + d ∧
      space.Contains (formedAddress environment space d 0) n := by
  rcases Nat.eq_zero_or_pos n with none_ | some_
  · exact .inl none_
  · have address : formedAddress environment space d 0 = space.base + d + 0 :=
      formedAddress_inside placed some_ inside
    rw [address]
    exact .inr ⟨rfl, by omega, by omega⟩

theorem visitMemoryCopy_writes (placed : Placed environment space)
    (stack : setting.straight.stack = num :: src :: dest :: rest)
    (isNum : IsInt space setting num (32, n)) (isSrc : IsInt space setting src (32, s))
    (isDest : IsInt space setting dest (32, d)) (inSrc : s + n ≤ space.size) (inDest : d + n ≤ space.size) :
    Writes floats space setting (visitMemoryCopy environment) rest
      (if n = 0 ∨ CopyRanges d s n then
        some (setting.machine.bytes.write (space.base + d) n (setting.machine.bytes.read (space.base + s) n))
      else none) := by
  have appends : ∀ num src dest, Appends (createMemCpy dest src num >>= fun _ => pure () : Emit Unit) :=
    fun num src dest => (quiet_bind (createMemCpy_quiet ..) fun _ => quiet_pure _).appends
  have popped : runCode floats space (visitMemoryCopy environment) setting = _ :=
    runCode_popStack stack fun num => convertStackAddr_appends.bind fun src =>
      convertStackAddr_appends.bind (appends num src)
  have first : ∃ srcAddr middle, runCode floats space (convertStackAddr environment 0 >>= fun src =>
      convertStackAddr environment 0 >>= fun dest => createMemCpy dest src num >>= fun _ => pure ())
        (setting.withStack (src :: dest :: rest)) = _ ∧ Later _ middle ∧ _ :=
    runCode_convertStackAddr placed rfl ⟨isSrc.holds.stack _, isSrc.small⟩ fun src =>
      convertStackAddr_appends.bind (appends num src)
  obtain ⟨srcAddr, middle, ranSrc, laterSrc, isSrcAddr⟩ := first
  have second : ∃ destAddr last, runCode floats space (convertStackAddr environment 0 >>= fun dest =>
      createMemCpy dest srcAddr num >>= fun _ => pure ()) middle = _ ∧ Later _ last ∧ _ :=
    runCode_convertStackAddr placed laterSrc.stack
      ⟨((isDest.holds.stack _).stack _).later laterSrc, isDest.small⟩ (appends num srcAddr)
  obtain ⟨destAddr, last, ranDest, laterDest, isDestAddr⟩ := second
  have isNum' := (((isNum.holds.stack _).stack _).later laterSrc |>.stack rest).later laterDest
  have writes : Writes floats space last _ _ _ :=
    createMemCpy_writes isDestAddr ((isSrcAddr.stack rest).later laterDest) isNum'
  have left := writes.congr (popped.trans (ranSrc.trans ranDest))
  have stackLeft : last.straight.stack = rest := laterDest.stack
  have bytesLeft : last.machine.bytes = setting.machine.bytes := laterDest.bytes.trans laterSrc.bytes
  rw [stackLeft, bytesLeft] at left
  rcases formedAddress_range placed inSrc with rfl | ⟨srcExact, containsSrc⟩
  · simpa only [true_or, if_pos, Bytes.write_none] using left
  · rcases formedAddress_range placed inDest with rfl | ⟨destExact, containsDest⟩
    · simpa only [true_or, if_pos, Bytes.write_none] using left
    · have ranges : CopyRanges (space.base + d) (space.base + s) n ↔ CopyRanges d s n := by
        unfold CopyRanges
        omega
      rw [srcExact] at containsSrc
      rw [destExact] at containsDest
      simpa only [srcExact, destExact, containsSrc, containsDest, ranges, true_and] using left

theorem visitMemoryFill_writes (placed : Placed environment space)
    (stack : setting.straight.stack = num :: byte :: dest :: rest)
    (isNum : IsInt space setting num (32, n)) (isByte : IsInt space setting byte (32, value))
    (isDest : IsInt space setting dest (32, d)) (inDest : d + n ≤ space.size) :
    Writes floats space setting (visitMemoryFill environment) rest
      (some (setting.machine.bytes.write (space.base + d) n (pack 8 (List.replicate n (value % 2 ^ 8))))) := by
  have appends : ∀ num byte dest, Appends (createMemSet dest byte num >>= fun _ => pure () : Emit Unit) :=
    fun num byte dest => (quiet_bind (createMemSet_quiet ..) fun _ => quiet_pure _).appends
  have behind : ∀ num byte, Appends (convertStackAddr environment 0 >>= fun dest =>
      createMemSet dest byte num >>= fun _ => pure () : Emit Unit) := fun num byte =>
    convertStackAddr_appends.bind (appends num byte)
  have popped : runCode floats space (visitMemoryFill environment) setting = _ :=
    runCode_popStack stack fun num => popStack_appends.bind fun byte =>
      (createCast_quiet ..).appends.bind (behind num)
  have popped' : runCode floats space (Visit.popStack >>= fun byte => createCast .trunc byte i8Type >>= fun byte =>
      convertStackAddr environment 0 >>= fun dest => createMemSet dest byte num >>= fun _ => pure ())
        (setting.withStack (byte :: dest :: rest)) = _ :=
    runCode_popStack rfl fun byte => (createCast_quiet ..).appends.bind (behind num)
  have truncated : Computes floats space (setting.withStack (dest :: rest)) (createCast .trunc byte i8Type)
      i8Type _ := createCast_trunc_computes (show 8 < 32 by decide) (isByte.holds.stack _)
  obtain ⟨low, middle, ranByte, laterByte, isLow⟩ := truncated
  have second : ∃ destAddr last, runCode floats space (convertStackAddr environment 0 >>= fun dest =>
      createMemSet dest low num >>= fun _ => pure ()) middle = _ ∧ Later _ last ∧ _ :=
    runCode_convertStackAddr placed laterByte.stack ⟨(isDest.holds.stack _).later laterByte, isDest.small⟩
      (appends num low)
  obtain ⟨destAddr, last, ranDest, laterDest, isDestAddr⟩ := second
  have isNum' := ((isNum.holds.stack _).later laterByte |>.stack rest).later laterDest
  have writes : Writes floats space last _ _ _ :=
    createMemSet_writes isDestAddr ((isLow.stack rest).later laterDest) isNum'
  have cast : runCode floats space (createCast .trunc byte i8Type >>= fun byte =>
      convertStackAddr environment 0 >>= fun dest => createMemSet dest byte num >>= fun _ => pure ())
        (setting.withStack (dest :: rest)) = _ :=
    runCode_bind (createCast_quiet ..).appends (behind num)
  rw [ranByte, Option.bind_some] at cast
  have left := writes.congr (popped.trans (popped'.trans (cast.trans ranDest)))
  have stackLeft : last.straight.stack = rest := laterDest.stack
  have bytesLeft : last.machine.bytes = setting.machine.bytes := laterDest.bytes.trans laterByte.bytes
  rw [stackLeft, bytesLeft] at left
  rcases formedAddress_range placed inDest with rfl | ⟨destExact, containsDest⟩
  · simpa only [true_or, if_pos, Bytes.write_none] using left
  · rw [destExact] at containsDest
    simpa only [destExact, containsDest, or_true, if_pos] using left

/-- A fill is that of WebAssembly, and so is a copy of no byte, to its own place or between
ranges without a common byte. Any other copy is undefined. -/
theorem visitInstr_bulk_iff (placed : Placed environment space) :
    (∀ {setting : Setting} {num src dest : Value} {rest : List Value} {n s d : Nat},
      setting.straight.stack = num :: src :: dest :: rest → IsInt space setting num (32, n) →
      IsInt space setting src (32, s) → IsInt space setting dest (32, d) → s + n ≤ space.size →
      d + n ≤ space.size →
      (Moves floats space setting (visitInstr environment .memoryCopy) rest (space.base + d) n
        (fun index => setting.machine.bytes (space.base + s + index)) ↔
          n = 0 ∨ d = s ∨ d + n ≤ s ∨ s + n ≤ d)) ∧
    (∀ {setting : Setting} {num byte dest : Value} {rest : List Value} {n value d : Nat},
      setting.straight.stack = num :: byte :: dest :: rest → IsInt space setting num (32, n) →
      IsInt space setting byte (32, value) → IsInt space setting dest (32, d) → d + n ≤ space.size →
      Moves floats space setting (visitInstr environment .memoryFill) rest (space.base + d) n
        (fun _ => BitVec.ofNat 8 value)) := by
  constructor
  · intro setting num src dest rest n s d stack isNum isSrc isDest inSrc inDest
    have writes : Writes floats space setting (visitInstr environment .memoryCopy) rest _ :=
      visitMemoryCopy_writes placed stack isNum isSrc isDest inSrc inDest
    constructor
    · rintro ⟨bytes, moved, _⟩
      by_contra apart
      have overlap : ¬(n = 0 ∨ CopyRanges d s n) := apart
      rw [if_neg overlap] at writes
      cases writes.unique moved
    · intro apart
      have ranges : n = 0 ∨ CopyRanges d s n := apart
      rw [if_pos ranges] at writes
      exact ⟨_, writes, Bytes.write_replaced.congr fun index inside => byteOf_read inside⟩
  · intro setting num byte dest rest n value d stack isNum isByte isDest inDest
    have writes : Writes floats space setting (visitInstr environment .memoryFill) rest _ :=
      visitMemoryFill_writes placed stack isNum isByte isDest inDest
    refine ⟨_, writes, Bytes.write_replaced.congr fun index inside => ?_⟩
    have low : value % 2 ^ 8 < 2 ^ 8 := Nat.mod_lt value (Nat.two_pow_pos 8)
    rw [byteOf_pack (fun lane member => (List.eq_of_mem_replicate member) ▸ low) (by simpa using inside),
      List.getElem_replicate]
    apply BitVec.eq_of_toNat_eq
    rw [BitVec.toNat_ofNat, BitVec.toNat_ofNat, Nat.mod_mod]

end Bulk

theorem visitInstr_bulk_iff_const :
    (Moves (.choosing true) ⟨0, 65536⟩ (.start [.int 32 4, .int 32 0, .int 32 8])
      (visitInstr onePage .memoryCopy) [] 8 4 (fun _ => 0) ↔
        4 = 0 ∨ 8 = 0 ∨ 8 + 4 ≤ 0 ∨ 0 + 4 ≤ 8) ∧
    Moves (.choosing true) ⟨0, 65536⟩ (.start [.int 32 4, .int 32 7, .int 32 8])
      (visitInstr onePage .memoryFill) [] 8 4 (fun _ => BitVec.ofNat 8 7) := by
  have both := @visitInstr_bulk_iff (.choosing true) ⟨0, 65536⟩ onePage onePage_placed
  have isWord : ∀ setting, ∀ word < 9, IsInt ⟨0, 65536⟩ setting (.int 32 word) (32, word) :=
    fun _ _ small => isInt_const (Nat.lt_trans small (by decide))
  have copies := both.1 rfl (isWord (.start [.int 32 4, .int 32 0, .int 32 8]) 4 (by decide))
    (isWord _ 0 (by decide)) (isWord _ 8 (by decide)) (by decide) (by decide)
  have fills := both.2 rfl (isWord (.start [.int 32 4, .int 32 7, .int 32 8]) 4 (by decide))
    (isWord _ 7 (by decide)) (isWord _ 8 (by decide)) (by decide)
  exact ⟨copies, fills⟩

/-- `memory.copy` of the bytes 0 to 3 to the place 2 is undefined. -/
theorem visitInstr_copy_overlap :
    ¬Moves (.choosing true) ⟨0, 65536⟩ (.start [.int 32 4, .int 32 0, .int 32 2])
      (visitInstr onePage .memoryCopy) [] 2 4 (fun _ => 0) := by
  have isWord : ∀ word < 5, IsInt ⟨0, 65536⟩ (.start [.int 32 4, .int 32 0, .int 32 2]) (.int 32 word) (32, word) :=
    fun _ small => isInt_const (Nat.lt_trans small (by decide))
  have writes : Writes (.choosing true) ⟨0, 65536⟩ (.start [.int 32 4, .int 32 0, .int 32 2])
      (visitMemoryCopy onePage) [] _ :=
    visitMemoryCopy_writes onePage_placed rfl (isWord _ (by decide)) (isWord _ (by decide))
      (isWord _ (by decide)) (by decide) (by decide)
  rintro ⟨bytes, moved, _⟩
  rw [if_neg (by decide)] at writes
  cases writes.unique moved

end WasmToLlvm.Instruction

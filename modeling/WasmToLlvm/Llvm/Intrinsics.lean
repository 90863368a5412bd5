import WasmToLlvm.Library.Names
import WasmToLlvm.Llvm.Operation

/-!
# The declarations of intrinsics

An intrinsic is called through a declaration in the module, which is found by the name of
the intrinsic and the types that it is declared for.
-/

set_option autoImplicit false

namespace WasmToLlvm.Llvm

open Library

/-- A type in the name of an intrinsic. -/
def Ty.mangled : Ty → Name
  | .int width => 'i' :: digits width
  | .float => "f32".toList
  | .double => "f64".toList
  | .ptr => "p0".toList
  | .void => "isVoid".toList
  | .vector lanes element => 'v' :: digits lanes ++ element.mangled
  | .array count element => 'a' :: digits count ++ element.mangled

def Intrinsic.name : Intrinsic → Name
  | .fabs => "fabs".toList
  | .ceil => "ceil".toList
  | .floor => "floor".toList
  | .roundeven => "roundeven".toList
  | .trunc => "trunc".toList
  | .sqrt => "sqrt".toList
  | .copysign => "copysign".toList
  | .minnum => "minnum".toList
  | .maxnum => "maxnum".toList
  | .ctpop => "ctpop".toList
  | .ctlz => "ctlz".toList
  | .cttz => "cttz".toList
  | .fshl => "fshl".toList
  | .fshr => "fshr".toList
  | .saddSat => "sadd.sat".toList
  | .ssubSat => "ssub.sat".toList

/-- The types behind the name of an intrinsic. -/
def mangledTypes (types : List Ty) : Name := types.flatMap fun type => '.' :: type.mangled

/-- `Intrinsic::getName`. -/
def intrinsicName (name : Name) (types : List Ty) : Name :=
  "llvm.".toList ++ name ++ mangledTypes types

/-- The name and the type of a function that is declared. -/
structure Declaration where
  name : Name
  params : List Ty
  result : Ty
  deriving DecidableEq, Repr

/-- The declaration that an operation calls; a copy and a fill have one more parameter, which
says whether they are volatile. -/
def Operation.declaration? (operation : Operation) (operands : List Ty) : Option Declaration :=
  match operation, operands with
  | .intrinsic callee declared, _ =>
      some ⟨intrinsicName callee.name [declared], callee.params declared, declared⟩
  | .memCpy, [dest, src, num] =>
      some ⟨intrinsicName "memcpy".toList [dest, src, num], [dest, src, num, .int 1], .void⟩
  | .memSet, [dest, _, num] =>
      some ⟨intrinsicName "memset".toList [dest, num], [dest, .int 8, num, .int 1], .void⟩
  | _, _ => none

example : (Operation.intrinsic .ctpop (.int 32)).declaration? [.int 32] =
    some ⟨"llvm.ctpop.i32".toList, [.int 32], .int 32⟩ := by decide

def Inst.declaration? : Inst Operation → Option Declaration
  | .plain (.op operation _ operands) => operation.declaration? (operands.map Value.type)
  | _ => none

/-- The declarations that the instructions of a function call, in the order of creation. -/
def Function.declarations (function : Function Operation) : List Declaration :=
  function.insts.filterMap Inst.declaration?

theorem dot_mem_intrinsicName (name : Name) (types : List Ty) : '.' ∈ intrinsicName name types := by
  have prefixed : '.' ∈ "llvm.".toList := by decide
  exact List.mem_append_left _ (List.mem_append_left _ prefixed)

/-- What an operation isIntrinsic: an intrinsic for a type, a copy or a fill. -/
inductive OfIntrinsic : Declaration → Prop where
  | intrinsic (callee : Intrinsic) (declared : Ty) :
      OfIntrinsic ⟨intrinsicName callee.name [declared], callee.params declared, declared⟩
  | memCpy (dest src num : Ty) :
      OfIntrinsic ⟨intrinsicName "memcpy".toList [dest, src, num], [dest, src, num, .int 1], .void⟩
  | memSet (dest num : Ty) :
      OfIntrinsic ⟨intrinsicName "memset".toList [dest, num], [dest, .int 8, num, .int 1], .void⟩

theorem Operation.ofIntrinsic {operation : Operation} {operands : List Ty} {declaration : Declaration}
    (calls : operation.declaration? operands = some declaration) : OfIntrinsic declaration := by
  unfold Operation.declaration? at calls
  split at calls
  · cases calls
    exact .intrinsic _ _
  · cases calls
    exact .memCpy _ _ _
  · cases calls
    exact .memSet _ _
  · cases calls

theorem OfIntrinsic.dot {declaration : Declaration} (isIntrinsic : OfIntrinsic declaration) : '.' ∈ declaration.name := by
  cases isIntrinsic <;> exact dot_mem_intrinsicName ..

theorem Function.ofIntrinsic {function : Function Operation} {declaration : Declaration}
    (member : declaration ∈ function.declarations) : OfIntrinsic declaration := by
  obtain ⟨inst, _, calls⟩ := List.mem_filterMap.mp member
  unfold Inst.declaration? at calls
  split at calls
  · exact Operation.ofIntrinsic calls
  · cases calls

/-! ## Names and types -/

section Names

variable {rest rest' : Name}

theorem Ty.mangled_head (type : Ty) : ∃ char tail, type.mangled = char :: tail ∧ char.isDigit = false := by
  cases type with
  | float | double | ptr | void => exact ⟨_, _, rfl, by decide⟩
  | int width => exact ⟨_, _, rfl, by decide⟩
  | vector lanes element => exact ⟨_, _, rfl, by decide⟩
  | array count element => exact ⟨_, _, rfl, by decide⟩

/-- The end of a type in a name. -/
def Ends (rest : Name) : Prop := ∀ char ∈ rest.head?, char = '.'

theorem Ends.isDigit (ends : Ends rest) : ∀ char ∈ rest.head?, char.isDigit = false := by
  intro char member
  rw [ends char member]
  decide

theorem counted_append_inj {count count' : Nat} {type type' : Ty}
    (same : digits count ++ type.mangled ++ rest = digits count' ++ type'.mangled ++ rest') :
    count = count' ∧ type.mangled ++ rest = type'.mangled ++ rest' := by
  rw [List.append_assoc, List.append_assoc] at same
  have letter : ∀ (type : Ty) (rest : Name), ∀ char ∈ (type.mangled ++ rest).head?, char.isDigit = false := by
    intro type rest char member
    obtain ⟨first, tail, isMangled, isLetter⟩ := type.mangled_head
    rw [isMangled] at member
    cases member
    exact isLetter
  exact digits_append_inj (letter type rest) (letter type' rest') same

/-- A type can be read from its name. -/
theorem Ty.mangled_append_inj {type type' : Ty} (ends : Ends rest) (ends' : Ends rest')
    (same : type.mangled ++ rest = type'.mangled ++ rest') : type = type' ∧ rest = rest' := by
  induction type generalizing type' with
  | int width =>
      cases type' with
      | int width' =>
          obtain ⟨sameWidth, sameRest⟩ := digits_append_inj ends.isDigit ends'.isDigit (List.cons.inj same).2
          exact ⟨congrArg Ty.int sameWidth, sameRest⟩
      | void => exact absurd (List.cons.inj same).2 (digits_append_ne (by decide))
      | _ => exact nomatch (List.cons.inj same).1
  | void =>
      cases type' with
      | int width' => exact absurd (List.cons.inj same).2.symm (digits_append_ne (by decide))
      | void => exact ⟨rfl, List.append_cancel_left same⟩
      | _ => exact nomatch (List.cons.inj same).1
  | float =>
      cases type' with
      | float => exact ⟨rfl, List.append_cancel_left same⟩
      | double => exact nomatch (List.cons.inj (List.cons.inj same).2).1
      | _ => exact nomatch (List.cons.inj same).1
  | double =>
      cases type' with
      | double => exact ⟨rfl, List.append_cancel_left same⟩
      | float => exact nomatch (List.cons.inj (List.cons.inj same).2).1
      | _ => exact nomatch (List.cons.inj same).1
  | ptr =>
      cases type' with
      | ptr => exact ⟨rfl, List.append_cancel_left same⟩
      | _ => exact nomatch (List.cons.inj same).1
  | vector lanes element ih =>
      cases type' with
      | vector lanes' element' =>
          obtain ⟨sameLanes, sameRest⟩ := counted_append_inj (List.cons.inj same).2
          obtain ⟨sameElement, sameRest⟩ := ih sameRest
          exact ⟨by rw [sameLanes, sameElement], sameRest⟩
      | _ => exact nomatch (List.cons.inj same).1
  | array count element ih =>
      cases type' with
      | array count' element' =>
          obtain ⟨sameCount, sameRest⟩ := counted_append_inj (List.cons.inj same).2
          obtain ⟨sameElement, sameRest⟩ := ih sameRest
          exact ⟨by rw [sameCount, sameElement], sameRest⟩
      | _ => exact nomatch (List.cons.inj same).1

theorem ends_mangledTypes (types : List Ty) : Ends (mangledTypes types) := by
  intro char member
  cases types with
  | nil => cases member
  | cons type types =>
      cases member
      rfl

theorem mangledTypes_inj {types types' : List Ty} (same : mangledTypes types = mangledTypes types') : types = types' := by
  induction types generalizing types' with
  | nil =>
      cases types' with
      | nil => rfl
      | cons type' types' => cases same
  | cons type types ih =>
      cases types' with
      | nil => cases same
      | cons type' types' =>
          obtain ⟨sameType, sameRest⟩ :=
            Ty.mangled_append_inj (ends_mangledTypes types) (ends_mangledTypes types') (List.cons.inj same).2
          rw [sameType, ih sameRest]

def Intrinsic.all : List Intrinsic :=
  [.fabs, .ceil, .floor, .roundeven, .trunc, .sqrt, .copysign, .minnum, .maxnum, .ctpop, .ctlz, .cttz, .fshl, .fshr,
    .saddSat, .ssubSat]

/-- The names of intrinsics without their types. -/
def intrinsicNames : List Name :=
  "memcpy".toList :: "memset".toList :: Intrinsic.all.map Intrinsic.name

theorem Intrinsic.mem_all (callee : Intrinsic) : callee ∈ all := by
  cases callee <;> decide

theorem takeWhile_dot (name : Name) : (name ++ '.' :: rest).takeWhile (· ≠ '.') = name.takeWhile (· ≠ '.') := by
  induction name with
  | nil => rfl
  | cons char name ih =>
      rw [List.cons_append]
      by_cases dot : char = '.'
      · rw [List.takeWhile_cons_of_neg (by simpa using dot), List.takeWhile_cons_of_neg (by simpa using dot)]
      · rw [List.takeWhile_cons_of_pos (by simpa using dot), List.takeWhile_cons_of_pos (by simpa using dot), ih]

/-- The intrinsic and its types can be read from the name. -/
theorem intrinsicName_inj {name name' : Name} {type type' : Ty} {types types' : List Ty} (known : name ∈ intrinsicNames)
    (known' : name' ∈ intrinsicNames) (same : intrinsicName name (type :: types) = intrinsicName name' (type' :: types')) :
    name = name' ∧ type :: types = type' :: types' := by
  have starts : ∀ name ∈ intrinsicNames, ∀ name' ∈ intrinsicNames,
      name.takeWhile (· ≠ '.') = name'.takeWhile (· ≠ '.') → name = name' := by decide
  unfold intrinsicName at same
  rw [List.append_assoc, List.append_assoc] at same
  have rest := List.append_cancel_left same
  have sameName : name = name' := by
    refine starts name known name' known' ?_
    have heads := congrArg (List.takeWhile (· ≠ '.')) rest
    rwa [mangledTypes, mangledTypes, List.flatMap_cons, List.flatMap_cons, List.cons_append, List.cons_append,
      takeWhile_dot, takeWhile_dot] at heads
  rw [sameName] at rest
  exact ⟨sameName, mangledTypes_inj (List.append_cancel_left rest)⟩

theorem Intrinsic.name_mem (callee : Intrinsic) : callee.name ∈ intrinsicNames :=
  List.mem_cons_of_mem _ (List.mem_cons_of_mem _ (List.mem_map_of_mem callee.mem_all))

theorem Intrinsic.name_inj {callee callee' : Intrinsic} (same : callee.name = callee'.name) : callee = callee' := by
  have all_ : ∀ callee ∈ all, ∀ callee' ∈ all, callee.name = callee'.name → callee = callee' := by decide
  exact all_ callee callee.mem_all callee' callee'.mem_all same

/-- The name of an intrinsic says which type it is declared with. -/
theorem OfIntrinsic.unique {declaration other : Declaration} (isIntrinsic : OfIntrinsic declaration)
    (isIntrinsicOther : OfIntrinsic other) (same : declaration.name = other.name) : declaration = other := by
  have copies : "memcpy".toList ∈ intrinsicNames := by decide
  have fills : "memset".toList ∈ intrinsicNames := by decide
  have noCopy : ∀ callee : Intrinsic, callee.name ≠ "memcpy".toList := by
    intro callee
    cases callee <;> decide
  have noFill : ∀ callee : Intrinsic, callee.name ≠ "memset".toList := by
    intro callee
    cases callee <;> decide
  cases isIntrinsic with
  | intrinsic callee declared =>
      cases isIntrinsicOther with
      | intrinsic callee' declared' =>
          obtain ⟨sameName, sameTypes⟩ := intrinsicName_inj callee.name_mem callee'.name_mem same
          cases Intrinsic.name_inj sameName
          cases sameTypes
          rfl
      | memCpy => exact absurd (intrinsicName_inj callee.name_mem copies same).1 (noCopy callee)
      | memSet => exact absurd (intrinsicName_inj callee.name_mem fills same).1 (noFill callee)
  | memCpy =>
      cases isIntrinsicOther with
      | intrinsic callee' => exact absurd (intrinsicName_inj copies callee'.name_mem same).1.symm (noCopy callee')
      | memCpy =>
          cases (intrinsicName_inj copies copies same).2
          rfl
      | memSet => exact absurd (intrinsicName_inj copies fills same).1 (by decide)
  | memSet =>
      cases isIntrinsicOther with
      | intrinsic callee' => exact absurd (intrinsicName_inj fills callee'.name_mem same).1.symm (noFill callee')
      | memCpy => exact absurd (intrinsicName_inj fills copies same).1 (by decide)
      | memSet =>
          cases (intrinsicName_inj fills fills same).2
          rfl

end Names

end WasmToLlvm.Llvm

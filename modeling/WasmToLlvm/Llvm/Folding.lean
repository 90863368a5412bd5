import WasmToLlvm.Llvm.FloatLaws
import WasmToLlvm.Llvm.Refinement

/-!
# Folding of constants

The builder asks LLVM's constant folder before it creates an instruction, and where the
folder has a constant for the operation on these operands, the constant is the value and no
instruction is created. Code is therefore a list of requests first; folding them gives the
instructions.
-/

set_option autoImplicit false

namespace WasmToLlvm.Llvm

open Library

def Value.isConstant : Value → Bool
  | .inst _ _ | .arg _ _ => false
  | _ => true

/-- `ConstantFolder`: the constant for an operation, by its key and its lanes, and
`Constant::isNullValue`. -/
structure Folder where
  fold : Plain Operation → Option (Nat × Datum)
  isNull : Value → Bool

/-- What has become of a request. -/
inductive Made where
  | kept (id : Nat)
  | folded (key : Nat) (lanes : Datum)

/-- The requests so far, and the instructions that are left of them. -/
structure Folding where
  made : List Made
  code : List (Plain Operation)

def Folding.start : Folding := ⟨[], []⟩

def Made.value (type : Ty) : Made → Value
  | .kept id => .inst id type
  | .folded key lanes => .constant key type lanes

/-- A value after the folding of the requests from `first` on. -/
def Value.resolve (first : Nat) (made : List Made) : Value → Value
  | .inst id type => if id < first then .inst id type else (made[id - first]?).elim (.inst id type) (Made.value type)
  | value => value

namespace Folder

variable (folder : Folder) (first : Nat)

def step (folding : Folding) (plain : Plain Operation) : Folding :=
  match folder.fold (plain.mapOperands (Value.resolve first folding.made)) with
  | some (key, lanes) => { folding with made := folding.made ++ [.folded key lanes] }
  | none =>
      ⟨folding.made ++ [.kept (first + folding.code.length)],
        folding.code ++ [plain.mapOperands (Value.resolve first folding.made)]⟩

def run (folding : Folding) (requests : List (Plain Operation)) : Folding :=
  requests.foldl (folder.step first) folding

end Folder

/-- The requests whose result as constants is that of the instruction: those that the
verifier accepts, shuffles whose second operand is not the longer one, and casts of
integers to pointers. -/
def Plain.Regular (plain : Plain Operation) : Prop :=
  plain.wellTyped = true ∨
    (∃ mask type left right, plain = .op (.shuffleVector mask) type [left, right] ∧
      right.type.lanes ≤ left.type.lanes) ∨
    ∃ value, plain = .op (.cast .bitCast) .ptr [value] ∧ value.type.isInt = true

/-- The request compares. -/
def Plain.isComparison : Plain Operation → Bool
  | .icmp _ _ _ => true
  | .op (.fcmp _) _ _ => true
  | _ => false

/-- Casts that no instruction can make: of a vector to a scalar, and of an integer to a
pointer without `inttoptr`. -/
def IllTypedCast (kind : CastOp) (source target : Ty) : Prop :=
  (kind = .zext ∧ source.isVector = true ∧ target.isVector = false) ∨
    (kind = .bitCast ∧ source.isInt = true ∧ target = .ptr)

/-- What is known of the constant folder. Only operations on constants are folded, and the
constant refines what the instruction would give; accesses to memory never are. Bitcasts of
constants and shuffles of constant vectors are always constants, but a mask that is read without
having been assigned has no meaning and does not count. A cast of a null value is the null value
of its type, before the types are looked at. Other constants are not cast to a type that the
cast does not allow: the verifier rejects such a constant as it does the instruction, and it
counts as the instruction here. -/
structure Folder.Lawful (floats : Floats) (space : Space) (folder : Folder) : Prop where
  constants : ∀ {plain made}, folder.fold plain = some made → ∀ operand ∈ plain.operands, operand.isConstant = true
  pure_ : ∀ {operation type operands made}, folder.fold (.op operation type operands) = some made →
    operation.isMemory = false
  refines : ∀ {plain key lanes machine id last}, folder.fold plain = some (key, lanes) → plain.Regular →
    plain.execute floats space machine id = some last →
      ∃ datum, last = machine.define id datum ∧ datum.RefinedBy lanes
  assigned : ∀ {mask type operands made}, folder.fold (.op (.shuffleVector mask) type operands) = some made →
    none ∉ mask
  shuffle : ∀ {mask left right}, left.isConstant = true → right.isConstant = true → left.type.isVector = true →
    right.type.isVector = true → none ∉ mask →
      folder.fold (.op (.shuffleVector mask) (.vector mask.length left.type.scalar) [left, right]) ≠ none
  bitCast : ∀ {value type}, value.isConstant = true → CastOp.accepts .bitCast value.type type = true →
    folder.fold (.op (.cast .bitCast) type [value]) ≠ none
  nullCast : ∀ {kind value type}, kind = .zext ∨ kind = .sext ∨ kind = .bitCast → folder.isNull value = true →
    ∃ key, folder.fold (.op (.cast kind) type [value]) = some (key, List.replicate type.lanes (some 0)) ∧
      folder.isNull (.constant key type (List.replicate type.lanes (some 0))) = true
  onlyNull : ∀ {kind value type made machine datum}, IllTypedCast kind value.type type →
    folder.fold (.op (.cast kind) type [value]) = some made → value.datum space machine = some datum →
      none ∉ datum → folder.isNull value = true
  null : ∀ {value machine}, folder.isNull value = true →
    value.isConstant = true ∧ value.datum space machine = some (List.replicate value.type.lanes (some 0))
  falseNull : ∀ {plain key lanes}, folder.fold plain = some (key, lanes) → plain.isComparison = true →
    (∀ lane ∈ lanes, lane = some 0) → folder.isNull (.constant key plain.type lanes) = true
  toInt : ∀ {sign value type key lanes machine datum},
    folder.fold (.op (.cast (floatToInt sign)) type [value]) = some (key, lanes) →
      value.datum space machine = some datum → none ∉ datum →
        lanes = CastOp.datum floats (floatToInt sign) value.type type datum

/-! ## One request -/

section Requests

variable {folder : Folder} {first : Nat} {folding : Folding} {plain : Plain Operation} {requests : List (Plain Operation)}
  {key id : Nat} {lanes : Datum} {value : Value} {made more : List Made} {type : Ty}

theorem Made.value_type {made : Made} : (made.value type).type = type := by
  cases made <;> rfl

theorem Value.resolve_type : SameTypes (Value.resolve first made) := by
  intro value
  cases value with
  | inst id type =>
      rw [resolve]
      split
      · rfl
      · cases made[id - first]? with
        | none => rfl
        | some made => exact Made.value_type
  | _ => rfl

/-- The value comes from an instruction before this one, if from any. -/
def Value.OlderThan (value : Value) (id : Nat) : Prop := ∀ {old type}, value = .inst old type → old < id

theorem Value.OlderThan.mono {later : Nat} (older : value.OlderThan id) (le : id ≤ later) : value.OlderThan later :=
  fun is => Nat.lt_of_lt_of_le (older is) le

theorem Value.resolve_older (older : value.OlderThan first) : value.resolve first made = value := by
  cases value with
  | inst id type => exact if_pos (older rfl)
  | _ => rfl

/-- Later requests do not change what became of this one. -/
theorem Value.resolve_append (older : value.OlderThan (first + made.length)) :
    value.resolve first (made ++ more) = value.resolve first made := by
  cases value with
  | inst id type =>
      have inside : ¬id < first → id - first < made.length := by
        have := older rfl
        omega
      by_cases old : id < first
      · rw [resolve, resolve, if_pos old, if_pos old]
      · rw [resolve, resolve, if_neg old, if_neg old, List.getElem?_append_left (inside old)]
  | _ => rfl

theorem Value.resolve_last {last : Made} :
    (Value.inst (first + made.length) type).resolve first (made ++ [last]) = last.value type := by
  rw [resolve, if_neg (by omega), Nat.add_sub_cancel_left, List.getElem?_concat_length]
  rfl

namespace Folder

theorem step_folded (is : folder.fold (plain.mapOperands (Value.resolve first folding.made)) = some (key, lanes)) :
    folder.step first folding plain = { folding with made := folding.made ++ [.folded key lanes] } := by
  rw [step, is]

theorem step_kept (is : folder.fold (plain.mapOperands (Value.resolve first folding.made)) = none) :
    folder.step first folding plain = ⟨folding.made ++ [.kept (first + folding.code.length)],
      folding.code ++ [plain.mapOperands (Value.resolve first folding.made)]⟩ := by
  rw [step, is]

theorem step_made_length : (folder.step first folding plain).made.length = folding.made.length + 1 := by
  unfold step
  split <;> simp

theorem step_prefix : folding.code <+: (folder.step first folding plain).code := by
  unfold step
  split
  · exact List.prefix_refl _
  · exact List.prefix_append _ _

theorem run_cons : folder.run first folding (plain :: requests) =
    folder.run first (folder.step first folding plain) requests := rfl

theorem run_append {others : List (Plain Operation)} : folder.run first folding (requests ++ others) =
    folder.run first (folder.run first folding requests) others :=
  List.foldl_append ..

theorem run_prefix : folding.code <+: (folder.run first folding requests).code := by
  induction requests generalizing folding with
  | nil => exact List.prefix_refl _
  | cons plain requests ih => exact step_prefix.trans ih

theorem step_made : ∃ made, (folder.step first folding plain).made = folding.made ++ made := by
  unfold step
  split <;> exact ⟨_, rfl⟩

theorem run_made : ∃ made, (folder.run first folding requests).made = folding.made ++ made := by
  induction requests generalizing folding with
  | nil => exact ⟨[], (List.append_nil _).symm⟩
  | cons plain requests ih =>
      obtain ⟨made, isMade⟩ := @step_made folder first folding plain
      obtain ⟨more, isMore⟩ := @ih (folder.step first folding plain)
      exact ⟨made ++ more, by rw [run_cons, isMore, isMade, List.append_assoc]⟩

theorem run_made_length : (folder.run first folding requests).made.length = folding.made.length + requests.length := by
  induction requests generalizing folding with
  | nil => rfl
  | cons plain requests ih =>
      rw [run_cons, ih, step_made_length, List.length_cons]
      omega

end Folder

/-- Each request in its turn is folded or is an instruction that the verifier accepts. -/
def Folder.Accepts (folder : Folder) (first : Nat) : Folding → List (Plain Operation) → Prop
  | _, [] => True
  | folding, plain :: requests =>
      (folder.fold (plain.mapOperands (Value.resolve first folding.made)) ≠ none ∨ plain.wellTyped = true) ∧
        Folder.Accepts folder first (folder.step first folding plain) requests

theorem Folder.run_wellTyped :
    (∀ plain ∈ (folder.run first folding requests).code, plain.wellTyped = true) ↔
      (∀ plain ∈ folding.code, plain.wellTyped = true) ∧ folder.Accepts first folding requests := by
  induction requests generalizing folding with
  | nil => exact (and_iff_left trivial).symm
  | cons plain requests ih =>
      rw [run_cons, ih, Accepts, ← and_assoc]
      refine and_congr_left fun _ => ?_
      cases is : folder.fold (plain.mapOperands (Value.resolve first folding.made)) with
      | some made => simp [step_folded is]
      | none =>
          rw [step_kept is, List.forall_mem_append, List.forall_mem_singleton,
            Plain.wellTyped_mapOperands Value.resolve_type]
          simp

/-- Requests that are all accepted as instructions are accepted. -/
theorem Folder.accepts_of_wellTyped (typed : ∀ plain ∈ requests, plain.wellTyped = true) :
    folder.Accepts first folding requests := by
  induction requests generalizing folding with
  | nil => trivial
  | cons plain requests ih =>
      exact ⟨.inr (typed plain List.mem_cons_self), ih fun other member => typed other (List.mem_cons_of_mem _ member)⟩

end Requests

/-! ## Execution -/

section Execution

variable {floats : Floats} {space : Space} {folder : Folder} {first : Nat} {folding : Folding}
  {plain : Plain Operation} {requests : List (Plain Operation)} {machine machine' last : Machine}
  {made : Made} {place : Nat}

/-- The requests have been executed in one machine and the instructions that are left of them in
another one. -/
structure Tracks (space : Space) (first : Nat) (folding : Folding) (machine machine' : Machine) : Prop where
  bytes : machine'.bytes = machine.bytes
  arguments : machine'.arguments = machine.arguments
  before : ∀ id < first, machine'.registers id = machine.registers id
  after : ∀ id ≥ first + folding.made.length, machine'.registers id = machine.registers id
  made : ∀ {place made datum}, folding.made[place]? = some made → machine.registers (first + place) = some datum →
    match made with
    | .kept id => id < first + folding.code.length ∧
        ∃ refined, machine'.registers id = some refined ∧ datum.RefinedBy refined
    | .folded _ lanes => datum.RefinedBy lanes
  fewer : folding.code.length ≤ folding.made.length

theorem Tracks.start : Tracks space first .start machine machine where
  bytes := rfl
  arguments := rfl
  before _ _ := rfl
  after _ _ := rfl
  made is := nomatch is
  fewer := Nat.le_refl _

theorem Follows.of_eq {outcome outcome' : Option Datum} (same : outcome' = outcome) :
    Follows Datum.RefinedBy outcome outcome' :=
  .intro fun datum is => ⟨datum, same.trans is, .refl⟩

theorem Tracks.refinedBy (tracks : Tracks space first folding machine machine') :
    RefinedBy space machine machine' (Value.resolve first folding.made) := by
  intro value
  cases value with
  | inst id type =>
      rw [Value.resolve]
      by_cases old : id < first
      · rw [if_pos old]
        exact .of_eq (tracks.before id old)
      · rw [if_neg old]
        cases is : folding.made[id - first]? with
        | none =>
            have outside := List.getElem?_eq_none_iff.mp is
            exact .of_eq (tracks.after id (by omega))
        | some made =>
            refine .intro fun datum stands => ?_
            have here : machine.registers (first + (id - first)) = some datum := by
              rw [Nat.add_sub_cancel' (Nat.le_of_not_lt old)]
              exact stands
            have known := tracks.made is here
            cases made with
            | kept id => exact known.2
            | folded key lanes => exact ⟨lanes, rfl, known⟩
  | arg index type =>
      exact .of_eq (congrArg (fun arguments : List Datum => arguments[index]?) tracks.arguments)
  | _ => exact .of_eq rfl

/-- A value that is defined comes from an instruction that is left, if from any. -/
theorem Tracks.older {value : Value} {datum : Datum} (tracks : Tracks space first folding machine machine')
    (older : value.OlderThan (first + folding.made.length)) (stands : value.datum space machine = some datum) :
    (value.resolve first folding.made).OlderThan (first + folding.code.length) := by
  intro id type is
  cases value with
  | inst old oldType =>
      rw [Value.resolve] at is
      by_cases before : old < first
      · rw [if_pos before] at is
        cases is
        omega
      · rw [if_neg before] at is
        have inside := older rfl
        obtain ⟨made, isMade⟩ : ∃ made, folding.made[old - first]? = some made :=
          ⟨_, List.getElem?_eq_getElem (by omega)⟩
        have here : machine.registers (first + (old - first)) = some datum := by
          rw [Nat.add_sub_cancel' (Nat.le_of_not_lt before)]
          exact stands
        have known := tracks.made isMade here
        rw [isMade] at is
        cases made with
        | kept _ =>
            cases is
            exact known.1
        | folded _ _ => cases is
  | _ => cases is

theorem Plain.Regular.mapOperands {change : Value → Value} (same : SameTypes change) (regular : plain.Regular) :
    (plain.mapOperands change).Regular := by
  rcases regular with typed | ⟨mask, type, left, right, rfl, narrow⟩ | ⟨value, rfl, int⟩
  · exact .inl (by rwa [Plain.wellTyped_mapOperands same])
  · exact .inr (.inl ⟨mask, type, change left, change right, rfl, by rwa [same, same]⟩)
  · exact .inr (.inr ⟨change value, rfl, by rwa [same]⟩)

theorem Folding.made_concat {entry : Made} (is : (folding.made ++ [made])[place]? = some entry) :
    (place < folding.made.length ∧ folding.made[place]? = some entry) ∨
      (place = folding.made.length ∧ entry = made) := by
  rcases Nat.lt_or_ge place folding.made.length with inside | outside
  · rw [List.getElem?_append_left inside] at is
    exact .inl ⟨inside, is⟩
  · rw [List.getElem?_append_right outside] at is
    obtain ⟨here, rfl⟩ := List.getElem?_eq_some_iff.mp is
    rw [List.length_singleton] at here
    exact .inr ⟨by omega, by simp⟩

/-- The register of a request that has been executed holds its result. -/
theorem Tracks.folded {key : Nat} {lanes datum : Datum} (tracks : Tracks space first folding machine machine')
    (refines : datum.RefinedBy lanes) :
    Tracks space first { folding with made := folding.made ++ [.folded key lanes] }
      (machine.define (first + folding.made.length) datum) machine' where
  bytes := tracks.bytes
  arguments := tracks.arguments
  before id old := by
    rw [Machine.define_other _ _ (by omega)]
    exact tracks.before id old
  after id late := by
    rw [List.length_append, List.length_singleton] at late
    rw [Machine.define_other _ _ (by omega)]
    exact tracks.after id (by omega)
  made {place made datum} is here := by
    rcases Folding.made_concat is with ⟨inside, is⟩ | ⟨rfl, rfl⟩
    · rw [Machine.define_other _ _ (by omega)] at here
      exact tracks.made is here
    · rw [Machine.define_same] at here
      cases here
      exact refines
  fewer := by
    rw [List.length_append]
    exact Nat.le_add_right_of_le tracks.fewer

/-- An instruction that is left gives its result to the next register. -/
theorem Tracks.kept {instruction : Plain Operation} {datum refined : Datum}
    (tracks : Tracks space first folding machine machine') (refines : datum.RefinedBy refined) :
    Tracks space first ⟨folding.made ++ [.kept (first + folding.code.length)], folding.code ++ [instruction]⟩
      (machine.define (first + folding.made.length) datum) (machine'.define (first + folding.code.length) refined) where
  bytes := tracks.bytes
  arguments := tracks.arguments
  before id old := by
    rw [Machine.define_other _ _ (by omega), Machine.define_other _ _ (by omega)]
    exact tracks.before id old
  after id late := by
    have fewer := tracks.fewer
    rw [List.length_append, List.length_singleton] at late
    rw [Machine.define_other _ _ (by omega), Machine.define_other _ _ (by omega)]
    exact tracks.after id (by omega)
  made {place made datum} is here := by
    rw [List.length_append, List.length_singleton]
    rcases Folding.made_concat is with ⟨inside, is⟩ | ⟨rfl, rfl⟩
    · rw [Machine.define_other _ _ (by omega)] at here
      have known := tracks.made is here
      cases made with
      | folded key lanes => exact known
      | kept id =>
          obtain ⟨old, refined, stands, refines⟩ := known
          refine ⟨by omega, refined, ?_, refines⟩
          rw [Machine.define_other _ _ (by omega)]
          exact stands
    · rw [Machine.define_same] at here
      cases here
      exact ⟨by omega, refined, Machine.define_same .., refines⟩
  fewer := by
    rw [List.length_append, List.length_append, List.length_singleton, List.length_singleton]
    exact Nat.succ_le_succ tracks.fewer

theorem Machine.define_inj {datum datum' : Datum} {id : Nat} (same : machine.define id datum = machine.define id datum') :
    datum = datum' := by
  have registers := congrArg (fun machine => machine.registers id) same
  simpa only [Machine.define_same, Option.some.injEq] using registers

/-- A result without poison is the constant. -/
theorem Folder.Lawful.exact_ {key id : Nat} {lanes datum : Datum} (lawful : folder.Lawful floats space)
    (is : folder.fold plain = some (key, lanes)) (regular : plain.Regular)
    (executes : plain.execute floats space machine id = some (machine.define id datum))
    (defined : ∀ lane ∈ datum, lane ≠ none) : lanes = datum := by
  obtain ⟨datum', same, refines⟩ := lawful.refines is regular executes
  rw [← Machine.define_inj same] at refines
  exact refines.eq defined

theorem Folder.Lawful.step (lawful : folder.Lawful floats space) (monotone : plain.isMonotone = true)
    (regular : plain.Regular) (tracks : Tracks space first folding machine machine')
    (executes : plain.execute floats space machine (first + folding.made.length) = some last) :
    ∃ more last', (folder.step first folding plain).code = folding.code ++ more ∧
      executeAll floats space machine' (first + folding.code.length) more = some last' ∧
      Tracks space first (folder.step first folding plain) last last' := by
  rw [Plain.execute_monotone monotone] at executes
  obtain ⟨datum, result, rfl⟩ := Option.map_eq_some_iff.mp executes
  obtain ⟨refined, result', refines⟩ :=
    (Plain.result_follows monotone Value.resolve_type tracks.refinedBy).of_some result
  have monotone' : (plain.mapOperands (Value.resolve first folding.made)).isMonotone = true := by
    cases plain <;> exact monotone
  have executes' : ∀ id, (plain.mapOperands (Value.resolve first folding.made)).execute floats space machine' id =
      some (machine'.define id refined) := fun id => by
    rw [Plain.execute_monotone monotone', result']
    rfl
  cases is : folder.fold (plain.mapOperands (Value.resolve first folding.made)) with
  | some made =>
      obtain ⟨key, lanes⟩ := made
      obtain ⟨datum', same, refines'⟩ := lawful.refines is (regular.mapOperands Value.resolve_type) (executes' 0)
      rw [Folder.step_folded is]
      rw [← Machine.define_inj same] at refines'
      exact ⟨[], machine', (List.append_nil _).symm, rfl, tracks.folded (refines.trans refines')⟩
  | none =>
      rw [Folder.step_kept is]
      refine ⟨_, _, rfl, ?_, tracks.kept refines⟩
      rw [executeAll, executes']
      rfl

/-- What is left of the requests gives what they give, or refines it. -/
theorem Folder.Lawful.run (lawful : folder.Lawful floats space)
    (monotone : ∀ plain ∈ requests, plain.isMonotone = true) (regular : ∀ plain ∈ requests, plain.Regular)
    (tracks : Tracks space first folding machine machine')
    (executes : executeAll floats space machine (first + folding.made.length) requests = some last) :
    ∃ more last', (folder.run first folding requests).code = folding.code ++ more ∧
      executeAll floats space machine' (first + folding.code.length) more = some last' ∧
      Tracks space first (folder.run first folding requests) last last' := by
  induction requests generalizing folding machine machine' with
  | nil =>
      cases executes
      exact ⟨[], machine', (List.append_nil _).symm, rfl, tracks⟩
  | cons plain requests ih =>
      rw [executeAll] at executes
      obtain ⟨middle, executesFirst, executesRest⟩ := Option.bind_eq_some_iff.mp executes
      obtain ⟨code, middle', isCode, executes', tracks'⟩ := lawful.step (monotone plain List.mem_cons_self)
        (regular plain List.mem_cons_self) tracks executesFirst
      rw [Nat.add_assoc, ← step_made_length] at executesRest
      obtain ⟨more, last', isMore, executesMore, whole⟩ := ih
        (fun other member => monotone other (List.mem_cons_of_mem _ member))
        (fun other member => regular other (List.mem_cons_of_mem _ member)) tracks' executesRest
      rw [isCode] at isMore executesMore
      refine ⟨code ++ more, last', by rw [run_cons, isMore, List.append_assoc], ?_, whole⟩
      rw [executeAll_append, executes', Option.bind_some, Nat.add_assoc, ← List.length_append]
      exact executesMore

theorem Folder.Lawful.run_start (lawful : folder.Lawful floats space)
    (allowed : ∀ plain ∈ requests, plain.isMonotone = true ∧ plain.Regular)
    (executes : executeAll floats space machine first requests = some last) :
    ∃ last', executeAll floats space machine first (folder.run first .start requests).code = some last' ∧
      Tracks space first (folder.run first .start requests) last last' := by
  have start : Tracks space first .start machine machine := .start
  obtain ⟨more, last', code, executes', tracks⟩ := lawful.run (fun plain member => (allowed plain member).1)
    (fun plain member => (allowed plain member).2) start executes
  exact ⟨last', code ▸ executes', tracks⟩

end Execution

/-! ## An instance -/

section Instance

variable {floats : Floats} {space : Space} {machine machine' : Machine} {plain : Plain Operation} {value : Value}
  {type : Ty} {datum : Datum} {kind : CastOp}

/-- No registers, no arguments and zeros in memory. -/
def Machine.blank : Machine := ⟨[], fun _ => none, fun _ => 0⟩

/-- The requests that are folded here where their operands are constants: accepted ones,
and shuffles whose mask is assigned. -/
def Plain.isFoldable (plain : Plain Operation) : Bool :=
  plain.isMonotone &&
    match plain with
    | .op (.shuffleVector mask) _ _ => !mask.contains none
    | _ => plain.wellTyped

def Value.isNull (space : Space) (value : Value) : Bool :=
  value.isConstant && value.datum space .blank == some (List.replicate value.type.lanes (some 0))

/-- A cast of a null value that keeps its bits. -/
def Plain.castsNull (space : Space) : Plain Operation → Bool
  | .op (.cast kind) _ [value] => (kind == .zext || kind == .sext || kind == .bitCast) && value.isNull space
  | _ => false

/-- Every operation with a result of its type is folded. -/
def Folder.eager (floats : Floats) (space : Space) : Folder where
  fold plain :=
    if plain.castsNull space then some (0, List.replicate plain.type.lanes (some 0))
    else if plain.isFoldable ∧ plain.operands.all Value.isConstant then
      match plain.result floats space .blank with
      | some datum => if datum.length = plain.type.lanes then some (0, datum) else none
      | none => none
    else none
  isNull := Value.isNull space

theorem Value.datum_constant (constant : value.isConstant = true) :
    value.datum space machine = value.datum space machine' := by
  cases value <;> first | rfl | cases constant

theorem Value.isNull_iff : value.isNull space = true ↔
    value.isConstant = true ∧ value.datum space .blank = some (List.replicate value.type.lanes (some 0)) := by
  rw [isNull, Bool.and_eq_true, beq_iff_eq]

theorem Datum.ofBits_zero : Datum.ofBits type 0 = List.replicate type.lanes (some 0) := by
  refine List.eq_replicate_iff.mpr ⟨by rw [ofBits, List.length_map, unpack_length], fun lane member => ?_⟩
  obtain ⟨bits, inside, rfl⟩ := List.mem_map.mp member
  rw [unpack_eq_map] at inside
  obtain ⟨index, _, rfl⟩ := List.mem_map.mp inside
  simp

/-- A cast that is accepted takes zeros to zeros, and so does every bitcast. -/
theorem CastOp.datum_null {source target : Ty} (keeps : kind = .zext ∨ kind = .sext ∨ kind = .bitCast)
    (accepts : kind ≠ .bitCast → kind.accepts source target = true) :
    kind.datum floats source target (List.replicate source.lanes (some 0)) =
      List.replicate target.lanes (some 0) := by
  have same : kind = .zext ∨ kind = .sext → source.lanes = target.lanes := by
    rintro (rfl | rfl) <;> simp [CastOp.accepts, Ty.sameShape] at accepts <;> exact accepts.1.1.1.2
  rcases keeps with rfl | rfl | rfl
  · simp [CastOp.datum, CastOp.lane, same (.inl rfl)]
  · simp [CastOp.datum, CastOp.lane, same (.inr rfl), BitVec.signExtend]
  · have bits : Datum.bits? source (Datum.ofBits source 0) = some 0 := Datum.bits?_ofBits (Nat.two_pow_pos _)
    rw [← Datum.ofBits_zero, ← Datum.ofBits_zero, CastOp.datum, bits]

theorem Value.mapM_constant {operands : List Value} (constant : ∀ operand ∈ operands, operand.isConstant = true) :
    operands.mapM (Value.datum space machine) = operands.mapM (Value.datum space machine') := by
  induction operands with
  | nil => rfl
  | cons value operands ih =>
      rw [List.mapM_cons, List.mapM_cons, Value.datum_constant (constant value List.mem_cons_self),
        ih fun operand member => constant operand (List.mem_cons_of_mem _ member)]

/-- Constants that are no addresses stand for lanes. -/
theorem Value.datum_some (constant : value.isConstant = true) (apart : value.type ≠ .ptr) :
    ∃ datum, value.datum space .blank = some datum := by
  cases value with
  | inst | arg => cases constant
  | global => exact absurd rfl apart
  | _ => exact ⟨_, rfl⟩

theorem Plain.result_constant (constant : ∀ operand ∈ plain.operands, operand.isConstant = true) :
    plain.result floats space machine = plain.result floats space machine' := by
  cases plain with
  | icmp predicate left right =>
      have same : ∀ operand ∈ [left, right], operand.datum space machine = operand.datum space machine' :=
        fun operand member => Value.datum_constant (constant operand member)
      rw [result, result, same left (by simp), same right (by simp)]
  | op operation type operands =>
      have same : operands.mapM (Value.datum space machine) = operands.mapM (Value.datum space machine') :=
        Value.mapM_constant constant
      rw [result, result, same]
  | _ => rfl

/-- What a folded request tells. -/
theorem Folder.eager_some {key : Nat} {lanes : Datum} (is : (Folder.eager floats space).fold plain = some (key, lanes)) :
    (plain.castsNull space = true ∧ lanes = List.replicate plain.type.lanes (some 0)) ∨
      (plain.castsNull space = false ∧ plain.isFoldable = true ∧
        (∀ operand ∈ plain.operands, operand.isConstant = true) ∧ lanes.length = plain.type.lanes ∧
        ∀ machine, plain.result floats space machine = some lanes) := by
  cases null : plain.castsNull space with
  | true =>
      simp only [eager, null, if_true, Option.some.injEq, Prod.mk.injEq] at is
      exact .inl ⟨rfl, is.2.symm⟩
  | false =>
      simp only [eager, null, Bool.false_eq_true, if_false] at is
      split at is
      · rename_i foldable
        have constant := List.all_eq_true.mp foldable.2
        split at is
        · rename_i datum result
          split at is
          · rename_i length
            cases is
            exact .inr ⟨rfl, foldable.1, constant, length, fun machine =>
              (Plain.result_constant constant).trans result⟩
          · cases is
        · cases is
      · cases is

theorem Plain.castsNull_iff : plain.castsNull space = true ↔
    ∃ kind type value, plain = .op (.cast kind) type [value] ∧ (kind = .zext ∨ kind = .sext ∨ kind = .bitCast) ∧
      value.isNull space = true := by
  constructor
  · intro null
    unfold castsNull at null
    split at null
    · rename_i kind type value
      rw [Bool.and_eq_true, Bool.or_eq_true, Bool.or_eq_true, beq_iff_eq, beq_iff_eq, beq_iff_eq, or_assoc] at null
      exact ⟨kind, type, value, rfl, null.1, null.2⟩
    · cases null
  · rintro ⟨kind, type, value, rfl, keeps, null⟩
    rw [castsNull, null]
    rcases keeps with rfl | rfl | rfl <;> rfl

theorem Folder.eager_fold {datum : Datum} (apart : plain.castsNull space = false) (foldable : plain.isFoldable = true)
    (constant : ∀ operand ∈ plain.operands, operand.isConstant = true) (length : datum.length = plain.type.lanes)
    (result : plain.result floats space .blank = some datum) :
    (Folder.eager floats space).fold plain = some (0, datum) := by
  have all := List.all_eq_true.mpr constant
  simp only [eager, apart, foldable, all, result, length, Bool.false_eq_true, if_false, and_self, if_true]

/-- The instance keeps to what is known of LLVM's. -/
theorem Folder.eager_lawful : (Folder.eager floats space).Lawful floats space where
  constants {plain made} is := by
    rcases eager_some is with ⟨null, _⟩ | ⟨_, _, constant, _⟩
    · obtain ⟨kind, type, value, rfl, _, null⟩ := Plain.castsNull_iff.mp null
      intro operand member
      rw [List.mem_singleton.mp member]
      exact (Value.isNull_iff.mp null).1
    · exact constant
  pure_ {operation type operands made} is := by
    obtain ⟨key, lanes⟩ := made
    rcases eager_some is with ⟨null, _⟩ | ⟨_, foldable, _⟩
    · obtain ⟨_, _, _, same, _⟩ := Plain.castsNull_iff.mp null
      cases same
      rfl
    · have monotone := (Bool.and_eq_true_iff.mp foldable).1
      cases operation <;> first | rfl | cases monotone
  refines {plain key lanes machine id last} is regular executes := by
    rcases eager_some is with ⟨null, rfl⟩ | ⟨_, foldable, _, _, result⟩
    · obtain ⟨kind, type, value, rfl, keeps, null⟩ := Plain.castsNull_iff.mp null
      obtain ⟨constant, zeros⟩ := Value.isNull_iff.mp null
      have accepts : kind ≠ .bitCast → kind.accepts value.type type = true := by
        intro other
        rcases regular with typed | ⟨_, _, _, _, same, _⟩ | ⟨_, same, _⟩
        · exact typed
        · cases same
        · cases same
          exact absurd rfl other
      have monotone : Plain.isMonotone (.op (.cast kind) type [value]) = true := rfl
      rw [Plain.execute_monotone monotone, Plain.result, List.mapM_cons, Value.datum_constant constant, zeros] at executes
      cases executes
      refine ⟨_, rfl, ?_⟩
      rw [CastOp.datum_null keeps accepts]
      exact .refl
    · rw [Plain.execute_monotone (Bool.and_eq_true_iff.mp foldable).1, result] at executes
      cases executes
      exact ⟨lanes, rfl, .refl⟩
  assigned {mask type operands made} is := by
    obtain ⟨key, lanes⟩ := made
    rcases eager_some is with ⟨null, _⟩ | ⟨_, foldable, _⟩
    · obtain ⟨_, _, _, same, _⟩ := Plain.castsNull_iff.mp null
      cases same
    · simpa [Plain.isFoldable, Plain.isMonotone, Operation.isMonotone] using foldable
  shuffle {mask left right} constantLeft constantRight vectorLeft vectorRight assigned := by
    have apart : ∀ {value : Value}, value.type.isVector = true → value.type ≠ .ptr := by
      intro value vector is
      rw [is] at vector
      cases vector
    obtain ⟨x, isX⟩ : ∃ x, left.datum space .blank = some x := Value.datum_some constantLeft (apart vectorLeft)
    obtain ⟨y, isY⟩ : ∃ y, right.datum space .blank = some y := Value.datum_some constantRight (apart vectorRight)
    have folded : (eager floats space).fold (.op (.shuffleVector mask) (.vector mask.length left.type.scalar)
        [left, right]) = some (0, mask.map fun entry => entry.bind fun index => (x ++ y)[index]?.join) := by
      apply eager_fold
      · rfl
      · simpa [Plain.isFoldable, Plain.isMonotone, Operation.isMonotone] using assigned
      · intro operand member
        rcases List.mem_pair.mp member with rfl | rfl
        · exact constantLeft
        · exact constantRight
      · exact List.length_map _
      · simp [Plain.result, isX, isY, Operation.eval_shuffleVector]
    rw [folded]
    exact Option.some_ne_none _
  bitCast {value type} constant accepts := by
    cases null : value.isNull space with
    | true =>
        have casts : Plain.castsNull space (.op (.cast .bitCast) type [value]) = true :=
          Plain.castsNull_iff.mpr ⟨_, type, value, rfl, .inr (.inr rfl), null⟩
        simp [eager, casts]
    | false =>
        have apart : value.type ≠ .ptr := by
          intro is
          simp [CastOp.accepts, is, Ty.scalar, Ty.isInt, Ty.isFloat] at accepts
        obtain ⟨x, isX⟩ : ∃ x, value.datum space .blank = some x := Value.datum_some constant apart
        have folded : (eager floats space).fold (.op (.cast .bitCast) type [value]) =
            some (0, CastOp.datum floats .bitCast value.type type x) := by
          apply eager_fold
          · simp [Plain.castsNull, null]
          · exact accepts
          · intro operand member
            rwa [List.mem_singleton.mp member]
          · exact CastOp.bitCast_length
          · simp [Plain.result, isX, Operation.eval_cast]
        rw [folded]
        exact Option.some_ne_none _
  nullCast {kind value type} keeps null := by
    have casts : Plain.castsNull space (.op (.cast kind) type [value]) = true :=
      Plain.castsNull_iff.mpr ⟨kind, type, value, rfl, keeps, null⟩
    refine ⟨0, by simp [eager, casts, Plain.type], ?_⟩
    show Value.isNull space (.constant 0 type (List.replicate type.lanes (some 0))) = true
    exact Value.isNull_iff.mpr ⟨rfl, rfl⟩
  onlyNull {kind value type made machine datum} illTyped is stands defined := by
    obtain ⟨key, lanes⟩ := made
    rcases eager_some is with ⟨null, _⟩ | ⟨_, foldable, _⟩
    · obtain ⟨_, _, _, same, _, null⟩ := Plain.castsNull_iff.mp null
      cases same
      exact null
    · have accepts : kind.accepts value.type type = true := foldable
      rcases illTyped with ⟨rfl, vector, scalar⟩ | ⟨rfl, int, rfl⟩
      · simp [CastOp.accepts, Ty.sameShape, vector, scalar] at accepts
      · simp [CastOp.accepts, Ty.scalar, Ty.isInt, Ty.isFloat] at accepts
  null {value machine} null := by
    obtain ⟨constant, zeros⟩ := Value.isNull_iff.mp null
    exact ⟨constant, (Value.datum_constant constant).trans zeros⟩
  falseNull {plain key lanes} is comparison zeros := by
    show Value.isNull space (.constant key plain.type lanes) = true
    refine Value.isNull_iff.mpr ⟨rfl, ?_⟩
    rcases eager_some is with ⟨_, rfl⟩ | ⟨_, _, _, length, _⟩
    · rfl
    · exact congrArg some (List.eq_replicate_iff.mpr ⟨length, zeros⟩)
  toInt {sign value type key lanes machine datum} is stands defined := by
    rcases eager_some is with ⟨null, _⟩ | ⟨_, _, _, _, result⟩
    · obtain ⟨_, _, _, same, keeps, _⟩ := Plain.castsNull_iff.mp null
      cases same
      cases sign <;> simp [floatToInt] at keeps
    · have known := result machine
      rw [Plain.result, List.mapM_cons, stands] at known
      exact (Option.some.inj known).symm

end Instance

end WasmToLlvm.Llvm

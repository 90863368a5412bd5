import Mathlib.Data.List.Forall2
import WasmToLlvm.Llvm.Evaluation

/-!
# Refinement of values

A value refines another one that has poison where the first one may have anything. Operations
on values that are refined have refined results; divisions, which poison may make undefined,
are left out.
-/

set_option autoImplicit false

namespace WasmToLlvm.Llvm

open Library

/-- A lane stays as it is, and poison becomes anything. -/
def Lane.RefinedBy (lane refined : Lane) : Prop := ∀ bits, lane = some bits → refined = some bits

def Datum.RefinedBy : Datum → Datum → Prop := List.Forall₂ Lane.RefinedBy

/-- The results of an operation and of the same operation on refined operands. -/
def Follows {α : Type} (related : α → α → Prop) : Option α → Option α → Prop
  | none, _ => True
  | some result, other => ∃ refined, other = some refined ∧ related result refined

theorem Follows.intro {α : Type} {related : α → α → Prop} {first other : Option α}
    (each : ∀ result, first = some result → ∃ refined, other = some refined ∧ related result refined) :
    Follows related first other := by
  cases first with
  | none => trivial
  | some result => exact each result rfl

section Lanes

variable {lane lane' refined refined' : Lane} {bits : Nat} {datum datum' x x' y y' z z' : Datum}

theorem Lane.RefinedBy.refl : lane.RefinedBy lane := fun _ is => is

theorem Lane.RefinedBy.poison : Lane.RefinedBy none lane := fun _ is => by cases is

theorem Lane.RefinedBy.eq_some (is : Lane.RefinedBy (some bits) lane) : lane = some bits := is bits rfl

theorem Lane.RefinedBy.map (is : lane.RefinedBy lane') (operation : Nat → Nat) :
    Lane.RefinedBy (lane.map operation) (lane'.map operation) := by
  cases lane with
  | none => exact .poison
  | some bits => rw [is.eq_some]; exact .refl

theorem Lane.RefinedBy.bind (is : lane.RefinedBy lane') (operation : Nat → Lane) :
    Lane.RefinedBy (lane.bind operation) (lane'.bind operation) := by
  cases lane with
  | none => exact .poison
  | some bits => rw [is.eq_some]; exact .refl

theorem Datum.RefinedBy.refl : datum.RefinedBy datum :=
  List.forall₂_same.mpr fun _ _ => .refl

theorem Datum.RefinedBy.trans {x y z : Datum} (first : x.RefinedBy y) (second : y.RefinedBy z) : x.RefinedBy z := by
  induction first generalizing z with
  | nil => exact second
  | cons lane _ ih =>
      cases second with
      | cons lane' rest => exact .cons (fun bits is => lane' bits (lane bits is)) (ih rest)

theorem Datum.RefinedBy.length (is : x.RefinedBy x') : x.length = x'.length := is.length_eq

theorem Datum.ofBits_defined {type : Ty} : ∀ lane ∈ Datum.ofBits type bits, lane ≠ none := by
  intro lane member
  obtain ⟨value, _, rfl⟩ := List.mem_map.mp member
  exact Option.some_ne_none _

/-- A value without poison is refined by itself alone. -/
theorem Datum.RefinedBy.eq {datum' : Datum} (is : datum.RefinedBy datum') (defined : ∀ lane ∈ datum, lane ≠ none) :
    datum' = datum := by
  induction is with
  | nil => rfl
  | @cons lane lane' lanes lanes' first rest ih =>
      obtain ⟨bits, rfl⟩ := Option.ne_none_iff_exists'.mp (defined lane List.mem_cons_self)
      rw [first.eq_some, ih fun other member => defined other (List.mem_cons_of_mem _ member)]

theorem Datum.RefinedBy.single (is : Datum.RefinedBy [some bits] datum) : datum = [some bits] :=
  is.eq fun lane member => by rw [List.mem_singleton.mp member]; exact Option.some_ne_none _

theorem Datum.RefinedBy.map {operation operation' : Lane → Lane} (is : x.RefinedBy x')
    (each : ∀ {lane lane' : Lane}, lane.RefinedBy lane' → (operation lane).RefinedBy (operation' lane')) :
    Datum.RefinedBy (x.map operation) (x'.map operation') := by
  induction is with
  | nil => exact .nil
  | cons first _ ih => exact .cons (each first) ih

theorem Datum.RefinedBy.getElem (is : x.RefinedBy x') (index : Nat) :
    Lane.RefinedBy (x[index]?.join) (x'[index]?.join) := by
  induction is generalizing index with
  | nil => exact .refl
  | cons first _ ih =>
      cases index with
      | zero => exact first
      | succ index => exact ih index

theorem Datum.RefinedBy.append (first : x.RefinedBy x') (second : y.RefinedBy y') : Datum.RefinedBy (x ++ y) (x' ++ y') := by
  induction first with
  | nil => exact second
  | cons lane _ ih => exact .cons lane ih

theorem Datum.RefinedBy.set (is : x.RefinedBy x') (element : lane.RefinedBy lane') (index : Nat) :
    Datum.RefinedBy (x.set index lane) (x'.set index lane') := by
  induction is generalizing index with
  | nil => exact .nil
  | cons first rest ih =>
      cases index with
      | zero => exact .cons element rest
      | succ index => exact .cons first (ih index)

theorem Datum.RefinedBy.poison {count : Nat} (length : count = datum.length) :
    Datum.RefinedBy (List.replicate count none) datum := by
  subst length
  induction datum with
  | nil => exact .nil
  | cons _ _ ih => exact .cons .poison ih

/-- Without a poison lane. -/
theorem Datum.RefinedBy.whole (is : x.RefinedBy x') {type : Ty} (isBits : x.bits? type = some bits) : x' = x := by
  refine is.eq fun lane member poison => ?_
  obtain ⟨lanes, all, _⟩ := Option.map_eq_some_iff.mp isBits
  obtain ⟨place, inside⟩ := List.mem_iff_getElem?.mp member
  subst poison
  have each : ∀ (datum : Datum) (lanes : List Nat), datum.mapM id = some lanes → none ∉ datum := by
    intro datum
    induction datum with
    | nil => exact fun _ _ absent => nomatch absent
    | cons first rest ih =>
        intro lanes all
        rw [List.mapM_cons] at all
        obtain ⟨value, isFirst, all⟩ := Option.bind_eq_some_iff.mp all
        obtain ⟨values, isRest, _⟩ := Option.bind_eq_some_iff.mp all
        intro absent
        rcases List.mem_cons.mp absent with same | absent
        · rw [← same] at isFirst; cases isFirst
        · exact ih values isRest absent
  exact each x lanes all member

end Lanes

/-! ## Lane by lane -/

section Lanewise

variable {combine : Lane → Lane → Option Lane} {x x' y y' : Datum}

/-- Refined lanes combine to refined ones. -/
def Lane.Monotone (combine : Lane → Lane → Option Lane) : Prop :=
  ∀ ⦃lane lane' other other' : Lane⦄, lane.RefinedBy lane' → other.RefinedBy other' →
    Follows Lane.RefinedBy (combine lane other) (combine lane' other')

theorem Lane.lift_monotone {operation : Nat → Nat → Option Lane} (total : ∀ x y, operation x y ≠ none) :
    Lane.Monotone (Lane.lift operation) := by
  intro lane lane' other other' first second
  have poison : ∀ lane other : Lane, Follows Lane.RefinedBy (some none) (Lane.lift operation lane other) := by
    intro lane other
    cases lane with
    | none => exact ⟨none, rfl, .refl⟩
    | some bits =>
        cases other with
        | none => exact ⟨none, rfl, .refl⟩
        | some bits' =>
            obtain ⟨result, is⟩ := Option.ne_none_iff_exists'.mp (total bits bits')
            exact ⟨result, is, .poison⟩
  cases lane with
  | none => exact poison _ _
  | some bits =>
      cases other with
      | none => exact poison _ _
      | some bits' =>
          rw [first.eq_some, second.eq_some]
          obtain ⟨result, is⟩ := Option.ne_none_iff_exists'.mp (total bits bits')
          rw [Lane.lift_some, is]
          exact ⟨result, rfl, .refl⟩

theorem Datum.zip_follows (each : Lane.Monotone combine) (first : x.RefinedBy x') (second : y.RefinedBy y') :
    Follows Datum.RefinedBy (Datum.zip combine x y) (Datum.zip combine x' y') := by
  induction first generalizing y y' with
  | nil =>
      cases second with
      | nil => exact ⟨[], rfl, .nil⟩
      | cons _ _ => trivial
  | @cons lane lane' _ _ head tail ih =>
      cases second with
      | nil => trivial
      | @cons other other' _ _ head' tail' =>
          have one := each head head'
          have rest := ih tail'
          rw [Datum.zip, Datum.zip]
          cases combined : combine lane other with
          | none => trivial
          | some result =>
              rw [combined] at one
              obtain ⟨refined, is, refines⟩ := one
              rw [is, Option.bind_some, Option.bind_some]
              cases zipped : Datum.zip combine _ _ with
              | none => trivial
              | some results =>
                  rw [zipped] at rest
                  obtain ⟨more, isMore, refinesMore⟩ := rest
                  rw [isMore]
                  exact ⟨refined :: more, rfl, .cons refines refinesMore⟩

end Lanewise

/-! ## Operations -/

section Operations

variable {floats : Floats} {types : List Ty} {result : Ty} {data data' : List Datum}

theorem BinaryOperator.lane_monotone {operator : BinaryOperator} {type : Ty} (safe : operator.isDivision = false) :
    Lane.Monotone (operator.lane floats type) := by
  intro lane lane' other other' first second
  unfold BinaryOperator.lane
  split
  · exact Lane.lift_monotone (fun _ _ => Option.some_ne_none _) first second
  · rename_i integer
    rw [if_neg fun both => by simp [safe] at both, if_neg fun both => by simp [safe] at both]
    refine Lane.lift_monotone (fun x y => ?_) first second
    cases operator <;> first | exact Option.some_ne_none _ | exact absurd rfl integer | cases safe

theorem CastOp.datum_bitCast {source target : Ty} {datum : Datum} : CastOp.datum floats .bitCast source target datum =
    (datum.bits? source).elim (Datum.poison target) (Datum.ofBits target) := by
  unfold CastOp.datum
  cases datum.bits? source <;> rfl

theorem CastOp.bitCast_length {source target : Ty} {datum : Datum} :
    (CastOp.datum floats .bitCast source target datum).length = target.lanes := by
  rw [datum_bitCast]
  cases datum.bits? source with
  | some bits => exact (List.length_map _).trans unpack_length
  | none => exact List.length_replicate

theorem CastOp.datum_refines {kind : CastOp} {source target : Ty} {x x' : Datum} (is : x.RefinedBy x') :
    Datum.RefinedBy (kind.datum floats source target x) (kind.datum floats source target x') := by
  by_cases regroups : kind = .bitCast
  · subst regroups
    cases isBits : x.bits? source with
    | some bits => rw [is.whole isBits]; exact .refl
    | none =>
        have poison : CastOp.datum floats .bitCast source target x = Datum.poison target := by
          rw [datum_bitCast, isBits]
          rfl
        rw [poison]
        exact .poison bitCast_length.symm
  · have each : ∀ datum, kind.datum floats source target datum =
        datum.map fun lane => lane.bind (kind.lane floats source.laneBits target.laneBits) := by
      intro datum
      cases kind <;> first | rfl | exact absurd rfl regroups
    rw [each, each]
    exact is.map fun refined => refined.bind _

/-- An operation that is undefined or has a result on refined operands as well. -/
def Operation.isMonotone : Operation → Bool
  | .binary operator => !operator.isDivision
  | .fneg | .fcmp _ | .cast _ | .extractElement | .insertElement | .shuffleVector _ => true
  | _ => false

theorem Operation.eval_extractElement_some {datum : Datum}
    (is : Operation.eval floats .extractElement types result data = some datum) :
    ∃ x index, data = [x, [some index]] ∧ datum = [x[index]?.join] := by
  unfold eval at is
  split at is <;> first | contradiction | cases is
  exact ⟨_, _, rfl, rfl⟩

theorem Operation.eval_insertElement_some {datum : Datum}
    (is : Operation.eval floats .insertElement types result data = some datum) :
    ∃ x element index, data = [x, [element], [some index]] ∧
      datum = if index < x.length then x.set index element else Datum.poison result := by
  unfold eval at is
  split at is <;> first | contradiction | cases is
  exact ⟨_, _, _, rfl, rfl⟩

theorem Operation.eval_follows {operation : Operation} (monotone : operation.isMonotone = true)
    (each : List.Forall₂ Datum.RefinedBy data data') :
    Follows Datum.RefinedBy (operation.eval floats types result data) (operation.eval floats types result data') := by
  cases operation with
  | binary operator =>
      have safe : operator.isDivision = false := by simpa [isMonotone] using monotone
      rcases types with _ | ⟨type, _ | ⟨type', _ | _⟩⟩ <;> rcases each with _ | ⟨isX, _ | ⟨isY, _ | _⟩⟩ <;>
        first
          | trivial
          | exact Datum.zip_follows (BinaryOperator.lane_monotone safe) isX isY
  | fcmp predicate =>
      rcases types with _ | ⟨type, _ | ⟨type', _ | _⟩⟩ <;> rcases each with _ | ⟨isX, _ | ⟨isY, _ | _⟩⟩ <;>
        first
          | trivial
          | exact Datum.zip_follows (Lane.lift_monotone fun _ _ => Option.some_ne_none _) isX isY
  | fneg =>
      rcases types with _ | ⟨type, _ | _⟩ <;> rcases each with _ | ⟨isX, _ | _⟩ <;>
        first
          | trivial
          | exact ⟨_, rfl, isX.map fun refined => refined.map _⟩
  | cast kind =>
      rcases types with _ | ⟨type, _ | _⟩ <;> rcases each with _ | ⟨isX, _ | _⟩ <;>
        first
          | trivial
          | exact ⟨_, rfl, CastOp.datum_refines isX⟩
  | shuffleVector mask =>
      rcases each with _ | ⟨isX, _ | ⟨isY, _ | _⟩⟩ <;> first | trivial | skip
      refine ⟨_, rfl, List.forall₂_map_left_iff.mpr (List.forall₂_map_right_iff.mpr ?_)⟩
      refine List.forall₂_same.mpr fun entry _ => ?_
      cases entry with
      | none => exact .refl
      | some index => exact (isX.append isY).getElem index
  | extractElement =>
      refine .intro fun datum is => ?_
      obtain ⟨x, index, rfl, rfl⟩ := eval_extractElement_some is
      rcases each with _ | ⟨isX, _ | ⟨isIndex, _ | _⟩⟩
      rw [isIndex.single]
      exact ⟨_, rfl, .cons (isX.getElem index) .nil⟩
  | insertElement =>
      refine .intro fun datum is => ?_
      obtain ⟨x, element, index, rfl, rfl⟩ := eval_insertElement_some is
      rcases each with _ | ⟨isX, _ | ⟨_ | ⟨isElement, _ | _⟩, _ | ⟨isIndex, _ | _⟩⟩⟩
      rw [isIndex.single]
      refine ⟨_, rfl, ?_⟩
      rw [isX.length]
      split
      · exact isX.set isElement index
      · exact .refl
  | _ => cases monotone

end Operations

/-! ## Instructions -/

/-- An instruction with other operands. -/
def Plain.mapOperands {Op : Type} (change : Value → Value) : Plain Op → Plain Op
  | .alloca type => .alloca type
  | .load type address => .load type (change address)
  | .store value address => .store (change value) (change address)
  | .icmp predicate left right => .icmp predicate (change left) (change right)
  | .select condition ifTrue ifFalse => .select (change condition) (change ifTrue) (change ifFalse)
  | .op operation type operands => .op operation type (operands.map change)

def Plain.isMonotone : Plain Operation → Bool
  | .icmp _ _ _ => true
  | .op operation _ _ => operation.isMonotone
  | _ => false

section Instructions

variable {floats : Floats} {space : Space} {machine machine' : Machine} {id : Nat} {plain : Plain Operation}
  {change : Value → Value} {datum : Datum}

@[simp] theorem Plain.operands_mapOperands : (plain.mapOperands change).operands = plain.operands.map change := by
  cases plain <;> rfl

/-- Operands of the same types. -/
def SameTypes (change : Value → Value) : Prop := ∀ value, (change value).type = value.type

theorem SameTypes.map (same : SameTypes change) (operands : List Value) :
    (operands.map change).map Value.type = operands.map Value.type := by
  rw [List.map_map]
  exact List.map_congr_left fun value _ => same value

theorem Plain.wellTyped_mapOperands (same : SameTypes change) :
    (plain.mapOperands change).wellTyped = plain.wellTyped := by
  cases plain with
  | op operation type operands =>
      rw [mapOperands, wellTyped, wellTyped, same.map]
  | _ => simp only [mapOperands, wellTyped, same _]

/-- The result of an instruction that does not use memory. -/
def Plain.result (floats : Floats) (space : Space) (machine : Machine) : Plain Operation → Option Datum
  | .icmp predicate left right =>
      (left.datum space machine).bind fun x => (right.datum space machine).bind fun y =>
        x.zip (Lane.lift fun x y => some (some (bit (predicate.holds left.type.laneBits x y)))) y
  | .op operation type operands =>
      (operands.mapM (Value.datum space machine)).bind fun data =>
        operation.eval floats (operands.map Value.type) type data
  | _ => none

theorem Plain.execute_monotone (monotone : plain.isMonotone = true) :
    plain.execute floats space machine id = (plain.result floats space machine).map (machine.define id) := by
  cases plain with
  | icmp predicate left right =>
      rw [execute, result, Option.map_bind]
      refine Option.bind_congr fun x _ => ?_
      exact Option.map_bind.symm
  | op operation type operands =>
      have pure_ : operation.isMemory = false := by
        cases operation <;> first | rfl | cases monotone
      rw [execute_op pure_, result, Option.map_bind]
      rfl
  | _ => cases monotone

/-- The values have results that the changed values refine. -/
def RefinedBy (space : Space) (machine machine' : Machine) (change : Value → Value) : Prop :=
  ∀ value, Follows Datum.RefinedBy (value.datum space machine) ((change value).datum space machine')

theorem Follows.of_some {α : Type} {related : α → α → Prop} {first other : Option α} {result : α}
    (agrees : Follows related first other) (is : first = some result) :
    ∃ refined, other = some refined ∧ related result refined := by
  subst is
  exact agrees

theorem RefinedBy.mapM (refined : RefinedBy space machine machine' change) (operands : List Value) :
    Follows (List.Forall₂ Datum.RefinedBy) (operands.mapM (Value.datum space machine))
      ((operands.map change).mapM (Value.datum space machine')) := by
  induction operands with
  | nil => exact ⟨[], rfl, .nil⟩
  | cons value operands ih =>
      refine .intro fun data is => ?_
      rw [List.mapM_cons] at is
      obtain ⟨datum, isFirst, is⟩ := Option.bind_eq_some_iff.mp is
      obtain ⟨more, isRest, is⟩ := Option.bind_eq_some_iff.mp is
      cases is
      obtain ⟨datum', isFirst', first⟩ := (refined value).of_some isFirst
      obtain ⟨more', isRest', rest⟩ := ih.of_some isRest
      refine ⟨datum' :: more', ?_, .cons first rest⟩
      rw [List.map_cons, List.mapM_cons, isFirst', isRest']
      rfl

theorem Plain.result_follows (monotone : plain.isMonotone = true) (same : SameTypes change)
    (refined : RefinedBy space machine machine' change) :
    Follows Datum.RefinedBy (plain.result floats space machine)
      ((plain.mapOperands change).result floats space machine') := by
  refine .intro fun datum is => ?_
  cases plain with
  | icmp predicate left right =>
      obtain ⟨x, isLeft, is⟩ := Option.bind_eq_some_iff.mp is
      obtain ⟨y, isRight, is⟩ := Option.bind_eq_some_iff.mp is
      obtain ⟨x', isLeft', refinesX⟩ := (refined left).of_some isLeft
      obtain ⟨y', isRight', refinesY⟩ := (refined right).of_some isRight
      rw [mapOperands, result, isLeft', isRight', Option.bind_some, Option.bind_some, same left]
      exact (Datum.zip_follows (Lane.lift_monotone fun _ _ => Option.some_ne_none _) refinesX refinesY).of_some is
  | op operation type operands =>
      obtain ⟨data, isData, is⟩ := Option.bind_eq_some_iff.mp is
      obtain ⟨data', isData', refines⟩ := (refined.mapM operands).of_some isData
      rw [mapOperands, result, isData', Option.bind_some, same.map]
      exact (Operation.eval_follows monotone refines).of_some is
  | _ => cases monotone

end Instructions

end WasmToLlvm.Llvm

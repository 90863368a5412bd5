import WasmToLlvm.Instruction.Vector

/-!
# Vectors by their lanes

Operations on vectors whose lanes are given by a function of their place.
-/

set_option autoImplicit false

namespace WasmToLlvm.Llvm

open Library

/-- The lane of a bit pattern. -/
def laneAt (width bits index : Nat) : Nat := bits / 2 ^ (width * index) % 2 ^ width

theorem laneAt_lt {width bits index : Nat} : laneAt width bits index < 2 ^ width :=
  Nat.mod_lt _ (Nat.two_pow_pos width)

/-- A value with a lane for each place. -/
def Datum.ofLanes (count : Nat) (lane : Nat → Nat) : Datum :=
  (List.range count).map fun index => some (lane index)

theorem Datum.ofLanes_length {count : Nat} {lane : Nat → Nat} : (Datum.ofLanes count lane).length = count := by
  rw [Datum.ofLanes, List.length_map, List.length_range]

theorem Datum.ofLanes_defined {count : Nat} {lane : Nat → Nat} : ∀ bits ∈ Datum.ofLanes count lane, bits ≠ none := by
  intro bits member
  obtain ⟨index, _, rfl⟩ := List.mem_map.mp member
  exact Option.some_ne_none _

theorem CastOp.datum_ofLanes {floats : Floats} {kind : CastOp} {type type' : Ty} {count : Nat} {lane : Nat → Nat}
    (lanewise : kind ≠ .bitCast) : kind.datum floats type type' (Datum.ofLanes count lane) =
      (List.range count).map fun index => kind.lane floats type.laneBits type'.laneBits (lane index) := by
  have apart : kind.datum floats type type' (Datum.ofLanes count lane) =
      (Datum.ofLanes count lane).map fun lane => lane.bind (kind.lane floats type.laneBits type'.laneBits) := by
    cases kind <;> first | rfl | exact absurd rfl lanewise
  rw [apart, Datum.ofLanes, List.map_map]
  rfl

theorem Datum.ofLanes_congr {count : Nat} {lane lane' : Nat → Nat}
    (same : ∀ index < count, lane index = lane' index) : Datum.ofLanes count lane = Datum.ofLanes count lane' := by
  refine List.map_congr_left fun index member => ?_
  rw [same index (List.mem_range.mp member)]

theorem Datum.ofLanes_getElem? {count index : Nat} {lane : Nat → Nat} (inside : index < count) :
    (Datum.ofLanes count lane)[index]? = some (some (lane index)) := by
  rw [Datum.ofLanes, List.getElem?_map, List.getElem?_range inside, Option.map_some]

theorem Datum.ofBits_ofLanes {type : Ty} {bits : Nat} :
    Datum.ofBits type bits = Datum.ofLanes type.lanes (laneAt type.laneBits bits) := by
  rw [Datum.ofBits, unpack_eq_map, List.map_map]
  rfl

theorem Datum.replicate_ofLanes {count value : Nat} :
    List.replicate count (some value) = Datum.ofLanes count fun _ => value := by
  rw [Datum.ofLanes, List.map_const', List.length_range]

/-- Two values lane by lane. -/
theorem Datum.zip_ofLanes {combine : Lane → Lane → Option Lane} {count : Nat} {left right result : Nat → Nat}
    (combines : ∀ index < count, combine (some (left index)) (some (right index)) = some (some (result index))) :
    Datum.zip combine (Datum.ofLanes count left) (Datum.ofLanes count right) =
      some (Datum.ofLanes count result) := by
  have lists : ∀ indices : List Nat, (∀ index ∈ indices,
      combine (some (left index)) (some (right index)) = some (some (result index))) →
      Datum.zip combine (indices.map fun index => some (left index)) (indices.map fun index => some (right index)) =
        some (indices.map fun index => some (result index)) := by
    intro indices
    induction indices with
    | nil => exact fun _ => rfl
    | cons index indices ih =>
        intro each
        rw [List.map_cons, List.map_cons, Datum.zip, each index List.mem_cons_self, Option.bind_some,
          ih fun other member => each other (List.mem_cons_of_mem _ member)]
        rfl
  exact lists _ fun index member => combines index (List.mem_range.mp member)

theorem Datum.choose_ofLanes {count : Nat} {test left right : Nat → Nat} :
    Datum.choose (Datum.ofLanes count test) (Datum.ofLanes count left) (Datum.ofLanes count right) =
      some (Datum.ofLanes count fun index => if test index ≠ 0 then left index else right index) := by
  unfold Datum.ofLanes
  induction List.range count with
  | nil => rfl
  | cons index indices ih =>
      rw [List.map_cons, List.map_cons, List.map_cons, Datum.choose, ih, Option.map_some, List.map_cons,
        Option.bind_some, apply_ite some]

end WasmToLlvm.Llvm

namespace WasmToLlvm.Instruction

open Llvm Wasm Block Library

/-! ## Runs -/

/-- The code is created and executed from one point to another. -/
structure Runs (floats : Floats) (space : Space) (setting : Setting) (code : Emit Value) (value : Value)
    (setting' : Setting) : Prop where
  emitted : code setting.straight = .ok (value, setting'.straight)
  next : setting'.straight.next = setting.straight.next
  executed : ∃ new, setting'.straight.code = setting.straight.code ++ new ∧
    executeAll floats space setting.machine setting.nextId new = some setting'.machine

/-- The code gives a value of the type with these lanes. -/
def Yields (floats : Floats) (space : Space) (setting : Setting) (code : Emit Value) (type : Ty)
    (datum : Datum) : Prop :=
  ∃ value setting', Runs floats space setting code value setting' ∧ Later setting setting' ∧
    Holds space setting' value type datum

section Runs

variable {floats : Floats} {space : Space} {setting setting' setting'' : Setting} {code : Emit Value}
  {next : Value → Emit Value} {value value' : Value} {type type' : Ty} {datum datum' : Datum}

theorem Runs.bind (first : Runs floats space setting code value setting')
    (rest : Runs floats space setting' (next value) value' setting'') :
    Runs floats space setting (code >>= next) value' setting'' where
  emitted := (bind_run_ok first.emitted).trans rest.emitted
  next := rest.next.trans first.next
  executed := by
    obtain ⟨new, code, executed⟩ := first.executed
    obtain ⟨more, code', executed'⟩ := rest.executed
    have here : setting'.nextId = setting.nextId + new.length := by
      rw [Setting.nextId, Setting.nextId, first.next, code, List.length_append, Nat.add_assoc]
    refine ⟨new ++ more, by rw [code', code, List.append_assoc], ?_⟩
    rw [executeAll_append, executed, Option.bind_some, ← here, executed']

theorem Runs.runCode (runs : Runs floats space setting code value setting') :
    runCode floats space code setting = some (value, setting') := by
  obtain ⟨new, whole, executed⟩ := runs.executed
  rw [runCode_ok runs.emitted, whole, List.drop_left, executed]
  rfl

theorem Yields.bind (first : Yields floats space setting code type datum)
    (then_ : ∀ {value setting'}, Later setting setting' → Holds space setting' value type datum →
      Yields floats space setting' (next value) type' datum') :
    Yields floats space setting (code >>= next) type' datum' := by
  obtain ⟨value, middle, runs, later, holds⟩ := first
  obtain ⟨value', last, runs', later', holds'⟩ := then_ later holds
  exact ⟨value', last, runs.bind runs', later.trans later', holds'⟩

theorem Yields.computes (yields : Yields floats space setting code type datum) :
    Computes floats space setting code type (some datum) := by
  obtain ⟨value, setting', runs, later, holds⟩ := yields
  exact ⟨value, setting', runs.runCode, later, holds⟩

/-- A computation of the builder. -/
theorem Computes.yields (computes : Computes floats space setting code type (some datum)) (quiet : Quiet code) :
    Yields floats space setting code type datum := by
  obtain ⟨value, setting', ran, later, holds⟩ := computes
  refine ⟨value, setting', ?_, later, holds⟩
  cases emitted : code setting.straight with
  | error error =>
      rw [runCode_error emitted] at ran
      cases ran
  | ok pair =>
      obtain ⟨value', after⟩ := pair
      obtain ⟨same, new, whole⟩ := quiet.appends.run emitted
      rw [runCode_ok emitted, ← whole, List.drop_left, Option.map_eq_some_iff] at ran
      obtain ⟨machine, executed, isResult⟩ := ran
      cases isResult
      exact ⟨emitted, same, new, whole.symm, executed⟩

theorem Yields.done (holds : Holds space setting value type datum) :
    Yields floats space setting (pure value) type datum :=
  (Computes.done holds).yields (quiet_pure value)

end Runs

/-! ## Lanes -/

/-- The value has these lanes. -/
structure HasLanes (space : Space) (setting : Setting) (value : Value) (type : Ty) (lane : Nat → Nat) : Prop where
  holds : Holds space setting value type (Datum.ofLanes type.lanes lane)
  small : ∀ index < type.lanes, lane index < 2 ^ type.laneBits

/-- The code gives a value with these lanes. -/
structure GivesLanes (floats : Floats) (space : Space) (setting : Setting) (code : Emit Value) (type : Ty)
    (lane : Nat → Nat) : Prop where
  yields : Yields floats space setting code type (Datum.ofLanes type.lanes lane)
  small : ∀ index < type.lanes, lane index < 2 ^ type.laneBits

section Lanes

variable {floats : Floats} {space : Space} {setting setting' : Setting} {code : Emit Value}
  {next : Value → Emit Value} {value left right condition : Value} {type type' : Ty} {x : Nat}
  {lane lane' result : Nat → Nat} {datum : Datum}

theorem HasLanes.later (has : HasLanes space setting value type lane) (later : Later setting setting') :
    HasLanes space setting' value type lane :=
  ⟨has.holds.later later, has.small⟩

theorem HasLanes.constant (isType : value.type = type)
    (stands : ∀ setting : Setting, value.datum space setting.machine = some (Datum.ofLanes type.lanes lane))
    (constant : ∀ id instType, value ≠ .inst id instType)
    (small : ∀ index < type.lanes, lane index < 2 ^ type.laneBits) : HasLanes space setting value type lane :=
  ⟨.constant isType (stands setting) constant, small⟩

theorem GivesLanes.congr (gives : GivesLanes floats space setting code type lane)
    (same : ∀ index < type.lanes, lane index = lane' index) : GivesLanes floats space setting code type lane' where
  yields := Datum.ofLanes_congr same ▸ gives.yields
  small index inside := same index inside ▸ gives.small index inside

/-- A sequence behind a value with lanes. -/
theorem GivesLanes.bind (first : GivesLanes floats space setting code type lane)
    (then_ : ∀ {value setting'}, Later setting setting' → HasLanes space setting' value type lane →
      Yields floats space setting' (next value) type' datum) :
    Yields floats space setting (code >>= next) type' datum :=
  first.yields.bind fun later holds => then_ later ⟨holds, first.small⟩

theorem GivesLanes.andThen (first : GivesLanes floats space setting code type lane)
    (then_ : ∀ {value setting'}, Later setting setting' → HasLanes space setting' value type lane →
      GivesLanes floats space setting' (next value) type' lane') :
    GivesLanes floats space setting (code >>= next) type' lane' where
  yields := first.bind fun later has => (then_ later has).yields
  small := by
    obtain ⟨value, middle, _, later, holds⟩ := first.yields
    exact (then_ later ⟨holds, first.small⟩).small

theorem GivesLanes.done (has : HasLanes space setting value type lane) :
    GivesLanes floats space setting (pure value) type lane :=
  ⟨.done has.holds, has.small⟩

/-! ## Constants -/

theorem hasLanes_null : HasLanes space setting (.null type) type fun _ => 0 :=
  .constant rfl (fun _ => congrArg some Datum.replicate_ofLanes) (fun _ _ isInst => by cases isInst)
    fun _ _ => Nat.two_pow_pos _

theorem hasLanes_allOnes : HasLanes space setting (.allOnes type) type fun _ => 2 ^ type.laneBits - 1 :=
  .constant rfl (fun _ => congrArg some Datum.replicate_ofLanes) (fun _ _ isInst => by cases isInst)
    fun _ _ => Nat.sub_lt (Nat.two_pow_pos _) Nat.one_pos

theorem hasLanes_splatConstant {lanes width : Nat} :
    HasLanes space setting (splatConstant (.vector lanes (.int width)) x) (.vector lanes (.int width))
      fun _ => x % 2 ^ width :=
  .constant rfl (fun _ => congrArg some Datum.replicate_ofLanes) (fun _ _ isInst => by cases isInst)
    fun _ _ => Nat.mod_lt _ (Nat.two_pow_pos _)

/-! ## Operations -/

theorem bitCast_gives (isV128 : IsV128 space setting value x) (shape : Ty) :
    GivesLanes floats space setting (createCast .bitCast value shape) shape (laneAt shape.laneBits x) where
  yields := Datum.ofBits_ofLanes ▸ (bitCast_computes isV128 shape).yields (createCast_quiet ..)
  small _ _ := laneAt_lt

theorem createBinary_gives {operator : BinaryOperator} (isLeft : HasLanes space setting left type lane)
    (isRight : HasLanes space setting right type lane')
    (combines : ∀ index < type.lanes, operator.lane floats type (some (lane index)) (some (lane' index)) =
      some (some (result index)))
    (small : ∀ index < type.lanes, result index < 2 ^ type.laneBits) :
    GivesLanes floats space setting (createBinary operator left right) type result where
  yields := by
    have computes : Computes floats space setting (createBinary operator left right) type _ :=
      createBinary_computes isLeft.holds isRight.holds
    rw [Datum.zip_ofLanes combines] at computes
    exact computes.yields (createBinary_quiet ..)
  small := small

theorem createICmp_gives {predicate : IntPredicate} {test : Nat → Bool}
    (isLeft : HasLanes space setting left type lane) (isRight : HasLanes space setting right type lane')
    (lanes : type.comparison.lanes = type.lanes) (width : type.comparison.laneBits = 1)
    (tests : ∀ index < type.lanes, predicate.holds type.laneBits (lane index) (lane' index) = test index) :
    GivesLanes floats space setting (createICmp predicate left right) type.comparison fun index => bit (test index) where
  yields := by
    have computes : Computes floats space setting (createICmp predicate left right) type.comparison _ :=
      createICmp_computes isLeft.holds isRight.holds
    have compares : ∀ index < type.lanes, Lane.lift (fun x y => some (some (bit (predicate.holds type.laneBits x y))))
        (some (lane index)) (some (lane' index)) = some (some (bit (test index))) := by
      intro index inside
      rw [Lane.lift_some, tests index inside]
    rw [Datum.zip_ofLanes compares] at computes
    rw [lanes]
    exact computes.yields (createICmp_quiet ..)
  small index _ := by
    rw [width]
    cases test index <;> decide

/-- One choice for each lane. -/
theorem createSelect_gives {conditionType : Ty} {test : Nat → Bool}
    (isTest : HasLanes space setting condition conditionType fun index => bit (test index))
    (isLeft : HasLanes space setting left type lane) (isRight : HasLanes space setting right type lane')
    (vector : conditionType.isVector = true) (lanes : conditionType.lanes = type.lanes) :
    GivesLanes floats space setting (createSelect condition left right) type
      fun index => if test index then lane index else lane' index where
  yields := by
    have computes : Computes floats space setting (createSelect condition left right) type _ :=
      createSelect_computes isTest.holds isLeft.holds isRight.holds
    rw [vector, selectDatum_lanewise, lanes, Datum.choose_ofLanes] at computes
    have same : ∀ index < type.lanes, (if bit (test index) ≠ 0 then lane index else lane' index) =
        if test index then lane index else lane' index := by
      intro index _
      cases test index <;> rfl
    rw [Datum.ofLanes_congr same] at computes
    exact computes.yields (createSelect_quiet ..)
  small index inside := by
    cases test index with
    | true => exact isLeft.small index inside
    | false => exact isRight.small index inside

/-- A cast that goes lane by lane. -/
theorem createCast_gives {kind : CastOp} (isValue : HasLanes space setting value type lane)
    (different : type ≠ type') (lanes : type'.lanes = type.lanes) (lanewise : kind ≠ .bitCast)
    (casts : ∀ index < type.lanes, kind.lane floats type.laneBits type'.laneBits (lane index) = some (result index))
    (small : ∀ index < type.lanes, result index < 2 ^ type'.laneBits) :
    GivesLanes floats space setting (createCast kind value type') type' result where
  yields := by
    have computes : Computes floats space setting (createCast kind value type') type' _ :=
      createCast_computes isValue.holds different
    have regrouped : kind.datum floats type type' (Datum.ofLanes type.lanes lane) =
        Datum.ofLanes type'.lanes result := by
      rw [CastOp.datum_ofLanes lanewise, Datum.ofLanes, lanes]
      refine List.map_congr_left fun index member => ?_
      exact casts index (List.mem_range.mp member)
    rw [regrouped] at computes
    exact computes.yields (createCast_quiet ..)
  small index inside := small index (lanes ▸ inside)

/-- A choice of lanes by a mask without gaps. -/
theorem createShuffleVector_gives {lanes count : Nat} {element : Ty} {source : Nat → Nat} {other : Datum}
    (isLeft : HasLanes space setting left (.vector lanes element) lane)
    (isRight : Holds space setting right type other) (inside : ∀ index < count, source index < lanes) :
    GivesLanes floats space setting
      (createShuffleVector left right ((List.range count).map fun index => some (source index)))
      (.vector count element) fun index => lane (source index) where
  yields := by
    have computes : Computes floats space setting
        (createShuffleVector left right ((List.range count).map fun index => some (source index))) _ _ :=
      createShuffleVector_computes isLeft.holds isRight
    rw [List.length_map, List.length_range, List.map_map] at computes
    have chosen : (List.range count).map ((fun entry : Option Nat => entry.bind fun index =>
        (Datum.ofLanes lanes lane ++ other)[index]?.join) ∘ fun index => some (source index)) =
        Datum.ofLanes count fun index => lane (source index) := by
      refine List.map_congr_left fun index member => ?_
      have low := inside index (List.mem_range.mp member)
      rw [Function.comp_apply, Option.bind_some,
        List.getElem?_append_left (by rwa [Datum.ofLanes_length]), Datum.ofLanes_getElem? low]
      rfl
    have shuffled : Computes floats space setting
        (createShuffleVector left right ((List.range count).map fun index => some (source index)))
        (.vector count element) (some (Datum.ofLanes count fun index => lane (source index))) := by
      rw [← chosen]
      exact computes
    exact shuffled.yields (createShuffleVector_quiet ..)
  small index low := isLeft.small _ (inside index low)

/-- Every lane of a splat is the value. -/
theorem createVectorSplat_gives {lanes : Nat} (some_ : 0 < lanes)
    (isValue : Holds space setting value type [some x]) (small : x < 2 ^ (Ty.vector lanes type).laneBits) :
    GivesLanes floats space setting (createVectorSplat lanes value) (.vector lanes type) fun _ => x where
  yields := Datum.replicate_ofLanes ▸ (createVectorSplat_computes some_ isValue).yields (createVectorSplat_quiet ..)
  small _ _ := small

end Lanes

end WasmToLlvm.Instruction

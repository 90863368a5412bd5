import WasmToLlvm.Instruction.Typing
import WasmToLlvm.Instruction.Vector
import WasmToLlvm.Llvm.Folding

/-!
# Visits with folding

A visit whose requests are folded. What the folding makes of the types and the results of
its code.
-/

set_option autoImplicit false

namespace WasmToLlvm.Instruction

open Llvm Wasm Block Library

/-- The folding of the code that has been added since the start. -/
def foldedCode (folder : Folder) (start straight : Straight Operation) : Folding :=
  folder.run (start.next + start.code.length) .start (straight.code.drop start.code.length)

def foldedValue (folder : Folder) (start straight : Straight Operation) (value : Value) : Value :=
  value.resolve (start.next + start.code.length) (foldedCode folder start straight).made

/-- A visit by a builder that folds. -/
def foldConstants (folder : Folder) (visit : Emit Unit) : Emit Unit := fun straight =>
  match visit straight with
  | .ok (_, after) =>
      .ok ((), { after with
        stack := after.stack.map (foldedValue folder straight after)
        code := straight.code ++ (foldedCode folder straight after).code })
  | .error error => .error error

section Visits

variable {α : Type} {folder : Folder} {visit : Emit Unit} {start before after straight : Straight Operation}
  {plain : Plain Operation}
  {value : Value} {type : Ty}

theorem foldConstants_ok (ran : visit straight = .ok ((), after)) :
    foldConstants folder visit straight = .ok ((), { after with
      stack := after.stack.map (foldedValue folder straight after)
      code := straight.code ++ (foldedCode folder straight after).code }) := by
  rw [foldConstants, ran]

theorem foldConstants_error {error : Abort} (stops : visit straight = .error error) :
    foldConstants folder visit straight = .error error := by
  rw [foldConstants, stops]

/-- The instructions that are left are accepted. -/
def FoldsAccepted (folder : Folder) (start straight : Straight Operation) : Prop :=
  ∀ plain ∈ (foldedCode folder start straight).code, plain.wellTyped = true

theorem wellTyped_foldConstants : WellTyped (foldConstants folder visit) straight ↔
    ∃ after, visit straight = .ok ((), after) ∧ FoldsAccepted folder straight after := by
  constructor
  · rintro ⟨value, last, ran, typed⟩
    cases visited : visit straight with
    | error error =>
        rw [foldConstants_error visited] at ran
        cases ran
    | ok pair =>
        obtain ⟨_, after⟩ := pair
        rw [foldConstants_ok visited] at ran
        cases ran
        rw [List.drop_left] at typed
        exact ⟨after, rfl, typed⟩
  · rintro ⟨after, visited, typed⟩
    refine ⟨(), _, foldConstants_ok visited, ?_⟩
    rw [List.drop_left]
    exact typed

/-! ## One request after the other -/

/-- Code has been added since the start. -/
structure Reaches (start straight : Straight Operation) : Prop where
  next : straight.next = start.next
  code : start.code <+: straight.code

theorem Reaches.trans (first : Reaches start before) (second : Reaches before after) : Reaches start after :=
  ⟨second.next.trans first.next, first.code.trans second.code⟩

theorem Reaches.nextId_le (reaches : Reaches start before) :
    start.next + start.code.length ≤ before.next + before.code.length :=
  Nat.add_le_add (Nat.le_of_eq reaches.next.symm) reaches.code.length_le

theorem Appends.reaches {emit : Emit α} {result : α} (appends : Appends emit) (ran : emit before = .ok (result, after)) :
    Reaches before after :=
  ⟨(appends.run ran).1, (appends.run ran).2⟩

theorem Reaches.more (reaches : Reaches start before) (further : Reaches before after) :
    ∃ more, after.code = before.code ++ more ∧ foldedCode folder start after =
      folder.run (start.next + start.code.length) (foldedCode folder start before) more := by
  obtain ⟨code, whole⟩ := reaches.code
  obtain ⟨more, whole'⟩ := further.code
  refine ⟨more, whole'.symm, ?_⟩
  rw [foldedCode, foldedCode, ← whole', ← whole, List.append_assoc, List.drop_left, List.drop_left, Folder.run_append]

theorem foldedCode_start (same : straight.code = start.code) : foldedCode folder start straight = .start := by
  rw [foldedCode, same, List.drop_length]
  rfl

theorem FoldsAccepted.none (same : straight.code = start.code) : FoldsAccepted folder start straight := by
  intro plain member
  rw [foldedCode_start same] at member
  cases member

/-- What has been accepted at a point was accepted before. -/
theorem FoldsAccepted.earlier (accepted : FoldsAccepted folder start after) (reaches : Reaches start before)
    (further : Reaches before after) : FoldsAccepted folder start before := by
  obtain ⟨more, _, folded⟩ := reaches.more further
  intro plain member
  refine accepted plain ?_
  rw [folded]
  exact Folder.run_prefix.subset member

theorem foldedCode_made_length (reaches : Reaches start before) :
    start.next + start.code.length + (foldedCode folder start before).made.length = before.next + before.code.length := by
  obtain ⟨code, whole⟩ := reaches.code
  rw [foldedCode, Folder.run_made_length, reaches.next, ← whole, List.drop_left, List.length_append]
  exact (Nat.add_assoc ..).trans (by simp [Folding.start])

theorem foldedValue_type : (foldedValue folder start straight value).type = value.type :=
  Value.resolve_type value

/-- A value that is known before the start is not touched. -/
theorem foldedValue_older (older : value.OlderThan (start.next + start.code.length)) :
    foldedValue folder start straight value = value :=
  Value.resolve_older older

/-- A value stays what it has become. -/
theorem foldedValue_later (reaches : Reaches start before) (further : Reaches before after)
    (older : value.OlderThan (before.next + before.code.length)) :
    foldedValue folder start after value = foldedValue folder start before value := by
  obtain ⟨more, _, folded⟩ := reaches.more further
  obtain ⟨made, grown⟩ : ∃ made, (foldedCode folder start after).made = (foldedCode folder start before).made ++ made := by
    rw [folded]
    exact Folder.run_made
  rw [foldedValue, grown]
  rw [← foldedCode_made_length reaches] at older
  exact Value.resolve_append older

/-- A request becomes a constant, or an instruction that is left. -/
theorem create_folded (reaches : Reaches start before) (ran : Visit.create plain before = .ok (value, after)) :
    (∃ key lanes, folder.fold (plain.mapOperands (foldedValue folder start before)) = some (key, lanes) ∧
      foldedValue folder start after value = .constant key plain.type lanes ∧
      (foldedCode folder start after).code = (foldedCode folder start before).code) ∨
    (folder.fold (plain.mapOperands (foldedValue folder start before)) = none ∧
      foldedValue folder start after value =
        .inst (start.next + start.code.length + (foldedCode folder start before).code.length) plain.type ∧
      (foldedCode folder start after).code = (foldedCode folder start before).code ++
        [plain.mapOperands (foldedValue folder start before)]) := by
  cases ran
  obtain ⟨code, whole⟩ := reaches.code
  have folded : foldedCode folder start { before with code := before.code ++ [plain] } =
      folder.step (start.next + start.code.length) (foldedCode folder start before) plain := by
    have further : Reaches before { before with code := before.code ++ [plain] } := ⟨rfl, List.prefix_append _ _⟩
    obtain ⟨more, same, folded⟩ := reaches.more further
    rw [folded, ← List.append_cancel_left same]
    rfl
  have last : ∀ made : Made, (foldedCode folder start { before with code := before.code ++ [plain] }).made =
      (foldedCode folder start before).made ++ [made] →
        foldedValue folder start { before with code := before.code ++ [plain] }
          (.inst (before.next + before.code.length) plain.type) = made.value plain.type := by
    intro made grown
    rw [foldedValue, grown, ← foldedCode_made_length reaches]
    exact Value.resolve_last
  cases is : folder.fold (plain.mapOperands (foldedValue folder start before)) with
  | some made =>
      obtain ⟨key, lanes⟩ := made
      have step := folded.trans (Folder.step_folded is)
      exact .inl ⟨key, lanes, rfl, last (.folded key lanes) (by rw [step]), by rw [step]⟩
  | none =>
      have step := folded.trans (Folder.step_kept is)
      exact .inr ⟨rfl, last (.kept _) (by rw [step]), by rw [step]; rfl⟩

theorem create_constant_iff (reaches : Reaches start before) (ran : Visit.create plain before = .ok (value, after)) :
    (foldedValue folder start after value).isConstant = true ↔
      folder.fold (plain.mapOperands (foldedValue folder start before)) ≠ none := by
  rcases create_folded reaches ran with ⟨key, lanes, folds, is, _⟩ | ⟨none_, is, _⟩
  · rw [folds, is]
    exact iff_of_true rfl (Option.some_ne_none _)
  · rw [none_, is]
    exact iff_of_false Bool.false_ne_true fun folds => folds rfl

/-- A request is accepted as a constant or as an instruction. -/
theorem create_accepted_iff (reaches : Reaches start before) (ran : Visit.create plain before = .ok (value, after)) :
    FoldsAccepted folder start after ↔ FoldsAccepted folder start before ∧
      (folder.fold (plain.mapOperands (foldedValue folder start before)) ≠ none ∨ plain.wellTyped = true) := by
  unfold FoldsAccepted
  rcases create_folded reaches ran with ⟨key, lanes, folds, _, code⟩ | ⟨none_, _, code⟩
  · rw [code, folds]
    exact (and_iff_left (.inl (Option.some_ne_none _))).symm
  · rw [code, none_, List.forall_mem_append, List.forall_mem_singleton,
      Plain.wellTyped_mapOperands fun _ => foldedValue_type, or_iff_right fun folds => folds rfl]

/-- Code that is accepted is accepted after folding. -/
theorem Types.accepted_iff {emit : Emit Value} (types : Types emit type True) (reaches : Reaches start before)
    (ran : emit before = .ok (value, after)) : FoldsAccepted folder start after ↔ FoldsAccepted folder start before := by
  have further := types.emits.quiet.appends.reaches ran
  refine ⟨fun accepted => accepted.earlier reaches further, fun accepted => ?_⟩
  obtain ⟨value', after', ran', typed⟩ := types.runs before
  cases ran.symm.trans ran'
  obtain ⟨more, grown, folded⟩ := reaches.more further
  rw [FoldsAccepted, folded, Folder.run_wellTyped]
  refine ⟨accepted, Folder.accepts_of_wellTyped ?_⟩
  rw [grown, List.drop_left] at typed
  exact typed.mpr trivial

/-- A null value is cast without an instruction, whatever the types are. -/
theorem nullCast_folded {floats : Floats} {space : Space} {kind : CastOp} {result : Value} (lawful : folder.Lawful floats space)
    (keeps : kind = .zext ∨ kind = .sext ∨ kind = .bitCast) (reaches : Reaches start before)
    (null : folder.isNull (foldedValue folder start before value) = true)
    (ran : Visit.create (.op (.cast kind) type [value]) before = .ok (result, after)) :
    (∃ key, foldedValue folder start after result = .constant key type (List.replicate type.lanes (some 0))) ∧
      folder.isNull (foldedValue folder start after result) = true ∧
      (foldedCode folder start after).code = (foldedCode folder start before).code := by
  have casts : ∃ key, folder.fold (.op (.cast kind) type [foldedValue folder start before value]) =
      some (key, List.replicate type.lanes (some 0)) ∧
        folder.isNull (.constant key type (List.replicate type.lanes (some 0))) = true := lawful.nullCast keeps null
  obtain ⟨key, folds, isNull⟩ := casts
  rcases create_folded reaches ran with ⟨key', lanes, folds', is, code⟩ | ⟨none_, _⟩
  · cases folds.symm.trans folds'
    exact ⟨⟨key, is⟩, by rw [is]; exact isNull, code⟩
  · cases folds.symm.trans none_

end Visits

/-! ## Results -/

/-- The requests of a computation are of some kind. -/
structure Asks {α : Type} (kind : Plain Operation → Prop) (emit : Emit α) (known : α → Prop) : Prop where
  emits : Emits emit known
  run : ∀ {before value after}, emit before = .ok (value, after) →
    ∀ plain ∈ after.code.drop before.code.length, kind plain

section Results

variable {α β : Type} {floats : Floats} {space : Space} {folder : Folder} {setting : Setting} {visit : Emit Unit}
  {code : Emit Value}
  {kind kind' : Plain Operation → Prop} {known known' : α → Prop} {emit : Emit α} {next : α → Emit β}
  {rest : List Value} {type : Ty} {datum lanes : Datum} {after : Straight Operation} {value : Value} {key : Nat}

theorem Asks.pure {value : α} (holds : known value) : Asks kind (pure value) known where
  emits := .pure holds
  run ran := by
    cases ran
    rw [List.drop_length]
    exact fun plain member => nomatch member

theorem Asks.throw (error : Abort) : Asks kind (throw error : Emit α) known where
  emits := .throw error
  run ran := by cases ran

theorem Asks.bind {known' : β → Prop} (first : Asks kind emit known)
    (rest : ∀ value, known value → Asks kind (next value) known') : Asks kind (emit >>= next) known' where
  emits := first.emits.bind fun value holds => (rest value holds).emits
  run {before value after} ran := by
    obtain ⟨middle, state, ranFirst, ranRest⟩ := bind_ok.mp ran
    obtain ⟨extends_, holds⟩ := first.emits.run ranFirst
    obtain ⟨extends', _⟩ := (rest middle holds).emits.run ranRest
    have asked := first.run ranFirst
    have asked' := (rest middle holds).run ranRest
    obtain ⟨new, whole⟩ := extends_.code
    obtain ⟨more, whole'⟩ := extends'.code
    rw [← whole', List.drop_left] at asked'
    rw [← whole, List.drop_left] at asked
    rw [← whole', ← whole, List.append_assoc, List.drop_left]
    exact List.forall_mem_append.mpr ⟨asked, asked'⟩

theorem Asks.create {plain : Plain Operation} (is : kind plain) :
    Asks kind (Visit.create plain) fun value => value.type = plain.type where
  emits := create_emits plain
  run ran := by
    cases ran
    rw [List.drop_left]
    exact List.forall_mem_singleton.mpr is

/-- The requests of a computation whose code is accepted. -/
theorem Types.asks {emit : Emit Value} (types : Types emit type True) :
    Asks (fun plain => plain.wellTyped = true) emit fun value => value.type = type where
  emits := types.emits
  run {before value after} ran := by
    obtain ⟨value', after', ran', typed⟩ := types.runs before
    cases ran.symm.trans ran'
    exact typed.mpr trivial

/-- Requests whose constants refine what the instructions give. -/
def Keeps (plain : Plain Operation) : Prop := plain.isMonotone = true ∧ plain.Regular

/-- The computation asks for operations that take refined operands to refined results. -/
abbrev Monotone (emit : Emit α) : Prop := Asks (fun plain => plain.isMonotone = true) emit fun _ => True

theorem Types.keeps {emit : Emit Value} (types : Types emit type True) (monotone : Monotone emit) :
    Asks Keeps emit fun value => value.type = type where
  emits := types.emits
  run ran plain member := ⟨monotone.run ran plain member, .inl (types.asks.run ran plain member)⟩

theorem popStack_run {next : Value → Emit α} {straight : Straight Operation} (top : straight.stack = value :: rest) :
    (Visit.popStack >>= next) straight = next value { straight with stack := rest } := by
  have popped : (Visit.popStack : Emit Value) straight = .ok (value, { straight with stack := rest }) := by
    rw [Visit.popStack, top]
  exact bind_run_ok popped

/-- The visit pops its operands and pushes the value of the code. -/
def Pushes (visit : Emit Unit) (straight : Straight Operation) (code : Emit Value) (rest : List Value) : Prop :=
  visit straight = (code >>= Visit.pushStack) { straight with stack := rest }

theorem Pushes.visited {straight : Straight Operation} (pushes : Pushes visit straight code rest) (quiet : Quiet code)
    (ran : code { straight with stack := rest } = .ok (value, after)) :
    visit straight = .ok ((), { after with stack := value :: rest }) := by
  have stack : after.stack = rest := (quiet.run ran).1.stack
  subst stack
  rw [Pushes, bind_run_ok ran] at pushes
  exact pushes

/-- The types of what is left of a visit are those of what is left of its code. -/
theorem Pushes.wellTyped_iff {straight : Straight Operation} (pushes : Pushes visit straight code rest)
    (quiet : Quiet code) : WellTyped (foldConstants folder visit) straight ↔
      ∃ value after, code { straight with stack := rest } = .ok (value, after) ∧ FoldsAccepted folder straight after := by
  rw [wellTyped_foldConstants]
  constructor
  · rintro ⟨last, visited, accepted⟩
    have visited : (code >>= Visit.pushStack) { straight with stack := rest } = .ok ((), last) := pushes ▸ visited
    obtain ⟨value, after, ran, pushed⟩ := bind_ok.mp visited
    cases pushed
    exact ⟨value, after, ran, accepted⟩
  · rintro ⟨value, after, ran, accepted⟩
    exact ⟨_, pushes.visited quiet ran, accepted⟩

/-- A run of the code and its execution. -/
theorem runCode_some {setting' : Setting} {result : α} (ran : runCode floats space emit setting = some (result, setting')) :
    emit setting.straight = .ok (result, setting'.straight) ∧
      executeAll floats space setting.machine setting.nextId
        (setting'.straight.code.drop setting.straight.code.length) = some setting'.machine := by
  cases visited : emit setting.straight with
  | error error =>
      rw [runCode_error visited] at ran
      cases ran
  | ok pair =>
      obtain ⟨value, after⟩ := pair
      rw [runCode_ok visited] at ran
      obtain ⟨machine, executes, same⟩ := Option.map_eq_some_iff.mp ran
      cases same
      exact ⟨rfl, executes⟩

/-- The values were there before the visit. -/
def Setting.Older (setting : Setting) (values : List Value) : Prop :=
  ∀ value ∈ values, value.OlderThan setting.nextId

theorem Setting.Older.none {setting : Setting} : setting.Older [] := fun _ member => nomatch member

theorem Setting.Older.map {setting : Setting} (older : setting.Older rest) :
    rest.map (foldedValue folder setting.straight after) = rest :=
  (List.map_congr_left fun value member => foldedValue_older (older value member)).trans (List.map_id _)

/-- The run of what is left of a visit. -/
theorem Pushes.runCode_folded (pushes : Pushes visit setting.straight code rest) (quiet : Quiet code)
    (older : setting.Older rest) (ran : code (setting.withStack rest).straight = .ok (value, after)) :
    runCode floats space (foldConstants folder visit) setting =
      (executeAll floats space setting.machine setting.nextId (foldedCode folder setting.straight after).code).map
        fun machine => ((), ⟨{ after with
          stack := foldedValue folder setting.straight after value :: rest
          code := setting.straight.code ++ (foldedCode folder setting.straight after).code }, machine⟩) := by
  have visited : foldConstants folder visit setting.straight = _ := foldConstants_ok (pushes.visited quiet ran)
  have stack : (value :: rest).map (foldedValue folder setting.straight { after with stack := value :: rest }) =
      foldedValue folder setting.straight after value :: rest :=
    congrArg (foldedValue folder setting.straight after value :: ·) older.map
  rw [stack] at visited
  rw [runCode_ok visited, List.drop_left]
  rfl

/-- What is left of the code so far has been executed, and the value stands for these lanes. -/
structure FoldedAs (floats : Floats) (space : Space) (folder : Folder) (setting : Setting) (value : Value)
    (straight : Straight Operation) (machine : Machine) (datum : Datum) : Prop where
  executes : executeAll floats space setting.machine setting.nextId (foldedCode folder setting.straight straight).code =
    some machine
  datum : (foldedValue folder setting.straight straight value).datum space machine = some datum
  older : (foldedValue folder setting.straight straight value).OlderThan
    (setting.nextId + (foldedCode folder setting.straight straight).code.length)
  bytes : machine.bytes = setting.machine.bytes

/-- What is left of a run after folding. -/
theorem runCode_folded {setting' : Setting} {result : α} (lawful : folder.Lawful floats space) (asks : Asks Keeps emit known)
    (ran : runCode floats space emit (setting.withStack rest) = some (result, setting')) :
    emit (setting.withStack rest).straight = .ok (result, setting'.straight) ∧
      ∃ machine, executeAll floats space setting.machine setting.nextId
          (foldedCode folder setting.straight setting'.straight).code = some machine ∧
        Tracks space setting.nextId (foldedCode folder setting.straight setting'.straight) setting'.machine machine := by
  obtain ⟨ran, executes⟩ := runCode_some ran
  have asked := asks.run ran
  exact ⟨ran, lawful.run_start asked executes⟩

/-- A value with lanes without poison has the same lanes after folding. -/
theorem foldedValue_datum {setting' : Setting} {machine : Machine}
    (tracks : Tracks space setting.nextId (foldedCode folder setting.straight setting'.straight) setting'.machine machine)
    (reaches : Reaches setting.straight setting'.straight) (holds : Holds space setting' value type datum)
    (defined : ∀ lane ∈ datum, lane ≠ none) :
    (foldedValue folder setting.straight setting'.straight value).datum space machine = some datum ∧
      (foldedValue folder setting.straight setting'.straight value).OlderThan
        (setting.nextId + (foldedCode folder setting.straight setting'.straight).code.length) := by
  obtain ⟨refined, stands, refines⟩ := (tracks.refinedBy value).of_some holds.datum
  rw [refines.eq defined] at stands
  have length : setting.nextId + (foldedCode folder setting.straight setting'.straight).made.length = setting'.nextId :=
    foldedCode_made_length reaches
  exact ⟨stands, tracks.older (fun is => Nat.lt_of_lt_of_eq (holds.older is) length.symm) holds.datum⟩

/-- Lanes without poison are the same after folding. -/
theorem Computes.folded (lawful : folder.Lawful floats space) {known : Value → Prop} (asks : Asks Keeps code known)
    (computes : Computes floats space (setting.withStack rest) code type (some datum))
    (defined : ∀ lane ∈ datum, lane ≠ none) :
    ∃ value after machine, code (setting.withStack rest).straight = .ok (value, after) ∧ value.type = type ∧
      FoldedAs floats space folder setting value after machine datum := by
  obtain ⟨value, setting', ran, later, holds⟩ := computes
  obtain ⟨ran, machine, executes, tracks⟩ := runCode_folded lawful asks ran
  obtain ⟨next, code⟩ := asks.emits.quiet.appends.reaches ran
  obtain ⟨stands, older⟩ := foldedValue_datum tracks ⟨next, code⟩ holds defined
  exact ⟨value, setting'.straight, machine, ran, holds.type, executes, stands, older, tracks.bytes.trans later.bytes⟩

theorem FoldedAs.leaves {machine : Machine} (is : FoldedAs floats space folder setting value after machine datum)
    (pushes : Pushes visit setting.straight code rest) (quiet : Quiet code) (older : setting.Older rest)
    (ran : code (setting.withStack rest).straight = .ok (value, after)) (isType : value.type = type) :
    Leaves floats space setting (foldConstants folder visit) rest type (some datum) := by
  have ranFolded : runCode floats space (foldConstants folder visit) setting = _ :=
    pushes.runCode_folded quiet older ran
  rw [is.executes, Option.map_some] at ranFolded
  refine ⟨_, _, ranFolded, rfl, ⟨foldedValue_type.trans isType, is.datum, fun inst => ?_⟩, is.bytes⟩
  rw [Setting.nextId, List.length_append, ← Nat.add_assoc, (quiet.run ran).1.next]
  exact is.older inst

/-- A cast of a value, folded or not. -/
theorem FoldedAs.cast {kind : CastOp} {before : Straight Operation} {machine : Machine} {value' : Value}
    (is : FoldedAs floats space folder setting value before machine datum) (reaches : Reaches setting.straight before)
    (ran : Visit.create (.op (.cast kind) type [value]) before = .ok (value', after))
    (exact_ : ∀ key lanes, folder.fold (.op (.cast kind) type [foldedValue folder setting.straight before value]) =
      some (key, lanes) → lanes = kind.datum floats value.type type datum) :
    ∃ machine', FoldedAs floats space folder setting value' after machine' (kind.datum floats value.type type datum) := by
  rcases create_folded reaches ran with ⟨key, lanes, folds, isValue, code⟩ | ⟨_, isValue, code⟩
  · refine ⟨machine, code ▸ is.executes, ?_, ?_, is.bytes⟩
    · rw [isValue, ← exact_ key lanes folds]
      rfl
    · rw [isValue]
      exact fun inst => nomatch inst
  · have executes : ∀ id, Plain.execute floats space machine id
        (.op (.cast kind) type [foldedValue folder setting.straight before value]) =
          some (machine.define id (kind.datum floats value.type type datum)) := by
      intro id
      have stand : [foldedValue folder setting.straight before value].mapM (Value.datum space machine) = some [datum] := by
        rw [List.mapM_cons, is.datum]
        rfl
      rw [Plain.execute_op rfl, stand, Option.bind_some, List.map_singleton, foldedValue_type, Operation.eval_cast,
        Option.map_some]
    refine ⟨machine.define (setting.nextId + (foldedCode folder setting.straight before).code.length)
      (kind.datum floats value.type type datum), ?_, ?_, ?_, is.bytes⟩
    · rw [code, executeAll_append, is.executes, Option.bind_some]
      exact congrArg (·.bind some) (executes _)
    · rw [isValue]
      exact Machine.define_same ..
    · rw [isValue, code, List.length_append]
      intro id instType inst
      cases inst
      exact Nat.lt_succ_self _

/-- Code whose requests are regular leaves the same lanes with folding. -/
theorem Pushes.leaves_folded (lawful : folder.Lawful floats space) (pushes : Pushes visit setting.straight code rest)
    {known : Value → Prop} (asks : Asks Keeps code known)
    (computes : Computes floats space (setting.withStack rest) code type (some datum))
    (defined : ∀ lane ∈ datum, lane ≠ none) (older : setting.Older rest) :
    Leaves floats space setting (foldConstants folder visit) rest type (some datum) := by
  obtain ⟨value, after, machine, ran, isType, is⟩ := computes.folded lawful asks defined
  exact is.leaves pushes asks.emits.quiet older ran isType

end Results

/-! ## The functions of the builder -/

section Builder

variable {α β : Type} {emit : Emit α} {next : α → Emit β} {kind : CastOp} {vector left right value : Value} {type element : Ty}
  {index lanes : Nat}

@[simp] theorem monotone_pure (value : α) : Monotone (pure value) := .pure trivial

@[simp] theorem monotone_throw (error : Abort) : Monotone (throw error : Emit α) := .throw error

@[simp] theorem monotone_bind (first : Monotone emit) (rest : ∀ value, Monotone (next value)) :
    Monotone (emit >>= next) :=
  first.bind fun value _ => rest value

@[simp] theorem monotone_ite {condition : Prop} [Decidable condition] {emit' : Emit α} (first : Monotone emit)
    (second : Monotone emit') : Monotone (if condition then emit else emit') := by
  split
  · exact first
  · exact second

theorem create_monotone {plain : Plain Operation} (monotone : plain.isMonotone = true) : Monotone (Visit.create plain) where
  emits := (create_emits plain).quiet
  run := (Asks.create monotone).run

theorem createBinary_monotone {operator : BinaryOperator} (safe : operator.isDivision = false) :
    Monotone (createBinary operator left right) := create_monotone (by simp [Plain.isMonotone, Operation.isMonotone, safe])

@[simp] theorem createCast_monotone : Monotone (createCast kind value type) := by
  unfold createCast
  split
  · exact monotone_pure _
  · exact create_monotone rfl

@[simp] theorem createUIToFP_monotone : Monotone (createUIToFP value type) := create_monotone rfl

@[simp] theorem createExtractElement_monotone : Monotone (createExtractElement vector index) := by
  rw [createExtractElement]
  split
  · exact create_monotone rfl
  · exact monotone_throw _

@[simp] theorem createInsertElement_monotone : Monotone (createInsertElement vector value index) := create_monotone rfl

@[simp] theorem createShuffleVector_monotone {mask : List (Option Nat)} :
    Monotone (createShuffleVector left right mask) := create_monotone rfl

end Builder

/-! ## Regrouped operands -/

/-- The constant that a vector operand is regrouped to, or the operand where it has the
lanes of the shape. -/
def regroup (folder : Folder) (value : Value) (shape : Ty) : Option Value :=
  if value.type = shape then some value
  else (folder.fold (.op (.cast .bitCast) shape [value])).map fun made => .constant made.1 shape made.2

section Regrouped

variable {floats : Floats} {space : Space} {folder : Folder} {setting : Setting} {start before after : Straight Operation}
  {value result : Value} {shape : Ty} {x : Nat}

/-- A cast of an operand: the operand, a constant, or an instruction. -/
theorem bitCast_folded (reaches : Reaches start before) (older : value.OlderThan (start.next + start.code.length))
    (ran : createCast .bitCast value shape before = .ok (result, after)) :
    (regroup folder value shape = some (foldedValue folder start after result) ∧
        (foldedCode folder start after).code = (foldedCode folder start before).code) ∨
      (regroup folder value shape = none ∧ (foldedValue folder start after result).isConstant = false) := by
  unfold regroup
  unfold createCast at ran
  split at ran
  · rename_i same
    cases ran
    rw [if_pos same, foldedValue_older older]
    exact .inl ⟨rfl, rfl⟩
  · rename_i different
    rw [if_neg different]
    have operand : (Plain.op (Operation.cast .bitCast) shape [value]).mapOperands (foldedValue folder start before) =
        .op (.cast .bitCast) shape [value] := by
      rw [Plain.mapOperands, List.map_singleton, foldedValue_older older]
    rcases create_folded reaches ran with ⟨key, lanes, folds, is, code⟩ | ⟨none_, is, _⟩
    · rw [operand] at folds
      rw [folds, is]
      exact .inl ⟨rfl, code⟩
    · rw [operand] at none_
      rw [none_, is]
      exact .inr ⟨rfl, rfl⟩

/-- An operand is regrouped to a constant just where it is one. -/
theorem bitCast_constant_iff {floats : Floats} {space : Space} (lawful : folder.Lawful floats space)
    (reaches : Reaches start before) (older : value.OlderThan (start.next + start.code.length))
    (accepts : value.type = shape ∨ CastOp.accepts .bitCast value.type shape = true)
    (ran : createCast .bitCast value shape before = .ok (result, after)) :
    (foldedValue folder start after result).isConstant = true ↔ value.isConstant = true := by
  unfold createCast at ran
  split at ran
  · cases ran
    rw [foldedValue_older older]
  · rename_i different
    have operand : (Plain.op (Operation.cast .bitCast) shape [value]).mapOperands (foldedValue folder start before) =
        .op (.cast .bitCast) shape [value] := by
      rw [Plain.mapOperands, List.map_singleton, foldedValue_older older]
    rcases create_folded reaches ran with ⟨key, lanes, folds, is, _⟩ | ⟨none_, is, _⟩
    · rw [operand] at folds
      exact iff_of_true (by rw [is]; rfl) (lawful.constants folds _ List.mem_cons_self)
    · rw [operand] at none_
      exact iff_of_false (by rw [is]; exact Bool.false_ne_true) fun constant =>
        lawful.bitCast constant (accepts.resolve_left different) none_

theorem createCast_older {kind : CastOp} (older : value.OlderThan (before.next + before.code.length))
    (ran : createCast kind value shape before = .ok (result, after)) :
    result.OlderThan (after.next + after.code.length) := by
  unfold createCast at ran
  split at ran
  · cases ran
    exact older
  · cases ran
    intro id type is
    cases is
    rw [List.length_append]
    exact Nat.lt_succ_self _

/-- The regrouped operand has the lanes of the operand. -/
theorem regroup_datum (lawful : folder.Lawful floats space) (isX : IsV128 space setting value x) (size : shape.size = 128)
    (scalar : shape.scalar.isInt ∨ shape.scalar.isFloat) (is : regroup folder value shape = some result) :
    result.type = shape ∧ result.datum space setting.machine = some (Datum.ofBits shape x) := by
  unfold regroup at is
  split at is
  · rename_i same
    cases is
    exact ⟨same, same ▸ isX.holds.datum⟩
  · obtain ⟨⟨key, lanes⟩, folds, rfl⟩ := Option.map_eq_some_iff.mp is
    have accepts : CastOp.accepts .bitCast value.type shape = true := by
      simp [CastOp.accepts, isX.size, size, isX.scalar, scalar]
    have executes : Plain.execute floats space setting.machine 0 (.op (.cast .bitCast) shape [value]) =
        some (setting.machine.define 0 (Datum.ofBits shape x)) := by
      have regrouped : CastOp.datum floats .bitCast value.type shape (Datum.ofBits value.type x) = Datum.ofBits shape x := by
        have kept := Datum.bits?_ofBits (isX.size ▸ isX.small)
        simp only [CastOp.datum, kept]
      have stand : [value].mapM (Value.datum space setting.machine) = some [Datum.ofBits value.type x] := by
        rw [List.mapM_cons, isX.holds.datum]
        rfl
      rw [Plain.execute_op rfl, stand, Option.bind_some, List.map_singleton, Operation.eval_cast, regrouped,
        Option.map_some]
    exact ⟨rfl, congrArg some (lawful.exact_ folds (.inl accepts) executes Datum.ofBits_defined)⟩

end Regrouped

end WasmToLlvm.Instruction

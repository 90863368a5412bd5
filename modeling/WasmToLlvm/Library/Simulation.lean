import Mathlib.Tactic.Common

/-!
# Simulation of deterministic systems

Deterministic systems with observable events, their behaviours, and the
simulation rule: if every move of one system is matched by moves of another with
the same events, and moves that are matched by none use up a rank, then both
systems behave alike.
-/

set_option autoImplicit false

namespace WasmToLlvm.Library

/-- What a system does next. -/
inductive Move (State Event Result : Type) where
  | step (event : Option Event) (next : State)
  | halt (result : Result)
  | stuck

abbrev System (State Event Result : Type) := State → Move State Event Result

/-- A program ends with values or with a trap, and leaves a store. -/
inductive Ending (Value Store : Type) where
  | returned (values : List Value) (store : Store)
  | trapped (store : Store)
  deriving DecidableEq, Repr

variable {State Other Event Result : Type} {system : System State Event Result}

/-- A run of a number of steps, with its events. -/
inductive Runs (system : System State Event Result) :
    Nat → State → List Event → State → Prop where
  | refl {state : State} : Runs system 0 state [] state
  | cons {state next final : State} {event : Option Event} {trace : List Event} {count : Nat}
      (moves : system state = .step event next) (rest : Runs system count next trace final) :
      Runs system (count + 1) state (event.toList ++ trace) final

section Runs

variable {state middle final final' : State} {trace trace' : List Event} {count count' : Nat}

theorem Runs.single {event : Option Event} {next : State} (moves : system state = .step event next) :
    Runs system 1 state event.toList next := by
  have run := Runs.cons moves (.refl : Runs system 0 next [] next)
  rwa [List.append_nil] at run

theorem Runs.trans (first : Runs system count state trace middle)
    (second : Runs system count' middle trace' final) :
    Runs system (count + count') state (trace ++ trace') final := by
  induction first with
  | refl => simpa using second
  | cons moves rest ih =>
      have run := Runs.cons moves (ih second)
      rwa [← List.append_assoc, Nat.add_right_comm] at run

theorem Runs.deterministic (first : Runs system count state trace final)
    (second : Runs system count state trace' final') : trace = trace' ∧ final = final' := by
  induction first generalizing trace' with
  | refl =>
      cases second
      exact ⟨rfl, rfl⟩
  | cons moves rest ih =>
      cases second with
      | cons moves' rest' =>
          obtain ⟨rfl, rfl⟩ := Move.step.inj (moves.symm.trans moves')
          obtain ⟨rfl, rfl⟩ := ih rest'
          exact ⟨rfl, rfl⟩

/-- The first part of a longer run is the shorter run. -/
theorem Runs.split (run : Runs system (count + count') state trace final) :
    ∃ middle first second, Runs system count state first middle ∧
      Runs system count' middle second final ∧ trace = first ++ second := by
  induction count generalizing state trace with
  | zero => exact ⟨state, [], trace, .refl, by simpa using run, rfl⟩
  | succ count ih =>
      rw [Nat.add_right_comm] at run
      cases run with
      | cons moves rest =>
          obtain ⟨middle, first, second, runFirst, runSecond, rfl⟩ := ih rest
          exact ⟨middle, _, second, .cons moves runFirst, runSecond, (List.append_assoc _ _ _).symm⟩

theorem Runs.of_halt {result : Result} (halts : system state = .halt result)
    (run : Runs system count state trace final) : count = 0 := by
  cases run with
  | refl => rfl
  | cons moves _ => cases halts.symm.trans moves

end Runs

/-! ## Behaviours -/

def Terminates (system : System State Event Result) (state : State) (trace : List Event)
    (result : Result) : Prop :=
  ∃ count final, Runs system count state trace final ∧ system final = .halt result

def Diverges (system : System State Event Result) (state : State) : Prop :=
  ∀ count, ∃ trace final, Runs system count state trace final

/-- The events of a run up to some point. -/
def Shows (system : System State Event Result) (state : State) (trace : List Event) : Prop :=
  ∃ count final, Runs system count state trace final

section Behaviours

variable {state : State} {trace trace' : List Event} {result result' : Result}

theorem Terminates.deterministic (first : Terminates system state trace result)
    (second : Terminates system state trace' result') : trace = trace' ∧ result = result' := by
  obtain ⟨count, final, run, halts⟩ := first
  obtain ⟨count', final', run', halts'⟩ := second
  -- the longer run goes on behind a final state
  rcases Nat.le_total count count' with short | short <;>
    obtain ⟨more, rfl⟩ := Nat.exists_eq_add_of_le short
  · obtain ⟨middle, _, _, runFirst, runSecond, rfl⟩ := run'.split
    obtain ⟨rfl, rfl⟩ := run.deterministic runFirst
    obtain rfl := runSecond.of_halt halts
    cases runSecond
    exact ⟨by simp, Move.halt.inj (halts.symm.trans halts')⟩
  · obtain ⟨middle, _, _, runFirst, runSecond, rfl⟩ := run.split
    obtain ⟨rfl, rfl⟩ := run'.deterministic runFirst
    obtain rfl := runSecond.of_halt halts'
    cases runSecond
    exact ⟨by simp, Move.halt.inj (halts.symm.trans halts')⟩

theorem Terminates.not_diverges (terminates : Terminates system state trace result) :
    ¬ Diverges system state := by
  obtain ⟨count, final, run, halts⟩ := terminates
  intro diverges
  obtain ⟨_, beyond, longer⟩ := diverges (count + 1)
  obtain ⟨middle, _, _, runFirst, runSecond, _⟩ := longer.split
  obtain ⟨rfl, rfl⟩ := run.deterministic runFirst
  cases runSecond.of_halt halts

theorem Terminates.prepend {middle : State} {count : Nat} (run : Runs system count state trace middle)
    (terminates : Terminates system middle trace' result) :
    Terminates system state (trace ++ trace') result := by
  obtain ⟨count', final, rest, halts⟩ := terminates
  exact ⟨count + count', final, run.trans rest, halts⟩

theorem Shows.of_append (shows : Shows system state (trace ++ trace')) : Shows system state trace := by
  obtain ⟨count, final, run⟩ := shows
  generalize whole : trace ++ trace' = events at run
  induction run generalizing trace with
  | refl =>
      obtain ⟨rfl, rfl⟩ := List.append_eq_nil_iff.mp whole
      exact ⟨0, _, .refl⟩
  | @cons state next final event rest count moves run ih =>
      cases event with
      | none =>
          obtain ⟨count', middle, run'⟩ := ih whole
          exact ⟨_, _, .cons moves run'⟩
      | some event =>
          cases trace with
          | nil => exact ⟨0, _, .refl⟩
          | cons first trace =>
              obtain ⟨rfl, others⟩ := List.cons.inj (show first :: (trace ++ trace') = event :: rest
                from whole)
              obtain ⟨count', middle, run'⟩ := ih others
              exact ⟨_, _, .cons moves run'⟩

end Behaviours

/-- Two systems behave alike: they terminate with the same events and the same
result, run forever together, and show the same events up to any point. -/
structure SameBehaviour (system : System State Event Result) (state : State)
    (other : System Other Event Result) (state' : Other) : Prop where
  terminates : ∀ trace result, Terminates system state trace result ↔ Terminates other state' trace result
  diverges : Diverges system state ↔ Diverges other state'
  shows : ∀ trace, Shows system state trace ↔ Shows other state' trace

/-! ## Simulation -/

/-- The other system matches each move; a move that it matches by staying where it
is makes the rank smaller. -/
structure Simulates (system : System State Event Result) (other : System Other Event Result)
    (related : State → Other → Prop) (rank : State → Nat) : Prop where
  halt : ∀ {state state' result}, related state state' → system state = .halt result →
    Terminates other state' [] result
  step : ∀ {state state' event next}, related state state' → system state = .step event next →
    ∃ count next', Runs other count state' event.toList next' ∧ related next next' ∧
      (count = 0 → rank next < rank state)
  notStuck : ∀ {state state'}, related state state' → system state ≠ .stuck

section Simulation

variable {other : System Other Event Result} {related : State → Other → Prop} {rank : State → Nat}
  {state final : State} {state' : Other} {trace : List Event} {result : Result}

theorem Simulates.runs (simulates : Simulates system other related rank) {count : Nat}
    (run : Runs system count state trace final) (start : related state state') :
    ∃ count' final', Runs other count' state' trace final' ∧ related final final' := by
  induction run generalizing state' with
  | refl => exact ⟨0, state', .refl, start⟩
  | cons moves rest ih =>
      obtain ⟨count, next', run, next, _⟩ := simulates.step start moves
      obtain ⟨count', final', run', final⟩ := ih next
      exact ⟨_, final', run.trans run', final⟩

theorem Simulates.terminates (simulates : Simulates system other related rank)
    (start : related state state') (terminates : Terminates system state trace result) :
    Terminates other state' trace result := by
  obtain ⟨count, final, run, halts⟩ := terminates
  obtain ⟨count', final', run', there⟩ := simulates.runs run start
  have ended := (simulates.halt there halts).prepend run'
  rwa [List.append_nil] at ended

/-- A system that never terminates goes on, and the other one moves with it. -/
theorem Simulates.moves (simulates : Simulates system other related rank)
    (start : related state state') (endless : ∀ trace result, ¬ Terminates system state trace result) :
    ∃ count count' trace final final', Runs system count state trace final ∧
      Runs other (count' + 1) state' trace final' ∧ related final final' := by
  induction measure : rank state using Nat.strongRecOn generalizing state state' with
  | ind bound ih =>
      cases moves : system state with
      | stuck => exact absurd moves (simulates.notStuck start)
      | halt result => exact absurd ⟨0, state, .refl, moves⟩ (endless [] result)
      | step event next =>
          obtain ⟨count, next', run, there, smaller⟩ := simulates.step start moves
          cases count with
          | succ count => exact ⟨1, count, _, next, next', .single moves, run, there⟩
          | zero =>
              have later : ∀ trace result, ¬ Terminates system next trace result :=
                fun trace result terminates =>
                  endless _ result (terminates.prepend (.single moves))
              obtain ⟨countNext, countNext', trace, final, final', runNext, runNext', thereNext⟩ :=
                ih _ (measure ▸ smaller rfl) there later rfl
              refine ⟨countNext + 1, countNext', _, final, final', .cons moves runNext, ?_, thereNext⟩
              have whole := run.trans runNext'
              rwa [Nat.zero_add] at whole

theorem Simulates.long_runs (simulates : Simulates system other related rank)
    (start : related state state') (endless : ∀ trace result, ¬ Terminates system state trace result)
    (length : Nat) :
    ∃ count more trace final final', Runs system count state trace final ∧
      Runs other (length + more) state' trace final' ∧ related final final' := by
  induction length generalizing state state' with
  | zero => exact ⟨0, 0, [], state, state', .refl, .refl, start⟩
  | succ length ih =>
      obtain ⟨count, count', trace, middle, middle', run, run', there⟩ := simulates.moves start endless
      have later : ∀ trace result, ¬ Terminates system middle trace result :=
        fun trace result terminates => endless _ result (terminates.prepend run)
      obtain ⟨countRest, more, traceRest, final, final', rest, rest', thereFinal⟩ := ih there later
      refine ⟨count + countRest, count' + more, trace ++ traceRest, final, final', run.trans rest, ?_,
        thereFinal⟩
      have whole := run'.trans rest'
      have order : count' + 1 + (length + more) = length + 1 + (count' + more) := by omega
      rwa [order] at whole

theorem Simulates.diverges_of_endless (simulates : Simulates system other related rank)
    (start : related state state') (endless : ∀ trace result, ¬ Terminates system state trace result) :
    Diverges other state' := by
  intro length
  obtain ⟨_, more, trace, _, final', _, run, _⟩ := simulates.long_runs start endless length
  obtain ⟨middle, first, _, runFirst, _, _⟩ := run.split
  exact ⟨first, middle, runFirst⟩

theorem Simulates.endless (simulates : Simulates system other related rank)
    (start : related state state') (endless : ∀ trace result, ¬ Terminates system state trace result) :
    Diverges system state := by
  intro length
  induction length with
  | zero => exact ⟨[], state, .refl⟩
  | succ length ih =>
      obtain ⟨trace, final, run⟩ := ih
      obtain ⟨_, final', _, there⟩ := simulates.runs run start
      cases moves : system final with
      | stuck => exact absurd moves (simulates.notStuck there)
      | halt result => exact absurd ⟨length, final, run, moves⟩ (endless trace result)
      | step event next => exact ⟨_, next, run.trans (.single moves)⟩

/-- The simulation rule. -/
theorem Simulates.sameBehaviour (simulates : Simulates system other related rank)
    (start : related state state') : SameBehaviour system state other state' := by
  by_cases ends : ∃ trace result, Terminates system state trace result
  · obtain ⟨trace, result, terminates⟩ := ends
    have terminates' := simulates.terminates start terminates
    refine ⟨fun trace' result' => ⟨simulates.terminates start, fun ended => ?_⟩,
      ⟨fun diverges => absurd diverges terminates.not_diverges,
        fun diverges => absurd diverges terminates'.not_diverges⟩,
      fun trace' => ⟨fun ⟨count, final, run⟩ => ?_, fun ⟨count, final, run⟩ => ?_⟩⟩
    · obtain ⟨rfl, rfl⟩ := terminates'.deterministic ended
      exact terminates
    · obtain ⟨count', final', run', _⟩ := simulates.runs run start
      exact ⟨count', final', run'⟩
    · -- a run of the other system is part of its whole run, which shows the same events
      obtain ⟨whole, last, wholeRun, halts⟩ := terminates'
      obtain ⟨countA, finalA, runA, _⟩ := terminates
      have inside : count ≤ whole := by
        by_contra beyond
        obtain ⟨more, rfl⟩ := Nat.exists_eq_add_of_le (Nat.le_of_not_le beyond)
        obtain ⟨middle, _, _, runFirst, runSecond, _⟩ := run.split
        obtain ⟨rfl, rfl⟩ := wholeRun.deterministic runFirst
        obtain rfl := runSecond.of_halt halts
        exact beyond (Nat.le_refl _)
      obtain ⟨more, rfl⟩ := Nat.exists_eq_add_of_le inside
      obtain ⟨middle, _, _, runFirst, _, rfl⟩ := wholeRun.split
      obtain ⟨rfl, _⟩ := run.deterministic runFirst
      exact Shows.of_append ⟨countA, finalA, runA⟩
  · have endless : ∀ trace result, ¬ Terminates system state trace result :=
      fun trace result terminates => ends ⟨trace, result, terminates⟩
    have diverges := simulates.diverges_of_endless start endless
    refine ⟨fun trace result => ⟨fun ended => absurd ended (endless trace result),
      fun ended => absurd diverges ended.not_diverges⟩,
      ⟨fun _ => diverges, fun _ => simulates.endless start endless⟩,
      fun trace => ⟨fun ⟨count, final, run⟩ => ?_, fun ⟨count, final, run⟩ => ?_⟩⟩
    · obtain ⟨count', final', run', _⟩ := simulates.runs run start
      exact ⟨count', final', run'⟩
    · obtain ⟨countA, more, traceA, finalA, finalB, runA, runB, _⟩ :=
        simulates.long_runs start endless count
      obtain ⟨middle, _, _, runFirst, _, rfl⟩ := runB.split
      obtain ⟨rfl, _⟩ := run.deterministic runFirst
      exact Shows.of_append ⟨countA, finalA, runA⟩

/-- The other system may first take silent steps of its own. -/
theorem Simulates.delayed (simulates : Simulates system other related rank) :
    Simulates system other (fun state start => ∃ count state', Runs other count start [] state' ∧
      related state state') rank where
  halt := by
    rintro state start result ⟨count, state', run, there⟩ halts
    exact (simulates.halt there halts).prepend run
  step := by
    rintro state start event next ⟨count, state', run, there⟩ moves
    obtain ⟨more, next', run', thereNext, smaller⟩ := simulates.step there moves
    refine ⟨count + more, next', run.trans run', ⟨0, next', .refl, thereNext⟩, fun silent => ?_⟩
    exact smaller (Nat.eq_zero_of_add_eq_zero_left silent)
  notStuck := by
    rintro state start ⟨_, _, _, there⟩
    exact simulates.notStuck there

end Simulation

end WasmToLlvm.Library

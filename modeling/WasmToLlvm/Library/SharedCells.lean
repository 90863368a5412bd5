import Mathlib.Data.List.Chain
import Mathlib.Logic.Function.Basic

/-!
# Cells that share their values

Cells that hold values which they share: replacing the value of one cell replaces it in every
cell that holds the same. Some values cannot be replaced, and stay.
-/

set_option autoImplicit false

namespace WasmToLlvm.Library

variable {α : Type} [DecidableEq α] (replaceable : α → Bool)

/-- Puts a value into a cell; a value does not replace itself. -/
def put (cells : Nat → Option α) (cell : Nat) (value : α) : Option (Nat → Option α) :=
  match cells cell with
  | none => some (Function.update cells cell (some value))
  | some old =>
      if replaceable old then
        if old = value then none
        else some fun other => if cells other = some old then some value else cells other
      else some cells

def putAll (cells : Nat → Option α) (entries : List (Nat × α)) : Option (Nat → Option α) :=
  entries.foldlM (fun cells entry => put replaceable cells entry.1 entry.2) cells

/-- What is in a cell in the end, where values are put into this cell only. -/
def settle (old : α) : List α → Option α
  | [] => some old
  | value :: rest =>
      if replaceable old then
        if old = value then none else settle value rest
      else some old

/-- The values that are put into a cell. -/
def valuesFor (entries : List (Nat × α)) (cell : Nat) : List α :=
  (entries.filter (·.1 = cell)).map Prod.snd

/-- What is in a cell in the end, where nothing is shared. -/
def settleAll : Option α → List α → Option (Option α)
  | some old, values => (settle replaceable old values).map some
  | none, [] => some none
  | none, value :: values => (settle replaceable value values).map some

/-- Different cells hold and get different values. -/
def Apart (cells : Nat → Option α) (entries : List (Nat × α)) : Prop :=
  ∀ cell other value same, cell ≠ other → cells cell = some value ∨ (cell, value) ∈ entries →
    cells other = some same ∨ (other, same) ∈ entries → value ≠ same

section Cells

variable {replaceable} {cells cells' : Nat → Option α} {cell : Nat} {old value final : α} {values : List α}

theorem putAll_cons {entry : Nat × α} {entries : List (Nat × α)} :
    putAll replaceable cells (entry :: entries) =
      (put replaceable cells entry.1 entry.2).bind (putAll replaceable · entries) :=
  List.foldlM_cons ..

/-- All that putting a value into a cell can do. -/
theorem put_cases (isPut : put replaceable cells cell value = some cells') :
    (cells cell = none ∧ cells' = Function.update cells cell (some value)) ∨
    (∃ old, cells cell = some old ∧ replaceable old = true ∧ old ≠ value ∧
      cells' = fun other => if cells other = some old then some value else cells other) ∨
    (∃ old, cells cell = some old ∧ replaceable old = false ∧ cells' = cells) := by
  unfold put at isPut
  split at isPut
  · rename_i empty
    exact .inl ⟨empty, (Option.some.inj isPut).symm⟩
  · rename_i old held
    split at isPut
    · rename_i used
      split at isPut
      · cases isPut
      · rename_i different
        exact .inr (.inl ⟨old, held, used, different, (Option.some.inj isPut).symm⟩)
    · rename_i fixed
      exact .inr (.inr ⟨old, held, Bool.eq_false_iff.mpr fixed, (Option.some.inj isPut).symm⟩)

/-- Only a value that would replace itself cannot be put. -/
theorem put_eq_none_iff :
    put replaceable cells cell value = none ↔ cells cell = some value ∧ replaceable value = true := by
  unfold put
  cases cells cell with
  | none => exact iff_of_false (nomatch ·) (nomatch ·.1)
  | some old =>
      by_cases used : replaceable old = true
      · by_cases same : old = value
        · simp only [if_pos used, if_pos same]
          exact iff_of_true trivial ⟨congrArg some same, same ▸ used⟩
        · simp only [if_pos used, if_neg same]
          exact iff_of_false (nomatch ·) fun again => same (Option.some.inj again.1)
      · simp only [if_neg used]
        exact iff_of_false (nomatch ·) fun again => used (Option.some.inj again.1 ▸ again.2)

/-- What holds of the values in the cells and of the one that is put holds afterwards. -/
theorem put_holds {holds : α → Prop} (isPut : put replaceable cells cell value = some cells')
    (all : ∀ other held, cells other = some held → holds held) (new : holds value) (other : Nat) (held : α)
    (isHeld : cells' other = some held) : holds held := by
  obtain ⟨_, rfl⟩ | ⟨old, _, _, _, rfl⟩ | ⟨old, _, _, rfl⟩ := put_cases isPut
  · by_cases same : other = cell
    · rw [same, Function.update_self] at isHeld
      cases isHeld
      exact new
    · rw [Function.update_of_ne same] at isHeld
      exact all other held isHeld
  · simp only at isHeld
    split at isHeld
    · cases isHeld
      exact new
    · exact all other held isHeld
  · exact all other held isHeld

/-- A value that cannot be replaced stays, whatever is put into its cell. -/
theorem settle_fixed (fixed : replaceable old = false) : settle replaceable old values = some old := by
  cases values with
  | nil => rfl
  | cons value rest => rw [settle, fixed, if_neg Bool.false_ne_true]

/-- All values are replaced one after another if the last one could be, too. -/
theorem settle_iff (last : replaceable final = true) : settle replaceable old values = some final ↔
    (∀ value ∈ old :: values, replaceable value = true) ∧ (old :: values).IsChain (· ≠ ·) ∧
      (old :: values).getLast? = some final := by
  induction values generalizing old with
  | nil =>
      rw [settle, List.getLast?_singleton]
      refine ⟨fun same => ?_, fun all => all.2.2⟩
      cases same
      exact ⟨fun value member => List.mem_singleton.mp member ▸ last, List.isChain_singleton _, rfl⟩
  | cons value rest ih =>
      rw [settle, List.isChain_cons_cons, List.getLast?_cons_cons, List.forall_mem_cons]
      by_cases used : replaceable old = true
      · rw [if_pos used]
        by_cases same : old = value
        · rw [if_pos same]
          exact iff_of_false (nomatch ·) fun all => all.2.1.1 same
        · rw [if_neg same, ih]
          exact ⟨fun all => ⟨⟨used, all.1⟩, ⟨same, all.2.1⟩, all.2.2⟩,
            fun all => ⟨all.1.2, all.2.1.2, all.2.2⟩⟩
      · rw [if_neg used]
        refine iff_of_false (fun same => used ?_) fun all => used all.1.1
        cases same
        exact last

theorem settle_mem (settles : settle replaceable old values = some final) : final ∈ old :: values := by
  induction values generalizing old with
  | nil =>
      cases settles
      exact List.mem_singleton_self _
  | cons value rest ih =>
      rw [settle] at settles
      split at settles
      · split at settles
        · cases settles
        · exact List.mem_cons_of_mem _ (ih settles)
      · cases settles
        exact List.mem_cons_self

/-- Values are put one after another exactly if they differ up to the first one that stays. -/
theorem settle_isSome_iff : (∃ final, settle replaceable old values = some final) ↔
    ((old :: values).takeWhile replaceable).IsChain (· ≠ ·) := by
  induction values generalizing old with
  | nil =>
      refine iff_of_true ⟨old, rfl⟩ ?_
      by_cases used : replaceable old = true
      · rw [List.takeWhile_cons_of_pos used]
        exact List.isChain_singleton _
      · rw [List.takeWhile_cons_of_neg used]
        exact List.isChain_nil
  | cons value rest ih =>
      by_cases used : replaceable old = true
      · rw [settle, if_pos used, List.takeWhile_cons_of_pos used]
        by_cases same : old = value
        · rw [if_pos same, same, List.takeWhile_cons_of_pos (same ▸ used), List.isChain_cons_cons]
          exact iff_of_false (nomatch ·.choose_spec) fun chain => chain.1 rfl
        · rw [if_neg same, ih]
          by_cases usedValue : replaceable value = true
          · rw [List.takeWhile_cons_of_pos usedValue, List.isChain_cons_cons, and_iff_right same]
          · rw [List.takeWhile_cons_of_neg usedValue]
            exact iff_of_true List.isChain_nil (List.isChain_singleton _)
      · rw [settle_fixed (Bool.eq_false_iff.mpr used), List.takeWhile_cons_of_neg used]
        exact iff_of_true ⟨old, rfl⟩ List.isChain_nil

/-- The value in the end is the last one, or one that cannot be replaced. -/
theorem settleAll_chain (chain : (values.takeWhile replaceable).IsChain (· ≠ ·)) (nonempty : values ≠ []) :
    ∃ final ∈ values, settleAll replaceable none values = some (some final) ∧
      (replaceable final = true → (∀ value ∈ values, replaceable value = true) ∧ values.getLast? = some final) := by
  cases values with
  | nil => exact absurd rfl nonempty
  | cons value values =>
      obtain ⟨final, settles⟩ := settle_isSome_iff.mpr chain
      refine ⟨final, settle_mem settles, by rw [settleAll, settles]; rfl, fun used => ?_⟩
      obtain ⟨all, _, last⟩ := (settle_iff used).mp settles
      exact ⟨all, last⟩

theorem settleAll_isSome_iff : (∃ final, settleAll replaceable none values = some final) ↔
    (values.takeWhile replaceable).IsChain (· ≠ ·) := by
  cases values with
  | nil => exact iff_of_true ⟨none, rfl⟩ List.isChain_nil
  | cons value values =>
      rw [← settle_isSome_iff]
      simp only [settleAll, Option.map_eq_some_iff]
      constructor
      · intro settles
        obtain ⟨_, final, isFinal, _⟩ := settles
        exact ⟨final, isFinal⟩
      · intro settles
        obtain ⟨final, isFinal⟩ := settles
        exact ⟨some final, final, isFinal, rfl⟩

/-! ## Cells with different values -/

variable {entries : List (Nat × α)}

omit [DecidableEq α] in
theorem valuesFor_cons (other : Nat) : valuesFor ((cell, value) :: entries) other =
    if cell = other then value :: valuesFor entries other else valuesFor entries other := by
  unfold valuesFor
  by_cases same : cell = other
  · rw [if_pos same, List.filter_cons_of_pos (by simpa using same)]
    rfl
  · rw [if_neg same, List.filter_cons_of_neg (by simpa using same)]

/-- The other cells are left alone. -/
theorem put_other (apart : Apart cells ((cell, value) :: entries))
    (isPut : put replaceable cells cell value = some cells') {other : Nat} (differs : other ≠ cell) :
    cells' other = cells other := by
  obtain ⟨_, rfl⟩ | ⟨old, held, _, _, rfl⟩ | ⟨_, _, _, rfl⟩ := put_cases isPut
  · exact Function.update_of_ne differs ..
  · refine if_neg fun shares => ?_
    exact apart other cell old old differs (.inl shares) (.inl held) rfl
  · rfl

/-- The cell itself goes on with the rest of its values. -/
theorem put_own (isPut : put replaceable cells cell value = some cells') (values : List α) :
    settleAll replaceable (cells' cell) values = settleAll replaceable (cells cell) (value :: values) := by
  obtain ⟨empty, rfl⟩ | ⟨old, held, used, different, rfl⟩ | ⟨old, held, fixed, rfl⟩ := put_cases isPut
  · rw [Function.update_self, empty]
    rfl
  · beta_reduce
    rw [if_pos held, held, settleAll, settleAll, settle, if_pos used, if_neg different]
  · rw [held, settleAll, settleAll, settle_fixed fixed, settle_fixed fixed]

theorem settleAll_eq_none (isNone : put replaceable cells cell value = none) (values : List α) :
    settleAll replaceable (cells cell) (value :: values) = none := by
  obtain ⟨held, used⟩ := put_eq_none_iff.mp isNone
  rw [held, settleAll, settle, if_pos used, if_pos rfl]
  rfl

theorem Apart.rest (apart : Apart cells ((cell, value) :: entries))
    (isPut : put replaceable cells cell value = some cells') : Apart cells' entries := by
  have older : ∀ other held, cells' other = some held ∨ (other, held) ∈ entries →
      cells other = some held ∨ (other, held) ∈ (cell, value) :: entries := by
    intro other held isHeld
    cases isHeld with
    | inr member => exact .inr (List.mem_cons_of_mem _ member)
    | inl isHeld =>
        by_cases same : other = cell
        · subst same
          obtain ⟨_, rfl⟩ | ⟨old, held, _, _, rfl⟩ | ⟨_, _, _, rfl⟩ := put_cases isPut
          · rw [Function.update_self] at isHeld
            cases isHeld
            exact .inr List.mem_cons_self
          · beta_reduce at isHeld
            rw [if_pos held] at isHeld
            cases isHeld
            exact .inr List.mem_cons_self
          · exact .inl isHeld
        · exact .inl (put_other apart isPut same ▸ isHeld)
  exact fun first second value same differ held heldSame =>
    apart first second value same differ (older _ _ held) (older _ _ heldSame)

/-- Then every cell is on its own. -/
theorem putAll_apart (apart : Apart cells entries) : putAll replaceable cells entries = some cells' ↔
    ∀ cell, settleAll replaceable (cells cell) (valuesFor entries cell) = some (cells' cell) := by
  induction entries generalizing cells with
  | nil =>
      have stays : ∀ cell, settleAll replaceable (cells cell) (valuesFor [] cell) = some (cells cell) := by
        intro cell
        cases cells cell <;> rfl
      simp only [stays]
      exact ⟨fun same cell => congrArg (fun cells => some (cells cell)) (Option.some.inj same),
        fun same => congrArg some (funext fun cell => Option.some.inj (same cell))⟩
  | cons entry entries ih =>
      obtain ⟨cell, value⟩ := entry
      rw [putAll_cons]
      cases isPut : put replaceable cells cell value with
      | none =>
          refine iff_of_false (nomatch ·) fun all => ?_
          have own := all cell
          rw [valuesFor_cons, if_pos rfl, settleAll_eq_none isPut] at own
          cases own
      | some middle =>
          rw [Option.bind_some, ih (apart.rest isPut)]
          refine forall_congr' fun other => ?_
          rw [valuesFor_cons]
          by_cases same : cell = other
          · rw [if_pos same, ← same, put_own isPut]
          · rw [if_neg same, put_other apart isPut (Ne.symm same)]

end Cells

end WasmToLlvm.Library

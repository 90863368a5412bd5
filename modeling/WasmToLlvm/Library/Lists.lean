import Mathlib.Data.List.Basic
import Mathlib.Data.List.Forall2
import Mathlib.Data.List.Perm.Basic
import Mathlib.Tactic.Common

/-!
# Lists

Grouping a list by a key, looking up an element by its key, and maps that may fail.
-/

set_option autoImplicit false

namespace WasmToLlvm.Library

variable {α β γ : Type}

/-- Where keys are unique, filtering by the key of an element leaves that element. -/
theorem filter_key [BEq β] [LawfulBEq β] (key : α → β) {list : List α} (element : α)
    (unique : (list.map key).Nodup) (member : element ∈ list) :
    list.filter (fun other => key other == key element) = [element] := by
  induction list with
  | nil => cases member
  | cons first rest ih =>
      obtain ⟨apart, unique⟩ := List.nodup_cons.mp unique
      rcases List.mem_cons.mp member with rfl | inRest
      · have others : rest.filter (fun other => key other == key element) = [] := by
          rw [List.filter_eq_nil_iff]
          intro other inRest same
          exact apart (List.mem_map.mpr ⟨other, inRest, by simpa using same⟩)
        simp [others]
      · have different : (key first == key element) = false := by
          rw [beq_eq_false_iff_ne]
          intro same
          exact apart (List.mem_map.mpr ⟨element, inRest, same.symm⟩)
        rw [List.filter_cons, different, if_neg Bool.false_ne_true, ih unique inRest]

/-- Grouping a list by a bounded key permutes it. -/
theorem flatMap_range_perm (key : α → Nat) {list : List α} {bound : Nat}
    (bounded : ∀ element ∈ list, key element < bound) :
    ((List.range bound).flatMap fun index => list.filter fun element => key element == index).Perm
      list := by
  have split : ∀ count, ((List.range count).flatMap fun index =>
      list.filter fun element => key element == index).Perm
        (list.filter fun element => decide (key element < count)) := by
    intro count
    induction count with
    | zero => simp
    | succ count ih =>
        have parts : (list.filter fun element => decide (key element < count + 1)).Perm
            ((list.filter fun element => decide (key element < count)) ++
              list.filter fun element => key element == count) := by
          have disjoint := List.filter_append_perm (fun element => decide (key element < count))
            (list.filter fun element => decide (key element < count + 1))
          refine disjoint.symm.trans (List.Perm.of_eq ?_)
          rw [List.filter_filter, List.filter_filter]
          congr 1
          · refine List.filter_congr fun element _ => ?_
            simp only [← Bool.decide_and, decide_eq_decide]
            omega
          · refine List.filter_congr fun element _ => ?_
            rw [Bool.eq_iff_iff]
            simp only [Bool.and_eq_true, Bool.not_eq_true', decide_eq_false_iff_not,
              decide_eq_true_eq, beq_iff_eq]
            omega
        rw [List.range_succ, List.flatMap_append, List.flatMap_singleton]
        exact (ih.append_right _).trans parts.symm
  refine (split bound).trans (List.Perm.of_eq ?_)
  rw [List.filter_eq_self]
  intro element member
  simpa using bounded element member

/-- Two maps with the same values: where a property of the second always gives it
for the first, it is the same property. -/
theorem map_perm_pointwise {list : List α} {first second : α → β} (p : β → Prop)
    (same : (list.map first).Perm (list.map second))
    (weaker : ∀ element ∈ list, p (second element) → p (first element)) :
    ∀ element ∈ list, p (first element) → p (second element) := by
  classical
  have counts : list.countP (fun element => decide (p (first element))) =
      list.countP (fun element => decide (p (second element))) := by
    have counted := same.countP_eq (fun value => decide (p value))
    rwa [List.countP_map, List.countP_map] at counted
  clear same
  induction list with
  | nil => exact fun _ member => nomatch member
  | cons head rest ih =>
      have weakerRest : ∀ element ∈ rest, p (second element) → p (first element) :=
        fun element member => weaker element (List.mem_cons_of_mem _ member)
      have below : rest.countP (fun element => decide (p (second element))) ≤
          rest.countP (fun element => decide (p (first element))) :=
        List.countP_mono_left fun element member holds => by
          simpa using weakerRest element member (by simpa using holds)
      have weakerHead := weaker head List.mem_cons_self
      simp only [List.countP_cons, decide_eq_true_eq] at counts
      intro element member holds
      rcases List.mem_cons.mp member with rfl | member
      · by_contra fails
        rw [if_pos holds, if_neg fails] at counts
        omega
      · refine ih weakerRest ?_ element member holds
        by_cases holdsSecond : p (second head)
        · rw [if_pos holdsSecond, if_pos (weakerHead holdsSecond)] at counts
          exact Nat.add_right_cancel counts
        · rw [if_neg holdsSecond] at counts
          exact Nat.le_antisymm (Nat.le_trans (Nat.le_add_right _ _) (Nat.le_of_eq counts)) below

/-- A change of one element that a map does not see. -/
theorem map_modify_same {f : α → β} {change : α → α} (same : ∀ element, f (change element) = f element)
    (list : List α) (index : Nat) : (list.modify index change).map f = list.map f := by
  refine List.ext_getElem? fun other => ?_
  rw [List.getElem?_map, List.getElem?_map, List.getElem?_modify]
  cases list[other]? with
  | none => rfl
  | some element =>
      by_cases here : index = other
      · simp [here, same]
      · simp [here]

/-- A change of the last element. -/
theorem modify_concat (list : List α) (element : α) (change : α → α) :
    (list ++ [element]).modify list.length change = list ++ [change element] := by
  induction list with
  | nil => rfl
  | cons first rest ih =>
      rw [List.cons_append, List.length_cons, List.modify_succ_cons, ih, List.cons_append]

/-- Lists with the same images, element by element. -/
theorem forall₂_of_map_eq {f : α → γ} {g : β → γ} {xs : List α} {ys : List β}
    (same : xs.map f = ys.map g) : List.Forall₂ (fun x y => f x = g y) xs ys := by
  have equal : List.Forall₂ (· = ·) (xs.map f) (ys.map g) := by
    rw [List.forall₂_eq_eq_eq]
    exact same
  exact List.forall₂_map_right_iff.mp (List.forall₂_map_left_iff.mp equal)

theorem map_eq_of_forall₂ {f : α → γ} {g : β → γ} {xs : List α} {ys : List β}
    (same : List.Forall₂ (fun x y => f x = g y) xs ys) : xs.map f = ys.map g := by
  have equal : List.Forall₂ (· = ·) (xs.map f) (ys.map g) :=
    List.forall₂_map_left_iff.mpr (List.forall₂_map_right_iff.mpr same)
  rwa [List.forall₂_eq_eq_eq] at equal

/-- A list read place by place. -/
theorem range_map_getElem? (list : List α) (f : α → β) (default : β) :
    (List.range list.length).map (fun index => ((list[index]?).map f).getD default) = list.map f := by
  refine List.ext_getElem (by simp) fun index inside _ => ?_
  have bound : index < list.length := by simpa using inside
  simp [List.getElem?_eq_getElem bound]

theorem mapM_eq_some_iff {f : α → Option β} {xs : List α} {ys : List β} :
    xs.mapM f = some ys ↔ List.Forall₂ (fun x y => f x = some y) xs ys := by
  induction xs generalizing ys with
  | nil => simp [eq_comm]
  | cons x xs ih =>
      rw [List.mapM_cons, List.forall₂_cons_left_iff]
      simp only [Option.pure_def, Option.bind_eq_bind, Option.bind_eq_some_iff, ih]
      constructor
      · rintro ⟨y, found, ys', rest, same⟩
        exact ⟨y, ys', found, rest, (Option.some.inj same).symm⟩
      · rintro ⟨y, ys', found, rest, rfl⟩
        exact ⟨y, found, ys', rest, rfl⟩

end WasmToLlvm.Library

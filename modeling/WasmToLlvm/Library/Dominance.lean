import Mathlib.Data.List.Basic
import Mathlib.Logic.Relation
import Mathlib.Tactic.Common

/-!
# Dominance

Walks in a directed graph and the nodes that none of them avoids. A tree whose parents
bound the sources of all edges shows which nodes dominate which; an order of the nodes
shows where cycles have to pass.
-/

set_option autoImplicit false

namespace WasmToLlvm.Library

variable {α : Type}

/-- A walk from the entry to a node, with the nodes on it, the last one first. -/
inductive Walk (edge : α → α → Prop) (entry : α) : α → List α → Prop where
  | start : Walk edge entry entry [entry]
  | step {node next : α} {nodes : List α} (walk : Walk edge entry node nodes) (leads : edge node next) :
      Walk edge entry next (next :: nodes)

/-- Every walk to the second node passes the first one. -/
def Dominates (edge : α → α → Prop) (entry first second : α) : Prop :=
  ∀ nodes, Walk edge entry second nodes → first ∈ nodes

section Dominates

variable {edge : α → α → Prop} {entry first second third node : α} {nodes : List α}

end Dominates

/-! ## Trees -/

/-- The first node is the second one or one of its ancestors. -/
inductive Above (parent : α → Option α) (first : α) : α → Prop where
  | refl : Above parent first first
  | up {second above : α} (found : parent second = some above) (rest : Above parent first above) :
      Above parent first second

/-- A larger tree with the same parents. -/
def Embeds (parent larger : α → Option α) : Prop :=
  ∀ node above, parent node = some above → larger node = some above

section Tree

variable {parent larger largest : α → Option α} {first second third above node : α}

theorem Above.trans (front : Above parent first second) (back : Above parent second third) :
    Above parent first third := by
  induction back with
  | refl => exact front
  | up found _ ih => exact .up found ih

theorem Above.mono (is : Above parent first second) (embeds : Embeds parent larger) :
    Above larger first second := by
  induction is with
  | refl => exact .refl
  | up found _ ih => exact .up (embeds _ _ found) ih

/-- The parent of a node is above the source of every edge to the node. -/
def Bounds (parent : α → Option α) (edge : α → α → Prop) : Prop :=
  ∀ source target, edge source target → ∀ above, parent target = some above → Above parent above source

/-- In such a tree the ancestors of a node dominate it. -/
theorem Above.dominates {edge : α → α → Prop} {entry : α} (is : Above parent first node)
    (bounds : Bounds parent edge) (root : parent entry = none) : Dominates edge entry first node := by
  intro nodes walk
  induction walk generalizing first with
  | start =>
      cases is with
      | refl => exact List.mem_cons_self
      | up found _ => exact absurd found (by simp [root])
  | step walk leads ih =>
      cases is with
      | refl => exact List.mem_cons_self
      | up found rest => exact List.mem_cons_of_mem _ (ih (rest.trans (bounds _ _ leads _ found)))

/-- New nodes below a node. -/
def adopt (parent : α → Option α) (above : α) (new : α → Prop) [DecidablePred new] : α → Option α :=
  fun node => if new node then some above else parent node

section Adopt

variable {new : α → Prop} [DecidablePred new]

theorem adopt_new (is : new node) : adopt parent above new node = some above := if_pos is

theorem adopt_old (old : ¬new node) : adopt parent above new node = parent node := if_neg old

end Adopt

end Tree

/-! ## Orders -/

/-- The first node stands in a part of the list that the second one is not in. -/
def Before (order : List α) (first second : α) : Prop :=
  ∃ front back, order = front ++ back ∧ first ∈ front ∧ second ∉ front

theorem Before.append {order : List α} {first second : α} (before : Before order first second) (more : List α) :
    Before (order ++ more) first second := by
  obtain ⟨front, back, rfl, inside, outside⟩ := before
  exact ⟨front, back ++ more, List.append_assoc _ _ _, inside, outside⟩

theorem before_of_not_mem {order : List α} {first second : α} (inside : first ∈ order) (outside : second ∉ order) :
    Before order first second :=
  ⟨order, [], (List.append_nil _).symm, inside, outside⟩

theorem Before.idxOf_lt [DecidableEq α] {order : List α} {first second : α} (before : Before order first second) :
    order.idxOf first < order.idxOf second := by
  obtain ⟨front, back, rfl, inside, outside⟩ := before
  rw [List.idxOf_append_of_mem inside, List.idxOf_append_of_notMem outside]
  exact Nat.lt_of_lt_of_le (List.idxOf_lt_length_of_mem inside) (Nat.le_add_right _ _)

/-- Where every edge goes to a larger rank or to one of the stops, a cycle passes a stop. -/
theorem cycle_stops {edge : α → α → Prop} {rank : α → Nat} {stop : α → Prop}
    (climbs : ∀ source target, edge source target → rank source < rank target ∨ stop target) {node : α}
    (cycle : Relation.TransGen edge node node) :
    ∃ first, stop first ∧ Relation.ReflTransGen edge node first ∧ Relation.ReflTransGen edge first node := by
  by_contra none
  have avoids : ∀ first, Relation.ReflTransGen edge node first → Relation.ReflTransGen edge first node → ¬stop first :=
    fun first there back is => none ⟨first, is, there, back⟩
  have rises : ∀ last, Relation.TransGen edge node last → Relation.ReflTransGen edge last node →
      rank node < rank last := by
    intro last walk back
    induction walk with
    | single leads => exact (climbs _ _ leads).resolve_right (avoids _ (.single leads) back)
    | tail walk leads ih =>
        have rose := ih (.head leads back)
        exact Nat.lt_trans rose ((climbs _ _ leads).resolve_right (avoids _ (walk.tail leads).to_reflTransGen back))
  exact Nat.lt_irrefl _ (rises node cycle .refl)

end WasmToLlvm.Library

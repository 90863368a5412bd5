import Mathlib.Data.List.Basic
import Mathlib.Tactic.Common

/-!
# Overwriting parts of a list

Pieces that are written one after another; the last one that covers a place decides it.
-/

set_option autoImplicit false

namespace WasmToLlvm.Library

variable {α : Type}

/-- Replaces the elements from an offset on. -/
def overwrite (buffer : List α) (offset : Nat) (data : List α) : List α :=
  buffer.take offset ++ data ++ buffer.drop (offset + data.length)

/-- The element that a piece gives to a place. -/
def pieceAt (piece : Nat × List α) (place : Nat) : Option α :=
  if piece.1 ≤ place then piece.2[place - piece.1]? else none

/-- The element from the last piece that covers a place. -/
def lastPiece (pieces : List (Nat × List α)) (place : Nat) : Option α :=
  pieces.foldl (fun found piece => (pieceAt piece place).or found) none

def overwriteAll (buffer : List α) (pieces : List (Nat × List α)) : List α :=
  pieces.foldl (fun buffer piece => overwrite buffer piece.1 piece.2) buffer

variable {buffer data : List α} {offset place : Nat} {pieces : List (Nat × List α)}

theorem overwrite_length (inside : offset + data.length ≤ buffer.length) :
    (overwrite buffer offset data).length = buffer.length := by
  simp only [overwrite, List.length_append, List.length_take, List.length_drop]
  omega

theorem overwrite_getElem? (inside : offset + data.length ≤ buffer.length) :
    (overwrite buffer offset data)[place]? = (pieceAt (offset, data) place).or buffer[place]? := by
  have taken : (buffer.take offset).length = offset := by
    rw [List.length_take]
    omega
  rw [overwrite, List.append_assoc, List.getElem?_append, taken, pieceAt]
  by_cases before : place < offset
  · rw [if_pos before, if_neg (by omega), List.getElem?_take_of_lt before]
    rfl
  · rw [if_neg before, if_pos (by omega), List.getElem?_append]
    by_cases covered : place - offset < data.length
    · rw [if_pos covered, List.getElem?_eq_getElem covered]
      rfl
    · rw [if_neg covered, List.getElem?_drop, List.getElem?_eq_none (Nat.le_of_not_lt covered),
        Option.none_or]
      congr 1
      omega

/-- What was found before matters only where no later piece covers the place. -/
theorem foldl_pieceAt (found : Option α) :
    pieces.foldl (fun found piece => (pieceAt piece place).or found) found =
      (lastPiece pieces place).or found := by
  induction pieces generalizing found with
  | nil => rfl
  | cons piece pieces ih =>
      rw [lastPiece, List.foldl_cons, List.foldl_cons, ih, ih, Option.or_none, Option.or_assoc]

theorem lastPiece_cons (piece : Nat × List α) :
    lastPiece (piece :: pieces) place = (lastPiece pieces place).or (pieceAt piece place) := by
  rw [lastPiece, List.foldl_cons, Option.or_none, foldl_pieceAt]

/-- Every place has what the last piece covering it gives, or what was there. -/
theorem overwriteAll_getElem? (inside : ∀ piece ∈ pieces, piece.1 + piece.2.length ≤ buffer.length) :
    (overwriteAll buffer pieces)[place]? = (lastPiece pieces place).or buffer[place]? := by
  induction pieces generalizing buffer with
  | nil => rfl
  | cons piece pieces ih =>
      have fits := inside piece List.mem_cons_self
      have later : ∀ other ∈ pieces,
          other.1 + other.2.length ≤ (overwrite buffer piece.1 piece.2).length := by
        intro other member
        rw [overwrite_length fits]
        exact inside other (List.mem_cons_of_mem _ member)
      rw [overwriteAll, List.foldl_cons]
      refine (ih later).trans ?_
      rw [overwrite_getElem? fits, lastPiece_cons, Option.or_assoc]

/-! ## The last piece -/

/-- The places of a piece are places of another one. -/
def Inside (piece other : Nat × List α) : Prop :=
  piece.2 = [] ∨ other.1 ≤ piece.1 ∧ piece.1 + piece.2.length ≤ other.1 + other.2.length

section Last

variable {piece other last : Nat × List α} {size : Nat}

theorem pieceAt_eq_none_iff :
    pieceAt piece place = none ↔ ¬(piece.1 ≤ place ∧ place < piece.1 + piece.2.length) := by
  unfold pieceAt
  split
  · rw [List.getElem?_eq_none_iff]
    omega
  · rename_i before
    exact iff_of_true rfl fun covered => before covered.1

theorem pieceAt_empty (empty : piece.2 = []) : pieceAt piece place = none := by
  rw [pieceAt_eq_none_iff, empty, List.length_nil]
  omega

theorem lastPiece_concat :
    lastPiece (pieces ++ [piece]) place = (pieceAt piece place).or (lastPiece pieces place) := by
  rw [lastPiece, List.foldl_append]
  rfl

theorem lastPiece_eq_none_iff : lastPiece pieces place = none ↔ ∀ piece ∈ pieces, pieceAt piece place = none := by
  induction pieces with
  | nil => exact iff_of_true rfl nofun
  | cons piece pieces ih => rw [lastPiece_cons, Option.or_eq_none_iff, ih, List.forall_mem_cons, and_comm]

theorem lastPiece_mem {value : α} (found : lastPiece pieces place = some value) :
    ∃ piece ∈ pieces, pieceAt piece place = some value := by
  induction pieces with
  | nil => cases found
  | cons piece pieces ih =>
      rw [lastPiece_cons, Option.or_eq_some_iff] at found
      cases found with
      | inl later =>
          obtain ⟨other, member, given⟩ := ih later
          exact ⟨other, List.mem_cons_of_mem _ member, given⟩
      | inr own => exact ⟨piece, List.mem_cons_self, own.2⟩

/-- Every place of a piece is covered by another one exactly if the piece is inside. -/
theorem inside_iff (bound : piece.1 + piece.2.length ≤ size) :
    Inside piece other ↔ ∀ place < size, pieceAt other place = none → pieceAt piece place = none := by
  simp only [pieceAt_eq_none_iff]
  constructor
  · intro inside place _ uncovered covered
    cases inside with
    | inl empty =>
        rw [empty, List.length_nil] at covered
        omega
    | inr inside => exact uncovered (by omega)
  · intro covers
    by_cases empty : piece.2 = []
    · exact .inl empty
    · have length : 0 < piece.2.length := List.length_pos_of_ne_nil empty
      have first := covers piece.1 (by omega)
      have final := covers (piece.1 + piece.2.length - 1) (by omega)
      refine .inr ?_
      by_contra outside
      by_cases starts : other.1 ≤ piece.1 ∧ piece.1 < other.1 + other.2.length
      · exact final (by omega) (by omega)
      · exact first starts (by omega)

/-- The last piece alone gives what all give exactly if all are inside. -/
theorem lastPiece_eq_pieceAt_iff (bound : ∀ piece ∈ pieces, piece.1 + piece.2.length ≤ size) :
    (∀ place < size, lastPiece (pieces ++ [last]) place = pieceAt last place) ↔ ∀ piece ∈ pieces, Inside piece last := by
  have inside : (∀ piece ∈ pieces, Inside piece last) ↔
      ∀ piece ∈ pieces, ∀ place < size, pieceAt last place = none → pieceAt piece place = none :=
    forall₂_congr fun piece member => inside_iff (bound piece member)
  rw [inside]
  constructor
  · intro same piece member place covered uncovered
    have none_ := same place covered
    rw [lastPiece_concat, uncovered, Option.none_or] at none_
    exact lastPiece_eq_none_iff.mp none_ piece member
  · intro covers place covered
    rw [lastPiece_concat]
    cases found : pieceAt last place with
    | some value => rfl
    | none => exact lastPiece_eq_none_iff.mpr fun piece member => covers piece member place covered found

end Last

end WasmToLlvm.Library

import Mathlib.Data.List.Nodup
import Mathlib.Data.List.Perm.Subperm
import Mathlib.Tactic.Common

/-!
# Names

Names as sequences of characters, and the choice of a name that is not taken.
-/

set_option autoImplicit false

namespace WasmToLlvm.Library

abbrev Name := List Char

/-- The decimal digits of a number. -/
def digits (number : Nat) : Name := Nat.toDigits 10 number

/-- The value of a hexadecimal digit. -/
def hexDigit (char : Char) : Option Nat :=
  if '0' ≤ char ∧ char ≤ '9' then some (char.toNat - '0'.toNat)
  else if 'a' ≤ char ∧ char ≤ 'f' then some (char.toNat - 'a'.toNat + 10)
  else none

/-- The number with these hexadecimal digits. -/
def readHex (chars : Name) : Option Nat :=
  chars.foldlM (fun value char => (hexDigit char).map (16 * value + ·)) 0

theorem hexDigit_digitChar {digit : Nat} (small : digit < 16) : hexDigit digit.digitChar = some digit := by
  have all : ∀ digit < 16, hexDigit digit.digitChar = some digit := by decide
  exact all digit small

theorem readHex_toDigits (number : Nat) : readHex (Nat.toDigits 16 number) = some number := by
  induction number using Nat.strongRecOn with
  | ind number ih =>
      by_cases small : number < 16
      · rw [Nat.toDigits_of_lt_base small, readHex, List.foldlM_cons, hexDigit_digitChar small]
        simp
      · have smaller : number / 16 < number := by omega
        have quotient := ih (number / 16) smaller
        have digit : number % 16 < 16 := Nat.mod_lt _ (by decide)
        rw [readHex] at quotient
        rw [Nat.toDigits_of_base_le (by decide) (Nat.le_of_not_lt small), readHex, List.foldlM_append, quotient,
          Option.bind_eq_bind, Option.bind_some, List.foldlM_cons, hexDigit_digitChar digit]
        simp
        omega

def numbered (base : Name) (number : Nat) : Name := base ++ '.' :: digits number

/-- The name itself, or with the first number above `last` for which it is not taken, and
the last number that was used. -/
def uniqueName (taken : List Name) (last : Nat) (base : Name) : Name × Nat :=
  if base ∈ taken then
    match (List.range' (last + 1) (taken.length + 1)).find? fun number => numbered base number ∉ taken with
    | some number => (numbered base number, number)
    | none => (base, last)
  else (base, last)

example : uniqueName [['a'], ['a', '.', '1']] 0 ['a'] = (['a', '.', '2'], 2) := by decide

/-! ## The chosen name -/

variable {taken : List Name} {last number other : Nat} {base : Name}

theorem digits_injective (same : digits number = digits other) : number = other := by
  have values := congrArg (Nat.ofDigitChars 10 · 0) same
  simpa [digits] using values

theorem numbered_injective (same : numbered base number = numbered base other) : number = other :=
  digits_injective (List.cons.inj (List.append_cancel_left same)).2

theorem isDigit_of_mem_digits {char : Char} (member : char ∈ digits number) : char.isDigit = true :=
  Nat.isDigit_of_mem_toDigits (by decide) (by decide) member

theorem digits_head (number : Nat) : ∃ char tail, digits number = char :: tail ∧ char.isDigit = true := by
  cases isDigits : digits number with
  | nil => exact absurd isDigits Nat.toDigits_ne_nil
  | cons char tail => exact ⟨char, tail, rfl, isDigit_of_mem_digits (isDigits ▸ List.mem_cons_self)⟩

theorem digits_append_ne {rest tail : Name} {char : Char} (letter : char.isDigit = false) :
    digits number ++ rest ≠ char :: tail := by
  intro same
  obtain ⟨first, digitTail, isDigits, isDigit⟩ := digits_head number
  rw [isDigits, List.cons_append] at same
  rw [(List.cons.inj same).1, letter] at isDigit
  cases isDigit

theorem takeWhile_digits {rest : Name} (ends : ∀ char ∈ rest.head?, char.isDigit = false) :
    (digits number ++ rest).takeWhile Char.isDigit = digits number := by
  rw [List.takeWhile_append_of_pos fun char member => isDigit_of_mem_digits member]
  cases rest with
  | nil => exact List.append_nil _
  | cons char rest => rw [List.takeWhile_cons_of_neg (by rw [ends char rfl]; exact Bool.false_ne_true), List.append_nil]

/-- A number ends where the next character is no digit. -/
theorem digits_append_inj {rest rest' : Name} (ends : ∀ char ∈ rest.head?, char.isDigit = false)
    (ends' : ∀ char ∈ rest'.head?, char.isDigit = false) (same : digits number ++ rest = digits other ++ rest') :
    number = other ∧ rest = rest' := by
  have sameDigits : digits number = digits other :=
    (takeWhile_digits ends).symm.trans ((congrArg (List.takeWhile Char.isDigit) same).trans (takeWhile_digits ends'))
  rw [sameDigits] at same
  exact ⟨digits_injective sameDigits, List.append_cancel_left same⟩

/-- One of as many numbers as there are names, and one more, gives a new name. -/
theorem exists_numbered_not_mem (taken : List Name) (base : Name) (last : Nat) :
    ∃ number ∈ List.range' (last + 1) (taken.length + 1), numbered base number ∉ taken := by
  by_contra none_
  have all : (List.range' (last + 1) (taken.length + 1)).map (numbered base) ⊆ taken := by
    intro name member
    obtain ⟨number, inRange, rfl⟩ := List.mem_map.mp member
    by_contra free
    exact none_ ⟨number, inRange, free⟩
  have distinct : ((List.range' (last + 1) (taken.length + 1)).map (numbered base)).Nodup :=
    List.Nodup.map (fun _ _ same => numbered_injective same) (List.nodup_range' 1)
  have bound := (List.subperm_of_subset distinct all).length_le
  rw [List.length_map, List.length_range'] at bound
  exact Nat.not_succ_le_self _ bound

theorem uniqueName_free (free : base ∉ taken) : uniqueName taken last base = (base, last) := by
  rw [uniqueName, if_neg free]

/-- The name itself, or one with a number if it is taken. -/
theorem uniqueName_cases (taken : List Name) (last : Nat) (base : Name) :
    (base ∉ taken ∧ (uniqueName taken last base).1 = base) ∨
      (base ∈ taken ∧ ∃ number, (uniqueName taken last base).1 = numbered base number ∧ numbered base number ∉ taken) := by
  by_cases isTaken : base ∈ taken
  · obtain ⟨number, inRange, free⟩ := exists_numbered_not_mem taken base last
    rw [uniqueName, if_pos isTaken]
    cases found : (List.range' (last + 1) (taken.length + 1)).find? fun number => numbered base number ∉ taken with
    | none =>
        have taken_ := List.find?_eq_none.mp found number inRange
        simp only [free, not_false_eq_true, decide_true, not_true_eq_false] at taken_
    | some chosen =>
        have isFree := List.find?_some found
        exact .inr ⟨isTaken, chosen, rfl, of_decide_eq_true isFree⟩
  · exact .inl ⟨isTaken, by rw [uniqueName_free isTaken]⟩

theorem uniqueName_not_mem (taken : List Name) (last : Nat) (base : Name) : (uniqueName taken last base).1 ∉ taken := by
  cases uniqueName_cases taken last base with
  | inl free =>
      rw [free.2]
      exact free.1
  | inr suffixed =>
      obtain ⟨_, number, same, free⟩ := suffixed
      rw [same]
      exact free

theorem dot_mem_numbered (base : Name) (number : Nat) : '.' ∈ numbered base number :=
  List.mem_append_right base List.mem_cons_self

/-- A name without a dot is chosen only for itself. -/
theorem uniqueName_of_no_dot {name : Name} (noDot : '.' ∉ name) (chosen : (uniqueName taken last base).1 = name) :
    base = name ∧ name ∉ taken := by
  cases uniqueName_cases taken last base with
  | inl free =>
      have same := free.2.symm.trans chosen
      exact ⟨same, same ▸ free.1⟩
  | inr suffixed =>
      obtain ⟨_, number, same, _⟩ := suffixed
      exact absurd (chosen ▸ same ▸ dot_mem_numbered base number) noDot

/-- A name is chosen for a name. -/
theorem uniqueName_eq_nil_iff : (uniqueName taken last base).1 = [] ↔ base = [] ∧ [] ∉ taken := by
  constructor
  · exact uniqueName_of_no_dot List.not_mem_nil
  · intro empty
    rw [empty.1, uniqueName_free empty.2]

end WasmToLlvm.Library

/-
Truth values of a relational query.

A comparison with NULL is neither true nor false, and a `WHERE` clause keeps a row only if its
condition is true. `AND` is false as soon as one side is, whatever the other one is; `CASE WHEN`
takes its `ELSE` branch on a condition that is NULL.

A truth value is an optional Boolean, with `none` for NULL. The lemmas compute the connectives on
values that are known, and say which of them a `WHERE` sees through.
-/
import Mathlib.Logic.Basic

set_option autoImplicit false

namespace Wefty.SqlTruth

universe u v

/-- A truth value; `none` is NULL. -/
abbrev Truth := Option Bool

/-- A `WHERE` clause keeps the row. -/
def holds (t : Truth) : Bool := t == some true

/-- `AND`. -/
def conj : Truth → Truth → Truth
  | some false, _ => some false
  | _, some false => some false
  | some true, some true => some true
  | _, _ => none

/-- `NOT`. -/
def neg (t : Truth) : Truth := t.map not

/-- A comparison of two operands either of which may be NULL. -/
def relate {α : Type u} {β : Type v} (r : α → β → Bool) (x : Option α) (y : Option β) : Truth :=
  match x, y with
  | some a, some b => some (r a b)
  | _, _ => none

/-- `IS NOT NULL`. -/
def isNotNull {α : Type u} (x : Option α) : Truth := some x.isSome

/-- `CASE WHEN c THEN t ELSE e END`. -/
def caseWhen (c t e : Truth) : Truth := if holds c then t else e

section
variable {α : Type u} {β : Type v}

@[simp]
theorem holds_some (b : Bool) : holds (some b) = b := by
  cases b <;> rfl

@[simp]
theorem conj_some (a b : Bool) : conj (some a) (some b) = some (a && b) := by
  cases a <;> cases b <;> rfl

/-- A side that is false decides. -/
@[simp]
theorem conj_false_left (t : Truth) : conj (some false) t = some false := by
  rcases t with _ | _ | _ <;> rfl

/-- A row passes a conjunction if it passes both sides. -/
theorem holds_conj (s t : Truth) : holds (conj s t) = (holds s && holds t) := by
  rcases s with _ | _ | _ <;> rcases t with _ | _ | _ <;> rfl

@[simp]
theorem neg_some (b : Bool) : neg (some b) = some (!b) := rfl

@[simp]
theorem relate_some (r : α → β → Bool) (a : α) (b : β) :
    relate r (some a) (some b) = some (r a b) := rfl

@[simp]
theorem relate_none_left (r : α → β → Bool) (y : Option β) : relate r none y = none := rfl

@[simp]
theorem holds_none : holds none = false := rfl

@[simp]
theorem isNotNull_some (a : α) : isNotNull (some a) = some true := rfl

@[simp]
theorem isNotNull_none : isNotNull (none : Option α) = some false := rfl

@[simp]
theorem caseWhen_some (c : Bool) (t e : Truth) : caseWhen (some c) t e = if c then t else e := by
  rw [caseWhen, holds_some]

end

end Wefty.SqlTruth

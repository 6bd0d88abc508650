import Mathlib.Algebra.Order.Ring.Int

/-! The machine's 64-bit numbers: each operation gives none where its result is no number of
its type. -/

namespace McpSerial

def toI64 (n : Int) : Option Int := if -2 ^ 63 ≤ n ∧ n < 2 ^ 63 then some n else none

/-- A cast to `u64`, none for a number that it changes. -/
def toU64 (n : Int) : Option Nat := if 0 ≤ n ∧ n < 2 ^ 64 then some n.toNat else none

def toU32 (n : Nat) : Option Nat := if n < 2 ^ 32 then some n else none

/-- `a - b` on `usize` and `u64`. -/
def checkedSub (a b : Nat) : Option Nat := if b ≤ a then some (a - b) else none

def checkedAdd (a b : Nat) : Option Nat := if a + b < 2 ^ 64 then some (a + b) else none

def checkedMul (a b : Nat) : Option Nat := if a * b < 2 ^ 64 then some (a * b) else none

variable {a b : Nat}

theorem toI64_eq {n : Int} (h : n.natAbs < 2 ^ 63) : toI64 n = some n := if_pos (by omega)

theorem toU64_eq {n : Int} (h : n = a) (ha : a < 2 ^ 64) : toU64 n = some a := by
  subst h
  exact if_pos (by omega)

theorem toU32_eq (h : a < 2 ^ 32) : toU32 a = some a := if_pos h

theorem checkedSub_eq (h : b ≤ a) : checkedSub a b = some (a - b) := if_pos h

theorem checkedAdd_eq (h : a + b < 2 ^ 64) : checkedAdd a b = some (a + b) := if_pos h

theorem checkedMul_eq (h : a * b < 2 ^ 64) : checkedMul a b = some (a * b) := if_pos h

end McpSerial

import Mathlib.Data.Nat.ModEq
import Mathlib.Data.Nat.Prime.Basic

/-! Steps of mixing functions that lose nothing of a word, and walks through words that meet
none twice. -/

namespace Mixing

variable {w : Nat}

theorem xorShift_injective {k : Nat} (hk : 0 < k) :
    Function.Injective fun x : BitVec w => x ^^^ (x >>> k) := by
  intro x y h
  have hhigh (n : Nat) : ∀ i, w ≤ i + n → x.getLsbD i = y.getLsbD i := by
    induction n with
    | zero =>
      intro i hi
      rw [BitVec.getLsbD_of_ge x i hi, BitVec.getLsbD_of_ge y i hi]
    | succ n ih =>
      intro i hi
      have hshifted : x.getLsbD (k + i) = y.getLsbD (k + i) := ih (k + i) (by omega)
      have hbit : (x.getLsbD i ^^ x.getLsbD (k + i)) = (y.getLsbD i ^^ y.getLsbD (k + i)) := by
        simpa using congrArg (fun z => BitVec.getLsbD z i) h
      rw [hshifted] at hbit
      exact Bool.xor_left_inj.mp hbit
  exact BitVec.eq_of_getLsbD_eq fun i _ => hhigh w i (Nat.le_add_left w i)

theorem mul_odd_injective {m : BitVec w} (hm : m.toNat % 2 = 1) :
    Function.Injective fun x : BitVec w => x * m := by
  intro x y h
  have hcoprime : Nat.gcd (2 ^ w) m.toNat = 1 :=
    Nat.Coprime.pow_left w ((Nat.odd_iff.mpr hm).coprime_two_left)
  have hmod : x.toNat * m.toNat % 2 ^ w = y.toNat * m.toNat % 2 ^ w := by
    simpa only [BitVec.toNat_mul] using congrArg BitVec.toNat h
  have hsame := Nat.ModEq.cancel_right_of_coprime hcoprime hmod
  exact BitVec.eq_of_toNat_eq (hsame.eq_of_lt_of_lt x.isLt y.isLt)

/-- Steps of one odd length meet no word twice in one round. -/
theorem walk_injective {s g : BitVec w} (hg : g.toNat % 2 = 1) {i j : Nat} (hi : i < 2 ^ w)
    (hj : j < 2 ^ w) (h : s + BitVec.ofNat w i * g = s + BitVec.ofNat w j * g) : i = j := by
  have hsame : BitVec.ofNat w i = BitVec.ofNat w j :=
    mul_odd_injective hg ((BitVec.add_right_inj s).mp h)
  have htoNat := congrArg BitVec.toNat hsame
  rwa [BitVec.toNat_ofNat, BitVec.toNat_ofNat, Nat.mod_eq_of_lt hi, Nat.mod_eq_of_lt hj] at htoNat

theorem walk_succ (s g : BitVec w) (i : Nat) :
    s + BitVec.ofNat w (i + 1) * g = s + BitVec.ofNat w i * g + g := by
  rw [BitVec.ofNat_add, BitVec.add_mul, BitVec.add_assoc, BitVec.one_mul]

end Mixing

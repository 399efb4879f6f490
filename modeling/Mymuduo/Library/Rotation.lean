import Mathlib.Data.Int.CardIntervalMod

/-!
# Taking turns

Requests numbered from zero are given to `n` parties in turn. After any number of
requests two parties have been given the same number, but for one.
-/

namespace Mymuduo.Library

/-- Who is given each of the first `m` requests. -/
def turns (n m : Nat) : List Nat := (List.range m).map (· % n)

theorem turns_succ (n m : Nat) : turns n (m + 1) = turns n m ++ [m % n] := by
  simp [turns, List.range_succ]

/-- Until everyone has had a turn the requests go to different parties. -/
theorem turns_of_le {n m : Nat} (h : m ≤ n) : turns n m = List.range m := by
  refine (List.map_congr_left fun k hk => ?_).trans (List.map_id _)
  exact Nat.mod_eq_of_lt (by have := List.mem_range.mp hk; omega)

theorem count_turns_eq {n i : Nat} (m : Nat) (hi : i < n) :
    (turns n m).count i = Nat.count (· ≡ i [MOD n]) m := by
  induction m with
  | zero => simp [turns]
  | succ m ih =>
    rw [turns_succ, List.count_append, ih, Nat.count_succ, List.count_singleton]
    have hturn : m % n = i ↔ m ≡ i [MOD n] := by rw [Nat.ModEq, Nat.mod_eq_of_lt hi]
    simp only [beq_iff_eq, hturn]

/-- Everyone has had `m / n` turns, and the first `m % n` one more. -/
theorem count_turns {n i : Nat} (m : Nat) (hi : i < n) :
    (turns n m).count i = m / n + if i < m % n then 1 else 0 := by
  rw [count_turns_eq m hi, Nat.count_modEq_card m (by omega), Nat.mod_eq_of_lt hi]

theorem turns_balanced {n i j : Nat} (m : Nat) (hi : i < n) (hj : j < n) :
    (turns n m).count i ≤ (turns n m).count j + 1 := by
  rw [count_turns m hi, count_turns m hj]
  split <;> omega

end Mymuduo.Library

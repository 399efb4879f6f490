import Mathlib.Logic.Function.Basic
import Mymuduo.Library.Execution

/-!
# Potentials

A potential assigns to every state a number, the work that it still owes. Where every step that a
system takes on its own accord uses some of it up, and any other step raises it by a price at most,
the steps of the first kind are no more than what has been paid for. Where in addition a state that
is not at rest can go on, the system comes to rest. The potential of a family of parties is the
total of theirs.
-/

namespace Mymuduo.Library.Potential

open Mymuduo.Library.Execution

universe u v

variable {σ : Type u} {α : Type v}

/-- While an invariant is kept, the steps that `own` marks are paid for out of the potential `φ`. -/
structure Pays (step : σ → α → Option σ) (Inv : σ → Prop) (own : α → Bool) (price : α → Nat)
    (φ : σ → Nat) : Prop where
  keeps : ∀ {s a s'}, Inv s → step s a = some s' → Inv s'
  spends : ∀ {s a s'}, Inv s → step s a = some s' → own a = true → φ s' < φ s
  raises : ∀ {s a s'}, Inv s → step s a = some s' → own a = false → φ s' ≤ φ s + price a

/-- What the steps that `own` does not mark cost together. -/
def cost (own : α → Bool) (price : α → Nat) : List α → Nat
  | [] => 0
  | a :: as => (if own a then 0 else price a) + cost own price as

variable {step : σ → α → Option σ} {Inv : σ → Prop} {own : α → Bool} {price : α → Nat} {φ : σ → Nat}

theorem Pays.count_add_le (h : Pays step Inv own price φ) {s s' : σ} {as : List α} (hs : Inv s)
    (hr : exec step s as = some s') : as.countP own + φ s' ≤ φ s + cost own price as := by
  induction as generalizing s with
  | nil =>
    obtain rfl := Option.some.inj hr
    exact Nat.le_of_eq (Nat.add_comm _ _)
  | cons a as ih =>
    obtain ⟨t, ht, hrest⟩ := exec_cons_some.mp hr
    have htail := ih (h.keeps hs ht) hrest
    cases ho : own a with
    | true =>
      have hless := h.spends hs ht ho
      rw [List.countP_cons_of_pos ho, cost, if_pos ho]
      omega
    | false =>
      have hmore := h.raises hs ht ho
      rw [List.countP_cons_of_neg (by simp [ho]), cost, if_neg (by simp [ho])]
      omega

/-- Where every allowed step uses up some of the potential, a run of allowed steps is no longer than
the potential is high. -/
theorem length_add_le {ok : σ → α → Prop}
    (hstep : ∀ s a s', Inv s → ok s a → step s a = some s' → Inv s' ∧ φ s' < φ s)
    {s s' : σ} {as : List α} (hs : Inv s) (hg : Guarded step ok s as)
    (hr : exec step s as = some s') : as.length + φ s' ≤ φ s := by
  induction as generalizing s with
  | nil =>
    obtain rfl := Option.some.inj hr
    exact Nat.le_of_eq (Nat.zero_add _)
  | cons a as ih =>
    obtain ⟨t, ht, hrest⟩ := exec_cons_some.mp hr
    obtain ⟨hinv, hless⟩ := hstep s a t hs hg.1 ht
    have htail := ih hinv (hg.2 t ht) hrest
    rw [List.length_cons]
    omega

/-- Where a state at rest is always reached or a few steps use up some of the potential, a state at
rest is reached, with `k` steps for each unit of the potential at most. -/
theorem exists_rest {rest : σ → Prop} {allowed : α → Prop} {k : Nat}
    (hstep : ∀ s, Inv s → rest s ∨ ∃ as s', exec step s as = some s' ∧ (∀ a ∈ as, allowed a) ∧
      Inv s' ∧ φ s' < φ s ∧ as.length ≤ k) (s : σ) (hs : Inv s) :
    ∃ as s', exec step s as = some s' ∧ (∀ a ∈ as, allowed a) ∧ Inv s' ∧ rest s' ∧
      as.length ≤ k * φ s := by
  induction hφ : φ s using Nat.strongRecOn generalizing s with
  | _ n ih =>
    rcases hstep s hs with hrest | ⟨as, t, hexec, hallowed, ht, hless, hlength⟩
    · exact ⟨[], s, rfl, nofun, hs, hrest, Nat.zero_le _⟩
    · obtain ⟨bs, s', hexec', hallowed', hs', hrest, hlength'⟩ := ih (φ t) (hφ ▸ hless) t ht rfl
      refine ⟨as ++ bs, s', ?_, fun a ha => ?_, hs', hrest, ?_⟩
      · rw [exec_append, hexec]
        exact hexec'
      · exact (List.mem_append.mp ha).elim (hallowed a) (hallowed' a)
      · have hunit : k * φ t + k ≤ k * n := by
          rw [← Nat.mul_succ]
          exact Nat.mul_le_mul_left k (hφ ▸ hless)
        rw [List.length_append]
        omega

/-- The total of the first `n` numbers. -/
def total (f : Nat → Nat) : Nat → Nat
  | 0 => 0
  | n + 1 => total f n + f n

theorem total_congr {f g : Nat → Nat} {n : Nat} (h : ∀ k, k < n → f k = g k) :
    total f n = total g n := by
  induction n with
  | zero => rfl
  | succ n ih =>
    have hn := h n (Nat.lt_succ_self n)
    rw [total, total, hn, ih (fun k hk => h k (Nat.lt_succ_of_lt hk))]

theorem total_const {f : Nat → Nat} {c : Nat} (h : ∀ k, f k = c) (n : Nat) :
    total f n = c * n := by
  induction n with
  | zero => rfl
  | succ n ih => rw [total, ih, h n, Nat.mul_succ]

/-- One of the parties changes. -/
theorem total_update {τ : Type u} (w : τ → Nat) (f : Nat → τ) (t : τ) {j n : Nat} (hj : j < n) :
    total (fun k => w (Function.update f j t k)) n + w (f j) =
      total (fun k => w (f k)) n + w t := by
  induction n with
  | zero => exact absurd hj (Nat.not_lt_zero j)
  | succ n ih =>
    rw [total, total]
    rcases Nat.lt_succ_iff_lt_or_eq.mp hj with hlt | rfl
    · have hother := ih hlt
      rw [Function.update_of_ne (Nat.ne_of_gt hlt)]
      omega
    · have hsame : total (fun k => w (Function.update f j t k)) j = total (fun k => w (f k)) j :=
        total_congr fun k hk => by rw [Function.update_of_ne (Nat.ne_of_lt hk)]
      rw [Function.update_self, hsame]
      omega

end Mymuduo.Library.Potential

import Mathlib.Data.List.Basic

/-!
# Programs that can end the process

A program reads and changes a state, and it returns a value unless it ends the process
first. `Triple P m Q E` says that `m`, started in a state with `P`, returns in a state with
`Q`, or ends the process in a state with `E`. The rules follow the way a program is built.
-/

namespace Mymuduo.Library

universe u

abbrev Halting (σ α : Type u) := OptionT (StateM σ) α

namespace Halting

variable {σ α β : Type u}

/-- What a program returns, `none` if it has ended the process, and the state it leaves. -/
def result (m : Halting σ α) (s : σ) : Option α × σ := (m.run.run s).run

def Triple (P : σ → Prop) (m : Halting σ α) (Q : α → σ → Prop) (E : σ → Prop) : Prop :=
  ∀ s, P s →
    match m.result s with
    | (some a, s') => Q a s'
    | (none, s') => E s'

variable {P P' : σ → Prop} {Q Q' : α → σ → Prop} {R : β → σ → Prop} {E : σ → Prop}

/-! ## Results -/

@[simp] theorem result_pure (a : α) (s : σ) : (pure a : Halting σ α).result s = (some a, s) := rfl

@[simp] theorem result_get (s : σ) : (get : Halting σ σ).result s = (some s, s) := rfl

@[simp] theorem result_set (s t : σ) :
    (set t : Halting σ PUnit).result s = (some .unit, t) := rfl

theorem result_bind (m : Halting σ α) (k : α → Halting σ β) (s : σ) :
    (m >>= k).result s =
      match m.result s with
      | (some a, s') => (k a).result s'
      | (none, s') => (none, s') := by
  show ((m.run >>= fun o => match o with
    | some a => (k a).run
    | none => pure none).run s).run = _
  rw [StateT.run_bind]
  rcases h : m.result s with ⟨_ | a, s'⟩
  · have hm : m.run.run s = (none, s') := h
    rw [hm]
    rfl
  · have hm : m.run.run s = (some a, s') := h
    rw [hm]
    rfl

/-! ## Rules -/

theorem Triple.pure {a : α} (h : ∀ s, P s → Q a s) : Triple P (pure a) Q E := h

theorem Triple.modify {f : σ → σ} {Q : PUnit → σ → Prop} (h : ∀ s, P s → Q .unit (f s)) :
    Triple P (modify f) Q E := h

theorem Triple.bind {m : Halting σ α} {k : α → Halting σ β} (hm : Triple P m Q E)
    (hk : ∀ a, Triple (Q a) (k a) R E) : Triple P (m >>= k) R E := by
  intro s hs
  have hfirst := hm s hs
  rw [result_bind]
  rcases hres : m.result s with ⟨_ | a, s'⟩
  · rw [hres] at hfirst
    exact hfirst
  · rw [hres] at hfirst
    exact hk a s' hfirst

/-- Nothing runs after a program that never returns. -/
theorem Triple.bind_ended {m : Halting σ α} {k : α → Halting σ β}
    (hm : Triple P m (fun _ _ => False) E) : Triple P (m >>= k) R E := by
  refine Triple.bind hm ?_
  intro a s hs
  exact hs.elim

theorem Triple.weaken {m : Halting σ α} (h : Triple P' m Q' E) (hP : ∀ s, P s → P' s)
    (hQ : ∀ a s, Q' a s → Q a s) : Triple P m Q E := by
  intro s hs
  have hres := h s (hP s hs)
  rcases hm : m.result s with ⟨_ | a, s'⟩
  · rw [hm] at hres
    exact hres
  · rw [hm] at hres
    exact hQ a s' hres

theorem Triple.ite {c : Prop} [Decidable c] {m m' : Halting σ α}
    (hpos : c → Triple P m Q E) (hneg : ¬ c → Triple P m' Q E) :
    Triple P (if c then m else m') Q E := by
  by_cases h : c
  · rw [if_pos h]
    exact hpos h
  · rw [if_neg h]
    exact hneg h

/-- Two ways in which a precondition may hold are treated apart. -/
theorem Triple.cases {m : Halting σ α} (h : Triple P m Q E) (h' : Triple P' m Q E) :
    Triple (fun s => P s ∨ P' s) m Q E := by
  rintro s (hs | hs)
  · exact h s hs
  · exact h' s hs

theorem Triple.assume {c : Prop} {m : Halting σ α} (h : c → Triple P m Q E) :
    Triple (fun s => c ∧ P s) m Q E := by
  rintro s ⟨hc, hs⟩
  exact h hc s hs

end Halting

end Mymuduo.Library

import Mathlib.Data.List.Basic

/-!
# Executions of a partial step function

A system is a step function that answers `none` where an action is not
enabled. `exec` runs a list of actions; `Guarded` says that each action of
the list is taken in a state that meets a side condition. The rules below
carry a one-step fact to whole runs: an invariant, and a simulation by a
total abstract step that also yields that the run does not get stuck.
-/

namespace Mymuduo.Library.Execution

universe u v w

variable {σ : Type u} {α : Type v} {τ : Type w}

/-- Run the actions in order; `none` as soon as one of them is not enabled. -/
def exec (step : σ → α → Option σ) : σ → List α → Option σ
  | s, [] => some s
  | s, a :: as => (step s a).bind fun s' => exec step s' as

/-- Every action of the run is taken in a state that meets `ok`. -/
def Guarded (step : σ → α → Option σ) (ok : σ → α → Prop) : σ → List α → Prop
  | _, [] => True
  | s, a :: as => ok s a ∧ ∀ s', step s a = some s' → Guarded step ok s' as

/-- A concrete run can be checked against a decidable condition. -/
instance decidableGuarded (step : σ → α → Option σ) (ok : σ → α → Prop)
    [∀ s a, Decidable (ok s a)] : ∀ s as, Decidable (Guarded step ok s as)
  | _, [] => .isTrue trivial
  | s, a :: as =>
    match h : step s a with
    | none => decidable_of_iff (ok s a) (by simp [Guarded, h])
    | some s' =>
      have := decidableGuarded step ok s' as
      decidable_of_iff (ok s a ∧ Guarded step ok s' as) (by simp [Guarded, h])

theorem exec_cons_some {step : σ → α → Option σ} {s s'' : σ} {a : α} {as : List α} :
    exec step s (a :: as) = some s'' ↔
      ∃ s', step s a = some s' ∧ exec step s' as = some s'' := by
  simp [exec, Option.bind_eq_some_iff]

theorem exec_append {step : σ → α → Option σ} {s : σ} {as bs : List α} :
    exec step s (as ++ bs) = (exec step s as).bind fun s' => exec step s' bs := by
  induction as generalizing s with
  | nil => rfl
  | cons a as ih =>
    rw [List.cons_append, exec, exec, Option.bind_assoc]
    exact congrArg _ (funext fun s' => ih)

/-- A condition on the actions alone holds along every run of such actions. -/
theorem guarded_of_forall {step : σ → α → Option σ} {ok : α → Prop} {as : List α}
    (h : ∀ a ∈ as, ok a) (s : σ) : Guarded step (fun _ a => ok a) s as := by
  induction as generalizing s with
  | nil => trivial
  | cons a as ih =>
    exact ⟨h a List.mem_cons_self, fun s' _ => ih (fun b hb => h b (List.mem_cons_of_mem a hb)) s'⟩

theorem Guarded.mono {step : σ → α → Option σ} {p q : σ → α → Prop} {s : σ} {as : List α}
    (h : Guarded step p s as) (hpq : ∀ s a, p s a → q s a) : Guarded step q s as := by
  induction as generalizing s with
  | nil => trivial
  | cons a as ih => exact ⟨hpq s a h.1, fun s' hs => ih (h.2 s' hs)⟩

theorem Guarded.and {step : σ → α → Option σ} {p q : σ → α → Prop} {s : σ} {as : List α}
    (hp : Guarded step p s as) (hq : Guarded step q s as) :
    Guarded step (fun s a => p s a ∧ q s a) s as := by
  induction as generalizing s with
  | nil => trivial
  | cons a as ih => exact ⟨⟨hp.1, hq.1⟩, fun s' hs => ih (hp.2 s' hs) (hq.2 s' hs)⟩

/-- Where every action is enabled, a guarded run is one in which each action
finds its condition met by the state that the actions before it lead to. -/
theorem guarded_total {f : σ → α → σ} {ok : σ → α → Prop} {s : σ} {as : List α} :
    Guarded (fun s a => some (f s a)) ok s as ↔
      ∀ before a after, as = before ++ a :: after → ok (before.foldl f s) a := by
  induction as generalizing s with
  | nil => simp [Guarded]
  | cons b as ih =>
    simp only [Guarded, Option.some.injEq, forall_eq', ih]
    constructor
    · rintro ⟨hb, hrest⟩ before a after heq
      cases before with
      | nil =>
        obtain ⟨rfl, -⟩ := List.cons.inj heq
        exact hb
      | cons c before =>
        obtain ⟨rfl, htail⟩ := List.cons.inj heq
        exact hrest before a after htail
    · intro h
      exact ⟨h [] b as rfl, fun before a after heq => h (b :: before) a after (by rw [heq]; rfl)⟩

/-- The invariant rule: what every guarded step preserves, every guarded run
preserves. -/
theorem exec_invariant {step : σ → α → Option σ} {ok : σ → α → Prop} (Inv : σ → Prop)
    (hstep : ∀ s a s', Inv s → ok s a → step s a = some s' → Inv s')
    {s s' : σ} {as : List α} (hi : Inv s) (hg : Guarded step ok s as)
    (hr : exec step s as = some s') : Inv s' := by
  induction as generalizing s with
  | nil =>
    obtain rfl := Option.some.inj hr
    exact hi
  | cons a as ih =>
    obtain ⟨t, ht, hrest⟩ := exec_cons_some.mp hr
    exact ih (hstep s a t hi hg.1 ht) (hg.2 t ht) hrest

/-- The invariant rule where no side condition is needed. -/
theorem exec_preserves {step : σ → α → Option σ} (Inv : σ → Prop)
    (hstep : ∀ s a s', Inv s → step s a = some s' → Inv s')
    {s s' : σ} {as : List α} (hi : Inv s) (hr : exec step s as = some s') : Inv s' := by
  have hg : Guarded step (fun _ _ => True) s as := guarded_of_forall (fun _ _ => trivial) s
  exact exec_invariant Inv (fun s a s' h _ => hstep s a s' h) hi hg hr

/-- Forward simulation by a total abstract step: a guarded run does not get
stuck, and it ends related to the abstract run of the same actions. -/
theorem exec_simulates {step : σ → α → Option σ} {ok : σ → α → Prop} {astep : τ → α → τ}
    {R : σ → τ → Prop}
    (hstep : ∀ s a t, R s t → ok s a → ∃ s', step s a = some s' ∧ R s' (astep t a))
    {s : σ} {t : τ} {as : List α} (hr : R s t) (hg : Guarded step ok s as) :
    ∃ s', exec step s as = some s' ∧ R s' (as.foldl astep t) := by
  induction as generalizing s t with
  | nil => exact ⟨s, rfl, hr⟩
  | cons a as ih =>
    obtain ⟨m, hm, hrel⟩ := hstep s a t hr hg.1
    obtain ⟨s', hs', hfin⟩ := ih hrel (hg.2 m hm)
    exact ⟨s', exec_cons_some.mpr ⟨m, hm, hs'⟩, hfin⟩

end Mymuduo.Library.Execution

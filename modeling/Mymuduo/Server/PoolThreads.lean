import Mymuduo.Server.PoolStart

/-!
# The threads of the pool

In every run the threads that have been started stand as `startLoop` expects them, the later ones
have not been touched, and the pool is what the statements of `start` have made of it so far. So
`start` leaves the pool that it leaves where each thread is started in one step.
-/

namespace Mymuduo.PoolStart

open Mymuduo.Library
open EventLoopThreadPool (threadLoops threadLoops_succ)

/-- The pool with `k` loops, after as many calls of the init callback as `called` says. -/
def Setup.pool (setup : Setup) (k called : Nat) : EventLoopThreadPool :=
  .begun setup.cb setup.numThreads_ k called

/-- The pool after `start(cb)` where `startLoop` is one step. -/
def Setup.startedPool (setup : Setup) : EventLoopThreadPool :=
  (({} : EventLoopThreadPool).setThreadNum setup.numThreads_).start setup.cb

/-- The number of threads. -/
def Setup.count (setup : Setup) : Nat := setup.numThreads_.toNat

/-- The init callbacks called so far, where all is well. -/
def System.calls (s : System) : Nat := s.i + if s.current.stage.called then 1 else 0

/-- The object of a thread that has not been started. -/
def Waiting (setup : Setup) (j : Nat) (pc : Pc) (t : NewThread) : Prop :=
  t = if pc = .spawn then { name_ := setup.name_ ++ decimal j } else {}

structure Inv (s : System) : Prop where
  past : ∀ j, j < s.i → Fits s.setup j (.emplace (.thread j)) (s.threads_ j)
  current : s.pc.spawned = true → Fits s.setup s.i s.pc s.current
  coming : s.pc.spawned = false → Waiting s.setup s.i s.pc s.current
  future : ∀ j, s.i < j → s.threads_ j = {}
  within : s.pc = .create ∨ s.pc = .spawn ∨ s.pc.spawned = true → s.i < s.setup.count
  count : s.i ≤ s.setup.count
  through : s.pc = .base ∨ s.pc = .returned → s.i = s.setup.count
  pool : s.pc ≠ .returned → s.pool = s.setup.pool s.i s.calls
  returned : s.pc = .returned → s.pool = s.setup.startedPool
  numCreated : s.numCreated_ = 0
  safe : s.dangling = false

section Steps

variable {setup : Setup} {s s' : System} {j : Nat}

theorem inv_entered (setup : Setup) : Inv (entered setup) where
  past j hj := absurd hj (Nat.not_lt_zero j)
  current hpc := by cases hpc
  coming _ := rfl
  future j _ := rfl
  within hpc := by simp [entered, Pc.spawned, Pc.seeking, Pc.found] at hpc
  count := Nat.zero_le _
  through hpc := by simp [entered] at hpc
  pool _ := by simp [entered, Setup.pool, EventLoopThreadPool.begun,
    EventLoopThreadPool.setThreadNum, System.calls, System.current, Stage.called, threadLoops]
  returned hpc := by cases hpc
  numCreated := rfl
  safe := rfl

@[simp] theorem setThread_self (s : System) (j : Nat) (t : NewThread) :
    (s.setThread j t).threads_ j = t := by simp [System.setThread]

theorem setThread_of_ne (s : System) {j k : Nat} (t : NewThread) (h : k ≠ j) :
    (s.setThread j t).threads_ k = s.threads_ k := by simp [System.setThread, h]

/-- The pool after a step of the thread at hand or of the starting thread inside `startLoop`. -/
theorem Inv.advance (h : Inv s) (hi : s.i < s.setup.count) {pc' : Pc}
    (hpc' : pc'.spawned = true) {t' : NewThread} (hfits : Fits s.setup s.i pc' t')
    {pool' : EventLoopThreadPool}
    (hpool : pool' = s.setup.pool s.i (s.i + if t'.stage.called then 1 else 0)) :
    Inv { s.setThread s.i t' with pc := pc', pool := pool' } where
  past k hk := by
    have hne : k ≠ s.i := Nat.ne_of_lt hk
    show Fits s.setup k _ ((s.setThread s.i t').threads_ k)
    rw [setThread_of_ne s t' hne]
    exact h.past k hk
  current _ := by
    show Fits s.setup s.i pc' ((s.setThread s.i t').threads_ s.i)
    rw [setThread_self]
    exact hfits
  coming hno := by
    rw [hpc'] at hno
    cases hno
  future k hk := by
    show (s.setThread s.i t').threads_ k = {}
    have hne : k ≠ s.i := Nat.ne_of_gt hk
    rw [setThread_of_ne s t' hne]
    exact h.future k hk
  within _ := hi
  count := h.count
  through hend := by rcases hend with rfl | rfl <;> cases hpc'
  pool _ := by
    show pool' = s.setup.pool s.i (s.i + if ((s.setThread s.i t').threads_ s.i).stage.called then
      1 else 0)
    rw [setThread_self]
    exact hpool
  returned hend := by
    rw [show pc' = .returned from hend] at hpc'
    cases hpc'
  numCreated := h.numCreated
  safe := h.safe

theorem Inv.pool_spawned (h : Inv s) (hpc : s.pc.spawned = true) :
    s.pool = s.setup.pool s.i (s.i + if s.current.stage.called then 1 else 0) := by
  refine h.pool ?_
  intro hend
  rw [hend] at hpc
  cases hpc

/-- A thread that has been started is one of those before the one at hand, or that one. -/
theorem Inv.place (h : Inv s) (hst : (s.threads_ j).stage ≠ .absent) :
    j < s.i ∨ j = s.i ∧ s.pc.spawned = true := by
  rcases Nat.lt_trichotomy j s.i with hlt | rfl | hgt
  · exact .inl hlt
  · refine .inr ⟨rfl, ?_⟩
    by_contra hno
    have hwaiting : s.current = _ := h.coming (by simpa using hno)
    refine hst ?_
    show s.current.stage = .absent
    rw [hwaiting]
    split <;> rfl
  · rw [h.future j hgt] at hst
    exact absurd rfl hst

/-- A thread that is in its loop or has left it changes nothing but itself. -/
theorem Inv.setPast (h : Inv s) (hj : j < s.i) {t' : NewThread}
    (hfits : Fits s.setup j (.emplace (.thread j)) t') : Inv (s.setThread j t') where
  past k hk := by
    by_cases hne : k = j
    · subst hne
      rw [setThread_self]
      exact hfits
    · rw [setThread_of_ne s t' hne]
      exact h.past k hk
  current hpc := by
    show Fits s.setup s.i s.pc ((s.setThread j t').threads_ s.i)
    rw [setThread_of_ne s t' (Nat.ne_of_gt hj)]
    exact h.current hpc
  coming hpc := by
    show Waiting s.setup s.i s.pc ((s.setThread j t').threads_ s.i)
    rw [setThread_of_ne s t' (Nat.ne_of_gt hj)]
    exact h.coming hpc
  future k hk := by
    have hne : k ≠ j := Nat.ne_of_gt (Nat.lt_trans hj hk)
    rw [setThread_of_ne s t' hne]
    exact h.future k hk
  within := h.within
  count := h.count
  through := h.through
  pool hpc := by
    show s.pool = s.setup.pool s.i (s.i + if ((s.setThread j t').threads_ s.i).stage.called then
      1 else 0)
    rw [setThread_of_ne s t' (Nat.ne_of_gt hj)]
    exact h.pool hpc
  returned := h.returned
  numCreated := h.numCreated
  safe := h.safe

theorem step_stage_ne {t t' : NewThread} (hs : t.step setup j = some t') : t.stage ≠ .absent := by
  intro hst
  simp [NewThread.step, hst] at hs

/-- A step of the new thread runs the init callback, or it is past it as before. -/
theorem step_called {t t' : NewThread} (hs : t.step setup j = some t') :
    t'.stage.called = (t.stage.called || decide (t.stage = .callback)) := by
  unfold NewThread.step at hs
  cases hst : t.stage <;> simp only [hst, reduceCtorEq, Option.some.injEq,
    Option.ite_none_right_eq_some] at hs
  all_goals obtain ⟨hfree, rfl⟩ := hs
  all_goals rfl

theorem notified_spawned {t : NewThread} {pc : Pc} (h : pc.spawned = true) :
    (notified t pc).spawned = true := by
  unfold notified
  split
  · rfl
  · exact h

theorem Inv.threadStep (h : Inv s) (hs : s.threadStep j = some s') : Inv s' := by
  obtain ⟨t', hstep, rfl⟩ := Option.map_eq_some_iff.mp hs
  rcases h.place (step_stage_ne hstep) with hj | ⟨rfl, hpc⟩
  · have hfits := h.past j hj
    have hup : (s.threads_ j).stage.up = true := (hfits.found _ rfl).2
    have hnotify : (s.threads_ j).stage ≠ .notify := by
      intro hst
      rw [hst] at hup
      cases hup
    have hcallback : (s.threads_ j).stage ≠ .callback := by
      intro hst
      rw [hst] at hup
      cases hup
    have hpost : (s.threads_ j).stage ≠ .post := by
      intro hst
      rw [hst] at hup
      cases hup
    simp only [hnotify, hcallback, hpost, false_and, if_false, decide_false, Bool.false_and,
      Bool.or_false]
    have hafter := hfits.step hstep
    rw [notified, if_neg (by simp)] at hafter
    exact h.setPast hj hafter
  · have hfits := h.current hpc
    have hafter := hfits.step hstep
    have hsem : (decide (s.current.stage = .post) && s.current.sem.isNone) = false := by
      by_cases hst : s.current.stage = .post
      · have hsem := hfits.sem
        have hwait : s.pc = .semWait := by
          by_contra hne
          have hposted := hfits.posted hne
          rw [hst] at hposted
          cases hposted
        rw [if_pos hwait] at hsem
        simp [hsem]
      · simp [hst]
    have hpc' : (if s.current.stage = .notify ∧ s.pc = .wait ∧ s.i = s.i then Pc.relock
        else s.pc) = notified s.current s.pc := by simp [notified]
    have hpool : (if s.current.stage = .callback ∧ s.setup.cb = true then
        s.pool.callInit s.setup.cb (.thread s.i) else s.pool) =
        s.setup.pool s.i (s.i + if t'.stage.called then 1 else 0) := by
      have hcalled : t'.stage.called =
        (s.current.stage.called || decide (s.current.stage = .callback)) := step_called hstep
      rw [hcalled, h.pool_spawned hpc]
      by_cases hst : s.current.stage = .callback
      · rw [hst]
        cases hcb : s.setup.cb
        · simp [hcb, Setup.pool, EventLoopThreadPool.begun]
        · simp [hcb, Stage.called, Setup.pool, EventLoopThreadPool.begun,
            EventLoopThreadPool.callInit, threadLoops_succ]
      · simp [hst]
    have hnext := h.advance (h.within (.inr (.inr hpc))) (notified_spawned hpc) hafter hpool
    show Inv { s.setThread s.i t' with
      pool := if s.current.stage = .callback ∧ s.setup.cb = true then
        s.pool.callInit s.setup.cb (.thread s.i) else s.pool
      pc := if s.current.stage = .notify ∧ s.pc = .wait ∧ s.i = s.i then Pc.relock else s.pc
      dangling := s.dangling || (decide (s.current.stage = .post) && s.current.sem.isNone) }
    rw [hsem, hpc', Bool.or_false]
    exact hnext

/-- A step of the starting thread inside `startLoop`. -/
theorem Inv.inside (h : Inv s) (hpc : s.pc.spawned = true) {pc' : Pc} (hpc' : pc'.spawned = true)
    {t' : NewThread} (hfits : Fits s.setup s.i pc' t') (hstage : t'.stage = s.current.stage) :
    Inv { s.setThread s.i t' with pc := pc' } := by
  refine h.advance (h.within (.inr (.inr hpc))) hpc' hfits ?_
  rw [hstage]
  exact h.pool_spawned hpc

theorem setThread_current (s : System) : s.setThread s.i s.current = s := by
  show { s with threads_ := Function.update s.threads_ s.i (s.threads_ s.i) } = s
  rw [Function.update_eq_self]

/-- A step of the starting thread between two threads, where `loops_` stays. -/
theorem Inv.between (h : Inv s) (hpc : s.pc ≠ .returned) {pc' : Pc} (hpc' : pc'.spawned = false)
    (hne : pc' ≠ .returned) (hcoming : Waiting s.setup s.i pc' s.current)
    (hwithin : pc' ≠ .base → s.i < s.setup.count) (hbase : pc' = .base → s.i = s.setup.count) :
    Inv { s with pc := pc' } where
  past := h.past
  current hp := by
    rw [hpc'] at hp
    cases hp
  coming _ := hcoming
  future := h.future
  within hp := by
    refine hwithin ?_
    rintro rfl
    simp [Pc.spawned, Pc.seeking, Pc.found] at hp
  count := h.count
  through hp := by
    rcases hp with hp | hp
    · exact hbase hp
    · exact absurd hp hne
  pool _ := h.pool hpc
  returned hp := absurd hp hne
  numCreated := h.numCreated
  safe := h.safe

theorem Inv.plain (h : Inv s) (hpc : s.pc.spawned = false) (hspawn : s.pc ≠ .spawn) :
    s.current = {} := by
  have hcoming : s.current = _ := h.coming hpc
  rw [hcoming, if_neg hspawn]

theorem Inv.test (h : Inv s) (hpc : s.pc = .test) :
    Inv { s with pc := if (s.i : Int) < s.setup.numThreads_ then .create else .base } := by
  have hcount := h.count
  have hplain := h.plain (by rw [hpc]; rfl) (by rw [hpc]; simp)
  split
  · rename_i hi
    have hlt : s.i < s.setup.count := by
      unfold Setup.count
      omega
    exact h.between (by rw [hpc]; simp) rfl (by simp) hplain (fun _ => hlt) (by simp)
  · rename_i hi
    have heq : s.i = s.setup.count := by
      unfold Setup.count at hcount ⊢
      omega
    exact h.between (by rw [hpc]; simp) rfl (by simp) hplain (by simp) (fun _ => heq)

/-- The name that the pool gives is not empty, so it stays. -/
theorem setDefaultName_pool (setup : Setup) (i numCreated : Nat) :
    setDefaultName (setup.name_ ++ decimal i) numCreated =
      (setup.name_ ++ decimal i, numCreated) := by
  have hne : setup.name_ ++ decimal i ≠ [] := by
    intro h
    exact Nat.toDigits_ne_nil (List.append_eq_nil_iff.mp h).2
  simp [setDefaultName, hne]

theorem Inv.create (h : Inv s) (hpc : s.pc = .create) :
    Inv { s.setThread s.i { name_ := s.setup.name_ ++ decimal s.i } with pc := .spawn } where
  past k hk := by
    have hne : k ≠ s.i := Nat.ne_of_lt hk
    show Fits s.setup k _ ((s.setThread s.i _).threads_ k)
    rw [setThread_of_ne s _ hne]
    exact h.past k hk
  current hp := by cases hp
  coming _ := setThread_self s s.i _
  future k hk := by
    have hne : k ≠ s.i := Nat.ne_of_gt hk
    show (s.setThread s.i _).threads_ k = {}
    rw [setThread_of_ne s _ hne]
    exact h.future k hk
  within _ := h.within (.inl hpc)
  count := h.count
  through hp := by simp at hp
  pool _ := by
    have hplain := h.plain (by rw [hpc]; rfl) (by rw [hpc]; simp)
    have hpool := h.pool (by rw [hpc]; simp)
    rw [System.calls, hplain] at hpool
    show s.pool = s.setup.pool s.i (s.i + if ((s.setThread s.i _).threads_ s.i).stage.called then
      1 else 0)
    rw [setThread_self]
    exact hpool
  returned hp := by cases hp
  numCreated := h.numCreated
  safe := h.safe

/-- `startLoop` has returned the loop of the thread at hand. -/
theorem Inv.emplace (h : Inv s) {loop : LoopAddr} (hpc : s.pc = .emplace loop) :
    Inv { s with
      pool := { s.pool with loops_ := s.pool.loops_ ++ [loop] }
      i := s.i + 1
      pc := .test } := by
  have hspawned : s.pc.spawned = true := by rw [hpc]; rfl
  have hfits := h.current hspawned
  rw [hpc] at hfits
  obtain ⟨rfl, hup⟩ := hfits.found loop rfl
  have hi := h.within (.inr (.inr hspawned))
  have hnext : s.threads_ (s.i + 1) = {} := h.future _ (Nat.lt_succ_self _)
  have hcalled : s.current.stage.called = true := by
    cases hst : s.current.stage <;> simp [hst, Stage.up, Stage.called] at hup ⊢
  have hpool := h.pool_spawned hspawned
  rw [hcalled, if_pos rfl] at hpool
  constructor
  · intro k hk
    rcases Nat.lt_succ_iff_lt_or_eq.mp hk with hlt | rfl
    · exact h.past k hlt
    · exact hfits
  · intro hp
    cases hp
  · intro _
    exact hnext
  · intro k hk
    exact h.future k (Nat.lt_of_succ_lt hk)
  · intro hp
    simp [Pc.spawned, Pc.seeking, Pc.found] at hp
  · exact hi
  · intro hp
    simp at hp
  · intro _
    show { s.pool with loops_ := s.pool.loops_ ++ [.thread s.i] } =
      s.setup.pool (s.i + 1) (s.i + 1 + if (s.threads_ (s.i + 1)).stage.called then 1 else 0)
    rw [hnext, hpool]
    simp [Setup.pool, EventLoopThreadPool.begun, threadLoops_succ, Stage.called]
  · intro hp
    cases hp
  · exact h.numCreated
  · exact h.safe

theorem Inv.base (h : Inv s) (hpc : s.pc = .base) :
    Inv { s with
      pool :=
        if s.setup.numThreads_ = 0 ∧ s.setup.cb then s.pool.callInit s.setup.cb s.pool.baseLoop_
        else s.pool
      pc := .returned } := by
  have hplain := h.plain (by rw [hpc]; rfl) (by rw [hpc]; simp)
  have hi := h.through (.inl hpc)
  have hpool := h.pool (by rw [hpc]; simp)
  rw [System.calls, hplain, hi] at hpool
  constructor
  · exact h.past
  · intro hp
    cases hp
  · intro _
    exact hplain
  · exact h.future
  · intro hp
    simp [Pc.spawned, Pc.seeking, Pc.found] at hp
  · exact h.count
  · intro _
    exact hi
  · intro hp
    exact absurd rfl hp
  · intro _
    show _ = s.setup.startedPool
    rw [Setup.startedPool, EventLoopThreadPool.start_eq, hpool]
    rfl
  · exact h.numCreated
  · exact h.safe

theorem Inv.starterStep (h : Inv s) (hs : s.starterStep = some s') : Inv s' := by
  unfold System.starterStep at hs
  cases hpc : s.pc <;> simp only [hpc, Option.some.injEq, reduceCtorEq] at hs
  case test =>
    obtain rfl := hs
    exact h.test hpc
  case create =>
    rw [setDefaultName_pool] at hs
    obtain rfl := hs
    exact h.create hpc
  case spawn =>
    obtain rfl := hs
    have hcoming : s.current = _ := h.coming (by rw [hpc]; rfl)
    rw [if_pos hpc] at hcoming
    have hpool := h.pool (by rw [hpc]; simp)
    rw [System.calls, hcoming] at hpool
    refine h.advance (h.within (.inr (.inl hpc))) rfl (Fits.spawn ?_ ?_ ?_) hpool
    · rw [hcoming]
    · rw [hcoming]
    · rw [hcoming]
  case semWait =>
    have hfits := h.current (by rw [hpc]; rfl)
    rw [hpc] at hfits
    split at hs
    · rename_i k hk
      obtain rfl := Option.some.inj hs
      exact h.inside (by rw [hpc]; rfl) rfl (hfits.semWait hk) rfl
    · cases hs
  case lock =>
    have hspawned : s.pc.spawned = true := by rw [hpc]; rfl
    simp only [Option.ite_none_right_eq_some, Option.some.injEq] at hs
    obtain ⟨hfree, rfl⟩ := hs
    exact h.inside hspawned rfl ((h.current hspawned).acquire (.inl hpc) hfree) rfl
  case relock =>
    have hspawned : s.pc.spawned = true := by rw [hpc]; rfl
    simp only [Option.ite_none_right_eq_some, Option.some.injEq] at hs
    obtain ⟨hfree, rfl⟩ := hs
    exact h.inside hspawned rfl ((h.current hspawned).acquire (.inr hpc) hfree) rfl
  case check =>
    have hspawned : s.pc.spawned = true := by rw [hpc]; rfl
    have hfits := h.current hspawned
    rw [hpc] at hfits
    split at hs
    · rename_i hnone
      obtain rfl := Option.some.inj hs
      exact h.inside hspawned rfl (hfits.block hnone) rfl
    · rename_i loop hsome
      obtain rfl := Option.some.inj hs
      have hnext := h.inside hspawned rfl (hfits.find hsome) rfl
      rw [setThread_current] at hnext
      exact hnext
  case unlock loop =>
    have hspawned : s.pc.spawned = true := by rw [hpc]; rfl
    have hfits := h.current hspawned
    rw [hpc] at hfits
    obtain rfl := hs
    exact h.inside hspawned rfl hfits.release rfl
  case emplace loop =>
    obtain rfl := hs
    exact h.emplace hpc
  case base =>
    obtain rfl := hs
    exact h.base hpc

/-- Whatever the threads do and however the waits end. -/
theorem Inv.step (h : Inv s) {a : Action} (hs : PoolStart.step s a = some s') : Inv s' := by
  cases a with
  | starter => exact h.starterStep hs
  | thread j => exact h.threadStep hs
  | quitLoop j =>
    simp only [PoolStart.step, Option.ite_none_right_eq_some, Option.some.injEq] at hs
    obtain ⟨hst, rfl⟩ := hs
    rcases h.place (by rw [hst]; simp) with hj | ⟨rfl, hpc⟩
    · exact h.setPast hj ((h.past j hj).quitLoop hst)
    · have hpool := h.pool_spawned hpc
      have hst' : s.current.stage = .looping := hst
      rw [hst'] at hpool
      exact h.advance (h.within (.inr (.inr hpc))) hpc ((h.current hpc).quitLoop hst) hpool
  | spurious =>
    simp only [PoolStart.step, Option.ite_none_right_eq_some, Option.some.injEq] at hs
    obtain ⟨hpc, rfl⟩ := hs
    have hspawned : s.pc.spawned = true := by rw [hpc]; rfl
    have hfits := h.current hspawned
    rw [hpc] at hfits
    have hnext := h.inside hspawned rfl hfits.wake rfl
    rw [setThread_current] at hnext
    exact hnext

theorem inv (setup : Setup) (as : List Action)
    (hr : Execution.exec PoolStart.step (entered setup) as = some s) : Inv s :=
  Execution.exec_preserves Inv (fun _ _ _ h hs => h.step hs) (inv_entered setup) hr

theorem step_setup {a : Action} (hs : PoolStart.step s a = some s') : s'.setup = s.setup := by
  cases a with
  | starter =>
    simp only [PoolStart.step, System.starterStep] at hs
    cases hpc : s.pc <;> simp only [hpc, Option.some.injEq, reduceCtorEq,
      Option.ite_none_right_eq_some] at hs
    case semWait =>
      split at hs
      · obtain rfl := Option.some.inj hs
        rfl
      · cases hs
    case check =>
      split at hs
      · obtain rfl := Option.some.inj hs
        rfl
      · obtain rfl := Option.some.inj hs
        rfl
    case lock | relock =>
      obtain ⟨-, rfl⟩ := hs
      rfl
    all_goals
      obtain rfl := hs
      rfl
  | thread j =>
    obtain ⟨t', -, rfl⟩ := Option.map_eq_some_iff.mp hs
    rfl
  | quitLoop j =>
    simp only [PoolStart.step, Option.ite_none_right_eq_some, Option.some.injEq] at hs
    obtain ⟨-, rfl⟩ := hs
    rfl
  | spurious =>
    simp only [PoolStart.step, Option.ite_none_right_eq_some, Option.some.injEq] at hs
    obtain ⟨-, rfl⟩ := hs
    rfl

theorem setup_eq (as : List Action)
    (hr : Execution.exec PoolStart.step (entered setup) as = some s) : s.setup = setup :=
  Execution.exec_preserves (fun s => s.setup = setup)
    (fun _ _ _ h hs => (step_setup hs).trans h) rfl hr

/-- The j-th thread, with its own loop published or already left. -/
structure Launched (setup : Setup) (j : Nat) (t : NewThread) : Prop where
  name : t.name_ = setup.name_ ++ decimal j
  started : t.started_ = true
  tid : t.tid_ = setup.gettid j
  up : t.stage.up = true
  loop : t.loop_ = if t.stage.published then some (.thread j) else none

theorem Fits.launched {t : NewThread} {loop : LoopAddr} (h : Fits setup j (.emplace loop) t) :
    Launched setup j t where
  name := h.named
  started := h.started
  tid := by
    have hup := (h.found loop rfl).2
    refine h.tid ?_
    cases hst : t.stage <;> simp [hst, Stage.up, Stage.known] at hup ⊢
  up := (h.found loop rfl).2
  loop := h.loop

/-- In every run: as long as `start` runs the pool has the loops of the threads taken up so far, in
their order, and the init callback has been called once on each of them and at most on the next.
When it returns the pool is that of the plain `start`, with all threads in their loops. No thread
ever uses a semaphore that has gone out of scope. -/
theorem started_in_turn (setup : Setup) (as : List Action)
    (hr : Execution.exec PoolStart.step (entered setup) as = some s) :
    s.dangling = false ∧ (∀ j, j < s.i → Launched setup j (s.threads_ j)) ∧
      (∀ j, s.i < j → s.threads_ j = {}) ∧
      (s.pc ≠ .returned → s.pool = setup.pool s.i s.calls) ∧
      (s.pc = .returned → s.i = setup.count ∧ s.pool = setup.startedPool) := by
  have h := inv setup as hr
  obtain rfl := setup_eq as hr
  constructor
  · exact h.safe
  constructor
  · intro j hj
    exact (h.past j hj).launched
  constructor
  · exact h.future
  constructor
  · exact h.pool
  · intro hpc
    exact ⟨h.through (.inr hpc), h.returned hpc⟩

/-- Two threads; the starting thread has to wait for the first one and not for the second. -/
def twoThreads : Setup where
  name_ := ['s']
  numThreads_ := 2
  cb := true
  gettid i := 100 + i

def startTwo : List Action :=
  List.replicate 3 .starter ++ List.replicate 2 (.thread 0) ++ List.replicate 3 .starter ++
    List.replicate 6 (.thread 0) ++ List.replicate 7 .starter ++ List.replicate 8 (.thread 1) ++
    List.replicate 7 .starter

theorem started_in_turn_two : ∃ s,
    Execution.exec PoolStart.step (entered twoThreads) startTwo = some s ∧ s.pc = .returned ∧
      (∀ j, j < 2 → Launched twoThreads j (s.threads_ j)) ∧ s.pool = twoThreads.startedPool := by
  have hrun : (Execution.exec PoolStart.step (entered twoThreads) startTwo).map (·.pc) =
      some .returned := by decide +kernel
  obtain ⟨s, hs, hpc⟩ := Option.map_eq_some_iff.mp hrun
  obtain ⟨-, hlaunched, -, -, hreturned⟩ := started_in_turn twoThreads startTwo hs
  obtain ⟨hi, hpool⟩ := hreturned hpc
  exact ⟨s, hs, hpc, fun j hj => hlaunched j (by rw [hi]; exact hj), hpool⟩

end Steps

end Mymuduo.PoolStart

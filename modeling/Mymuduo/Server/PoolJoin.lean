import Mymuduo.Library.Potential
import Mymuduo.Server.PoolStop

/-!
# Whether the pool's destructor returns

The threads have a bounded number of steps before them until a poll returns. The destroying thread
comes too early where it stores `quit_` before the loop's thread has reset it, and too late where
the loop is gone when it is to be woken up; in all other states `~EventLoopThreadPool` can return.
-/

namespace Mymuduo.PoolStop

open Mymuduo.Library

section Steps

variable {s s' : System} {a : Action} {j k : Nat} {t t' u : LoopThread} {pc pc' : Pc}

/-! ## How many steps there are -/

/-- The thread takes the step on its own accord, without waiting for a descriptor. -/
def Action.prompt : Action → Bool
  | .next _ | .destroyer | .thread _ => true
  | _ => false

/-- What the return of a poll brings. -/
def Action.price : Action → Nat
  | .poll _ n | .event _ n => n + 2
  | _ => 0

/-- The steps that a loop's thread owes; a poll from which it is to be woken up counts for more. -/
def LoopThread.ahead (t : LoopThread) : Nat :=
  match t.stage with
  | .finished => 0
  | .destruct => 1
  | .unlock => 2
  | .clear => 3
  | .lock => 4
  | .poll => if t.quit_ then 8 else 5
  | .test => 6
  | .work n => 7 + n
  | .enter => 7

def LoopThread.rank (t : LoopThread) : Nat :=
  t.ahead + if t.destroyed then 0 else 8

def Pc.rank : Pc → Nat
  | .join _ => 1
  | .wakeup _ => 2
  | .store _ => 6
  | .test _ => 7
  | .between => 8

def System.owed (s : System) : Nat :=
  Potential.total (fun j => (s.threads_ j).rank) s.count + s.pc.rank

theorem step_ahead (hs : t.step = some t') : t'.ahead < t.ahead := by
  unfold LoopThread.step at hs
  cases hst : t.stage with
  | work n =>
    cases n <;> (simp only [hst, Option.some.injEq] at hs; obtain rfl := hs)
    · simp [LoopThread.ahead, hst]
    · simp [LoopThread.ahead, hst]
  | test =>
    simp only [hst, Option.some.injEq] at hs
    obtain rfl := hs
    cases hq : t.quit_ <;> simp [LoopThread.ahead, hst]
  | poll | finished =>
    simp only [hst, reduceCtorEq] at hs
  | enter | lock | clear | unlock | destruct =>
    simp only [hst, Option.some.injEq] at hs
    obtain rfl := hs
    simp [LoopThread.ahead, hst]

/-- The store of `quit_` costs what waking the thread up from a poll saves. -/
theorem ahead_told (t : LoopThread) : { t with quit_ := true }.ahead ≤ t.ahead + 3 := by
  unfold LoopThread.ahead
  cases t.stage with
  | poll => cases t.quit_ <;> simp
  | _ => simp

theorem Move.spends (h : Move a j pc t pc' t') (hfits : Fits pc j t) (ha : a.prompt = true) :
    t'.rank + pc'.rank < t.rank + pc.rank := by
  cases h with
  | next hd | look hl => simp [Pc.rank]
  | detach hl | join hst =>
    have hd := hfits.target rfl
    show t.ahead + 0 + 8 < t.ahead + (if t.destroyed then 0 else 8) + _
    rw [hd]
    simp [Pc.rank, Nat.add_assoc]
  | store =>
    have htold := ahead_told t
    show LoopThread.ahead _ + (if t.destroyed then 0 else 8) + 2 <
      t.ahead + (if t.destroyed then 0 else 8) + 6
    omega
  | wakeup => exact Nat.lt_succ_self _
  | thread hs =>
    have hless := step_ahead hs
    rw [LoopThread.rank, LoopThread.rank, (step_passes hs).destroyed]
    omega
  | poll hst | event hst | queue hst | quit hst => cases ha

theorem Move.raises (h : Move a j pc t pc' t') (ha : a.prompt = false) :
    t'.rank + pc'.rank ≤ t.rank + pc.rank + a.price := by
  cases h with
  | next hd | look hl | detach hl | store | wakeup | join hst | thread hs => cases ha
  | @poll _ n _ _ hst | @event _ n _ _ hst =>
    have hpoll : 5 ≤ t.ahead := by
      unfold LoopThread.ahead
      rw [hst]
      cases t.quit_ <;> simp
    show 7 + n + (if t.destroyed then 0 else 8) + pc.rank ≤
      t.ahead + (if t.destroyed then 0 else 8) + pc.rank + (n + 2)
    omega
  | queue hst => exact Nat.le_refl _
  | quit hst =>
    have hsame : { t with quit_ := true }.ahead = t.ahead := by
      unfold LoopThread.ahead
      cases hstage : t.stage <;> simp_all [Stage.working]
    show LoopThread.ahead _ + (if t.destroyed then 0 else 8) + pc.rank ≤ _
    rw [hsame]
    exact Nat.le_refl _

theorem Inv.owed (h : Inv s) (hs : PoolStop.step s a = some s') : ∃ j t', j < s.count ∧
    Move a j s.pc (s.threads_ j) s'.pc t' ∧
    s'.owed + (s.threads_ j).rank + s.pc.rank = s.owed + t'.rank + s'.pc.rank := by
  obtain ⟨j, t', hj, hm, hcount, hthreads⟩ := h.cases hs
  have htotal := Potential.total_update LoopThread.rank s.threads_ t' hj
  refine ⟨j, t', hj, hm, ?_⟩
  rw [System.owed, System.owed, hcount, hthreads]
  omega

theorem pays : Potential.Pays step Inv Action.prompt Action.price System.owed where
  keeps h hs := h.step hs
  spends h hs ha := by
    obtain ⟨j, t', -, hm, heq⟩ := h.owed hs
    have hless := hm.spends (h.fits j) ha
    omega
  raises h hs ha := by
    obtain ⟨j, t', -, hm, heq⟩ := h.owed hs
    have hmore := hm.raises ha
    omega

theorem owed_started (count : Nat) : (started count).owed = 15 * count + 8 := by
  show Potential.total (fun _ => 15) count + 8 = _
  rw [Potential.total_const (fun _ => rfl)]

/-! ## In time -/

/-- The destroying thread has come neither too early nor too late for the thread: the loop that it
is about to tell to quit is there, it is still there for the wakeup, and a thread that has been told
to quit is to find `quit_` set. -/
structure InTime (pc : Pc) (j : Nat) (t : LoopThread) : Prop where
  store : pc = .store j → t.loop_ = true
  wakeup : pc = .wakeup j → t.stage ≠ .finished
  told : pc.told = some j → ¬ t.unseen

theorem Move.inTime (hm : Move a j pc t pc' t') (hne : k ≠ j) : InTime pc' k u ↔ InTime pc k u := by
  obtain ⟨-, htold, hstore, hwakeup, -⟩ := hm.other hne
  constructor
  · intro h
    exact ⟨fun hk => h.store (hstore.mpr hk), fun hk => h.wakeup (hwakeup.mpr hk),
      fun hk => h.told (htold.mpr hk)⟩
  · intro h
    exact ⟨fun hk => h.store (hstore.mp hk), fun hk => h.wakeup (hwakeup.mp hk),
      fun hk => h.told (htold.mp hk)⟩

theorem inTime_between (t : LoopThread) : InTime .between j t :=
  ⟨fun hpc => (by cases hpc), fun hpc => (by cases hpc), fun hpc => (by cases hpc)⟩

theorem inTime_test (t : LoopThread) : InTime (.test j) j t :=
  ⟨fun hpc => (by cases hpc), fun hpc => (by cases hpc), fun hpc => (by cases hpc)⟩

/-- Too early or too late once is so for good, unless a handler or functor calls `quit`. -/
theorem InTime.back (h : InTime pc' j t') (hm : Move a j pc t pc' t') (ha : a.user = false)
    (hstore : a = .destroyer → pc = .store j → t.loop_ = true)
    (hwakeup : a = .destroyer → pc = .wakeup j → t.stage ≠ .finished) : InTime pc j t := by
  cases hm with
  | next hd => exact inTime_between t
  | look hl | detach hl => exact inTime_test t
  | store => exact ⟨hstore rfl, fun hpc => (by cases hpc), fun hpc => (by cases hpc)⟩
  | wakeup => exact ⟨fun hpc => (by cases hpc), hwakeup rfl, fun _ => h.told rfl⟩
  | join hst =>
    refine ⟨fun hpc => (by cases hpc), fun hpc => (by cases hpc), fun _ hunseen => ?_⟩
    simp [LoopThread.unseen, hst, Stage.inside] at hunseen
  | thread hs =>
    have hp := step_passes hs
    exact ⟨fun hpc => hp.published (h.store hpc), fun _ => hp.leaves,
      fun hpc hunseen => h.told hpc (hp.unseen.mpr hunseen)⟩
  | poll hst | event hst =>
    refine ⟨h.store, fun _ => by simp [hst], fun hpc hunseen => h.told hpc ?_⟩
    exact .inr ⟨rfl, (hunseen.resolve_left (by simp [hst])).2⟩
  | queue hst => exact ⟨h.store, h.wakeup, h.told⟩
  | quit hst => cases ha

/-- The destroying thread lets the thread enter `loop()` first, and is then let go on itself until
it joins. -/
theorem InTime.move (h : InTime pc j t) (hfits : Fits pc j t) (hm : Move a j pc t pc' t')
    (hdestroyer : a = .destroyer → pc = .store j → t.stage ≠ .enter)
    (hthread : a = .thread j → pc = .join j ∨ pc = .store j ∧ t.stage = .enter) :
    InTime pc' j t' := by
  cases hm with
  | next hd => exact inTime_test t
  | look hl => exact ⟨fun _ => hl, fun hpc => (by cases hpc), fun hpc => (by cases hpc)⟩
  | detach hl | join hst => exact inTime_between _
  | store =>
    refine ⟨fun hpc => (by cases hpc), fun _ hst => ?_, fun _ hunseen => ?_⟩
    · have hloop := hfits.loop
      rw [h.store rfl, show t.stage = .finished from hst] at hloop
      cases hloop
    · have hq : true = false := (hunseen.resolve_left (hdestroyer rfl rfl)).2
      cases hq
  | wakeup => exact ⟨fun hpc => (by cases hpc), fun hpc => (by cases hpc), fun _ => h.told rfl⟩
  | thread hs =>
    rcases hthread rfl with rfl | ⟨rfl, hst⟩
    · exact ⟨fun hpc => (by cases hpc), fun hpc => (by cases hpc),
        fun hpc hunseen => h.told hpc ((step_passes hs).unseen.mp hunseen)⟩
    · rw [LoopThread.step, hst] at hs
      obtain rfl := Option.some.inj hs
      exact ⟨fun _ => h.store rfl, fun hpc => (by cases hpc), fun hpc => (by cases hpc)⟩
  | poll hst | event hst =>
    refine ⟨h.store, fun _ heq => (by cases heq), fun hpc hunseen => h.told hpc ?_⟩
    exact .inr ⟨by rw [hst]; rfl, (hunseen.resolve_left (fun heq => by cases heq)).2⟩
  | queue hst => exact ⟨h.store, h.wakeup, h.told⟩
  | quit hst =>
    refine ⟨h.store, h.wakeup, fun hpc hunseen => h.told hpc (.inl ?_)⟩
    exact hunseen.resolve_right fun hin => by cases hin.2

/-- Where the destructor returns, the destroying thread has been in time all along. -/
theorem inTime_of_between {bs : List Action} (h : Inv s) (hquit : ∀ b ∈ bs, b.user = false)
    (hr : Execution.exec step s bs = some s') (hpc : s'.pc = .between) :
    (∀ j, InTime s.pc j (s.threads_ j)) ∧ (s.deadLoop = true → s.pc = .between) := by
  induction bs generalizing s with
  | nil =>
    obtain rfl := Option.some.inj hr
    exact ⟨fun j => hpc ▸ inTime_between _, fun _ => hpc⟩
  | cons a bs ih =>
    obtain ⟨t, hs, hrest⟩ := Execution.exec_cons_some.mp hr
    obtain ⟨htime, hdead⟩ := ih (h.step hs) (fun b hb => hquit b (List.mem_cons_of_mem a hb)) hrest
    obtain ⟨hloop, -, huses, -⟩ := step_alive hs
    refine ⟨fun k => ?_, fun hdl => absurd (hloop.symm.trans hdl) (by simp)⟩
    obtain ⟨j, t', -, hm, -, hthreads⟩ := h.cases hs
    have hk := htime k
    rw [hthreads] at hk
    -- a step that uses a loop that is gone ends no destructor, and no step comes after it
    have hlives : s.usesDeadLoop a = false := by
      by_contra hu
      rw [Bool.not_eq_false] at hu
      rw [hdead (huses.trans hu)] at hm
      unfold System.usesDeadLoop at hu
      split at hu
      · rename_i i hi
        rw [hi] at hm
        cases hm
      · rename_i i hi
        rw [hi] at hm
        cases hm
      · cases hu
    by_cases hj : k = j
    · subst hj
      rw [Function.update_self] at hk
      refine hk.back hm (hquit a List.mem_cons_self) (fun ha hi => ?_) (fun ha hi => ?_)
      · rw [ha] at hlives
        simpa [System.usesDeadLoop, hi] using hlives
      · rw [ha] at hlives
        simpa [System.usesDeadLoop, hi] using hlives
    · rw [Function.update_of_ne hj] at hk
      exact (hm.inTime hj).mp hk

structure Viable (s : System) : Prop where
  inv : Inv s
  deadLoop : s.deadLoop = false
  deadThread : s.deadThread = false
  inTime : ∀ j, InTime s.pc j (s.threads_ j)

theorem Viable.usesDeadLoop (h : Viable s) (a : Action) : s.usesDeadLoop a = false := by
  unfold System.usesDeadLoop
  split
  · rename_i j hpc
    rw [(h.inTime j).store hpc]
    rfl
  · rename_i j hpc
    exact decide_eq_false ((h.inTime j).wakeup hpc)
  · rfl

theorem Viable.go {m : System} (h : Viable s) (hm : s.move a = some m)
    (hdestroyer : a = .destroyer → ∀ j, s.pc = .store j → (s.threads_ j).stage ≠ .enter)
    (hthread : ∀ j, a = .thread j →
      s.pc = .join j ∨ s.pc = .store j ∧ (s.threads_ j).stage = .enter)
    (hless : ∀ j t', Move a j s.pc (s.threads_ j) m.pc t' →
      t'.rank + m.pc.rank < (s.threads_ j).rank + s.pc.rank) (ha : a.user = false) :
    ∃ a s', a.user = false ∧ step s a = some s' ∧ Viable s' ∧ s'.owed < s.owed := by
  obtain ⟨s', hs, hpc⟩ : ∃ s', step s a = some s' ∧ s'.pc = m.pc :=
    ⟨_, step_of_move hm h.deadLoop h.deadThread, rfl⟩
  obtain ⟨-, -, hdeadLoop, hdeadThread⟩ := step_alive hs
  have hlives := h.usesDeadLoop a
  refine ⟨a, s', ha, hs, ⟨h.inv.step hs, hdeadLoop.trans hlives, hdeadThread.trans ?_, ?_⟩, ?_⟩
  · cases a with
    | thread j =>
      have htarget : s.pc.target = some j := by
        rcases hthread j rfl with hpc | ⟨hpc, -⟩ <;> (rw [hpc]; rfl)
      show ((s.threads_ j).stage.onThread && (s.threads_ j).destroyed) = false
      rw [(h.inv.fits j).target htarget, Bool.and_false]
    | _ => rfl
  · exact h.inv.each hs h.inTime
      (fun hm => (h.inTime _).move (h.inv.fits _) hm (fun ha => hdestroyer ha _) (hthread _))
      (fun hm hk hu => (hm.inTime hk).mpr hu)
  · obtain ⟨j, t', -, hm, heq⟩ := h.inv.owed hs
    rw [hpc] at hm heq
    have hmoved := hless j t' hm
    omega

/-- The return from a poll that `quit` has woken up takes the thread on. -/
theorem Move.woken {i : Nat} (h : Move (.poll i 0) j pc t pc' t') :
    j = i ∧ (t.quit_ = true → t'.rank + pc'.rank < t.rank + pc.rank) := by
  cases h with
  | poll hst hw =>
    refine ⟨rfl, fun hq => ?_⟩
    have hahead : t.ahead = 8 := by
      unfold LoopThread.ahead
      rw [hst, hq]
      rfl
    show 7 + (if t.destroyed then 0 else 8) + pc.rank < t.ahead + (if t.destroyed then 0 else 8) + _
    omega

/-- As long as the destructor has not returned, a step takes it on. -/
theorem Viable.advance (h : Viable s) : s.returned = true ∨ ∃ a s', a.user = false ∧
    step s a = some s' ∧ Viable s' ∧ s'.owed < s.owed := by
  have hdestroyer {m : System} (hm : s.move .destroyer = some m)
      (hst : ∀ j, s.pc = .store j → (s.threads_ j).stage ≠ .enter) :=
    h.go hm (fun _ => hst) (fun j ha => by cases ha) (fun j t' hmv => hmv.spends (h.inv.fits j) rfl)
      rfl
  have hthread {j : Nat} {t : LoopThread} (hj : j < s.count) (ht : (s.threads_ j).step = some t)
      (hready : s.pc = .join j ∨ s.pc = .store j ∧ (s.threads_ j).stage = .enter) :=
    h.go (a := .thread j) (by rw [System.move, if_pos hj, ht]; rfl) (fun ha => by cases ha)
      (fun i ha => by cases ha; exact hready) (fun j t' hmv => hmv.spends (h.inv.fits j) rfl) rfl
  cases hpc : s.pc with
  | between =>
    by_cases hall : ∀ j, j < s.count → (s.threads_ j).destroyed = true
    · left
      simpa [System.returned, hpc] using hall
    · right
      obtain ⟨j, hj, hd⟩ : ∃ j, j < s.count ∧ (s.threads_ j).destroyed = false := by
        simpa using hall
      have hm : s.move (.next j) = some { s with pc := .test j } := if_pos ⟨hpc, hj, hd⟩
      exact h.go hm (fun ha => by cases ha) (fun i ha => by cases ha)
        (fun j t' hmv => hmv.spends (h.inv.fits j) rfl) rfl
  | test j =>
    right
    cases hl : (s.threads_ j).loop_ with
    | true =>
      exact hdestroyer (by rw [System.move, System.destroyerStep, hpc]; exact if_pos hl)
        (fun i hi => by rw [hpc] at hi; cases hi)
    | false =>
      exact hdestroyer (by rw [System.move, System.destroyerStep, hpc]; exact if_neg (by simp [hl]))
        (fun i hi => by rw [hpc] at hi; cases hi)
  | store j =>
    right
    have hj := h.inv.within j (by rw [hpc]; rfl)
    by_cases hst : (s.threads_ j).stage = .enter
    · exact hthread hj (by rw [LoopThread.step, hst]) (.inr ⟨hpc, hst⟩)
    · refine hdestroyer (by rw [System.move, System.destroyerStep, hpc]) (fun i hi => ?_)
      rw [hpc] at hi
      cases hi
      exact hst
  | wakeup j =>
    right
    exact hdestroyer (by rw [System.move, System.destroyerStep, hpc])
      (fun i hi => by rw [hpc] at hi; cases hi)
  | join j =>
    right
    have hj := h.inv.within j (by rw [hpc]; rfl)
    by_cases hfinished : (s.threads_ j).stage = .finished
    · exact hdestroyer (by rw [System.move, System.destroyerStep, hpc]; exact if_pos hfinished)
        (fun i hi => by rw [hpc] at hi; cases hi)
    · by_cases hpoll : (s.threads_ j).stage = .poll
      · -- it has been told to quit, and the wakeup is there
        have hq : (s.threads_ j).quit_ = true := by
          by_contra hq
          exact (h.inTime j).told (by rw [hpc]; rfl) (.inr ⟨by rw [hpoll]; rfl, by simpa using hq⟩)
        have hm : s.move (.poll j 0) = some (s.setThread j
            { s.threads_ j with wakeupFd_ := 0, stage := .work 0 }) :=
          if_pos ⟨hj, hpoll, (h.inv.fits j).woken hpc hq hpoll⟩
        refine h.go hm (fun ha => by cases ha) (fun i ha => by cases ha) (fun i t' hmv => ?_) rfl
        obtain ⟨rfl, hless⟩ := hmv.woken
        exact hless hq
      · obtain ⟨t, ht⟩ : ∃ t, (s.threads_ j).step = some t := by
          unfold LoopThread.step
          cases hst : (s.threads_ j).stage with
          | work n => cases n <;> exact ⟨_, rfl⟩
          | poll => exact absurd hst hpoll
          | finished => exact absurd hst hfinished
          | _ => exact ⟨_, rfl⟩
        exact hthread hj ht (.inl hpc)

/-! ## The destructor returns -/

/-- In every interleaving, with calls of `quit` by handlers and functors too: the steps that the
threads take on their own accord are bounded by what the polls have brought; and from a state in
which no object that is gone has been used, the pool's destructor can return without such a call
exactly where the destroying thread is in time, within the same bound. -/
theorem destroy_returns (count : Nat) (as : List Action)
    (hr : Execution.exec step (started count) as = some s) :
    as.countP Action.prompt ≤ 15 * count + 8 + Potential.cost Action.prompt Action.price as ∧
    (s.deadLoop = false → s.deadThread = false →
      ((∃ bs s', (∀ b ∈ bs, b.user = false) ∧ Execution.exec step s bs = some s' ∧
        s'.returned = true) ↔ ∀ j, InTime s.pc j (s.threads_ j)) ∧
      ((∀ j, InTime s.pc j (s.threads_ j)) → ∃ bs s', (∀ b ∈ bs, b.user = false) ∧
        Execution.exec step s bs = some s' ∧ s'.returned = true ∧
        bs.length ≤ 15 * count + 8 + Potential.cost Action.prompt Action.price as)) := by
  have hinv : Inv s := Execution.exec_preserves Inv (fun _ _ _ h hs => h.step hs)
    (inv_started count) hr
  have hpaid := pays.count_add_le (inv_started count) hr
  rw [owed_started] at hpaid
  refine ⟨by omega, fun hloop hthread => ?_⟩
  have hadvance (t : System) (ht : Viable t) : t.returned = true ∨ ∃ bs t',
      Execution.exec step t bs = some t' ∧ (∀ b ∈ bs, b.user = false) ∧ Viable t' ∧
        t'.owed < t.owed ∧ bs.length ≤ 1 := by
    refine ht.advance.imp_right ?_
    rintro ⟨b, t', hb, hs, ht', hless⟩
    exact ⟨[b], t', Execution.exec_cons_some.mpr ⟨t', hs, rfl⟩, by simpa using hb, ht', hless,
      Nat.le_refl 1⟩
  have hreturns (htime : ∀ j, InTime s.pc j (s.threads_ j)) : ∃ bs s',
      (∀ b ∈ bs, b.user = false) ∧ Execution.exec step s bs = some s' ∧ s'.returned = true ∧
      bs.length ≤ 15 * count + 8 + Potential.cost Action.prompt Action.price as := by
    obtain ⟨bs, s', hbs, hquit, -, hreturned, hlength⟩ :=
      Potential.exists_rest hadvance s ⟨hinv, hloop, hthread, htime⟩
    exact ⟨bs, s', hquit, hbs, hreturned, by omega⟩
  refine ⟨⟨?_, fun htime => ?_⟩, hreturns⟩
  · rintro ⟨bs, s', hquit, hbs, hreturned⟩
    rw [System.returned, Bool.and_eq_true, decide_eq_true_eq] at hreturned
    exact (inTime_of_between hinv hquit hbs hreturned.1).1
  · obtain ⟨bs, s', hquit, hbs, hreturned, -⟩ := hreturns htime
    exact ⟨bs, s', hquit, hbs, hreturned⟩

/-- The store of `quit_` comes before the thread has reset it, or after. -/
def tooEarly : List Action :=
  [.next 0, .destroyer, .thread 1, .destroyer, .thread 0, .destroyer]

def timely : List Action :=
  [.next 0, .destroyer, .thread 1, .thread 0, .destroyer, .destroyer]

theorem destroy_returns_told :
    (∃ s, Execution.exec step (started 2) tooEarly = some s ∧ ¬ ∃ bs s',
      (∀ b ∈ bs, b.user = false) ∧ Execution.exec step s bs = some s' ∧ s'.returned = true) ∧
    ∃ s, Execution.exec step (started 2) timely = some s ∧ ∃ bs s',
      (∀ b ∈ bs, b.user = false) ∧ Execution.exec step s bs = some s' ∧ s'.returned = true := by
  constructor
  · have hrun : (Execution.exec step (started 2) tooEarly).map (fun s : System =>
        decide ((s.deadLoop = false ∧ s.deadThread = false) ∧ s.pc.told = some 0 ∧
          (s.threads_ 0).stage.inside = true ∧ (s.threads_ 0).quit_ = false)) = some true := by
      decide +kernel
    obtain ⟨s, hs, hstate⟩ := Option.map_eq_some_iff.mp hrun
    obtain ⟨⟨hloop, hthread⟩, htold, hunseen⟩ := of_decide_eq_true hstate
    refine ⟨s, hs, fun hreturns => ?_⟩
    have htime := ((destroy_returns 2 tooEarly hs).2 hloop hthread).1.mp hreturns
    exact (htime 0).told htold (.inr hunseen)
  · have hrun : (Execution.exec step (started 2) timely).map (fun s : System =>
        decide ((s.deadLoop = false ∧ s.deadThread = false) ∧ s.pc = .join 0 ∧
          (s.threads_ 0).stage = .test ∧ (s.threads_ 0).quit_ = true)) = some true := by
      decide +kernel
    obtain ⟨s, hs, hstate⟩ := Option.map_eq_some_iff.mp hrun
    obtain ⟨⟨hloop, hthread⟩, hpc, hstage, hquit⟩ := of_decide_eq_true hstate
    refine ⟨s, hs, ((destroy_returns 2 timely hs).2 hloop hthread).1.mpr fun j => ?_⟩
    rw [hpc]
    refine ⟨fun hj => (by cases hj), fun hj => (by cases hj), fun hj => ?_⟩
    obtain rfl : (0 : Nat) = j := Option.some.inj hj
    simp [LoopThread.unseen, hstage, hquit]

end Steps

end Mymuduo.PoolStop

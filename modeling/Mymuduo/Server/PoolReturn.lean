import Mymuduo.Library.Potential
import Mymuduo.Server.PoolThreads

/-!
# Whether `start` returns

The starting thread and the threads that it starts have a bounded number of steps between them, and
no notification is lost. So `start` returns unless a loop is left, and `loop_` is about to be reset,
before `startLoop` has found it; from then on the starting thread waits for ever.
-/

namespace Mymuduo.PoolStart

open Mymuduo.Library

/-! ## How many steps there are -/

/-- The steps that the thread still has before it. -/
def Stage.rank : Stage → Nat
  | absent => 13
  | entry => 12
  | post => 11
  | construct => 10
  | callback => 9
  | lock => 8
  | store => 7
  | notify => 6
  | unlock => 5
  | looping => 4
  | relock => 3
  | clear => 2
  | leave => 1
  | finished => 0

/-- The steps that the starting thread has before it until the next thread; a notification adds
three to them. -/
def Pc.rank : Pc → Nat
  | test => 10
  | create => 9
  | spawn => 8
  | semWait => 7
  | lock | relock => 6
  | check => 5
  | wait => 3
  | unlock _ => 2
  | emplace _ | base => 1
  | returned => 0

/-- The steps that the first `n` threads have before them. -/
def ranks (threads_ : Nat → NewThread) : Nat → Nat :=
  Potential.total fun k => (threads_ k).stage.rank

theorem ranks_update (f : Nat → NewThread) (t : NewThread) {j n : Nat} (hj : j < n) :
    ranks (Function.update f j t) n + (f j).stage.rank = ranks f n + t.stage.rank :=
  Potential.total_update (fun t => t.stage.rank) f t hj

def System.rank (s : System) : Nat :=
  4 * ranks s.threads_ s.setup.count + 10 * (s.setup.count - s.i) + s.pc.rank

/-- All but the waits that end without a notification. -/
def Action.prompt : Action → Bool
  | .spurious => false
  | .starter | .thread _ | .quitLoop _ => true

def Action.price : Action → Nat
  | .spurious => 3
  | .starter | .thread _ | .quitLoop _ => 0

section Ranks

variable {setup : Setup} {s s' : System} {j : Nat} {t t' : NewThread}

theorem step_rank (hs : t.step setup j = some t') : t'.stage.rank < t.stage.rank := by
  unfold NewThread.step at hs
  cases hst : t.stage <;> simp only [hst, reduceCtorEq, Option.some.injEq,
    Option.ite_none_right_eq_some] at hs
  all_goals obtain ⟨hfree, rfl⟩ := hs
  all_goals simp only [Stage.rank]; omega

theorem Inv.lt_count (h : Inv s) (hst : (s.threads_ j).stage ≠ .absent) : j < s.setup.count := by
  have hcount := h.count
  rcases h.place hst with hj | ⟨rfl, hpc⟩
  · omega
  · exact h.within (.inr (.inr hpc))

/-- A thread goes on, and the starting thread may be woken. -/
theorem rank_setThread (hj : j < s.setup.count) {pc' : Pc} {pool' : EventLoopThreadPool} {d : Bool}
    (ht : t.stage.rank < (s.threads_ j).stage.rank) (hpc : pc'.rank ≤ s.pc.rank + 3) :
    System.rank { s.setThread j t with pc := pc', pool := pool', dangling := d } < s.rank := by
  have hranks := ranks_update s.threads_ t hj
  show 4 * ranks (Function.update s.threads_ j t) s.setup.count + 10 * (s.setup.count - s.i) +
    pc'.rank < 4 * ranks s.threads_ s.setup.count + 10 * (s.setup.count - s.i) + s.pc.rank
  omega

/-- The starting thread goes on, with the thread at hand where it is or just started. -/
theorem rank_advance (hi : s.i < s.setup.count) {pc' : Pc} {n : Nat}
    (ht : t.stage.rank ≤ s.current.stage.rank) (hpc : pc'.rank < s.pc.rank) :
    System.rank { s.setThread s.i t with pc := pc', numCreated_ := n } < s.rank := by
  have hranks := ranks_update s.threads_ t hi
  have ht' : t.stage.rank ≤ (s.threads_ s.i).stage.rank := ht
  show 4 * ranks (Function.update s.threads_ s.i t) s.setup.count + 10 * (s.setup.count - s.i) +
    pc'.rank < 4 * ranks s.threads_ s.setup.count + 10 * (s.setup.count - s.i) + s.pc.rank
  omega

theorem rank_pc {pc' : Pc} {pool' : EventLoopThreadPool} (hpc : pc'.rank < s.pc.rank) :
    System.rank { s with pc := pc', pool := pool' } < s.rank :=
  Nat.add_lt_add_left hpc _

theorem rank_emplace (hi : s.i < s.setup.count) {loop : LoopAddr} (hpc : s.pc = .emplace loop)
    {pool' : EventLoopThreadPool} :
    System.rank { s with pool := pool', i := s.i + 1, pc := .test } < s.rank := by
  show 4 * ranks s.threads_ s.setup.count + 10 * (s.setup.count - (s.i + 1)) + 10 <
    4 * ranks s.threads_ s.setup.count + 10 * (s.setup.count - s.i) + s.pc.rank
  rw [hpc]
  show _ < _ + 1
  omega

theorem rank_starterStep (h : Inv s) (hs : s.starterStep = some s') : s'.rank < s.rank := by
  have hi : s.pc = .create ∨ s.pc = .spawn ∨ s.pc.spawned = true → s.i < s.setup.count := h.within
  unfold System.starterStep at hs
  cases hpc : s.pc <;> simp only [hpc, Option.some.injEq, reduceCtorEq,
    Option.ite_none_right_eq_some] at hs
  case test =>
    obtain rfl := hs
    refine rank_pc ?_
    rw [hpc]
    split
    · decide
    · decide
  case create =>
    obtain rfl := hs
    have hplain := h.plain (by rw [hpc]; rfl) (by rw [hpc]; simp)
    have hstage : s.current.stage.rank = Stage.absent.rank :=
      congrArg (fun t => t.stage.rank) hplain
    exact rank_advance (hi (.inl hpc)) (Nat.le_of_eq hstage.symm) (by rw [hpc]; decide)
  case spawn =>
    obtain rfl := hs
    have hcoming : s.current = _ := h.coming (by rw [hpc]; rfl)
    rw [if_pos hpc] at hcoming
    refine rank_advance (hi (.inr (.inl hpc))) ?_ (by rw [hpc]; decide)
    rw [hcoming]
    show Stage.entry.rank ≤ Stage.absent.rank
    decide
  case semWait =>
    split at hs
    · obtain rfl := Option.some.inj hs
      exact rank_advance (hi (.inr (.inr (by rw [hpc]; rfl)))) (Nat.le_refl _) (by rw [hpc]; decide)
    · cases hs
  case lock | relock =>
    obtain ⟨-, rfl⟩ := hs
    exact rank_advance (hi (.inr (.inr (by rw [hpc]; rfl)))) (Nat.le_refl _) (by rw [hpc]; decide)
  case check =>
    split at hs
    · obtain rfl := Option.some.inj hs
      exact rank_advance (hi (.inr (.inr (by rw [hpc]; rfl)))) (Nat.le_refl _) (by rw [hpc]; decide)
    · obtain rfl := Option.some.inj hs
      exact rank_pc (by rw [hpc]; show 2 < 5; decide)
  case unlock loop =>
    obtain rfl := hs
    refine rank_advance (hi (.inr (.inr (by rw [hpc]; rfl)))) (Nat.le_refl _) ?_
    rw [hpc]
    show 1 < 2
    decide
  case emplace loop =>
    obtain rfl := hs
    exact rank_emplace (hi (.inr (.inr (by rw [hpc]; rfl)))) hpc
  case base =>
    obtain rfl := hs
    exact rank_pc (by rw [hpc]; decide)

theorem rank_threadStep (h : Inv s) (hs : s.threadStep j = some s') : s'.rank < s.rank := by
  obtain ⟨t', hstep, rfl⟩ := Option.map_eq_some_iff.mp hs
  refine rank_setThread (h.lt_count (step_stage_ne hstep)) (step_rank hstep) ?_
  split
  · rename_i hwake
    rw [hwake.2.1]
    decide
  · exact Nat.le_add_right _ _

theorem rank_step (h : Inv s) {a : Action} (ha : a.prompt = true) (hs : step s a = some s') :
    s'.rank < s.rank := by
  cases a with
  | starter => exact rank_starterStep h hs
  | thread j => exact rank_threadStep h hs
  | quitLoop j =>
    simp only [step, Option.ite_none_right_eq_some, Option.some.injEq] at hs
    obtain ⟨hst, rfl⟩ := hs
    refine rank_setThread (h.lt_count (by rw [hst]; simp)) ?_ (Nat.le_add_right _ _)
    rw [hst]
    show Stage.relock.rank < Stage.looping.rank
    decide
  | spurious => cases ha

/-- Only the waits that end without a notification are not paid for. -/
theorem pays : Potential.Pays step Inv Action.prompt Action.price System.rank where
  keeps h hs := h.step hs
  spends h hs ha := rank_step h ha hs
  raises h hs ha := by
    rename_i s a s'
    cases a with
    | spurious =>
      simp only [step, Option.ite_none_right_eq_some, Option.some.injEq] at hs
      obtain ⟨hpc, rfl⟩ := hs
      have hrank : 6 ≤ s.pc.rank + 3 := by rw [hpc]; decide
      exact Nat.add_le_add_left hrank _
    | starter | thread j | quitLoop j => cases ha

theorem rank_entered (setup : Setup) : (entered setup).rank = 62 * setup.count + 10 := by
  have htotal : ranks (fun _ => {}) setup.count = 13 * setup.count :=
    Potential.total_const (fun _ => rfl) _
  show 4 * ranks (fun _ => {}) setup.count + 10 * (setup.count - 0) + 10 = _
  omega

end Ranks

/-! ## Who can go on -/

/-- `startLoop` still looks for `loop_`, which the thread has come back to reset. -/
def System.Lost (s : System) : Prop := s.pc.seeking = true ∧ s.current.stage.gone = true

section Progress

variable {setup : Setup} {s s' : System} {j : Nat} {t t' : NewThread}

theorem spawned_of_seeking {pc : Pc} (h : pc.seeking = true) : pc.spawned = true := by
  rw [Pc.spawned, h, Bool.true_or]

theorem stage_goto {pc' : Pc} (ht : t.stage = s.current.stage) :
    (System.current { s.setThread s.i t with pc := pc' }).stage = s.current.stage := by
  show ((s.setThread s.i t).threads_ s.i).stage = s.current.stage
  rw [setThread_self]
  exact ht

/-- A step inside `startLoop` leaves the new thread where it is; it ends the search only where the
thread is in its loop. -/
theorem seeking_starterStep (h : Inv s) (hseek : s.pc.seeking = true)
    (hs : s.starterStep = some s') : s'.i = s.i ∧ s'.current.stage = s.current.stage ∧
      (s'.pc.seeking = true ∨ s'.pc.seeking = false ∧ s.current.stage.published = true ∧
        s.current.stage.locked = false) := by
  have hfits := h.current (spawned_of_seeking hseek)
  unfold System.starterStep at hs
  cases hpc : s.pc <;> simp only [hpc, Option.some.injEq, reduceCtorEq,
    Option.ite_none_right_eq_some] at hs
  case semWait =>
    split at hs
    · obtain rfl := Option.some.inj hs
      exact ⟨rfl, stage_goto rfl, .inl rfl⟩
    · cases hs
  case lock | relock =>
    obtain ⟨-, rfl⟩ := hs
    exact ⟨rfl, stage_goto rfl, .inl rfl⟩
  case check =>
    split at hs
    · obtain rfl := Option.some.inj hs
      exact ⟨rfl, stage_goto rfl, .inl rfl⟩
    · rename_i loop hsome
      obtain rfl := Option.some.inj hs
      have hloop := hfits.loop
      rw [hsome] at hloop
      have hpublished : s.current.stage.published = true := by
        by_contra hno
        rw [if_neg hno] at hloop
        cases hloop
      exact ⟨rfl, rfl, .inr ⟨rfl, hpublished, hfits.unlocked (by rw [hpc]; rfl)⟩⟩
  all_goals
    rw [hpc] at hseek
    cases hseek

/-- A thread that has come back stays away, and only one that comes back is gone. -/
theorem step_gone (hs : t.step setup j = some t') :
    t'.stage.gone = (t.stage.gone || decide (t.stage = .relock)) := by
  unfold NewThread.step at hs
  cases hst : t.stage <;> simp only [hst, reduceCtorEq, Option.some.injEq,
    Option.ite_none_right_eq_some] at hs
  all_goals obtain ⟨hfree, rfl⟩ := hs
  all_goals rfl

theorem notified_seeking {pc : Pc} : (notified t pc).seeking = pc.seeking := by
  unfold notified
  split
  · rename_i h
    rw [h.2]
    rfl
  · rfl

/-- A step of a thread that has been started, as the starting thread sees it. -/
theorem seeking_threadStep (hs : s.threadStep j = some s') :
    s'.i = s.i ∧ s'.pc.seeking = s.pc.seeking ∧
      (j ≠ s.i ∧ s'.current = s.current ∨
        j = s.i ∧ s.current.step s.setup j = some s'.current) := by
  obtain ⟨t', hstep, rfl⟩ := Option.map_eq_some_iff.mp hs
  refine ⟨rfl, ?_, ?_⟩
  · by_cases hj : s.i = j
    · have hpc : (if (s.threads_ j).stage = .notify ∧ s.pc = .wait ∧ s.i = j then Pc.relock
          else s.pc) = notified (s.threads_ j) s.pc := by simp [notified, hj]
      show (if (s.threads_ j).stage = .notify ∧ s.pc = .wait ∧ s.i = j then Pc.relock
        else s.pc).seeking = s.pc.seeking
      rw [hpc, notified_seeking]
    · show (if (s.threads_ j).stage = .notify ∧ s.pc = .wait ∧ s.i = j then Pc.relock
        else s.pc).seeking = s.pc.seeking
      rw [if_neg (fun hwake => hj hwake.2.2)]
  · by_cases hj : j = s.i
    · subst hj
      refine .inr ⟨rfl, ?_⟩
      have hcurrent : (s.setThread s.i t').threads_ s.i = t' := setThread_self s s.i t'
      show (s.threads_ s.i).step s.setup s.i = some ((s.setThread s.i t').threads_ s.i)
      rw [hcurrent]
      exact hstep
    · exact .inl ⟨hj, setThread_of_ne s t' (Ne.symm hj)⟩

/-- Once `loop_` is lost to the starting thread, nothing brings it back. -/
theorem Lost.step (hl : s.Lost) (h : Inv s) {a : Action} (hs : step s a = some s') : s'.Lost := by
  obtain ⟨hseek, hgone⟩ := hl
  cases a with
  | starter =>
    obtain ⟨-, hstage, hseek' | ⟨-, hpublished, hlocked⟩⟩ := seeking_starterStep h hseek hs
    · exact ⟨hseek', by rw [hstage]; exact hgone⟩
    · cases hst : s.current.stage <;>
        simp [hst, Stage.gone, Stage.published, Stage.locked] at hgone hpublished hlocked
  | thread j =>
    obtain ⟨hi, hpc, ⟨-, hcurrent⟩ | ⟨-, hstep⟩⟩ := seeking_threadStep hs
    · exact ⟨by rw [hpc]; exact hseek, by rw [hcurrent]; exact hgone⟩
    · refine ⟨by rw [hpc]; exact hseek, ?_⟩
      rw [step_gone hstep, hgone, Bool.true_or]
  | quitLoop j =>
    simp only [PoolStart.step, Option.ite_none_right_eq_some, Option.some.injEq] at hs
    obtain ⟨hst, rfl⟩ := hs
    have hj : s.i ≠ j := by
      rintro rfl
      have hst' : s.current.stage = .looping := hst
      rw [hst'] at hgone
      cases hgone
    refine ⟨hseek, ?_⟩
    show ((s.setThread j _).threads_ s.i).stage.gone = true
    rw [setThread_of_ne s _ hj]
    exact hgone
  | spurious =>
    simp only [PoolStart.step, Option.ite_none_right_eq_some, Option.some.injEq] at hs
    obtain ⟨hpc, rfl⟩ := hs
    exact ⟨rfl, hgone⟩

/-- On its way to its loop the new thread waits for nothing but the lock. -/
theorem step_enabled (hpresent : t.stage ≠ .absent) (hup : t.stage.up = false)
    (hlock : t.stage = .lock → t.mutex_ = none) : ∃ t', t.step setup j = some t' := by
  unfold NewThread.step
  cases hst : t.stage with
  | absent => exact absurd hst hpresent
  | lock => exact ⟨_, if_pos (hlock hst)⟩
  | looping | relock | clear | leave | finished =>
    rw [hst] at hup
    cases hup
  | entry | post | construct | callback | store | notify | unlock => exact ⟨_, rfl⟩

/-- The starting thread is not blocked where it does not seek. -/
theorem starterStep_enabled (hseek : s.pc.seeking = false) (hpc : s.pc ≠ .returned) :
    ∃ s', s.starterStep = some s' ∧ ¬ s'.Lost := by
  unfold System.starterStep System.Lost
  cases h : s.pc with
  | test =>
    refine ⟨_, rfl, ?_⟩
    intro hlost
    have hpc' := hlost.1
    simp only at hpc'
    split at hpc' <;> cases hpc'
  | spawn =>
    refine ⟨_, rfl, ?_⟩
    intro hlost
    have hgone : ((s.setThread s.i _).threads_ s.i).stage.gone = true := hlost.2
    rw [setThread_self] at hgone
    cases hgone
  | create | unlock loop | emplace loop | base =>
    refine ⟨_, rfl, ?_⟩
    intro hlost
    cases hlost.1
  | returned => exact absurd h hpc
  | semWait | lock | check | wait | relock =>
    rw [h] at hseek
    cases hseek

/-- As long as `loop_` is not lost, one of the two can take a step, and it is not lost then. -/
theorem Inv.goes_on (h : Inv s) (hl : ¬ s.Lost) (hpc : s.pc ≠ .returned) :
    ∃ a s', (a = .starter ∨ a = .thread s.i) ∧ PoolStart.step s a = some s' ∧ ¬ s'.Lost := by
  by_cases hseek : s.pc.seeking = true
  swap
  · obtain ⟨s', hs, hl'⟩ := starterStep_enabled (by simpa using hseek) hpc
    exact ⟨.starter, s', .inl rfl, hs, hl'⟩
  have hgone : s.current.stage.gone = false := by
    by_contra hgone
    exact hl ⟨hseek, by simpa using hgone⟩
  have hfits := h.current (spawned_of_seeking hseek)
  -- either of the two steps leaves the thread short of coming back
  have hstarter : (∃ s', s.starterStep = some s') → ∃ a s', (a = .starter ∨ a = .thread s.i) ∧
      PoolStart.step s a = some s' ∧ ¬ s'.Lost := by
    rintro ⟨s', hs⟩
    have hstage := (seeking_starterStep h hseek hs).2.1
    refine ⟨.starter, s', .inl rfl, hs, ?_⟩
    intro hlost
    have hgone' := hlost.2
    rw [hstage, hgone] at hgone'
    cases hgone'
  have hthread : s.current.stage.up = false → (s.current.stage = .lock → s.current.mutex_ = none) →
      ∃ a s', (a = .starter ∨ a = .thread s.i) ∧ PoolStart.step s a = some s' ∧ ¬ s'.Lost := by
    intro hup hlock
    obtain ⟨t', hstep⟩ : ∃ t', s.current.step s.setup s.i = some t' :=
      step_enabled hfits.present hup hlock
    obtain ⟨s', hs⟩ : ∃ s', s.threadStep s.i = some s' := by
      show ∃ s', (s.current.step s.setup s.i).map _ = some s'
      rw [hstep]
      exact ⟨_, rfl⟩
    refine ⟨.thread s.i, s', .inr rfl, hs, ?_⟩
    intro hlost
    obtain ⟨-, -, ⟨hne, -⟩ | ⟨-, hmove⟩⟩ := seeking_threadStep hs
    · exact hne rfl
    · have hgone' := hlost.2
      have hrelock : s.current.stage ≠ .relock := by
        intro hst
        rw [hst] at hup
        cases hup
      rw [step_gone hmove, hgone] at hgone'
      simp [hrelock] at hgone'
  have hfree : s.pc.holds = false → s.current.stage.locked = false → s.current.mutex_ = none := by
    intro hholds hlocked
    have hheld := hfits.held
    have hown := hfits.locked
    rw [hholds] at hheld
    rw [hlocked] at hown
    cases hm : s.current.mutex_ with
    | none => rfl
    | some holder => cases holder <;> simp [hm] at hheld hown
  cases hp : s.pc with
  | semWait =>
    have hsem := hfits.sem
    rw [if_pos hp] at hsem
    cases hposted : s.current.stage.posted with
    | true =>
      rw [hposted, if_pos rfl] at hsem
      exact hstarter ⟨_, by simp only [System.starterStep, hp, hsem]; rfl⟩
    | false =>
      have hpresent := hfits.present
      refine hthread ?_ ?_
      · cases hst : s.current.stage <;> simp [hst, Stage.posted, Stage.up] at hposted hpresent ⊢
      · intro hst
        rw [hst] at hposted
        cases hposted
  | lock | relock =>
    cases hlocked : s.current.stage.locked with
    | true =>
      refine hthread ?_ ?_
      · cases hst : s.current.stage <;>
          simp [hst, Stage.locked, Stage.gone, Stage.up] at hlocked hgone ⊢
      · intro hst
        rw [hst] at hlocked
        cases hlocked
    | false =>
      have hm := hfree (by rw [hp]; rfl) hlocked
      exact hstarter ⟨_, by simp only [System.starterStep, hp, if_pos hm]; rfl⟩
  | check =>
    cases hloop : s.current.loop_ with
    | none =>
      exact hstarter ⟨_, by simp only [System.starterStep, hp, hloop]; rfl⟩
    | some loop =>
      exact hstarter ⟨_, by simp only [System.starterStep, hp, hloop]; rfl⟩
  | wait =>
    have hnotifies : s.current.stage.notifies = true := by
      rcases hfits.waits hp with hn | hg
      · exact hn
      · rw [hgone] at hg
        cases hg
    refine hthread ?_ ?_
    · cases hst : s.current.stage <;> simp [hst, Stage.notifies, Stage.up] at hnotifies ⊢
    · intro hst
      exact hfree (by rw [hp]; rfl) (by rw [hst]; rfl)
  | test | create | spawn | unlock loop | emplace loop | base | returned =>
    rw [hp] at hseek
    cases hseek

theorem lost_exec (h : Inv s) (hl : s.Lost) {bs : List Action}
    (hr : Execution.exec PoolStart.step s bs = some s') : s'.Lost := by
  have hboth := Execution.exec_preserves (fun s => Inv s ∧ s.Lost)
    (fun _ _ _ hi hs => ⟨hi.1.step hs, Lost.step hi.2 hi.1 hs⟩) ⟨h, hl⟩ hr
  exact hboth.2

/-- In every run the threads take a bounded number of steps, but for the waits that end of
themselves. `start` can still return exactly if the loop that it is waiting for has not been left
and lost; until then the starting thread or the thread that it is waiting for can go on. -/
theorem start_returns (setup : Setup) (as : List Action)
    (hr : Execution.exec PoolStart.step (entered setup) as = some s) :
    as.countP Action.prompt ≤
        62 * setup.count + 10 + Potential.cost Action.prompt Action.price as ∧
      ((∃ bs s', Execution.exec PoolStart.step s bs = some s' ∧ s'.pc = .returned) ↔ ¬ s.Lost) ∧
      (¬ s.Lost → s.pc ≠ .returned → ∃ a s', (a = .starter ∨ a = .thread s.i) ∧
        PoolStart.step s a = some s' ∧ ¬ s'.Lost) := by
  have h := inv setup as hr
  constructor
  · have hcount := pays.count_add_le (inv_entered setup) hr
    rw [rank_entered] at hcount
    omega
  constructor
  · constructor
    · rintro ⟨bs, s', hexec, hpc⟩ hl
      have hseek := (lost_exec h hl hexec).1
      rw [hpc] at hseek
      cases hseek
    · intro hl
      have hadvance : ∀ s, Inv s ∧ ¬ s.Lost → s.pc = .returned ∨ ∃ as s',
          Execution.exec PoolStart.step s as = some s' ∧ (∀ a ∈ as, a.prompt = true) ∧
            (Inv s' ∧ ¬ s'.Lost) ∧ s'.rank < s.rank ∧ as.length ≤ 1 := by
        intro s hs
        by_cases hpc : s.pc = .returned
        · exact .inl hpc
        · obtain ⟨a, s', ha, hstep, hl'⟩ := hs.1.goes_on hs.2 hpc
          have hprompt : a.prompt = true := by rcases ha with rfl | rfl <;> rfl
          refine .inr ⟨[a], s', Execution.exec_cons_some.mpr ⟨s', hstep, rfl⟩, ?_,
            ⟨hs.1.step hstep, hl'⟩, rank_step hs.1 hprompt hstep, Nat.le_refl _⟩
          intro b hb
          rw [List.mem_singleton.mp hb]
          exact hprompt
      obtain ⟨bs, s', hexec, -, -, hpc, -⟩ := Potential.exists_rest hadvance s ⟨h, hl⟩
      exact ⟨bs, s', hexec, hpc⟩
  · intro hl hpc
    exact h.goes_on hl hpc

/-- The loop is left and `loop_` about to be reset while the starting thread is still in
`Thread::start`. -/
def leftEarly : List Action :=
  List.replicate 3 .starter ++ List.replicate 8 (.thread 0) ++ [.quitLoop 0, .thread 0]

theorem start_returns_lost : ∃ s,
    Execution.exec PoolStart.step (entered twoThreads) leftEarly = some s ∧ s.pc = .semWait ∧
      ¬ ∃ bs s', Execution.exec PoolStart.step s bs = some s' ∧ s'.pc = .returned := by
  have hrun : (Execution.exec PoolStart.step (entered twoThreads) leftEarly).map (fun s =>
      decide (s.pc = .semWait ∧ s.pc.seeking = true ∧ s.current.stage.gone = true)) =
      some true := by decide +kernel
  obtain ⟨s, hs, hstate⟩ := Option.map_eq_some_iff.mp hrun
  obtain ⟨hpc, hlost⟩ := of_decide_eq_true hstate
  refine ⟨s, hs, hpc, ?_⟩
  intro hreturns
  exact (start_returns twoThreads leftEarly hs).2.1.mp hreturns hlost

end Progress

end Mymuduo.PoolStart

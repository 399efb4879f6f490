import Mathlib.Algebra.BigOperators.Ring.Finset
import Mathlib.Algebra.Order.BigOperators.Group.Finset
import Mymuduo.Server.Deregistration
import Mymuduo.Server.Workload

/-!
# The loops come to rest, and nothing leaks

When nothing more comes from outside, the loops' threads alone do what is left to be done, in
whatever order they are scheduled, and then stand at their polls with nothing queued. A connection
that has been closed is then out of the server's map and off its poller, and no functor, handler or
batch of a loop holds a pointer to it any more: what keeps it alive is only what user code has kept.
-/

namespace Mymuduo

open Mymuduo.Library

universe u v

/-! ## A closed connection is on its way out of the map -/

namespace Life

/-- While a closed connection stands in the map, `removeConnectionInLoop` is to come. -/
def Outgoing (l : Life) : Prop :=
  l.state = .kDisconnected → l.mapped = true → 0 < l.removals ∨ .finishClose ∈ l.duties

variable {e : Event} {l l' : Life}

theorem Outgoing.of_new (h : New l) : Outgoing l := fun hs => by
  rw [h.state] at hs
  cases hs

/-- A step that leaves a connection where it is on its way. -/
theorem Outgoing.of_same (h : Outgoing l) (hstate : l'.state = .kDisconnected →
    l.state = .kDisconnected) (hmapped : l'.mapped = true → l.mapped = true)
    (hremovals : l'.removals = l.removals)
    (hduties : .finishClose ∈ l.duties → .finishClose ∈ l'.duties) : Outgoing l' := by
  intro hs hm
  rw [hremovals]
  exact (h (hstate hs) (hmapped hm)).imp_right hduties

theorem Outgoing.step (h : Outgoing l) (hheld : Held l) (he : e ≠ .destroy) (hs : Step e l l') :
    Outgoing l' := by
  cases hs with
  | stay => exact h
  | terminate | poll | dangle | release | swap | finish => exact h.of_same id id rfl id
  | destroy => exact absurd rfl he
  | destroyEnd hd | destroyItem hd =>
    rw [hheld.alive] at hd
    cases hd
  | dispatch cbs ha hc hn =>
    refine h.of_same id id rfl fun hmem => ?_
    rw [Life.duties, hn, List.nil_append] at hmem
    exact List.mem_append_right _ hmem
  | start hc hn hl =>
    refine h.of_same id id rfl fun hmem => ?_
    rw [Life.duties, hn, hl] at hmem
    exact hmem
  | establish hn => exact fun hs => by cases hs
  | leave hn hst =>
    have hd : Departing l := .inr (.inl (List.mem_append_left _ (hn ▸ List.mem_cons_self)))
    exact absurd hd (hheld.not_departing (by rw [hst]; decide))
  | leaveSilently hn hst | deregister hn | deliver told hn | notice hn
  | handle registered notices hn =>
    refine h.of_same id id rfl fun hmem => ?_
    simp only [Life.duties, hn, List.cons_append, List.mem_cons, List.mem_append, reduceCtorEq,
      false_or] at hmem ⊢
    tauto
  | close hn => exact fun _ _ => .inr List.mem_cons_self
  | finishClose hn => exact fun _ _ => .inl (Nat.succ_pos _)
  | remove hn => exact fun _ hm => by cases hm
  | user state registered notices hst hst' hr =>
    intro hs
    rcases hst' with rfl | rfl <;> cases hs

/-- A connection for which nothing is left to be done. -/
theorem Outgoing.done (h : Outgoing l) (hheld : Held l) (hduties : l.duties = [])
    (hremovals : l.removals = 0) : l.state ≠ .kConnecting ∧
      (l.state = .kDisconnected → l.mapped = false ∧ l.registered = false) := by
  refine ⟨fun hs => ?_, fun hs => ?_⟩
  · obtain ⟨rest, hrest, -⟩ := hheld.order.connecting hs
    rw [hduties] at hrest
    cases hrest
  · have hdeparted : ¬ Departing l := by simp [Departing, hduties, hremovals]
    have hmapped : l.mapped = false := by
      by_contra hm
      rcases h hs (Bool.not_eq_false _ ▸ hm) with hpos | hmem
      · omega
      · rw [hduties] at hmem
        cases hmem
    refine ⟨hmapped, ?_⟩
    by_contra hr
    rcases hheld.owned (Bool.not_eq_false _ ▸ hr) with hm | hd
    · rw [hmapped] at hm
      cases hm
    · exact hdeparted hd

end Life

/-! ## A loop at rest -/

namespace Loop

/-- Outside `doPendingFunctors` no batch is kept. -/
def Swept (l : Loop) : Prop := l.phase ≠ .calling → l.queue.ran = []

/-- In its poll, with nothing in hand and nothing queued. -/
structure Resting (l : Loop) : Prop where
  polling : l.phase = .polling
  idle : l.idle = true
  waiting : l.queue.waiting = []

theorem Resting.owners {l : Loop} (h : l.Resting) (hswept : l.Swept) : l.owners = [] := by
  obtain ⟨hwork, hguard⟩ := idle_iff.mp h.idle
  have hran : l.queue.ran = [] := hswept (by rw [h.polling]; decide)
  simp only [Loop.owners, hwork, hguard, TaskQueue.held, hran, h.waiting]
  rfl

end Loop

namespace TcpServer

variable {T : Type u} {L : Type v} [DecidableEq L] {s s' : TcpServer T L} {ℓ : L} {c : ConnId}

/-- The server lives, and no loop keeps the batch of an earlier round. -/
structure Steady (s : TcpServer T L) : Prop where
  alive : s.status = .alive
  swept : ∀ ℓ, (s.loops ℓ).Swept

theorem Steady.setLoop (h : s.Steady) {l : Loop} (hl : l.Swept) : (s.setLoop ℓ l).Steady := by
  refine ⟨h.alive, fun ℓ' => ?_⟩
  by_cases he : ℓ' = ℓ
  · subst he
    have hat : (s.setLoop ℓ' l).loops ℓ' = l := Function.update_self _ _ _
    rw [hat]
    exact hl
  · have hother : (s.setLoop ℓ l).loops ℓ' = s.loops ℓ' := Function.update_of_ne he _ _
    rw [hother]
    exact h.swept ℓ'

theorem Steady.runInLoop (h : s.Steady) (ℓ target : L) (job : Job) :
    (s.runInLoop ℓ target job).Steady := by
  unfold TcpServer.runInLoop
  split
  · exact h.setLoop (h.swept ℓ)
  · exact h.setLoop (h.swept target)

theorem Steady.onConn (h : s.Steady) (c : ConnId) (f : Site ConnId → Site ConnId) :
    (s.onConn ℓ c f).Steady := by
  let w := f { conn := s.conns c, poller := (s.loops ℓ).poller }
  let l : Loop := { s.loops ℓ with
    work := (if w.closing then [.closeCallback c] else []) ++ (s.loops ℓ).work
    queue := (s.loops ℓ).queue.pushAll (w.queued.map (.notice · c))
    poller := w.poller }
  have hset : (s.setLoop ℓ l).Steady := h.setLoop (h.swept ℓ)
  exact ⟨h.alive, hset.swept⟩

theorem Steady.runJob (h : s.Steady) (read : ReadvResult) (write : WriteResult) (job : Job) :
    (s.runJob ℓ read write job).Steady := by
  cases job with
  | connectDestroyed c =>
    have hleft := h.onConn (ℓ := ℓ) c (Site.leaveConnected c)
    exact hleft.setLoop (hleft.swept ℓ)
  | removeConnectionInLoop c =>
    have herased : ({ s with
        connections_ := s.connections_.eraseKey (s.conns c).name_ } : TcpServer T L).Steady :=
      ⟨h.alive, h.swept⟩
    exact herased.setLoop (herased.swept _)
  | closeCallback c => exact h.runInLoop ℓ _ _
  | notice n c => exact h
  | connectEstablished c | removeChannel c | handle _ c | sendInLoop c _ | shutdownInLoop c =>
    exact h.onConn c _

variable [Fintype L] [DecidableEq T]

theorem Steady.act (h : s.Steady) {a : Action T L} (ha : a.spared = true)
    (hs : s.act a = some s') : s'.Steady := by
  cases a with
  | poll ℓ reports =>
    obtain ⟨hphase, -, -, -, rfl⟩ := act_poll hs
    have hset : (s.setLoop ℓ { s.loops ℓ with phase := .handling (reports.map (·.1)) }).Steady :=
      h.setLoop fun _ => h.swept ℓ (by rw [hphase]; decide)
    exact ⟨h.alive, hset.swept⟩
  | dispatch ℓ =>
    obtain ⟨c, rest, hphase, -, rfl⟩ := act_dispatch hs
    have hran : (s.loops ℓ).queue.ran = [] := h.swept ℓ (by rw [hphase]; nofun)
    have hnext : (s.setLoop ℓ { s.loops ℓ with phase := .handling rest }).Steady :=
      h.setLoop fun _ => hran
    rw [handleEvent]
    dsimp only
    split
    · exact ⟨hnext.alive, hnext.swept⟩
    · exact hnext.setLoop (hnext.swept ℓ)
  | release ℓ =>
    obtain ⟨-, rfl⟩ := act_release hs
    exact h.setLoop (h.swept ℓ)
  | swap ℓ =>
    obtain ⟨-, -, rfl⟩ := act_swap hs
    exact h.setLoop fun hc => absurd rfl hc
  | start ℓ =>
    obtain ⟨hphase, -, job, queue, -, rfl⟩ := act_start hs
    exact h.setLoop fun hc => absurd hphase hc
  | finish ℓ =>
    obtain ⟨-, -, -, rfl⟩ := act_finish hs
    exact h.setLoop fun _ => rfl
  | run ℓ read write =>
    obtain ⟨job, rest, -, rfl⟩ := act_run hs
    have hset : (s.setLoop ℓ { s.loops ℓ with work := rest }).Steady := h.setLoop (h.swept ℓ)
    have hpop : (s.popJob ℓ job rest).Steady := ⟨h.alive, hset.swept⟩
    exact hpop.runJob read write job
  | newConnection ioLoop sockfd =>
    obtain ⟨-, -, -, rfl⟩ := act_newConnection hs
    have hadd : (s.addConnection ioLoop sockfd).Steady := ⟨h.alive, h.swept⟩
    exact hadd.runInLoop _ _ _
  | destroyItem key c =>
    obtain ⟨hstatus, -, -, -⟩ := act_destroyItem hs
    rw [h.alive] at hstatus
    cases hstatus
  | destroyEnd =>
    simp only [TcpServer.act, Option.ite_none_right_eq_some] at hs
    obtain ⟨⟨hstatus, -⟩, -⟩ := hs
    rw [h.alive] at hstatus
    cases hstatus
  | send _ _ _ | shutdown _ | setHighWaterMarkCallback _ _ =>
    obtain ⟨-, -, rfl⟩ := userCall_eq hs
    exact h.onConn _ _
  | keep c =>
    obtain ⟨-, rfl⟩ := act_keep hs
    exact ⟨h.alive, h.swept⟩
  | drop c =>
    obtain rfl := act_drop hs
    exact ⟨h.alive, h.swept⟩
  | destroy | testSend | enqueueSend | testShutdown | storeDisconnecting | enqueueShutdown =>
    cases ha

/-! ## A loop that is not at rest goes on -/

/-- A step of a loop's thread to which nothing comes from outside but the kernel's answers. The
poll ends since a functor has been queued. -/
def Unprompted (s : TcpServer T L) : Action T L → Prop
  | .poll ℓ reports => reports = [] ∧ (s.loops ℓ).queue.pending ≠ []
  | a => a.internal = true

instance (s : TcpServer T L) (a : Action T L) : Decidable (s.Unprompted a) :=
  match a with
  | .poll ℓ reports =>
    inferInstanceAs (Decidable (reports = [] ∧ (s.loops ℓ).queue.pending ≠ []))
  | .dispatch _ | .release _ | .swap _ | .start _ | .finish _ | .run _ _ _ => .isTrue rfl
  | .newConnection _ _ | .destroy | .destroyItem _ _ | .destroyEnd | .send _ _ _ | .shutdown _
  | .setHighWaterMarkCallback _ _ | .keep _ | .drop _ | .testSend _ _ _ | .enqueueSend _
  | .testShutdown _ _ | .storeDisconnecting _ | .enqueueShutdown _ => .isFalse (by intro h; cases h)

/-- The kernel's answers, where the action asks for any. -/
def Action.Answered (read : ReadvResult) (write : WriteResult) : Action T L → Prop
  | .run _ read' write' => read' = read ∧ write' = write
  | _ => True

omit [DecidableEq L] [Fintype L] [DecidableEq T] in
theorem Unprompted.spared {a : Action T L} (h : s.Unprompted a) : a.spared = true := by
  cases a <;> first | rfl | cases h

theorem step_of_live (ht : s.terminated = false) (hd : s.dangling = false) (a : Action T L) :
    s.step a = s.act a := by
  simp [step, ht, hd]

/-- A loop that is not at rest has something in hand, or a batch or channels to go on with, or a
poll that ends. -/
theorem exists_unprompted (h : s.Steady) (htidy : (s.loops ℓ).phase = .polling →
    (s.loops ℓ).queue.todo = []) (hℓ : ¬ (s.loops ℓ).Resting) (read : ReadvResult)
    (write : WriteResult) :
    ∃ a s', s.act a = some s' ∧ s.Unprompted a ∧ Action.Answered read write a := by
  have hloops : s.looping ℓ = true := by simp [looping, h.alive]
  cases hwork : (s.loops ℓ).work with
  | cons job rest =>
    refine ⟨.run ℓ read write, (s.popJob ℓ job rest).runJob ℓ read write job, ?_, rfl, rfl, rfl⟩
    simp only [act, hwork]
  | nil =>
    cases hguard : (s.loops ℓ).guard with
    | some c =>
      exact ⟨.release ℓ, _, by rw [act, hguard]; exact if_pos ⟨hwork, rfl⟩, rfl, trivial⟩
    | none =>
      have hidle : (s.loops ℓ).idle = true := Loop.idle_iff.mpr ⟨hwork, hguard⟩
      cases hphase : (s.loops ℓ).phase with
      | polling =>
        have hpending : (s.loops ℓ).queue.pending ≠ [] := by
          intro hnil
          refine hℓ ⟨hphase, hidle, ?_⟩
          rw [TaskQueue.waiting, htidy hphase, hnil]
          rfl
        have hreports : ∀ x ∈ ([] : List (ConnId × Events)), s.watched ℓ x.1 = true := by
          intro x hx
          cases hx
        exact ⟨.poll ℓ [], _, if_pos ⟨hloops, hphase, hidle, List.nodup_nil, hreports⟩,
          ⟨rfl, hpending⟩, trivial⟩
      | handling active =>
        cases active with
        | nil => exact ⟨.swap ℓ, _, if_pos ⟨hloops, hphase, hidle⟩, rfl, trivial⟩
        | cons c rest =>
          have hdispatch : s.act (.dispatch ℓ) = some
              ((s.setLoop ℓ { s.loops ℓ with phase := .handling rest }).handleEvent ℓ c) := by
            simp only [act, hphase]
            exact if_pos ⟨hloops, hidle⟩
          exact ⟨.dispatch ℓ, _, hdispatch, rfl, trivial⟩
      | calling =>
        cases htodo : (s.loops ℓ).queue.todo with
        | nil => exact ⟨.finish ℓ, _, if_pos ⟨hloops, hphase, hidle, htodo⟩, rfl, trivial⟩
        | cons job rest =>
          let queue : TaskQueue Job := { (s.loops ℓ).queue with
            ran := (s.loops ℓ).queue.ran ++ [job]
            todo := rest }
          have hstart : s.act (.start ℓ) =
              some (s.setLoop ℓ { s.loops ℓ with work := [job], queue := queue }) := by
            simp only [act, TaskQueue.start, htodo]
            exact if_pos ⟨hloops, hphase, hidle⟩
          exact ⟨.start ℓ, _, hstart, rfl, trivial⟩

/-! ## What is left to be done -/

end TcpServer

/-- The poll that a queued functor has ended is paid for when the functor is swapped out. -/
def Loop.rebate (l : Loop) : Nat :=
  match l.phase with
  | .handling _ => if l.queue.pending = [] then 0 else 5
  | _ => 0

theorem Loop.rebate_le (l : Loop) : l.rebate ≤ 2 * l.workload := by
  unfold Loop.rebate
  split
  · rename_i active hphase
    split
    · exact Nat.zero_le _
    · rename_i hpending
      have hqueued : Job.efforts 3 l.queue.pending = _ := Job.efforts_add 0 3 l.queue.pending
      have hlength : 0 < l.queue.pending.length := List.length_pos_iff.mpr hpending
      simp only [Loop.workload, hphase, hqueued]
      omega
  · exact Nat.zero_le _

/-- While the channels are handled, jobs may be queued. -/
theorem Loop.rebate_mono {l l' : Loop} (hphase : ∀ active, l.phase = .handling active →
      ∃ active', l'.phase = .handling active')
    (hpending : l.queue.pending ≠ [] → l'.queue.pending ≠ []) : l.rebate ≤ l'.rebate := by
  cases hl : l.phase with
  | polling | calling => simp only [Loop.rebate, hl, Nat.zero_le]
  | handling active =>
    obtain ⟨active', hl'⟩ := hphase active hl
    simp only [Loop.rebate, hl, hl']
    split
    · exact Nat.zero_le _
    · rename_i hne
      rw [if_neg (hpending hne)]

namespace TcpServer

variable {T : Type u} {L : Type v} [DecidableEq L] [Fintype L] {s s' : TcpServer T L} {ℓ : L}

def rebate (s : TcpServer T L) : Nat := ∑ ℓ, (s.loops ℓ).rebate

/-- The steps that the loops' threads can still take where nothing comes from outside. -/
def remaining (s : TcpServer T L) : Nat := 2 * s.workload - s.rebate

omit [DecidableEq L] in
theorem rebate_le (s : TcpServer T L) : s.rebate ≤ 2 * s.workload := by
  rw [rebate, workload, Finset.mul_sum]
  exact Finset.sum_le_sum fun ℓ _ => (s.loops ℓ).rebate_le

theorem rebate_setLoop (s : TcpServer T L) (ℓ : L) (l : Loop) :
    (s.setLoop ℓ l).rebate + (s.loops ℓ).rebate = s.rebate + l.rebate :=
  sum_setLoop Loop.rebate s ℓ l

theorem rebate_setLoop_mono {l : Loop} (h : (s.loops ℓ).rebate ≤ l.rebate) :
    s.rebate ≤ (s.setLoop ℓ l).rebate := by
  have hset := s.rebate_setLoop ℓ l
  omega

theorem rebate_onConn (s : TcpServer T L) (ℓ : L) (c : ConnId) (f : Site ConnId → Site ConnId) :
    s.rebate ≤ (s.onConn ℓ c f).rebate := by
  set w := f { conn := s.conns c, poller := (s.loops ℓ).poller } with hw
  let l : Loop := { s.loops ℓ with
    work := (if w.closing then [.closeCallback c] else []) ++ (s.loops ℓ).work
    queue := (s.loops ℓ).queue.pushAll (w.queued.map (.notice · c))
    poller := w.poller }
  have hl : (s.loops ℓ).rebate ≤ l.rebate := by
    refine Loop.rebate_mono (fun active hphase => ⟨active, hphase⟩) fun hne hnil => hne ?_
    exact (List.append_eq_nil_iff.mp hnil).1
  exact rebate_setLoop_mono hl

theorem rebate_callNext (s : TcpServer T L) (ℓ : L) (job : Job) :
    s.rebate ≤ (s.callNext ℓ job).rebate :=
  rebate_setLoop_mono (Loop.rebate_mono (fun active hphase => ⟨active, hphase⟩) id)

theorem rebate_queueInLoop (s : TcpServer T L) (ℓ : L) (job : Job) :
    s.rebate ≤ (s.queueInLoop ℓ job).rebate := by
  refine rebate_setLoop_mono (Loop.rebate_mono (fun active hphase => ⟨active, hphase⟩) ?_)
  intro _ hnil
  have hlast := (List.append_eq_nil_iff.mp hnil).2
  cases hlast

theorem rebate_runJob (s : TcpServer T L) (ℓ : L) (read : ReadvResult) (write : WriteResult)
    (job : Job) : s.rebate ≤ (s.runJob ℓ read write job).rebate := by
  cases job with
  | connectDestroyed c =>
    exact (rebate_onConn s ℓ c (Site.leaveConnected c)).trans (rebate_callNext _ ℓ _)
  | removeConnectionInLoop c =>
    let erased : TcpServer T L :=
      { s with connections_ := s.connections_.eraseKey (s.conns c).name_ }
    exact rebate_queueInLoop erased (s.loopOf c) (.connectDestroyed c)
  | closeCallback c =>
    rw [runJob, removeConnection, runInLoop]
    split
    · exact rebate_callNext s ℓ _
    · exact rebate_queueInLoop s _ _
  | notice n c => exact Nat.le_refl _
  | connectEstablished c | removeChannel c | handle _ c | sendInLoop c _ | shutdownInLoop c =>
    exact rebate_onConn s ℓ c _

variable [DecidableEq T]

/-- A step inside a loop other than the swap leaves the rebates as they are. -/
theorem rebate_act {a : Action T L} (ha : a.internal = true) (hswap : ∀ ℓ, a ≠ .swap ℓ)
    (hs : s.act a = some s') : s.rebate ≤ s'.rebate := by
  cases a with
  | dispatch ℓ =>
    obtain ⟨c, rest, hphase, -, ⟨-, rfl⟩ | ⟨-, rfl⟩⟩ := dispatch_cases hs
    · exact rebate_setLoop_mono (Loop.rebate_mono (fun _ _ => ⟨rest, rfl⟩) id)
    · exact rebate_setLoop_mono (Loop.rebate_mono (fun _ _ => ⟨rest, rfl⟩) id)
  | release ℓ =>
    obtain ⟨-, rfl⟩ := act_release hs
    exact rebate_setLoop_mono (Loop.rebate_mono (fun active hphase => ⟨active, hphase⟩) id)
  | swap ℓ => exact absurd rfl (hswap ℓ)
  | start ℓ =>
    obtain ⟨hphase, -, job, queue, -, rfl⟩ := act_start hs
    refine rebate_setLoop_mono ?_
    simp only [Loop.rebate, hphase, Nat.le_refl]
  | finish ℓ =>
    obtain ⟨hphase, -, -, rfl⟩ := act_finish hs
    refine rebate_setLoop_mono ?_
    simp only [Loop.rebate, hphase, Nat.le_refl]
  | run ℓ read write =>
    obtain ⟨job, rest, -, rfl⟩ := act_run hs
    have hpop : s.rebate ≤ (s.popJob ℓ job rest).rebate :=
      rebate_setLoop_mono (l := { s.loops ℓ with work := rest })
        (Loop.rebate_mono (fun active hphase => ⟨active, hphase⟩) id)
    exact hpop.trans (rebate_runJob _ ℓ read write job)
  | _ => cases ha

/-- Every step that nothing has prompted leaves less to be done. -/
theorem remaining_act_lt {a : Action T L} (ha : s.Unprompted a) (hs : s.act a = some s') :
    s'.remaining < s.remaining := by
  have hle := s.rebate_le
  have hle' := s'.rebate_le
  have hinternal : a.internal = true → (∀ ℓ, a ≠ .swap ℓ) → s'.remaining < s.remaining := by
    intro hin hswap
    have hless := workload_act_lt hs hin
    have hrebate := rebate_act hin hswap hs
    unfold remaining
    omega
  cases a with
  | poll ℓ reports =>
    obtain ⟨rfl, hpending⟩ := ha
    obtain ⟨hphase, -, -, -, rfl⟩ := act_poll hs
    let l : Loop := { s.loops ℓ with phase := .handling [] }
    have hload := s.workload_setLoop ℓ l
    have hrebate := s.rebate_setLoop ℓ l
    have hnew : l.workload = (s.loops ℓ).workload + 2 := by
      simp only [l, Loop.workload, hphase, Phase.workload, List.length_nil]
      omega
    have hback : l.rebate = 5 := if_neg hpending
    have hnone : (s.loops ℓ).rebate = 0 := by simp only [Loop.rebate, hphase]
    change 2 * (s.setLoop ℓ l).workload - (s.setLoop ℓ l).rebate < _
    change (s.setLoop ℓ l).rebate ≤ 2 * (s.setLoop ℓ l).workload at hle'
    unfold remaining
    omega
  | swap ℓ =>
    obtain ⟨hphase, -, rfl⟩ := act_swap hs
    let l : Loop := { s.loops ℓ with phase := .calling, queue := (s.loops ℓ).queue.swap }
    have hload := s.workload_setLoop ℓ l
    have hrebate := s.rebate_setLoop ℓ l
    have hbatch : Job.efforts 3 (s.loops ℓ).queue.pending = _ :=
      Job.efforts_add 1 2 (s.loops ℓ).queue.pending
    have hnew : l.workload + 1 + 2 * (s.loops ℓ).queue.pending.length ≤
        (s.loops ℓ).workload := by
      simp only [l, Loop.workload, TaskQueue.swap, hphase, hbatch, Phase.workload, Job.efforts,
        List.length_nil]
      omega
    have hnone : l.rebate = 0 := rfl
    have hback : (s.loops ℓ).rebate ≤ 1 + 4 * (s.loops ℓ).queue.pending.length := by
      simp only [Loop.rebate, hphase]
      split
      · exact Nat.zero_le _
      · rename_i hpending
        have hlength := List.length_pos_iff.mpr hpending
        omega
    change (s.setLoop ℓ l).remaining < _
    change (s.setLoop ℓ l).rebate ≤ 2 * (s.setLoop ℓ l).workload at hle'
    unfold remaining
    omega
  | dispatch | release | start | finish | run => exact hinternal rfl (by simp)
  | _ => cases ha

/-! ## Runs -/

/-- What holds in every run that spares the server. -/
structure Going (s : TcpServer T L) : Prop where
  owned : s.Owned
  steady : s.Steady
  outgoing : ∀ c, s.Born c → (s.view c).Outgoing

omit [Fintype L] [DecidableEq T] in
theorem going_fresh (config : Config L) : (fresh config : TcpServer T L).Going where
  owned := owned_fresh config
  steady := ⟨rfl, fun _ _ => rfl⟩
  outgoing _ hc := absurd hc.2 (Nat.not_lt.mpr hc.1)

theorem Going.step (h : s.Going) {a : Action T L} (ha : a.spared = true) (hs : s.step a = some s') :
    s'.Going := by
  obtain ⟨ht, -, hact⟩ := step_eq hs
  obtain ⟨hown, hne⟩ := Action.own_of_spared ha
  refine ⟨owned_act h.owned ht ha hact, h.steady.act ha hact, fun c hc => ?_⟩
  by_cases hb : s.Born c
  · exact (h.outgoing c hb).step (h.owned.held c hb) (event_ne_destroy hne c)
      (sim_act h.owned.wf ht hown hact hb)
  · exact .of_new (new_act h.owned.wf hact hc hb)

/-- Every loop is at rest, and of each connection that is closed nothing is left but what user code
has kept. -/
structure Settled (s : TcpServer T L) : Prop where
  resting : ∀ ℓ, (s.loops ℓ).Resting
  established : ∀ c, s.Born c → (s.conns c).state_ ≠ .kConnecting
  released : ∀ c, s.Born c → (s.conns c).state_ = .kDisconnected →
    c ∉ s.connections_.map (·.2) ∧ (s.conns c).channel_.index_ = .kNew ∧ s.useCount c = s.refs c

omit [DecidableEq T] in
theorem Going.settled (h : s.Going) (hrest : ∀ ℓ, (s.loops ℓ).Resting) : s.Settled := by
  have hdone : ∀ c, s.Born c → (s.view c).state ≠ .kConnecting ∧
      ((s.view c).state = .kDisconnected →
        (s.view c).mapped = false ∧ (s.view c).registered = false) := by
    intro c hc
    have hnothing : ∀ ℓ, (s.loops ℓ).agenda = [] := fun ℓ => by
      rw [Loop.agenda, (Loop.idle_iff.mp (hrest ℓ).idle).1, (hrest ℓ).waiting]
      rfl
    refine (h.outgoing c hc).done (h.owned.held c hc) ?_ ?_
    · refine List.eq_nil_iff_forall_not_mem.mpr fun d hd => ?_
      obtain ⟨job, hjob, -⟩ := job_of_duty hd
      rw [hnothing] at hjob
      cases hjob
    · show (s.loops s.config.loop_).agenda.count _ = 0
      rw [hnothing]
      rfl
  refine ⟨hrest, fun c hc => (hdone c hc).1, fun c hc hs => ?_⟩
  obtain ⟨hmapped, hregistered⟩ := (hdone c hc).2 hs
  have hmap : c ∉ s.connections_.map (·.2) := of_decide_eq_false hmapped
  refine ⟨hmap, by simpa [view] using hregistered, ?_⟩
  have hcount : s.connections_.countP (·.2 = c) = 0 := by
    rw [List.countP_eq_zero]
    rintro e he hec
    exact hmap (List.mem_map.mpr ⟨e, he, of_decide_eq_true hec⟩)
  have howners : ∑ ℓ, (s.loops ℓ).owners.count c = 0 :=
    Finset.sum_eq_zero fun ℓ _ => by rw [(hrest ℓ).owners (h.steady.swept ℓ)]; rfl
  rw [useCount, hcount, howners]
  omega

/-- Where the loops are not all at rest one of their threads can go on, whatever the kernel answers
it. -/
theorem Going.advance (h : s.Going) (ht : s.terminated = false) (hrest : ¬ s.Settled)
    (read : ReadvResult) (write : WriteResult) :
    ∃ a s', TcpServer.step s a = some s' ∧ s.Unprompted a ∧ Action.Answered read write a := by
  have hsome : ¬ ∀ ℓ, (s.loops ℓ).Resting := fun hall => hrest (h.settled hall)
  obtain ⟨ℓ, hℓ⟩ := not_forall.mp hsome
  obtain ⟨a, s', hact, hun, hanswer⟩ := exists_unprompted h.steady
    (fun hphase => (h.owned.wf.tidy ℓ).batch (by rw [hphase]; decide)) hℓ read write
  exact ⟨a, s', (step_of_live ht h.owned.safe a).trans hact, hun, hanswer⟩

/-- As long as the server lives and user code keeps to the connection's loop: from every state that
is reached, whatever the kernel answers and in whatever order they are scheduled, the loops' threads
alone take no more than twice as many steps as there is work, and they can go on until they are at
rest, unless a callback that is not set ends the process. Then every connection has been
established, and of those that are closed none is in the map, on a poller or held by a loop. -/
theorem comes_to_rest (config : Config L) (as : List (Action T L))
    (has : ∀ a ∈ as, a.spared = true)
    (hr : Execution.exec TcpServer.step (fresh config) as = some s) (bs : List (Action T L))
    (hbs : Execution.Guarded TcpServer.step Unprompted s bs)
    (hr' : Execution.exec TcpServer.step s bs = some s') :
    bs.length ≤ 2 * s.workload ∧
      (s'.terminated = true ∨ s'.Settled ∨ ∀ read write, ∃ a s'',
        TcpServer.step s' a = some s'' ∧ s'.Unprompted a ∧ Action.Answered read write a) := by
  have hgoing : s.Going := Execution.exec_invariant Going (fun _ _ _ h ha hs => h.step ha hs)
    (going_fresh config) (Execution.guarded_of_forall has (fresh config)) hr
  have hgoing' : s'.Going := Execution.exec_invariant Going
    (fun _ _ _ h ha hs => h.step ha.spared hs) hgoing hbs hr'
  have hlength : bs.length + s'.remaining ≤ s.remaining :=
    @Potential.length_add_le _ _ TcpServer.step (fun _ => True) remaining Unprompted
      (fun t a t' _ ha ht => ⟨trivial, remaining_act_lt ha (step_eq ht).2.2⟩) _ _ _ trivial hbs hr'
  constructor
  · unfold remaining at hlength
    omega
  · cases ht : s'.terminated with
    | true => exact .inl rfl
    | false =>
      by_cases hrest : s'.Settled
      · exact .inr (.inl hrest)
      · exact .inr (.inr fun read write => hgoing'.advance ht hrest read write)

/-- The peer of a connection has closed it, and `handleClose` has been run. -/
def hungUp : List (Action Unit Bool) :=
  [.poll false [], .newConnection true 7, .swap false, .finish false, .poll true [], .swap true,
    .start true, .run true (.delivered []) (.took 0), .finish true, .poll true [(1, POLLIN)],
    .dispatch true, .run true (.delivered []) (.took 0)]

/-- The threads of the two loops take the connection out of the map and off its poller by turns. -/
def cleared : List (Action Unit Bool) :=
  [.run true (.failed .EWOULDBLOCK) (.took 0), .poll false [], .release true, .swap false,
    .start false, .run false (.failed .EWOULDBLOCK) (.took 0), .swap true, .finish false,
    .start true, .run true (.failed .ECONNRESET) (.took 0),
    .run true (.failed .ECONNRESET) (.took 0), .finish true]

theorem comes_to_rest_closed : ∃ s s' : TcpServer Unit Bool,
    Execution.exec TcpServer.step pair hungUp = some s ∧ (s.conns 1).state_ = .kDisconnected ∧
      Execution.exec TcpServer.step s cleared = some s' ∧ (s'.conns 1).channel_.index_ = .kNew ∧
      cleared.length ≤ 2 * s.workload ∧
      (s'.terminated = true ∨ s'.Settled ∨ ∀ read write, ∃ a s'',
        TcpServer.step s' a = some s'' ∧ s'.Unprompted a ∧ Action.Answered read write a) := by
  have hrun : ((Execution.exec TcpServer.step pair hungUp).bind fun s =>
      (Execution.exec TcpServer.step s cleared).map fun s' => decide
        ((s.conns 1).state_ = .kDisconnected ∧ (s'.conns 1).channel_.index_ = .kNew ∧
          Execution.Guarded TcpServer.step Unprompted s cleared)) = some true := by
    decide +kernel
  obtain ⟨s, hs, hrest⟩ := Option.bind_eq_some_iff.mp hrun
  obtain ⟨s', hs', hres⟩ := Option.map_eq_some_iff.mp hrest
  obtain ⟨hclosed, hremoved, hguarded⟩ := of_decide_eq_true hres
  exact ⟨s, s', hs, hclosed, hs', hremoved,
    comes_to_rest _ hungUp (by decide) hs cleared hguarded hs'⟩

end TcpServer

end Mymuduo

import Mymuduo.Server.TcpServer

/-!
# What outlives a queued call

`send` and `shutdown` on a thread that is not the loop's queue a functor that
names the connection by `this` and owns nothing. It is covered as long as an
owner is let go of after it: the map's entry and what follows its removal end in
`connectDestroyed`, which is queued behind it, and the functors of a batch are
held to the end of the batch.
-/

namespace Mymuduo

open Mymuduo.Library

universe u v

/-- The connection that a functor names by a raw `this`. -/
def Job.rawThis : Job → Option ConnId
  | sendInLoop c _ | shutdownInLoop c => some c
  | _ => none

/-- The connection that a job is to take out of the map. -/
def Job.removes : Job → Option ConnId
  | closeCallback c | removeConnectionInLoop c => some c
  | _ => none

theorem Job.owner_of_removes {job : Job} {c : ConnId} (h : job.removes = some c) :
    job.owner = some c := by
  cases job <;> simp only [removes, reduceCtorEq] at h <;> exact h

theorem Job.conn_of_owner {job : Job} {c : ConnId} (h : job.owner = some c) : job.conn = c := by
  cases job <;> simp only [owner, reduceCtorEq, Option.some.injEq] at h <;> exact h

theorem Job.conn_of_rawThis {job : Job} {c : ConnId} (h : job.rawThis = some c) :
    job.conn = c := by
  cases job <;> simp only [rawThis, reduceCtorEq, Option.some.injEq] at h <;> exact h

def Caller.conn : Caller → Option ConnId
  | idle => none
  | sending c _ | leaving c | left c => some c

namespace Loop

/-- What the thread of the loop still runs before it polls again. -/
def batch (l : Loop) : List Job := l.work ++ l.queue.todo

/-- A step of the loop `l` that takes no owner of `c` from the queue and adds no
raw functor. -/
structure Keeps (c : ConnId) (l l' : Loop) : Prop where
  pending : some c ∈ l'.queue.pending.map Job.rawThis → some c ∈ l.queue.pending.map Job.rawThis
  batch : some c ∈ l'.batch.map Job.rawThis → some c ∈ l.batch.map Job.rawThis
  behind : some c ∈ l.queue.pending.map Job.owner → some c ∈ l'.queue.pending.map Job.owner
  held : some c ∈ l.queue.held.map Job.owner → some c ∈ l'.queue.held.map Job.owner

theorem Keeps.of_eq {c : ConnId} {l l' : Loop} (hwork : l'.work = l.work)
    (hqueue : l'.queue = l.queue) : l.Keeps c l' := by
  have hbatch : l'.batch = l.batch := by rw [Loop.batch, Loop.batch, hwork, hqueue]
  exact ⟨by rw [hqueue]; exact id, by rw [hbatch]; exact id, by rw [hqueue]; exact id,
    by rw [hqueue]; exact id⟩

theorem Keeps.trans {c : ConnId} {l l' l'' : Loop} (h : l.Keeps c l') (h' : l'.Keeps c l'') :
    l.Keeps c l'' :=
  ⟨h.pending ∘ h'.pending, h.batch ∘ h'.batch, h'.behind ∘ h.behind, h'.held ∘ h.held⟩

/-- New work that names nobody by `this`. -/
theorem keeps_work (c : ConnId) (l : Loop) (jobs : List Job)
    (hjobs : ∀ j ∈ jobs, j.rawThis ≠ some c) :
    l.Keeps c { l with work := jobs ++ l.work } := by
  refine ⟨id, fun hr => ?_, id, id⟩
  simp only [batch, List.append_assoc, List.map_append, List.mem_append] at hr ⊢
  obtain hr | hr := hr
  · obtain ⟨j, hj, hraw⟩ := List.mem_map.mp hr
    exact absurd hraw (hjobs j hj)
  · exact hr

/-- New functors that name nobody by `this`. -/
theorem keeps_queue (c : ConnId) (l : Loop) (jobs : List Job)
    (hjobs : ∀ j ∈ jobs, j.rawThis ≠ some c) :
    l.Keeps c { l with queue := l.queue.pushAll jobs } := by
  refine ⟨fun hr => ?_, id, fun ho => ?_, fun ho => ?_⟩
  · simp only [TaskQueue.pushAll, List.map_append, List.mem_append] at hr
    obtain hr | hr := hr
    · exact hr
    · obtain ⟨j, hj, hraw⟩ := List.mem_map.mp hr
      exact absurd hraw (hjobs j hj)
  · simp only [TaskQueue.pushAll, List.map_append, List.mem_append]
    exact .inl ho
  · simp only [TaskQueue.held, TaskQueue.waiting_pushAll, List.map_append, List.mem_append] at ho ⊢
    tauto

end Loop

namespace TcpServer

variable {T : Type u} {L : Type v}

/-- The map has the connection, or some loop is still to take it out. -/
def Retained (s : TcpServer T L) (c : ConnId) : Prop :=
  c ∈ s.connections_.map (·.2) ∨ ∃ ℓ, some c ∈ (s.loops ℓ).agenda.map Job.removes

/-- An owner of the connection comes behind everything that is queued now. -/
def Awaited (s : TcpServer T L) (c : ConnId) : Prop :=
  s.Retained c ∨ some c ∈ (s.loops (s.loopOf c)).queue.pending.map Job.owner

/-- Every queued functor that names the connection by `this` runs before the last
owner is let go of, whatever the users' pointers do. -/
structure Covered (s : TcpServer T L) (c : ConnId) : Prop where
  pending : some c ∈ (s.loops (s.loopOf c)).queue.pending.map Job.rawThis → s.Awaited c
  batch : some c ∈ (s.loops (s.loopOf c)).batch.map Job.rawThis →
    s.Retained c ∨ some c ∈ (s.loops (s.loopOf c)).queue.held.map Job.owner

/-- A user's last pointer is let go of only where the functors are covered: by the
call itself when it returns, or later. -/
def Cautious (s : TcpServer T L) : Action T L → Prop
  | .drop c => s.refs c ≤ 1 → s.Covered c
  | .enqueueSend t | .enqueueShutdown t =>
    match (s.caller t).conn with
    | some c => s.refs c ≤ 1 → s.Awaited c
    | none => True
  | _ => True

instance [Fintype L] (s : TcpServer T L) (c : ConnId) : Decidable (s.Retained c) :=
  inferInstanceAs (Decidable (_ ∨ _))

instance [Fintype L] (s : TcpServer T L) (c : ConnId) : Decidable (s.Awaited c) :=
  inferInstanceAs (Decidable (_ ∨ _))

instance [Fintype L] (s : TcpServer T L) (c : ConnId) : Decidable (s.Covered c) :=
  decidable_of_iff
    ((some c ∈ (s.loops (s.loopOf c)).queue.pending.map Job.rawThis → s.Awaited c) ∧
      (some c ∈ (s.loops (s.loopOf c)).batch.map Job.rawThis →
        s.Retained c ∨ some c ∈ (s.loops (s.loopOf c)).queue.held.map Job.owner))
    ⟨fun h => ⟨h.1, h.2⟩, fun h => ⟨h.pending, h.batch⟩⟩

instance [Fintype L] (s : TcpServer T L) : ∀ a, Decidable (s.Cautious a)
  | .drop c => inferInstanceAs (Decidable (s.refs c ≤ 1 → s.Covered c))
  | .enqueueSend t | .enqueueShutdown t =>
    match h : (s.caller t).conn with
    | some c => decidable_of_iff (s.refs c ≤ 1 → s.Awaited c) (by simp [Cautious, h])
    | none => .isTrue (by simp [Cautious, h])
  | .poll _ _ | .dispatch _ | .release _ | .swap _ | .start _ | .finish _ | .run _ _ _
  | .newConnection _ _ | .destroy | .destroyItem _ _ | .destroyEnd | .send _ _ _ | .shutdown _
  | .setHighWaterMarkCallback _ _ | .keep _ | .testSend _ _ _ | .testShutdown _ _
  | .storeDisconnecting _ => .isTrue trivial

variable {s s' : TcpServer T L} {c : ConnId}

theorem Awaited.owned (h : s.Awaited c) :
    s.Retained c ∨ some c ∈ (s.loops (s.loopOf c)).queue.held.map Job.owner := by
  refine h.imp_right fun ho => ?_
  simp only [TaskQueue.held, TaskQueue.waiting, List.map_append, List.mem_append]
  exact .inr (.inr ho)

/-- A step that keeps the loops keeps a connection covered, if it does not lose
track of it. -/
theorem Covered.mono (h : s.Covered c) (hloop : s'.loopOf c = s.loopOf c)
    (hkeeps : ∀ ℓ, (s.loops ℓ).Keeps c (s'.loops ℓ)) (htrack : s.Retained c → s'.Awaited c) :
    s'.Covered c := by
  have hk := hkeeps (s.loopOf c)
  refine ⟨fun hr => ?_, fun hr => ?_⟩
  · rw [hloop] at hr
    obtain hret | ho := h.pending (hk.pending hr)
    · exact htrack hret
    · refine .inr ?_
      rw [hloop]
      exact hk.behind ho
  · rw [hloop] at hr
    obtain hret | ho := h.batch (hk.batch hr)
    · exact (htrack hret).owned
    · refine .inr ?_
      rw [hloop]
      exact hk.held ho

theorem Retained.mono (h : s.Retained c)
    (hmap : c ∈ s.connections_.map (·.2) → c ∈ s'.connections_.map (·.2))
    (hagenda : ∀ ℓ, some c ∈ (s.loops ℓ).agenda.map Job.removes →
      some c ∈ (s'.loops ℓ).agenda.map Job.removes) : s'.Retained c :=
  h.imp hmap fun ⟨ℓ, hℓ⟩ => ⟨ℓ, hagenda ℓ hℓ⟩

/-! ## The primitives -/

section Primitives

variable [DecidableEq L] {ℓ : L} {job : Job}

omit s s' in
theorem keeps_update {loops : L → Loop} {l : Loop} (hl : (loops ℓ).Keeps c l) (ℓ' : L) :
    (loops ℓ').Keeps c (Function.update loops ℓ l ℓ') := by
  by_cases hℓ : ℓ' = ℓ
  · subst hℓ
    rw [Function.update_self]
    exact hl
  · rw [Function.update_of_ne hℓ]
    exact .of_eq rfl rfl

theorem keeps_callNext (hraw : job.rawThis ≠ some c) (ℓ' : L) :
    (s.loops ℓ').Keeps c ((s.callNext ℓ job).loops ℓ') :=
  keeps_update ((s.loops ℓ).keeps_work c [job] (by simpa using hraw)) ℓ'

theorem keeps_queueInLoop (hraw : job.rawThis ≠ some c) (ℓ' : L) :
    (s.loops ℓ').Keeps c ((s.queueInLoop ℓ job).loops ℓ') :=
  keeps_update ((s.loops ℓ).keeps_queue c [job] (by simpa using hraw)) ℓ'

theorem keeps_runInLoop {target : L} (hraw : job.rawThis ≠ some c) (ℓ' : L) :
    (s.loops ℓ').Keeps c ((s.runInLoop ℓ target job).loops ℓ') := by
  unfold runInLoop
  split
  · exact keeps_callNext hraw ℓ'
  · exact keeps_queueInLoop hraw ℓ'

theorem runInLoop_refs (s : TcpServer T L) (ℓ target : L) (job : Job) :
    (s.runInLoop ℓ target job).refs = s.refs := by
  unfold runInLoop
  split <;> rfl

theorem runInLoop_loopOf (s : TcpServer T L) (ℓ target : L) (job : Job) :
    (s.runInLoop ℓ target job).loopOf = s.loopOf := by
  unfold runInLoop
  split <;> rfl

theorem keeps_popJob {rest : List Job} (hwork : (s.loops ℓ).work = job :: rest) (ℓ' : L) :
    (s.loops ℓ').Keeps c ((s.popJob ℓ job rest).loops ℓ') := by
  have hrest : (s.loops ℓ).Keeps c { s.loops ℓ with work := rest } := by
    refine ⟨id, fun hr => ?_, id, id⟩
    rw [Loop.batch, hwork, List.cons_append, List.map_cons]
    exact List.mem_cons_of_mem _ hr
  exact keeps_update hrest ℓ'

theorem keeps_onConn {c' : ConnId} (f : Site ConnId → Site ConnId) (ℓ' : L) :
    (s.loops ℓ').Keeps c ((s.onConn ℓ c' f).loops ℓ') := by
  set w := f { conn := s.conns c', poller := (s.loops ℓ).poller }
  have hwork := (s.loops ℓ).keeps_work c (if w.closing then [.closeCallback c'] else [])
    (by split <;> simp [Job.rawThis])
  have hqueue := fun l : Loop => l.keeps_queue c (w.queued.map (Job.notice · c'))
    (by simp [Job.rawThis])
  show (s.loops ℓ').Keeps c (Function.update s.loops ℓ _ ℓ')
  refine keeps_update ?_ ℓ'
  exact hwork.trans ((hqueue _).trans (.of_eq rfl rfl))

theorem Retained.setLoop (h : s.Retained c) {l : Loop}
    (hl : some c ∈ (s.loops ℓ).agenda.map Job.removes → some c ∈ l.agenda.map Job.removes) :
    (s.setLoop ℓ l).Retained c := by
  refine h.mono id fun ℓ' hmem => ?_
  by_cases hℓ : ℓ' = ℓ
  · subst hℓ
    simp only [TcpServer.setLoop, Function.update_self]
    exact hl hmem
  · simp only [TcpServer.setLoop, Function.update_of_ne hℓ]
    exact hmem

theorem Retained.callNext (h : s.Retained c) : (s.callNext ℓ job).Retained c :=
  h.setLoop fun hmem => List.mem_cons_of_mem _ hmem

theorem Retained.queueInLoop (h : s.Retained c) : (s.queueInLoop ℓ job).Retained c := by
  refine h.setLoop fun hmem => ?_
  rw [Loop.agenda, TaskQueue.waiting_push, ← List.append_assoc, List.map_append]
  exact List.mem_append_left _ hmem

theorem Retained.runInLoop (h : s.Retained c) {target : L} :
    (s.runInLoop ℓ target job).Retained c := by
  unfold TcpServer.runInLoop
  split
  · exact h.callNext
  · exact h.queueInLoop

/-- The removal is on its way. -/
theorem retained_runInLoop (target : L) (hjob : job.removes = some c) :
    (s.runInLoop ℓ target job).Retained c := by
  unfold TcpServer.runInLoop
  split
  · refine .inr ⟨ℓ, ?_⟩
    simp [TcpServer.callNext, TcpServer.setLoop, Loop.agenda, hjob]
  · refine .inr ⟨target, ?_⟩
    simp only [TcpServer.queueInLoop, TcpServer.setLoop, Function.update_self, Loop.agenda,
      TaskQueue.waiting_push, List.map_append, List.mem_append]
    exact .inr (.inr (by simp [hjob]))

theorem Retained.popJob (h : s.Retained c) {rest : List Job}
    (hwork : (s.loops ℓ).work = job :: rest) :
    job.removes = some c ∨ (s.popJob ℓ job rest).Retained c := by
  by_cases hjob : job.removes = some c
  · exact .inl hjob
  · refine .inr (h.setLoop (l := { s.loops ℓ with work := rest }) fun hmem => ?_)
    rw [Loop.agenda, hwork, List.cons_append, List.map_cons] at hmem
    exact (List.mem_cons.mp hmem).resolve_left (Ne.symm hjob)

theorem Retained.onConn (h : s.Retained c) {c' : ConnId} (f : Site ConnId → Site ConnId) :
    (s.onConn ℓ c' f).Retained c := by
  refine h.mono id fun ℓ' hmem => ?_
  by_cases hℓ : ℓ' = ℓ
  · subst hℓ
    simp only [TcpServer.onConn, Function.update_self, Loop.agenda, TaskQueue.waiting_pushAll,
      List.map_append, List.mem_append] at hmem ⊢
    tauto
  · simp only [TcpServer.onConn, Function.update_of_ne hℓ]
    exact hmem

end Primitives

end TcpServer

end Mymuduo

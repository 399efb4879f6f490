import Mymuduo.Server.Deregistration
import Mymuduo.Server.Establishment

/-!
# A descriptor belongs to one connection

The kernel gives a descriptor away again once the connection that had it has
died. So two connections that are alive never have one descriptor, and a
connection that has died comes to life no more: nothing is run for it and
nobody writes to it. Without that a late functor would read from, write to or
close the socket of another client. It rests on what may stand in a queue: a
functor that a loop has queued holds a pointer to its connection.
-/

namespace Mymuduo

open Mymuduo.Library

universe u v

namespace TcpServer

variable {T : Type u} {L : Type v} {s s' : TcpServer T L} {c : ConnId}

/-- All that a queue stores holds a pointer. -/
def Binds (q : TaskQueue Job) : Prop := ∀ j ∈ q.held, j.owner = some j.conn

theorem Binds.push {q : TaskQueue Job} (h : Binds q) {job : Job}
    (hjob : job.owner = some job.conn) : Binds (q.push job) := by
  intro j hj
  simp only [TaskQueue.held, TaskQueue.waiting_push, List.mem_append, List.mem_singleton] at hj
  rcases hj with hj | hj | rfl
  · exact h j (List.mem_append_left _ hj)
  · exact h j (List.mem_append_right _ hj)
  · exact hjob

theorem Binds.notices {q : TaskQueue Job} (h : Binds q) (ns : List Notice) (c : ConnId) :
    Binds (q.pushAll (ns.map (.notice · c))) := by
  intro j hj
  simp only [TaskQueue.held, TaskQueue.waiting_pushAll, List.mem_append, List.mem_map] at hj
  rcases hj with hj | hj | ⟨n, -, rfl⟩
  · exact h j (List.mem_append_left _ hj)
  · exact h j (List.mem_append_right _ hj)
  · rfl

theorem Binds.swap {q : TaskQueue Job} (h : Binds q) : Binds q.swap := by
  intro j hj
  simp only [TaskQueue.held, TaskQueue.waiting, TaskQueue.swap, List.nil_append,
    List.append_nil] at hj
  exact h j (List.mem_append_right _ (List.mem_append_right _ hj))

theorem Binds.start {q q' : TaskQueue Job} (h : Binds q) {job : Job}
    (hs : q.start = some (job, q')) : Binds q' := by
  obtain ⟨hwaiting, hran, -, -⟩ := TaskQueue.waiting_of_start hs
  intro j hj
  refine h j ?_
  simp only [TaskQueue.held, hwaiting, hran, List.mem_append, List.mem_cons, List.not_mem_nil,
    or_false] at hj ⊢
  tauto

theorem Binds.finish {q : TaskQueue Job} (h : Binds q) : Binds q.finish := by
  intro j hj
  exact h j (List.mem_append_right _ hj)

/-- No call from another thread is under way or queued. -/
structure Bound (s : TcpServer T L) : Prop where
  queued : ∀ ℓ, Binds (s.loops ℓ).queue
  idle : ∀ t, s.caller t = .idle

theorem bound_fresh (config : Config L) : (fresh config : TcpServer T L).Bound where
  queued _ _ hj := by cases hj
  idle _ := rfl

section Steps

variable [DecidableEq L] {ℓ : L} {job : Job}

theorem Bound.setLoop (h : s.Bound) {l : Loop} (hl : Binds l.queue) : (s.setLoop ℓ l).Bound := by
  refine ⟨fun ℓ' => ?_, h.idle⟩
  by_cases he : ℓ' = ℓ
  · subst he
    have hat : (s.setLoop ℓ' l).loops ℓ' = l := Function.update_self _ _ _
    rw [hat]
    exact hl
  · have hother : (s.setLoop ℓ l).loops ℓ' = s.loops ℓ' := Function.update_of_ne he _ _
    rw [hother]
    exact h.queued ℓ'

theorem Bound.runInLoop (h : s.Bound) (hjob : job.owner = some job.conn) (ℓ target : L) :
    (s.runInLoop ℓ target job).Bound := by
  unfold TcpServer.runInLoop
  split
  · exact h.setLoop (h.queued ℓ)
  · exact h.setLoop ((h.queued target).push hjob)

theorem Bound.onConn (h : s.Bound) (c : ConnId) (f : Site ConnId → Site ConnId) :
    (s.onConn ℓ c f).Bound := by
  let w := f { conn := s.conns c, poller := (s.loops ℓ).poller }
  have hset := h.setLoop (ℓ := ℓ) (l := { s.loops ℓ with
    work := (if w.closing then [.closeCallback c] else []) ++ (s.loops ℓ).work
    queue := (s.loops ℓ).queue.pushAll (w.queued.map (.notice · c))
    poller := w.poller }) ((h.queued ℓ).notices w.queued c)
  exact ⟨hset.queued, h.idle⟩

theorem Bound.runJob (h : s.Bound) (read : ReadvResult) (write : WriteResult) (job : Job) :
    (s.runJob ℓ read write job).Bound := by
  cases job with
  | connectDestroyed c =>
    have hleft := h.onConn (ℓ := ℓ) c (Site.leaveConnected c)
    exact hleft.setLoop (hleft.queued ℓ)
  | removeConnectionInLoop c =>
    have herased : ({ s with
        connections_ := s.connections_.eraseKey (s.conns c).name_ } : TcpServer T L).Bound :=
      ⟨h.queued, h.idle⟩
    exact herased.setLoop ((herased.queued _).push rfl)
  | closeCallback c => exact h.runInLoop rfl ℓ _
  | notice n c => exact h
  | connectEstablished c | removeChannel c | handle _ c | sendInLoop c _ | shutdownInLoop c =>
    exact h.onConn c _

variable [Fintype L] [DecidableEq T]

theorem Bound.act (h : s.Bound) {a : Action T L} (ha : a.own = true) (hs : s.act a = some s') :
    s'.Bound := by
  cases a with
  | poll ℓ reports =>
    obtain ⟨-, -, -, -, rfl⟩ := act_poll hs
    have hset := h.setLoop (ℓ := ℓ) (l := { s.loops ℓ with
      phase := .handling (reports.map (·.1)) }) (h.queued ℓ)
    exact ⟨hset.queued, hset.idle⟩
  | dispatch ℓ =>
    obtain ⟨c', rest, -, -, ⟨-, rfl⟩ | ⟨-, rfl⟩⟩ := dispatch_cases hs
    · have hset := h.setLoop (ℓ := ℓ) (l := { s.loops ℓ with phase := .handling rest }) (h.queued ℓ)
      exact ⟨hset.queued, hset.idle⟩
    · exact h.setLoop (h.queued ℓ)
  | release ℓ =>
    obtain ⟨-, rfl⟩ := act_release hs
    exact h.setLoop (h.queued ℓ)
  | swap ℓ =>
    obtain ⟨-, -, rfl⟩ := act_swap hs
    exact h.setLoop (h.queued ℓ).swap
  | start ℓ =>
    obtain ⟨-, -, job, queue, hstart, rfl⟩ := act_start hs
    exact h.setLoop ((h.queued ℓ).start hstart)
  | finish ℓ =>
    obtain ⟨-, -, -, rfl⟩ := act_finish hs
    exact h.setLoop (h.queued ℓ).finish
  | run ℓ read write =>
    obtain ⟨job, rest, -, rfl⟩ := act_run hs
    have hset := h.setLoop (ℓ := ℓ) (l := { s.loops ℓ with work := rest }) (h.queued ℓ)
    have hpop : (s.popJob ℓ job rest).Bound := ⟨hset.queued, hset.idle⟩
    exact hpop.runJob read write job
  | newConnection ioLoop sockfd =>
    obtain ⟨-, -, -, rfl⟩ := act_newConnection hs
    have hadd : (s.addConnection ioLoop sockfd).Bound := ⟨h.queued, h.idle⟩
    exact hadd.runInLoop rfl _ _
  | destroyItem key c =>
    obtain ⟨-, -, -, rfl⟩ := act_destroyItem hs
    have herased : ({ s with
        connections_ := s.connections_.erase (key, c) } : TcpServer T L).Bound :=
      ⟨h.queued, h.idle⟩
    exact herased.runInLoop rfl _ _
  | send | shutdown | setHighWaterMarkCallback =>
    obtain ⟨-, -, rfl⟩ := userCall_eq hs
    exact h.onConn _ _
  | drop c =>
    obtain rfl := act_drop hs
    exact ⟨h.queued, h.idle⟩
  | destroy | destroyEnd | keep =>
    simp only [TcpServer.act, Option.ite_none_right_eq_some, Option.some.injEq] at hs
    obtain ⟨-, rfl⟩ := hs
    exact ⟨h.queued, h.idle⟩
  | testSend | enqueueSend | testShutdown | storeDisconnecting | enqueueShutdown => cases ha

/-! ## The dead -/

omit [DecidableEq T] in
/-- Who mentions a connection keeps it alive. -/
theorem Bound.owned (h : s.Bound) (howned : s.Owned) (hc : s.Born c) (hm : s.Mentioned c) :
    s.useCount c ≠ 0 := by
  intro hzero
  obtain ⟨hmap, hrefs, howners⟩ := useCount_eq_zero.mp hzero
  have hinert := inert_of_useCount (howned.held c hc) hzero
  have hnone : ∀ ℓ, ∀ j ∈ (s.loops ℓ).work ++ (s.loops ℓ).queue.held, j.owner ≠ some c :=
    fun ℓ j hj ho => howners ℓ (List.mem_append_right _ (List.mem_filterMap.mpr ⟨j, hj, ho⟩))
  cases hm with
  | entry key he => exact hmap (List.mem_map.mpr ⟨(key, c), he, rfl⟩)
  | pointer hr => exact hr hrefs
  | caller t ht =>
    rw [h.idle t] at ht
    cases ht
  | loop ℓ hl =>
    rcases hl with hguard | ⟨j, hj, hconn⟩
    · refine howners ℓ (List.mem_append_left _ ?_)
      rw [hguard]
      exact List.mem_singleton.mpr rfl
    · have howner := hnone ℓ j hj
      rcases List.mem_append.mp hj with hwork | hheld
      · obtain ⟨-, hhome, hown⟩ := (howned.wf.tidy ℓ).placed j (List.mem_append_left _ hwork)
        cases j with
        | handle cb c' =>
          -- its guard is gone, and with it the duty
          obtain rfl : c' = c := hconn
          have hloop : s.loopOf c' = ℓ := hhome.symm
          have hduty : Duty.callback cb ∈ (s.view c').duties := by
            refine List.mem_append_left _ (List.mem_filterMap.mpr ⟨.handle cb c', ?_, if_pos rfl⟩)
            rw [hloop]
            exact hwork
          rw [hinert.duties] at hduty
          cases hduty
        | sendInLoop | shutdownInLoop => cases hown
        | _ => exact howner (congrArg some hconn)
      · exact howner (((h.queued ℓ) j hheld).trans (congrArg some hconn))

omit [Fintype L] [DecidableEq T] in
theorem conns_runJob_of_ne (s : TcpServer T L) (read : ReadvResult) (write : WriteResult)
    (hjob : job.conn ≠ c) : (s.runJob ℓ read write job).conns c = s.conns c := by
  cases job with
  | notice n c' | removeConnectionInLoop c' => rfl
  | closeCallback c' => exact upkeep_runInLoop (P := fun conn => conn = s.conns c) rfl
  | connectEstablished c' | connectDestroyed c' | removeChannel c' | handle cb c'
  | sendInLoop c' data | shutdownInLoop c' => exact Function.update_of_ne (Ne.symm hjob) _ _

/-- Nothing is done to a connection that nobody holds, and nobody comes to hold it. -/
theorem dead_act (h : s.Bound) (howned : s.Owned) (hc : s.Born c) (hzero : s.useCount c = 0)
    {a : Action T L} (ha : a.own = true) (hs : s.act a = some s') :
    s'.useCount c = 0 ∧ s'.conns c = s.conns c := by
  have hnot : ¬ s.Mentioned c := fun hm => h.owned howned hc hm hzero
  have huser : ∀ {c' f}, s.userCall c' f = some s' → s'.conns c = s.conns c := fun hu => by
    obtain ⟨-, hne, rfl⟩ := userCall_eq hu
    refine Function.update_of_ne ?_ _ _
    rintro rfl
    exact hne hzero
  constructor
  · by_contra hne
    rcases mentioned_act hs (mentioned_of_useCount hne) with hm | ⟨rfl, -⟩
    · exact hnot hm
    · exact ne_next hc rfl
  · cases a with
    | poll ℓ reports =>
      obtain ⟨-, -, -, hreports, rfl⟩ := act_poll hs
      have hregistered := (inert_of_useCount (howned.held c hc) hzero).registered
      have hnone : reports.lookup c = none := List.lookup_eq_none_iff.mpr fun x hx => by
        refine bne_iff_ne.mpr fun he => ?_
        -- what is reported is on record
        have hwatched : s.watched ℓ c = true := he ▸ hreports x hx
        simp only [watched, decide_eq_true_eq, Option.map_eq_some_iff] at hwatched
        obtain ⟨⟨c', ev⟩, hentry, rfl⟩ := hwatched
        have hadded := (((howned.recorded ℓ).agrees.epoll_iff _ _ _).mp hentry).2.2.1
        simp [view, hadded] at hregistered
      show setRevents reports s.conns c = s.conns c
      rw [setRevents, hnone]
    | dispatch ℓ =>
      obtain ⟨c', rest, -, -, ⟨-, rfl⟩ | ⟨-, rfl⟩⟩ := dispatch_cases hs <;> rfl
    | start ℓ =>
      obtain ⟨-, -, job, queue, -, rfl⟩ := act_start hs
      rfl
    | run ℓ read write =>
      obtain ⟨job, rest, hwork, rfl⟩ := act_run hs
      refine conns_runJob_of_ne (s.popJob ℓ job rest) read write fun hconn => hnot ?_
      exact .loop ℓ (.inr ⟨job, List.mem_append_left _ (hwork ▸ List.mem_cons_self), hconn⟩)
    | newConnection ioLoop sockfd =>
      obtain ⟨-, -, -, rfl⟩ := act_newConnection hs
      rw [newConnection_conns, if_neg (ne_next hc)]
    | destroyItem key c' =>
      obtain ⟨-, -, -, rfl⟩ := act_destroyItem hs
      exact upkeep_runInLoop (P := fun conn => conn = s.conns c)
        (s := { s with connections_ := s.connections_.erase (key, c') }) rfl
    | send | shutdown | setHighWaterMarkCallback => exact huser hs
    | drop c' =>
      obtain rfl := act_drop hs
      rfl
    | release | swap | finish | destroy | destroyEnd | keep =>
      simp only [act, Option.ite_none_right_eq_some, Option.some.injEq] at hs
      obtain ⟨-, rfl⟩ := hs
      rfl
    | testSend | enqueueSend | testShutdown | storeDisconnecting | enqueueShutdown => cases ha

/-! ## Runs -/

structure Sole (s : TcpServer T L) : Prop where
  owned : s.Owned
  bound : s.Bound
  distinct : ∀ c c', s.Born c → s.Born c' → c ≠ c' → s.useCount c ≠ 0 → s.useCount c' ≠ 0 →
    (s.conns c).channel_.fd_ ≠ (s.conns c').channel_.fd_

theorem Sole.act (h : s.Sole) (ht : s.terminated = false) {a : Action T L}
    (ha : a.spared = true) (hs : s.act a = some s') : s'.Sole := by
  have hown := (Action.own_of_spared ha).1
  have hsited := sited_act h.owned.wf h.owned.held h.owned.recorded h.owned.apart hown hs
  have halive : ∀ c, s.Born c → s'.useCount c ≠ 0 → s.useCount c ≠ 0 := fun c hc hu hzero =>
    hu (dead_act h.bound h.owned hc hzero hown hs).1
  have hnew : ∀ c c', s.Born c → s'.Born c' → ¬ s.Born c' → s'.useCount c ≠ 0 →
      (s'.conns c).channel_.fd_ ≠ (s'.conns c').channel_.fd_ := by
    intro c c' hc hc' hn hu hfd
    obtain ⟨ioLoop, sockfd, rfl, rfl, -, hfree⟩ := newborn h.owned.wf hs hc' hn
    refine of_decide_eq_true hfree c hc.2 hc.1 (halive c hc hu) ?_
    rw [← hsited.fd c hc, hfd, newConnection_fd]
  refine ⟨owned_act h.owned ht ha hs, h.bound.act hown hs, fun c c' hc hc' hne hu hu' => ?_⟩
  by_cases hb : s.Born c
  · by_cases hb' : s.Born c'
    · rw [hsited.fd c hb, hsited.fd c' hb']
      exact h.distinct c c' hb hb' hne (halive c hb hu) (halive c' hb' hu')
    · exact hnew c c' hb hc' hb' hu
  · by_cases hb' : s.Born c'
    · exact (hnew c' c hb' hc hb hu').symm
    · obtain ⟨-, -, -, -, rfl⟩ := accepted_act hs hc hb
      obtain ⟨-, -, -, -, rfl⟩ := accepted_act hs hc' hb'
      exact absurd rfl hne

/-- As long as the server lives and user code keeps to the connection's loop: no two connections
that somebody holds have one descriptor, a loop runs nothing for a connection that nobody holds,
and what nobody holds is never held or changed again, however the run goes on. -/
theorem descriptors_exclusive (config : Config L) (as : List (Action T L))
    (has : ∀ a ∈ as, a.spared = true) (hr : Execution.exec step (fresh config) as = some s) :
    (∀ c c', s.Born c → s.Born c' → c ≠ c' → s.useCount c ≠ 0 → s.useCount c' ≠ 0 →
      (s.conns c).channel_.fd_ ≠ (s.conns c').channel_.fd_) ∧
    (∀ ℓ job rest, (s.loops ℓ).work = job :: rest → s.useCount job.conn ≠ 0) ∧
    ∀ bs s', (∀ b ∈ bs, b.spared = true) → Execution.exec step s bs = some s' →
      ∀ c, s.Born c → s.useCount c = 0 → s'.useCount c = 0 ∧ s'.conns c = s.conns c := by
  have hstep : ∀ (s : TcpServer T L) (a : Action T L) (s' : TcpServer T L), s.Sole →
      a.spared = true → s.step a = some s' → s'.Sole := fun s a s' h ha hs =>
    h.act (step_eq hs).1 ha (step_eq hs).2.2
  have hsole : s.Sole := by
    refine Execution.exec_invariant Sole hstep ⟨owned_fresh config, bound_fresh config, ?_⟩
      (Execution.guarded_of_forall has (fresh config)) hr
    exact fun c _ hc => absurd hc.2 (Nat.not_lt.mpr hc.1)
  refine ⟨hsole.distinct, fun ℓ job rest hwork => ?_, fun bs s' hbs hr' c hc hzero => ?_⟩
  · refine hsole.bound.owned hsole.owned (hsole.owned.wf.fit_of_work hwork).born ?_
    refine .loop ℓ (.inr ⟨job, List.mem_append_left _ ?_, rfl⟩)
    rw [hwork]
    exact List.mem_cons_self
  · have hdead : s'.Sole ∧ s'.Born c ∧ s'.useCount c = 0 ∧ s'.conns c = s.conns c := by
      refine Execution.exec_invariant
        (fun t => t.Sole ∧ t.Born c ∧ t.useCount c = 0 ∧ t.conns c = s.conns c) ?_
        ⟨hsole, hc, hzero, rfl⟩ (Execution.guarded_of_forall hbs s) hr'
      rintro t a t' ⟨ht, hborn, hnobody, hconn⟩ ha hs
      have hact := (step_eq hs).2.2
      obtain ⟨hnobody', hconn'⟩ :=
        dead_act ht.bound ht.owned hborn hnobody (Action.own_of_spared ha).1 hact
      exact ⟨hstep t a t' ht ha hs, born_act hact hborn, hnobody', hconn'.trans hconn⟩
    exact hdead.2.2

end Steps

/-- A client hangs up, its connection dies, and the next client gets its descriptor. -/
def reused : List (Action Unit Bool) :=
  let run (ℓ : Bool) : Action Unit Bool := .run ℓ (.delivered []) (.took 0)
  [.poll false [], .newConnection false 7, run false, .swap false, .finish false,
    .poll false [(1, POLLIN)], .dispatch false, run false, run false, run false, .release false,
    .swap false, .start false, run false, run false, .finish false,
    .poll false [], .newConnection false 7]

theorem descriptors_exclusive_reused : ∃ s, Execution.exec step pair reused = some s ∧
    (s.conns 1).channel_.fd_ = (s.conns 2).channel_.fd_ ∧ s.useCount 1 = 0 := by
  have hrun : (Execution.exec step pair reused).map (fun s => decide
      (s.Born 1 ∧ s.Born 2 ∧ s.useCount 2 ≠ 0 ∧
        (s.conns 1).channel_.fd_ = (s.conns 2).channel_.fd_)) = some true := by decide +kernel
  obtain ⟨s, hs, hres⟩ := Option.map_eq_some_iff.mp hrun
  obtain ⟨hborn, hborn', hheld, hfd⟩ := of_decide_eq_true hres
  obtain ⟨hdistinct, -, -⟩ := descriptors_exclusive _ reused (by decide) hs
  refine ⟨s, hs, hfd, ?_⟩
  by_contra hne
  exact hdistinct 1 2 hborn hborn' (by decide) hne hheld hfd

end TcpServer

end Mymuduo

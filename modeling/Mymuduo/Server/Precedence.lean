import Mymuduo.Server.Establishment

/-!
# Nothing is done for a connection before `connectEstablished`

While that functor waits, it is the first of all that any loop has to do for its connection. Only
`~TcpServer` can have put something behind it, and nothing has been done before. On an io loop the
queue keeps this order. On the base loop `newConnection` calls the functor in place, and
`~TcpServer`, which would put `connectDestroyed` in front of it, cannot run before that has ended.
-/

namespace Mymuduo

open Mymuduo.Library

universe u v

namespace TcpServer

variable {T : Type u} {L : Type v} {s s' : TcpServer T L} {c : ConnId}

/-- What the loop still has to do for the connection, in the order in which it will be done. -/
def jobsOf (s : TcpServer T L) (ℓ : L) (c : ConnId) : List Job :=
  (s.loops ℓ).agenda.filter fun j => j.conn = c

/-- `connectEstablished` waits, with at most the functors of `~TcpServer` behind it. -/
structure Foremost (s : TcpServer T L) (c : ConnId) : Prop where
  order : ∃ n, s.jobsOf (s.loopOf c) c =
    .connectEstablished c :: List.replicate n (.connectDestroyed c) ∧ (n ≠ 0 → s.status ≠ .alive)
  elsewhere : ∀ ℓ, ℓ ≠ s.loopOf c → s.jobsOf ℓ c = []
  before : ∀ x ∈ s.done, x.1.conn ≠ c
  inPlace : s.loopOf c = s.config.loop_ →
    .connectEstablished c ∈ (s.loops s.config.loop_).work

/-- A step that puts nothing for the connection before what its loop has to do for it. -/
structure Trails (s s' : TcpServer T L) (c : ConnId) : Prop where
  loopOf : s'.loopOf c = s.loopOf c
  config : s'.config = s.config
  status : s.status ≠ .alive → s'.status ≠ .alive
  done : ∀ x ∈ s'.done, x ∈ s.done ∨ x.1.conn ≠ c
  jobs : ∃ n, (s'.jobsOf (s.loopOf c) c).Sublist
    (s.jobsOf (s.loopOf c) c ++ List.replicate n (.connectDestroyed c)) ∧
      (n ≠ 0 → s'.status ≠ .alive)
  elsewhere : ∀ ℓ, ℓ ≠ s.loopOf c → (s'.jobsOf ℓ c).Sublist (s.jobsOf ℓ c)
  work : .connectEstablished c ∈ (s.loops s.config.loop_).work →
    .connectEstablished c ∈ (s'.loops s.config.loop_).work

theorem Trails.of_eq (hloop : s'.loopOf c = s.loopOf c) (hconfig : s'.config = s.config)
    (hstatus : s.status ≠ .alive → s'.status ≠ .alive) (hdone : s'.done = s.done)
    (hloops : s'.loops = s.loops) : Trails s s' c where
  loopOf := hloop
  config := hconfig
  status := hstatus
  done _ hx := .inl (hdone ▸ hx)
  jobs := by
    refine ⟨0, ?_, fun hne => absurd rfl hne⟩
    rw [jobsOf, hloops, List.replicate_zero, List.append_nil]
    exact List.Sublist.refl _
  elsewhere ℓ _ := by
    rw [jobsOf, hloops]
    exact List.Sublist.refl _
  work hw := by rwa [hloops]

theorem Trails.refl (s : TcpServer T L) (c : ConnId) : Trails s s c := .of_eq rfl rfl id rfl rfl

theorem Trails.trans {t : TcpServer T L} (h : Trails s t c) (h' : Trails t s' c) :
    Trails s s' c where
  loopOf := h'.loopOf.trans h.loopOf
  config := h'.config.trans h.config
  status hs := h'.status (h.status hs)
  done x hx := (h'.done x hx).elim (h.done x) .inr
  jobs := by
    obtain ⟨n, hsub, hn⟩ := h.jobs
    obtain ⟨n', hsub', hn'⟩ := h'.jobs
    rw [h.loopOf] at hsub'
    refine ⟨n + n', ?_, fun hne => ?_⟩
    · rw [← List.replicate_append_replicate, ← List.append_assoc]
      exact hsub'.trans (hsub.append (List.Sublist.refl _))
    · by_cases hzero : n' = 0
      · exact h'.status (hn (by omega))
      · exact hn' hzero
  elsewhere ℓ hℓ := (h'.elsewhere ℓ (by rw [h.loopOf]; exact hℓ)).trans (h.elsewhere ℓ hℓ)
  work hw := by
    have hnext := h.work hw
    rw [← h.config] at hnext ⊢
    exact h'.work hnext

theorem mem_jobsOf {ℓ : L} {job : Job} :
    job ∈ s.jobsOf ℓ c ↔ job ∈ (s.loops ℓ).agenda ∧ job.conn = c := by
  simp [jobsOf]

/-- As long as the functor waits it stays the first. -/
theorem Foremost.step (h : s.Foremost c) (hs : Trails s s' c) (hpos : 0 < s'.arrivals c) :
    s'.Foremost c where
  order := by
    obtain ⟨k, hjobs, hk⟩ := h.order
    obtain ⟨n, hsub, hn⟩ := hs.jobs
    have hwaits : Job.connectEstablished c ∈ s'.jobsOf (s'.loopOf c) c :=
      mem_jobsOf.mpr ⟨List.count_pos_iff.mp hpos, rfl⟩
    rw [hs.loopOf] at hwaits ⊢
    rw [hjobs, List.cons_append, List.replicate_append_replicate, List.sublist_cons_iff] at hsub
    rcases hsub with hsub | ⟨rest, hrest, hsub⟩
    · -- what is left would be without the functor
      obtain ⟨m, -, hm⟩ := List.sublist_replicate_iff.mp hsub
      rw [hm] at hwaits
      have heq := List.eq_of_mem_replicate hwaits
      cases heq
    · obtain ⟨m, hm, rfl⟩ := List.sublist_replicate_iff.mp hsub
      refine ⟨m, hrest, fun hne => ?_⟩
      by_cases hzero : n = 0
      · exact hs.status (hk (by omega))
      · exact hn hzero
  elsewhere ℓ hℓ := by
    rw [hs.loopOf] at hℓ
    have hsub := hs.elsewhere ℓ hℓ
    rw [h.elsewhere ℓ hℓ] at hsub
    exact List.sublist_nil.mp hsub
  before x hx := (hs.done x hx).elim (h.before x) id
  inPlace hbase := by
    rw [hs.loopOf, hs.config] at hbase
    rw [hs.config]
    exact hs.work (h.inPlace hbase)

/-- A job of the connection that a loop takes up is `connectEstablished`. -/
theorem Foremost.head (h : s.Foremost c) {ℓ : L} {job : Job} {rest : List Job}
    (hwork : (s.loops ℓ).work = job :: rest) (hc : job.conn = c) : job = .connectEstablished c := by
  have hmem : job ∈ s.jobsOf ℓ c :=
    mem_jobsOf.mpr ⟨by rw [Loop.agenda, hwork]; exact List.mem_cons_self, hc⟩
  by_cases hℓ : ℓ = s.loopOf c
  · subst hℓ
    obtain ⟨n, hjobs, -⟩ := h.order
    rw [jobsOf, Loop.agenda, hwork, List.cons_append, List.filter_cons_of_pos (by simpa using hc)]
      at hjobs
    exact (List.cons.inj hjobs).1
  · rw [h.elsewhere ℓ hℓ] at hmem
    cases hmem

/-! ## Loops -/

section Steps

variable [DecidableEq L] {ℓ : L} {job : Job}

theorem jobsOf_setLoop (s : TcpServer T L) (ℓ ℓ' : L) (l : Loop) (c : ConnId) :
    (s.setLoop ℓ l).jobsOf ℓ' c =
      if ℓ' = ℓ then l.agenda.filter fun j => j.conn = c else s.jobsOf ℓ' c := by
  show ((Function.update s.loops ℓ l ℓ').agenda.filter fun j => j.conn = c) = _
  by_cases hℓ : ℓ' = ℓ
  · subst hℓ
    rw [if_pos rfl, Function.update_self]
  · rw [if_neg hℓ, Function.update_of_ne hℓ]
    rfl

/-- The loop does not get anything new to do for the connection. -/
theorem trails_setLoop {l : Loop}
    (hjobs : (l.agenda.filter fun j => j.conn = c).Sublist (s.jobsOf ℓ c))
    (hwork : .connectEstablished c ∈ (s.loops ℓ).work → .connectEstablished c ∈ l.work) :
    Trails s (s.setLoop ℓ l) c := by
  have hall : ∀ ℓ', ((s.setLoop ℓ l).jobsOf ℓ' c).Sublist (s.jobsOf ℓ' c) := by
    intro ℓ'
    rw [jobsOf_setLoop]
    split
    · rename_i hℓ
      subst hℓ
      exact hjobs
    · exact List.Sublist.refl _
  refine ⟨rfl, rfl, id, fun _ hx => .inl hx, ⟨0, ?_, fun hne => absurd rfl hne⟩,
    fun ℓ' _ => hall ℓ', fun hw => ?_⟩
  · rw [List.replicate_zero, List.append_nil]
    exact hall _
  · by_cases hℓ : s.config.loop_ = ℓ
    · subst hℓ
      show _ ∈ (Function.update s.loops s.config.loop_ l s.config.loop_).work
      rw [Function.update_self]
      exact hwork hw
    · show _ ∈ (Function.update s.loops ℓ l s.config.loop_).work
      rw [Function.update_of_ne hℓ]
      exact hw

theorem trails_callNext (hjob : job.conn ≠ c) : Trails s (s.callNext ℓ job) c := by
  refine trails_setLoop ?_ fun hw => List.mem_cons_of_mem job hw
  rw [Loop.agenda, List.cons_append, List.filter_cons_of_neg (by simpa using hjob)]
  exact List.Sublist.refl _

theorem agenda_push (l : Loop) (job : Job) :
    ({ l with queue := l.queue.push job } : Loop).agenda = l.agenda ++ [job] := by
  rw [Loop.agenda, TaskQueue.waiting_push, Loop.agenda, List.append_assoc]

theorem trails_queueInLoop (hjob : job.conn ≠ c) : Trails s (s.queueInLoop ℓ job) c := by
  refine trails_setLoop ?_ id
  rw [agenda_push, List.filter_append, List.filter_cons_of_neg (by simpa using hjob),
    List.filter_nil, List.append_nil]
  exact List.Sublist.refl _

theorem trails_runInLoop {target : L} (hjob : job.conn ≠ c) :
    Trails s (s.runInLoop ℓ target job) c := by
  unfold TcpServer.runInLoop
  split
  · exact trails_callNext hjob
  · exact trails_queueInLoop hjob

/-- `~TcpServer` queues its functor behind what waits. -/
theorem trails_destroy (hstatus : s.status ≠ .alive) :
    Trails s (s.queueInLoop (s.loopOf c) (.connectDestroyed c)) c := by
  refine ⟨rfl, rfl, id, fun _ hx => .inl hx, ⟨1, ?_, fun _ => hstatus⟩, fun ℓ hℓ => ?_,
    fun hw => ?_⟩
  · rw [queueInLoop, jobsOf_setLoop, if_pos rfl, agenda_push, List.filter_append,
      List.filter_cons_of_pos (by simp [Job.conn])]
    exact List.Sublist.refl _
  · rw [queueInLoop, jobsOf_setLoop, if_neg hℓ]
  · by_cases hℓ : s.config.loop_ = s.loopOf c
    · show _ ∈ (Function.update s.loops (s.loopOf c) _ s.config.loop_).work
      rw [hℓ, Function.update_self, ← hℓ]
      exact hw
    · show _ ∈ (Function.update s.loops (s.loopOf c) _ s.config.loop_).work
      rw [Function.update_of_ne hℓ]
      exact hw

theorem trails_popJob {rest : List Job} (hwork : (s.loops ℓ).work = job :: rest)
    (hjob : job.conn ≠ c) : Trails s (s.popJob ℓ job rest) c := by
  have hset : Trails s (s.setLoop ℓ { s.loops ℓ with work := rest }) c := by
    refine trails_setLoop ?_ fun hw => ?_
    · rw [jobsOf, Loop.agenda, Loop.agenda, hwork]
      exact (List.sublist_cons_self job _).filter _
    · rw [hwork] at hw
      exact (List.mem_cons.mp hw).resolve_left fun he => hjob (he ▸ rfl)
  refine ⟨hset.loopOf, hset.config, hset.status, fun x hx => ?_, hset.jobs, hset.elsewhere,
    hset.work⟩
  rcases List.mem_append.mp hx with hx | hx
  · exact .inl hx
  · obtain rfl := List.mem_singleton.mp hx
    exact .inr hjob

/-- A method of another connection, or one that does nothing. -/
theorem trails_onConn {c' : ConnId} {f : Site ConnId → Site ConnId}
    (hself : c' = c → (f { conn := s.conns c', poller := (s.loops ℓ).poller }).closing = false ∧
      (f { conn := s.conns c', poller := (s.loops ℓ).poller }).queued = []) :
    Trails s (s.onConn ℓ c' f) c := by
  set w := f { conn := s.conns c', poller := (s.loops ℓ).poller } with hw
  have hset : Trails s (s.setLoop ℓ { s.loops ℓ with
      work := (if w.closing then [.closeCallback c'] else []) ++ (s.loops ℓ).work
      queue := (s.loops ℓ).queue.pushAll (w.queued.map (.notice · c'))
      poller := w.poller }) c := by
    refine trails_setLoop ?_ fun hmem => List.mem_append_right _ hmem
    rw [Loop.agenda, TaskQueue.waiting_pushAll, List.append_assoc, ← List.append_assoc _ _
      (w.queued.map _), ← Loop.agenda, List.filter_append, List.filter_append]
    by_cases hc : c' = c
    · obtain ⟨hclosing, hqueued⟩ := hself hc
      simp [hclosing, hqueued, jobsOf]
    · have hclose : ((if w.closing then [Job.closeCallback c'] else []).filter
          fun j => j.conn = c) = [] := by
        split
        · simp [Job.conn, hc]
        · rfl
      have hnotices : ((w.queued.map (Job.notice · c')).filter fun j => j.conn = c) = [] := by
        rw [List.filter_eq_nil_iff]
        intro j hj
        obtain ⟨n, -, rfl⟩ := List.mem_map.mp hj
        simp [Job.conn, hc]
      rw [hclose, hnotices, List.nil_append, List.append_nil]
      exact List.Sublist.refl _
  exact ⟨hset.loopOf, hset.config, hset.status, hset.done, hset.jobs, hset.elsewhere, hset.work⟩

/-- A job of another connection brings nothing for this one. -/
theorem trails_runJob (hjob : job.conn ≠ c) (read : ReadvResult) (write : WriteResult) :
    Trails s (s.runJob ℓ read write job) c := by
  cases job with
  | connectDestroyed c' =>
    have hleave : Trails s (s.onConn ℓ c' (Site.leaveConnected c')) c :=
      trails_onConn fun hc => absurd hc hjob
    exact hleave.trans (trails_callNext hjob)
  | removeConnectionInLoop c' =>
    have herase : Trails s
        { s with connections_ := s.connections_.eraseKey (s.conns c').name_ } c :=
      .of_eq rfl rfl id rfl rfl
    exact herase.trans (trails_queueInLoop hjob)
  | closeCallback c' => exact trails_runInLoop hjob
  | notice n c' => exact .refl s c
  | connectEstablished | removeChannel | handle | sendInLoop | shutdownInLoop =>
    exact trails_onConn fun hc => absurd hc hjob

theorem trails_newConnection (hc : s.Born c) (ioLoop : L) (sockfd : Int) :
    Trails s (s.newConnection ioLoop sockfd) c := by
  have hne := ne_next hc
  have hadd : Trails s (s.addConnection ioLoop sockfd) c :=
    .of_eq (by rw [addConnection_loopOf, if_neg hne]) rfl id rfl rfl
  exact hadd.trans (trails_runInLoop fun he => hne he.symm)

variable [Fintype L]

/-- User code finds the connection not established and leaves it alone. -/
theorem trails_userCall {c' : ConnId} {f : Site ConnId → Site ConnId} (hv : (s.conns c).Virgin)
    (hf : ∀ w : Site ConnId, w.conn.Virgin → (f w).closing = w.closing ∧ (f w).queued = w.queued)
    (hs : s.userCall c' f = some s') : Trails s s' c := by
  obtain ⟨-, -, rfl⟩ := userCall_eq hs
  refine trails_onConn fun hc => ?_
  subst hc
  exact hf _ hv

variable [DecidableEq T]

/-- Every action while the functor waits, its own run apart. -/
theorem trails_act (hconf : s.Confined) (h : s.Foremost c) (hu : s.Untouched c) (hb : s.Born c)
    {a : Action T L} (ha : ∀ ℓ read write rest, a = .run ℓ read write →
      (s.loops ℓ).work ≠ .connectEstablished c :: rest)
    (hs : s.act a = some s') : Trails s s' c := by
  cases a with
  | poll ℓ reports =>
    obtain ⟨-, -, -, -, rfl⟩ := act_poll hs
    have hset : Trails s
        (s.setLoop ℓ { s.loops ℓ with phase := .handling (reports.map (·.1)) }) c :=
      trails_setLoop (List.Sublist.refl _) id
    exact hset.trans (.of_eq rfl rfl id rfl rfl)
  | dispatch ℓ =>
    obtain ⟨c', rest, hphase, hidle, ⟨-, rfl⟩ | ⟨-, rfl⟩⟩ := dispatch_cases hs
    · have hnext : Trails s (s.setLoop ℓ ((s.loops ℓ).next rest)) c :=
        trails_setLoop (List.Sublist.refl _) id
      exact hnext.trans (.of_eq rfl rfl id rfl rfl)
    · -- a connection that is reported is not untouched
      have hactive : (s.loops ℓ).activeChannels_ = c' :: rest := by
        rw [Loop.activeChannels_, hphase]
      have hne : c' ≠ c := by
        rintro rfl
        have hmem : c' ∈ (s.loops ℓ).activeChannels_ := hactive ▸ List.mem_cons_self
        have hloop := ((hconf.seated ℓ).active c' hmem).2
        exact hu.unreported (hloop ▸ hmem)
      have hnone := (Loop.idle_iff.mp hidle).1
      refine trails_setLoop ?_ fun hw => ?_
      · have hhandles : (((s.conns c').channel_.handleEventWithGuard.map (Job.handle · c')).filter
            fun j => j.conn = c) = [] := by
          rw [List.filter_eq_nil_iff]
          intro j hj
          obtain ⟨cb, -, rfl⟩ := List.mem_map.mp hj
          simp [Job.conn, hne]
        rw [jobsOf, Loop.agenda, Loop.agenda, hnone, List.nil_append, List.filter_append]
        show ((_ : List Job) ++ ((s.loops ℓ).queue.waiting.filter fun j => j.conn = c)).Sublist _
        rw [show (((s.loops ℓ).handling rest c' (s.conns c').channel_).work.filter
          fun j => j.conn = c) = [] from hhandles, List.nil_append]
      · rw [hnone] at hw
        cases hw
  | release ℓ =>
    obtain ⟨-, rfl⟩ := act_release hs
    exact trails_setLoop (List.Sublist.refl _) id
  | swap ℓ =>
    obtain ⟨-, -, rfl⟩ := act_swap hs
    refine trails_setLoop (List.Sublist.filter _ ?_) id
    simp only [Loop.agenda, TaskQueue.waiting, TaskQueue.swap, List.append_nil]
    exact (List.sublist_append_right _ _).append_left _
  | start ℓ =>
    obtain ⟨-, hidle, job, queue, hstart, rfl⟩ := act_start hs
    obtain ⟨hwait, -⟩ := TaskQueue.waiting_of_start hstart
    have hnone := (Loop.idle_iff.mp hidle).1
    refine trails_setLoop ?_ fun hw => ?_
    · rw [jobsOf, Loop.agenda, Loop.agenda, hnone, hwait]
      exact List.Sublist.refl _
    · rw [hnone] at hw
      cases hw
  | finish ℓ =>
    obtain ⟨-, -, -, rfl⟩ := act_finish hs
    exact trails_setLoop (List.Sublist.refl _) id
  | run ℓ read write =>
    obtain ⟨job, rest, hwork, rfl⟩ := act_run hs
    have hjob : job.conn ≠ c := by
      intro hc
      have hhead := h.head hwork hc
      exact ha ℓ read write rest rfl (hhead ▸ hwork)
    exact (trails_popJob hwork hjob).trans (trails_runJob hjob read write)
  | newConnection ioLoop sockfd =>
    obtain ⟨-, -, -, rfl⟩ := act_newConnection hs
    exact trails_newConnection hb ioLoop sockfd
  | destroy | destroyEnd =>
    simp only [TcpServer.act, Option.ite_none_right_eq_some, Option.some.injEq] at hs
    obtain ⟨-, rfl⟩ := hs
    exact .of_eq rfl rfl (fun _ => by simp) rfl rfl
  | destroyItem key c' =>
    obtain ⟨hstatus, hidle, -, rfl⟩ := act_destroyItem hs
    have herase : Trails s { s with connections_ := s.connections_.erase (key, c') } c :=
      .of_eq rfl rfl id rfl rfl
    by_cases hc : c' = c
    · -- the base loop's thread is not in the functor, so that this is another loop's
      subst hc
      have hother : s.config.loop_ ≠ s.loopOf c' := by
        intro hbase
        have hwork := h.inPlace hbase.symm
        rw [(Loop.idle_iff.mp hidle).1] at hwork
        cases hwork
      rw [runInLoop, if_neg hother]
      refine herase.trans (trails_destroy ?_)
      show s.status ≠ .alive
      rw [hstatus]
      decide
    · exact herase.trans (trails_runInLoop hc)
  | send c' data r =>
    refine trails_userCall hu.conn (fun w hv => ?_) hs
    rw [Site.send, if_neg (not_connected hv)]
    exact ⟨rfl, rfl⟩
  | shutdown c' =>
    refine trails_userCall hu.conn (fun w hv => ?_) hs
    rw [Site.shutdown, if_neg (not_connected hv)]
    exact ⟨rfl, rfl⟩
  | setHighWaterMarkCallback c' n =>
    exact trails_userCall (f := Site.setHighWaterMarkCallback n) hu.conn (fun w _ => ⟨rfl, rfl⟩) hs
  | keep c' =>
    obtain ⟨-, rfl⟩ := act_keep hs
    exact .of_eq rfl rfl id rfl rfl
  | drop c' =>
    obtain rfl := act_drop hs
    exact .of_eq rfl rfl id rfl rfl
  | testSend t c' data =>
    obtain ⟨-, rfl | rfl⟩ := act_testSend hs
    · exact .refl _ c
    · exact .of_eq rfl rfl id rfl rfl
  | testShutdown t c' =>
    obtain ⟨-, rfl | rfl⟩ := act_testShutdown hs
    · exact .refl _ c
    · exact .of_eq rfl rfl id rfl rfl
  | enqueueSend t =>
    obtain ⟨c', data, hcaller, rfl⟩ := act_enqueueSend hs
    have hne : c' ≠ c := fun hc => hu.uncalled t (by rw [hcaller, ← hc]; rfl)
    have hqueue : Trails s (s.queueInLoop (s.loopOf c') (.sendInLoop c' data)) c :=
      trails_queueInLoop hne
    exact hqueue.trans (.of_eq rfl rfl id rfl rfl)
  | storeDisconnecting t =>
    obtain ⟨c', -, rfl⟩ := act_storeDisconnecting hs
    exact .of_eq rfl rfl id rfl rfl
  | enqueueShutdown t =>
    obtain ⟨c', hcaller, rfl⟩ := act_enqueueShutdown hs
    have hne : c' ≠ c := fun hc => hu.uncalled t (by rw [hcaller, ← hc]; rfl)
    have hqueue : Trails s (s.queueInLoop (s.loopOf c') (.shutdownInLoop c')) c :=
      trails_queueInLoop hne
    exact hqueue.trans (.of_eq rfl rfl id rfl rfl)

omit [Fintype L] [DecidableEq T] in
/-- The functor of the connection that is accepted is the only thing to do for it. -/
theorem foremost_newConnection (h : s.Raised) (ioLoop : L) (sockfd : Int) :
    (s.newConnection ioLoop sockfd).Foremost s.nextConnId_ := by
  have hnot : ¬ s.Born s.nextConnId_ := fun hb => Nat.lt_irrefl _ hb.2
  have hnone : ∀ ℓ, (s.addConnection ioLoop sockfd).jobsOf ℓ s.nextConnId_ = [] := by
    intro ℓ
    refine List.filter_eq_nil_iff.mpr fun j hj => ?_
    have hne : j.conn ≠ s.nextConnId_ := fun he =>
      hnot (he ▸ ((h.confined.seated ℓ).jobs j hj).1)
    simpa using hne
  have hloop : (s.newConnection ioLoop sockfd).loopOf s.nextConnId_ = ioLoop := by
    rw [newConnection, (sameConns_runInLoop _ _ _ _).loopOf, addConnection_loopOf, if_pos rfl]
  have hconfig : (s.newConnection ioLoop sockfd).config = s.config :=
    (sameConns_runInLoop _ _ _ _).config
  have hdone : (s.newConnection ioLoop sockfd).done = s.done := by
    obtain ⟨loops, hloops⟩ := runInLoop_eq (s.addConnection ioLoop sockfd) s.config.loop_ ioLoop
      (.connectEstablished s.nextConnId_)
    rw [newConnection, hloops]
    rfl
  have hjobs : ∀ ℓ, (s.newConnection ioLoop sockfd).jobsOf ℓ s.nextConnId_ =
      if ℓ = ioLoop then [.connectEstablished s.nextConnId_] else [] := by
    intro ℓ
    have hone : [Job.connectEstablished s.nextConnId_].filter
        (fun j => j.conn = s.nextConnId_) = [.connectEstablished s.nextConnId_] :=
      List.filter_cons_of_pos (by simp [Job.conn])
    have hold := hnone ioLoop
    rw [newConnection, runInLoop]
    split
    · rename_i hbase
      rw [callNext, jobsOf_setLoop, hnone ℓ, hbase]
      refine if_congr Iff.rfl ?_ rfl
      rw [Loop.agenda, List.cons_append, List.filter_cons_of_pos (by simp [Job.conn])]
      exact congrArg _ hold
    · rw [queueInLoop, jobsOf_setLoop, hnone ℓ]
      refine if_congr Iff.rfl ?_ rfl
      rw [agenda_push, List.filter_append, hone]
      exact congrArg (· ++ _) hold
  refine ⟨⟨0, ?_, fun hne => absurd rfl hne⟩, fun ℓ hℓ => ?_, fun x hx he => ?_, fun hbase => ?_⟩
  · rw [hloop, hjobs, if_pos rfl]
    rfl
  · rw [hloop] at hℓ
    rw [hjobs, if_neg hℓ]
  · rw [hdone] at hx
    exact hnot (he ▸ h.recorded x hx)
  · rw [hloop, hconfig] at hbase
    have hat : ((s.addConnection s.config.loop_ sockfd).callNext s.config.loop_
        (.connectEstablished s.nextConnId_)).loops s.config.loop_ =
        { s.loops s.config.loop_ with
          work := .connectEstablished s.nextConnId_ :: (s.loops s.config.loop_).work } :=
      Function.update_self _ _ _
    rw [hconfig, newConnection, hbase, runInLoop, if_pos rfl, hat]
    exact List.mem_cons_self

/-! ## Runs -/

/-- Where the functor waits, it is the first. -/
structure Preceded (s : TcpServer T L) : Prop where
  raised : s.Raised
  foremost : ∀ c, s.Born c → 0 < s.arrivals c → s.Foremost c

omit [DecidableEq L] [Fintype L] [DecidableEq T] in
theorem preceded_fresh (config : Config L) : (fresh config : TcpServer T L).Preceded where
  raised := raised_fresh config
  foremost _ hc := absurd hc.2 (Nat.not_lt.mpr hc.1)

theorem Preceded.act (h : s.Preceded) {a : Action T L} (hs : s.act a = some s') : s'.Preceded := by
  refine ⟨h.raised.act hs, fun c hc hpos => ?_⟩
  by_cases hb : s.Born c
  · have ha : ∀ ℓ read write rest, a = .run ℓ read write →
        (s.loops ℓ).work ≠ .connectEstablished c :: rest := by
      rintro ℓ read write rest rfl hwork
      obtain ⟨job, rest', hwork', rfl⟩ := act_run hs
      obtain ⟨rfl, rfl⟩ := List.cons.inj (hwork'.symm.trans hwork)
      have hℓ := (h.raised.confined.arrivals_pos hwork).2.1
      rw [arrivals_run (h.raised.dawning c hb) hℓ hwork read write] at hpos
      cases hpos
    have hbefore : 0 < s.arrivals c :=
      hpos.trans_le (undisturbed_act h.raised.confined hb ha hs).arrivals
    have hforemost := h.foremost c hb hbefore
    have huntouched := (h.raised.dawning c hb).untouched hbefore
    exact hforemost.step (trails_act h.raised.confined hforemost huntouched hb ha hs) hpos
  · obtain ⟨ioLoop, sockfd, rfl, rfl, rfl⟩ := accepted_act hs hc hb
    exact foremost_newConnection h.raised ioLoop sockfd

theorem preceded (config : Config L) (as : List (Action T L))
    (hr : Execution.exec step (fresh config) as = some s) : s.Preceded :=
  Execution.exec_preserves Preceded (fun _ _ _ h hs => h.act (step_eq hs).2.2)
    (preceded_fresh config) hr

/-- In every run, with calls from any thread: where a loop takes up `connectEstablished`, the
connection is its own and still as constructed, nothing has been reported, called or done for it,
and nothing else is to be done for it, on this loop or another, but the functors that `~TcpServer`
has put behind; and it is run once at most. -/
theorem established_first (config : Config L) (as : List (Action T L))
    (hr : Execution.exec step (fresh config) as = some s) (c : ConnId) :
    (s.done.map (·.1)).count (.connectEstablished c) ≤ 1 ∧
    ∀ ℓ rest, (s.loops ℓ).work = .connectEstablished c :: rest →
      s.loopOf c = ℓ ∧ s.arrivals c = 1 ∧ s.Untouched c ∧ s.Foremost c := by
  have h := preceded config as hr
  refine ⟨h.raised.done c, fun ℓ rest hwork => ?_⟩
  obtain ⟨hb, hℓ, hpos⟩ := h.raised.confined.arrivals_pos hwork
  have hdawning := h.raised.dawning c hb
  exact ⟨hℓ, Nat.le_antisymm hdawning.once hpos, hdawning.untouched hpos, h.foremost c hb hpos⟩

/-- The server is destroyed before the io loop has come to the functor. -/
def destroyedEarly : List (Action Unit Bool) :=
  [.poll false [], .newConnection true 7, .destroy, .destroyItem (connName ['s']
    (⟨(127, 0, 0, 1), 8000⟩ : InetAddress).toIpPort 1) 1, .destroyEnd,
    .poll true [], .swap true, .start true]

theorem established_first_other : ∃ s : TcpServer Unit Bool,
    Execution.exec step pair destroyedEarly = some s ∧
      (s.loops true).work = [.connectEstablished 1] ∧
      s.jobsOf true 1 = [.connectEstablished 1, .connectDestroyed 1] ∧
      s.loopOf 1 = true ∧ s.arrivals 1 = 1 ∧ s.Untouched 1 ∧ s.Foremost 1 := by
  have hrun : (Execution.exec step pair destroyedEarly).map (fun s => decide
      ((s.loops true).work = [.connectEstablished 1] ∧
        s.jobsOf true 1 = [.connectEstablished 1, .connectDestroyed 1])) = some true := by
    decide +kernel
  obtain ⟨s, hs, hres⟩ := Option.map_eq_some_iff.mp hrun
  obtain ⟨hwork, hjobs⟩ := of_decide_eq_true hres
  exact ⟨s, hs, hwork, hjobs, (established_first _ destroyedEarly hs 1).2 true [] hwork⟩

end Steps

end TcpServer

end Mymuduo

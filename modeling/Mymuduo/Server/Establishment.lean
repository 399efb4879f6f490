import Mymuduo.Server.Confinement

/-!
# `connectEstablished` comes first

`newConnection` hands a connection to its loop as a functor. Until that functor
has run, the connection is as its constructor left it: no event is reported for
it, no other thread is in one of its methods, and what is queued for it has no
effect before. This does not rest on the order of the queue alone: a channel is
reported only after it has been registered, and `send` and `shutdown` look at the
state first. It holds in every run, with calls from any thread.
-/

namespace Mymuduo

open Mymuduo.Library

universe u v

/-- A job that leaves a connection alone that has not been established. -/
def Job.early : Job → Bool
  | handle _ _ | sendInLoop _ _ | shutdownInLoop _ => false
  | _ => true

/-- As the constructor leaves it, with a mark that the user may have set since. -/
def TcpConnection.Virgin (conn : TcpConnection) : Prop :=
  ∃ name sockfd callbacks b n, conn = { TcpConnection.new name sockfd callbacks with
    highWaterMarkCallback_ := b, highWaterMark_ := n }

theorem TcpConnection.virgin_new (name : List Char) (sockfd : Int) (callbacks : Callbacks) :
    (TcpConnection.new name sockfd callbacks).Virgin :=
  ⟨name, sockfd, callbacks, callbacks.highWaterMarkCallback_, 64 * 1024 * 1024, rfl⟩

theorem TcpConnection.Virgin.state {conn : TcpConnection} (h : conn.Virgin) :
    conn.state_ = .kConnecting := by
  obtain ⟨name, sockfd, callbacks, b, n, rfl⟩ := h
  rfl

namespace TcpServer

variable {T : Type u} {L : Type v} {s s' : TcpServer T L} {c : ConnId}

/-- How often the connection's loop is still to run `connectEstablished`. -/
def arrivals (s : TcpServer T L) (c : ConnId) : Nat :=
  (s.loops (s.loopOf c)).agenda.count (.connectEstablished c)

structure Untouched (s : TcpServer T L) (c : ConnId) : Prop where
  conn : (s.conns c).Virgin
  invoked : s.invoked c = []
  undone : ∀ x ∈ s.done, x.1 ≠ .connectEstablished c
  unreported : c ∉ (s.loops (s.loopOf c)).activeChannels_
  unwatched : ∀ fd ev, (s.loops (s.loopOf c)).poller.epoll fd ≠ some (c, ev)
  early : ∀ j ∈ (s.loops (s.loopOf c)).agenda, j.conn = c → j.early = true
  uncalled : ∀ t, (s.caller t).conn ≠ some c

/-- While the functor waits there is one of it, and nothing has been done to the
connection. -/
structure Dawning (s : TcpServer T L) (c : ConnId) : Prop where
  once : s.arrivals c ≤ 1
  untouched : 0 < s.arrivals c → s.Untouched c

/-- A step that brings nothing new for a connection that is not established. -/
structure Undisturbed (s s' : TcpServer T L) (c : ConnId) : Prop where
  arrivals : s'.arrivals c ≤ s.arrivals c
  untouched : s.Untouched c → s'.Untouched c

theorem Undisturbed.refl (s : TcpServer T L) (c : ConnId) : Undisturbed s s c :=
  ⟨Nat.le_refl _, id⟩

theorem Undisturbed.trans {t : TcpServer T L} (h : Undisturbed s t c) (h' : Undisturbed t s' c) :
    Undisturbed s s' c :=
  ⟨h'.arrivals.trans h.arrivals, h'.untouched ∘ h.untouched⟩

theorem Dawning.step (h : s.Dawning c) (hs : Undisturbed s s' c) : s'.Dawning c :=
  ⟨hs.arrivals.trans h.once, fun hpos =>
    hs.untouched (h.untouched (hpos.trans_le hs.arrivals))⟩

/-- What the loops have, who calls, and what has been done to the connection. -/
theorem Undisturbed.of_eq (hloop : s'.loopOf c = s.loopOf c) (hloops : s'.loops = s.loops)
    (hconn : s'.conns c = s.conns c) (hinvoked : s'.invoked c = s.invoked c)
    (hdone : s'.done = s.done) (hcaller : ∀ t, (s'.caller t).conn = some c →
      ∃ t', (s.caller t').conn = some c) : Undisturbed s s' c := by
  have harrivals : s'.arrivals c = s.arrivals c := by
    rw [TcpServer.arrivals, TcpServer.arrivals, hloop, hloops]
  refine ⟨harrivals.le, fun h => ⟨hconn ▸ h.conn, hinvoked ▸ h.invoked, hdone ▸ h.undone, ?_, ?_,
    ?_, fun t ht => ?_⟩⟩
  · rw [hloop, hloops]
    exact h.unreported
  · rw [hloop, hloops]
    exact h.unwatched
  · rw [hloop, hloops]
    exact h.early
  · obtain ⟨t', ht'⟩ := hcaller t ht
    exact h.uncalled t' ht'

/-! ## Loops -/

/-- The loop `l'` has nothing of `c` that `l` has not, but for early jobs. -/
structure Fewer (c : ConnId) (l l' : Loop) : Prop where
  arrivals : l'.agenda.count (.connectEstablished c) ≤ l.agenda.count (.connectEstablished c)
  jobs : ∀ j ∈ l'.agenda, j.conn = c → j ∈ l.agenda ∨ j.early = true
  active : c ∈ l'.activeChannels_ →
    c ∈ l.activeChannels_ ∨ ∃ fd ev, l.poller.epoll fd = some (c, ev)
  watched : ∀ fd ev, l'.poller.epoll fd = some (c, ev) → l.poller.epoll fd = some (c, ev)

theorem Fewer.of_sublist {l l' : Loop} (hjobs : l'.agenda.Sublist l.agenda)
    (hactive : l'.activeChannels_ ⊆ l.activeChannels_) (hpoller : l'.poller = l.poller) :
    Fewer c l l' :=
  ⟨hjobs.count_le _, fun _ hj _ => .inl (hjobs.subset hj), fun hc => .inl (hactive hc),
    fun _ _ he => hpoller ▸ he⟩

section Steps

variable [DecidableEq L] {ℓ : L} {job : Job}

theorem undisturbed_setLoop {l : Loop} (h : Fewer c (s.loops ℓ) l) :
    Undisturbed s (s.setLoop ℓ l) c := by
  by_cases hℓ : s.loopOf c = ℓ
  · subst hℓ
    have hloop : (s.setLoop (s.loopOf c) l).loops ((s.setLoop (s.loopOf c) l).loopOf c) = l :=
      Function.update_self _ _ _
    refine ⟨?_, fun hu => ⟨hu.conn, hu.invoked, hu.undone, fun hc => ?_, fun fd ev he => ?_,
      fun j hj hc => ?_, hu.uncalled⟩⟩
    · rw [TcpServer.arrivals, hloop]
      exact h.arrivals
    · rw [hloop] at hc
      rcases h.active hc with hc | ⟨fd, ev, he⟩
      · exact hu.unreported hc
      · exact hu.unwatched fd ev he
    · rw [hloop] at he
      exact hu.unwatched fd ev (h.watched fd ev he)
    · rw [hloop] at hj
      exact (h.jobs j hj hc).elim (fun hj => hu.early j hj hc) id
  · have hloop : (s.setLoop ℓ l).loops ((s.setLoop ℓ l).loopOf c) = s.loops (s.loopOf c) :=
      Function.update_of_ne hℓ _ _
    refine ⟨?_, fun hu => ⟨hu.conn, hu.invoked, hu.undone, ?_, ?_, ?_, hu.uncalled⟩⟩
    · rw [TcpServer.arrivals, hloop]
      exact Nat.le_refl _
    · rw [hloop]
      exact hu.unreported
    · rw [hloop]
      exact hu.unwatched
    · rw [hloop]
      exact hu.early

/-- Other jobs may join, those of `c` only if they are early. -/
theorem count_append_of_ne {jobs rest : List Job} (h : ∀ j ∈ jobs, j ≠ .connectEstablished c) :
    (jobs ++ rest).count (.connectEstablished c) = rest.count (.connectEstablished c) := by
  rw [List.count_append, List.count_eq_zero_of_not_mem fun hm => h _ hm rfl, Nat.zero_add]

theorem undisturbed_callNext (hjob : job ≠ .connectEstablished c)
    (hearly : job.conn = c → job.early = true) : Undisturbed s (s.callNext ℓ job) c := by
  refine undisturbed_setLoop ⟨?_, fun j hj hc => ?_, .inl, fun _ _ he => he⟩
  · rw [Loop.agenda, List.cons_append, List.count_cons_of_ne hjob]
    exact Nat.le_refl _
  · rcases List.mem_cons.mp (show j ∈ job :: (s.loops ℓ).agenda from hj) with rfl | hj
    · exact .inr (hearly hc)
    · exact .inl hj

theorem undisturbed_queueInLoop (hjob : job ≠ .connectEstablished c)
    (hearly : job.conn = c → job.early = true) : Undisturbed s (s.queueInLoop ℓ job) c := by
  have hagenda : (s.loops ℓ).work ++ ((s.loops ℓ).queue.push job).waiting =
      (s.loops ℓ).agenda ++ [job] := by
    rw [TaskQueue.waiting_push, Loop.agenda, List.append_assoc]
  refine undisturbed_setLoop ⟨?_, fun j hj hc => ?_, .inl, fun _ _ he => he⟩
  · rw [Loop.agenda, hagenda, List.count_append, List.count_singleton, if_neg (by simpa using hjob)]
    exact Nat.le_refl _
  · rw [Loop.agenda, hagenda] at hj
    rcases List.mem_append.mp hj with hj | hj
    · exact .inl hj
    · obtain rfl := List.mem_singleton.mp hj
      exact .inr (hearly hc)

theorem undisturbed_runInLoop {target : L} (hjob : job ≠ .connectEstablished c)
    (hearly : job.conn = c → job.early = true) : Undisturbed s (s.runInLoop ℓ target job) c := by
  unfold TcpServer.runInLoop
  split
  · exact undisturbed_callNext hjob hearly
  · exact undisturbed_queueInLoop hjob hearly

theorem undisturbed_popJob {rest : List Job} (hwork : (s.loops ℓ).work = job :: rest)
    (hjob : job ≠ .connectEstablished c) : Undisturbed s (s.popJob ℓ job rest) c := by
  have hset : Undisturbed s (s.setLoop ℓ { s.loops ℓ with work := rest }) c := by
    refine undisturbed_setLoop (.of_sublist ?_ (fun _ => id) rfl)
    rw [Loop.agenda, Loop.agenda, hwork]
    exact List.sublist_cons_self job _
  refine ⟨hset.arrivals, fun hu => ?_⟩
  have hu' := hset.untouched hu
  refine ⟨hu'.conn, hu'.invoked, fun x hx => ?_, hu'.unreported, hu'.unwatched, hu'.early,
    hu'.uncalled⟩
  rcases List.mem_append.mp hx with hx | hx
  · exact hu.undone x hx
  · obtain rfl := List.mem_singleton.mp hx
    exact hjob

/-- A method adds its close callback and its notices to what the loop has to do. -/
theorem agenda_onConn (s : TcpServer T L) (ℓ : L) (c' : ConnId) (f : Site ConnId → Site ConnId) :
    ((s.onConn ℓ c' f).loops ℓ).agenda =
      (if (f { conn := s.conns c', poller := (s.loops ℓ).poller }).closing then
        [.closeCallback c'] else []) ++ (s.loops ℓ).agenda ++
      (f { conn := s.conns c', poller := (s.loops ℓ).poller }).queued.map (.notice · c') := by
  have hloop : (s.onConn ℓ c' f).loops ℓ = _ := Function.update_self _ _ _
  rw [hloop]
  simp only [Loop.agenda, TaskQueue.waiting_pushAll, List.append_assoc]

theorem arrivals_onConn (s : TcpServer T L) (ℓ : L) (c c' : ConnId)
    (f : Site ConnId → Site ConnId) : (s.onConn ℓ c' f).arrivals c = s.arrivals c := by
  by_cases hℓ : s.loopOf c = ℓ
  · subst hℓ
    have hnotices : ∀ notices : List Notice,
        (notices.map (Job.notice · c')).count (.connectEstablished c) = 0 := fun notices =>
      List.count_eq_zero_of_not_mem (by simp)
    show ((s.onConn (s.loopOf c) c' f).loops (s.loopOf c)).agenda.count _ = _
    rw [agenda_onConn, List.append_assoc, count_append_of_ne, List.count_append, hnotices,
      Nat.add_zero, TcpServer.arrivals]
    intro j hj
    split at hj
    · rw [List.mem_singleton.mp hj]
      simp
    · cases hj
  · have hother : (s.onConn ℓ c' f).loops (s.loopOf c) = s.loops (s.loopOf c) :=
      Function.update_of_ne hℓ _ _
    show ((s.onConn ℓ c' f).loops (s.loopOf c)).agenda.count _ = _
    rw [hother, TcpServer.arrivals]

/-- What a method does to a connection that has not been established. -/
structure Harmless (c : ConnId) (p : EPollPoller ConnId) (w : Site ConnId) : Prop where
  conn : w.conn.Virgin
  invoked : w.invoked = []
  poller : ∀ fd ev, w.poller.epoll fd = some (c, ev) → p.epoll fd = some (c, ev)

/-- A method of another connection, or a harmless one of this. -/
theorem undisturbed_onConn {c' : ConnId} {f : Site ConnId → Site ConnId}
    (hother : c' ≠ c → Within (s.loops ℓ).poller c'
      (f { conn := s.conns c', poller := (s.loops ℓ).poller }).poller)
    (hself : c' = c → (s.conns c).Virgin →
      Harmless c (s.loops ℓ).poller (f { conn := s.conns c', poller := (s.loops ℓ).poller })) :
    Undisturbed s (s.onConn ℓ c' f) c := by
  set w := f { conn := s.conns c', poller := (s.loops ℓ).poller } with hw
  have hagenda := agenda_onConn s ℓ c' f
  rw [← hw] at hagenda
  refine ⟨(arrivals_onConn s ℓ c c' f).le, fun hu => ?_⟩
  have hwatch : ∀ fd ev, w.poller.epoll fd = some (c, ev) →
      (s.loops ℓ).poller.epoll fd = some (c, ev) := fun fd ev he => by
    by_cases hc : c' = c
    · exact (hself hc hu.conn).poller fd ev he
    · exact hother hc fd c ev (Ne.symm hc) he
  have hloop : (s.onConn ℓ c' f).loops (s.loopOf c) = s.loops (s.loopOf c) ∨ s.loopOf c = ℓ := by
    by_cases hℓ : s.loopOf c = ℓ
    · exact .inr hℓ
    · exact .inl (Function.update_of_ne hℓ _ _)
  have hat : (s.onConn ℓ c' f).loops ℓ = { s.loops ℓ with
      work := (if w.closing then [.closeCallback c'] else []) ++ (s.loops ℓ).work
      queue := (s.loops ℓ).queue.pushAll (w.queued.map (.notice · c'))
      poller := w.poller } := Function.update_self _ _ _
  refine ⟨?_, ?_, hu.undone, ?_, fun fd ev he => ?_, fun j hj hc => ?_, hu.uncalled⟩
  · by_cases hc : c' = c
    · have hset : (s.onConn ℓ c' f).conns c = w.conn := by
        rw [← hc]
        exact Function.update_self _ _ _
      rw [hset]
      exact (hself hc hu.conn).conn
    · have hset : (s.onConn ℓ c' f).conns c = s.conns c := Function.update_of_ne (Ne.symm hc) _ _
      rw [hset]
      exact hu.conn
  · by_cases hc : c' = c
    · have hset : (s.onConn ℓ c' f).invoked c = s.invoked c ++ w.invoked := by
        rw [← hc]
        exact Function.update_self _ _ _
      rw [hset, hu.invoked, (hself hc hu.conn).invoked]
      rfl
    · have hset : (s.onConn ℓ c' f).invoked c = s.invoked c :=
        Function.update_of_ne (Ne.symm hc) _ _
      rw [hset]
      exact hu.invoked
  · show c ∉ ((s.onConn ℓ c' f).loops (s.loopOf c)).activeChannels_
    rcases hloop with hloop | hloop
    · rw [hloop]
      exact hu.unreported
    · have hactive := hu.unreported
      rw [hloop] at hactive ⊢
      rw [hat]
      exact hactive
  · rcases hloop with hloop | hloop
    · rw [show (s.onConn ℓ c' f).loopOf c = s.loopOf c from rfl, hloop] at he
      exact hu.unwatched fd ev he
    · rw [show (s.onConn ℓ c' f).loopOf c = s.loopOf c from rfl, hloop, hat] at he
      exact hu.unwatched fd ev (hloop ▸ hwatch fd ev he)
  · rcases hloop with hloop | hloop
    · rw [show (s.onConn ℓ c' f).loopOf c = s.loopOf c from rfl, hloop] at hj
      exact hu.early j hj hc
    · rw [show (s.onConn ℓ c' f).loopOf c = s.loopOf c from rfl, hloop, hagenda] at hj
      simp only [List.mem_append, List.mem_map] at hj
      rcases hj with (hj | hj) | ⟨n, -, rfl⟩
      · split at hj
        · rw [List.mem_singleton.mp hj]
          rfl
        · cases hj
      · exact hu.early j (hloop ▸ hj) hc
      · rfl

omit [DecidableEq L] in
/-- A method that finds the connection not established and does nothing. -/
theorem harmless_of_eq {p : EPollPoller ConnId} {w : Site ConnId}
    (hw : w = { conn := s.conns c, poller := p }) (hv : (s.conns c).Virgin) :
    Harmless c p w := by
  subst hw
  exact ⟨hv, rfl, fun _ _ he => he⟩

omit [DecidableEq L] in
theorem not_connected {conn : TcpConnection} (h : conn.Virgin) : conn.state_ ≠ .kConnected := by
  rw [h.state]
  decide

omit [DecidableEq L] in
theorem harmless_remove {p : EPollPoller ConnId} (hv : (s.conns c).Virgin) :
    Harmless c p (Site.channel .remove c { conn := s.conns c, poller := p }) := by
  obtain ⟨name, sockfd, callbacks, b, n, hconn⟩ := hv
  refine ⟨⟨name, sockfd, callbacks, b, n, ?_⟩, rfl, fun fd ev he => ?_⟩
  · rw [hconn]
    rfl
  · -- the channel has never been added, so that only the map loses its entry
    rw [hconn] at he
    exact he

/-- A job that is not early is no job of an untouched connection. -/
theorem undisturbed_late {rest : List Job} (h : s.Confined)
    (hwork : (s.loops ℓ).work = job :: rest) (hlate : job.early = false)
    {f : Site ConnId → Site ConnId} (hother : job.conn ≠ c →
      Within ((s.popJob ℓ job rest).loops ℓ).poller job.conn
        (f { conn := (s.popJob ℓ job rest).conns job.conn,
             poller := ((s.popJob ℓ job rest).loops ℓ).poller }).poller) :
    Undisturbed s ((s.popJob ℓ job rest).onConn ℓ job.conn f) c := by
  have hpop : Undisturbed s (s.popJob ℓ job rest) c :=
    undisturbed_popJob hwork fun he => by rw [he] at hlate; cases hlate
  by_cases hc : job.conn = c
  · refine ⟨(arrivals_onConn _ _ _ _ _).trans_le hpop.arrivals, fun hu => ?_⟩
    have hmem : job ∈ (s.loops ℓ).agenda := by rw [Loop.agenda, hwork]; exact List.mem_cons_self
    have hhome : ℓ = s.loopOf c := by
      have hhome := ((h.seated ℓ).jobs job hmem).2
      cases job <;> first | exact hhome.trans (congrArg s.loopOf hc) | cases hlate
    have hearly := hu.early job (hhome ▸ hmem) hc
    rw [hlate] at hearly
    cases hearly
  · exact hpop.trans (undisturbed_onConn hother fun he => absurd he hc)

/-- A job other than `connectEstablished` of the connection itself. -/
theorem undisturbed_run {rest : List Job} (h : s.Confined) (hwork : (s.loops ℓ).work = job :: rest)
    (hjob : job ≠ .connectEstablished c) (read : ReadvResult) (write : WriteResult) :
    Undisturbed s ((s.popJob ℓ job rest).runJob ℓ read write job) c := by
  have hpop := undisturbed_popJob hwork hjob
  have hstable := fun c' => stable_within ((s.popJob ℓ job rest).loops ℓ).poller c'
  cases job with
  | connectEstablished c' =>
    have hne : c' ≠ c := fun he => hjob (congrArg _ he)
    exact hpop.trans (undisturbed_onConn
      (fun _ => (hstable c').connectEstablished id (.refl _ c')) fun he => absurd he hne)
  | connectDestroyed c' =>
    have hleave : Undisturbed (s.popJob ℓ (.connectDestroyed c') rest)
        ((s.popJob ℓ (.connectDestroyed c') rest).onConn ℓ c' (Site.leaveConnected c')) c := by
      refine undisturbed_onConn (fun _ => (hstable c').leaveConnected (.refl _ c')) fun he hv => ?_
      rw [he]
      exact harmless_of_eq (if_neg (not_connected hv)) hv
    exact (hpop.trans hleave).trans (undisturbed_callNext (by simp) fun _ => rfl)
  | removeChannel c' =>
    refine hpop.trans (undisturbed_onConn (fun _ fd c'' ev hc he => ?_) fun he hv => ?_)
    · have hrun : (ChannelOp.remove.run c' (s.conns c').channel_
          ((s.popJob ℓ (.removeChannel c') rest).loops ℓ).poller).2.epoll fd = some (c'', ev) := he
      exact ChannelOp.epoll_run_of_ne hc hrun
    · rw [he]
      exact harmless_remove hv
  | removeConnectionInLoop c' =>
    have herase : Undisturbed (s.popJob ℓ (.removeConnectionInLoop c') rest)
        { s.popJob ℓ (.removeConnectionInLoop c') rest with
          connections_ := s.connections_.eraseKey (s.conns c').name_ } c :=
      .of_eq rfl rfl rfl rfl rfl fun t ht => ⟨t, ht⟩
    exact (hpop.trans herase).trans (undisturbed_queueInLoop (by simp) fun _ => rfl)
  | closeCallback c' => exact hpop.trans (undisturbed_runInLoop (by simp) fun _ => rfl)
  | notice n c' => exact hpop
  | handle cb c' =>
    exact undisturbed_late h hwork rfl fun _ => (hstable c').callback (.refl _ c') read write cb
  | sendInLoop c' data =>
    exact undisturbed_late h hwork rfl fun _ => (hstable c').sendInLoop (.refl _ c') data write
  | shutdownInLoop c' =>
    exact undisturbed_late h hwork rfl fun _ => (hstable c').shutdownInLoop (.refl _ c')

theorem undisturbed_newConnection (hc : s.Born c) (ioLoop : L) (sockfd : Int) :
    Undisturbed s (s.newConnection ioLoop sockfd) c := by
  have hne := ne_next hc
  have hadd : Undisturbed s (s.addConnection ioLoop sockfd) c :=
    .of_eq (by rw [addConnection_loopOf, if_neg hne]) rfl (by rw [addConnection_conns, if_neg hne])
      rfl rfl fun t ht => ⟨t, ht⟩
  have hjob : Job.connectEstablished s.nextConnId_ ≠ .connectEstablished c := fun he =>
    hne (Job.connectEstablished.inj he).symm
  exact hadd.trans (undisturbed_runInLoop hjob fun he => absurd he.symm hne)

variable [Fintype L]

theorem undisturbed_userCall {c' : ConnId} {f : Site ConnId → Site ConnId}
    (hother : ∀ ℓ, Within (s.loops ℓ).poller c'
      (f { conn := s.conns c', poller := (s.loops ℓ).poller }).poller)
    (hself : (s.conns c').Virgin → ∀ p, Harmless c' p (f { conn := s.conns c', poller := p }))
    (hs : s.userCall c' f = some s') : Undisturbed s s' c := by
  obtain ⟨-, -, rfl⟩ := userCall_eq hs
  refine undisturbed_onConn (fun _ => hother _) fun he hv => ?_
  subst he
  exact hself hv _

variable [DecidableEq T]

/-- The channels that are reported have been registered. -/
theorem undisturbed_poll (h : s.Confined) {reports : List (ConnId × Events)}
    (hs : s.act (.poll ℓ reports) = some s') : Undisturbed s s' c := by
  obtain ⟨-, -, -, hreports, rfl⟩ := act_poll hs
  have hentry : ∀ x ∈ reports, ∃ ev,
      (s.loops ℓ).poller.epoll (s.conns x.1).channel_.fd_ = some (x.1, ev) := fun x hx => by
    have hw : ((s.loops ℓ).poller.epoll (s.conns x.1).channel_.fd_).map (·.1) = some x.1 := by
      simpa [watched] using hreports x hx
    obtain ⟨⟨c', ev⟩, he, rfl⟩ := Option.map_eq_some_iff.mp hw
    exact ⟨ev, he⟩
  have hset : Undisturbed s
      (s.setLoop ℓ { s.loops ℓ with phase := .handling (reports.map (·.1)) }) c := by
    refine undisturbed_setLoop
      ⟨Nat.le_refl _, fun _ hj _ => .inl hj, fun hc => ?_, fun _ _ he => he⟩
    obtain ⟨x, hx, rfl⟩ := List.mem_map.mp hc
    obtain ⟨ev, he⟩ := hentry x hx
    exact .inr ⟨_, ev, he⟩
  refine ⟨hset.arrivals, fun hu => { hset.untouched hu with conn := ?_ }⟩
  have hsame : setRevents reports s.conns c = s.conns c := by
    unfold setRevents
    split
    · rename_i revents hlook
      obtain ⟨front, back, hreport, -⟩ := List.lookup_eq_some_iff.mp hlook
      obtain ⟨ev, he⟩ := hentry (c, revents) (by simp [hreport])
      have hloop := ((h.seated ℓ).watched _ _ _ he).2
      exact absurd (hloop ▸ he) (hu.unwatched _ ev)
    · rfl
  show (setRevents reports s.conns c).Virgin
  rw [hsame]
  exact hu.conn

theorem undisturbed_dispatch (h : s.Confined) (hs : s.act (.dispatch ℓ) = some s') :
    Undisturbed s s' c := by
  obtain ⟨c', rest, hphase, hidle, ⟨-, rfl⟩ | ⟨-, rfl⟩⟩ := dispatch_cases hs
  · have hnext : Undisturbed s (s.setLoop ℓ ((s.loops ℓ).next rest)) c := by
      refine undisturbed_setLoop (.of_sublist (List.Sublist.refl _) (fun x hx => ?_) rfl)
      rw [Loop.activeChannels_, hphase]
      exact List.mem_cons_of_mem c' hx
    exact hnext.trans (.of_eq rfl rfl rfl rfl rfl fun t ht => ⟨t, ht⟩)
  · set jobs := (s.conns c').channel_.handleEventWithGuard.map (Job.handle · c') with hjobs
    have hagenda : ((s.loops ℓ).handling rest c' (s.conns c').channel_).agenda =
        jobs ++ (s.loops ℓ).agenda := by
      rw [Loop.agenda, Loop.agenda, (Loop.idle_iff.mp hidle).1, List.nil_append]
      rfl
    have hactive : (s.loops ℓ).activeChannels_ = c' :: rest := by rw [Loop.activeChannels_, hphase]
    have harrivals : ((s.loops ℓ).handling rest c' (s.conns c').channel_).agenda.count
        (.connectEstablished c) = (s.loops ℓ).agenda.count (.connectEstablished c) := by
      rw [hagenda, count_append_of_ne]
      intro j hj
      obtain ⟨cb, -, rfl⟩ := List.mem_map.mp hj
      simp
    by_cases hc : c' = c
    · -- a connection that is reported is not untouched
      refine ⟨?_, fun hu => absurd ?_ hu.unreported⟩
      · rw [TcpServer.arrivals, TcpServer.arrivals]
        show ((Function.update s.loops ℓ _) (s.loopOf c)).agenda.count _ ≤ _
        by_cases hℓ : s.loopOf c = ℓ
        · rw [hℓ, Function.update_self, harrivals]
        · rw [Function.update_of_ne hℓ]
      · have hmem : c' ∈ (s.loops ℓ).activeChannels_ := hactive ▸ List.mem_cons_self
        have hloop := ((h.seated ℓ).active c' hmem).2
        rw [← hc, hloop]
        exact hmem
    · refine undisturbed_setLoop ⟨harrivals.le, fun j hj hconn => ?_, fun hx => .inl ?_,
        fun _ _ he => he⟩
      · rw [hagenda] at hj
        rcases List.mem_append.mp hj with hj | hj
        · obtain ⟨cb, -, rfl⟩ := List.mem_map.mp hj
          exact absurd hconn hc
        · exact .inl hj
      · rw [hactive]
        exact List.mem_cons_of_mem c' hx

/-- A call is begun on a connection in state `kConnected` only. -/
theorem act_test {t : T} {a : Action T L} {c' : ConnId} (ha : (∃ data, a = .testSend t c' data) ∨
    a = .testShutdown t c') (hs : s.act a = some s') : s' = s ∨
      (s.conns c').state_ = .kConnected ∧
        ∃ x : Caller, x.conn = some c' ∧ s' = (s.acquire c').setCaller t x := by
  rcases ha with ⟨data, rfl⟩ | rfl
  all_goals
    simp only [TcpServer.act, Option.ite_none_right_eq_some] at hs
    obtain ⟨-, hs⟩ := hs
    split at hs
    · rename_i hstate
      exact .inr ⟨hstate, _, rfl, (Option.some.inj hs).symm⟩
    · exact .inl (Option.some.inj hs).symm

theorem undisturbed_test {t : T} {a : Action T L} {c' : ConnId}
    (ha : (∃ data, a = .testSend t c' data) ∨ a = .testShutdown t c') (hs : s.act a = some s') :
    Undisturbed s s' c := by
  rcases act_test ha hs with rfl | ⟨hstate, x, hx, rfl⟩
  · exact .refl _ c
  · refine ⟨Nat.le_refl _, fun hu => { hu with uncalled := fun t' ht' => ?_ }⟩
    simp only [setCaller, Function.update_apply] at ht'
    split at ht'
    · obtain rfl := Option.some.inj (hx.symm.trans ht')
      exact not_connected hu.conn hstate
    · exact hu.uncalled t' ht'

omit [Fintype L] in
/-- The call ends with a functor for the connection it was made on. -/
theorem undisturbed_enqueue {t : T} {c' : ConnId} (hcaller : (s.caller t).conn = some c')
    (hconn : job.conn = c') (hjob : ∀ c, job ≠ .connectEstablished c) :
    Undisturbed s (((s.queueInLoop ℓ job).releasePtr c').setCaller t .idle) c := by
  by_cases hc : c' = c
  · refine ⟨?_, fun hu => absurd (hc ▸ hcaller) (hu.uncalled t)⟩
    show (Function.update s.loops ℓ _ (s.loopOf c)).agenda.count _ ≤ _
    by_cases hℓ : s.loopOf c = ℓ
    · rw [hℓ, Function.update_self, Loop.agenda, TaskQueue.waiting_push, ← List.append_assoc,
        List.count_append, List.count_singleton, if_neg (by simpa using hjob c), TcpServer.arrivals,
        hℓ]
      exact Nat.le_refl _
    · rw [Function.update_of_ne hℓ]
      exact Nat.le_refl _
  · have hqueue : Undisturbed s (s.queueInLoop ℓ job) c :=
      undisturbed_queueInLoop (hjob c) fun he => absurd (hconn.symm.trans he) hc
    refine hqueue.trans (.of_eq rfl rfl rfl rfl rfl fun t' ht' => ⟨t', ?_⟩)
    simp only [setCaller, releasePtr, Function.update_apply] at ht'
    split at ht'
    · cases ht'
    · exact ht'

omit [DecidableEq L] [Fintype L] in
theorem undisturbed_store {t : T} {c' : ConnId} (hcaller : s.caller t = .leaving c') :
    Undisturbed s { s.setCaller t (.left c') with
      conns := Function.update s.conns c' { s.conns c' with state_ := .kDisconnecting } } c := by
  have hconn : (s.caller t).conn = some c' := by rw [hcaller]; rfl
  by_cases hc : c' = c
  · exact ⟨Nat.le_refl _, fun hu => absurd (hc ▸ hconn) (hu.uncalled t)⟩
  · refine .of_eq rfl rfl (Function.update_of_ne (Ne.symm hc) _ _) rfl rfl fun t' ht' => ⟨t', ?_⟩
    simp only [setCaller, Function.update_apply] at ht'
    split at ht'
    · exact absurd (Option.some.inj ht') hc
    · exact ht'

/-- Every action, the run of the connection's own `connectEstablished` apart. -/
theorem undisturbed_act (h : s.Confined) (hc : s.Born c) {a : Action T L}
    (ha : ∀ ℓ read write rest, a = .run ℓ read write →
      (s.loops ℓ).work ≠ .connectEstablished c :: rest)
    (hs : s.act a = some s') : Undisturbed s s' c := by
  have hstable := fun ℓ c' => stable_within (s.loops ℓ).poller c'
  cases a with
  | poll ℓ reports => exact undisturbed_poll h hs
  | dispatch ℓ => exact undisturbed_dispatch h hs
  | release ℓ =>
    obtain ⟨-, rfl⟩ := act_release hs
    exact undisturbed_setLoop (.of_sublist (List.Sublist.refl _) (fun _ => id) rfl)
  | swap ℓ =>
    obtain ⟨-, -, rfl⟩ := act_swap hs
    refine undisturbed_setLoop (.of_sublist ?_ (List.nil_subset _) rfl)
    simp only [Loop.agenda, TaskQueue.waiting, TaskQueue.swap, List.append_nil]
    exact (List.sublist_append_right _ _).append_left _
  | start ℓ =>
    obtain ⟨hphase, hidle, job, queue, hstart, rfl⟩ := act_start hs
    obtain ⟨hwait, -⟩ := TaskQueue.waiting_of_start hstart
    refine undisturbed_setLoop (.of_sublist ?_ (fun _ => id) rfl)
    rw [Loop.agenda, Loop.agenda, (Loop.idle_iff.mp hidle).1, hwait]
    exact List.Sublist.refl _
  | finish ℓ =>
    obtain ⟨-, -, -, rfl⟩ := act_finish hs
    exact undisturbed_setLoop (.of_sublist (List.Sublist.refl _) (List.nil_subset _) rfl)
  | run ℓ read write =>
    obtain ⟨job, rest, hwork, rfl⟩ := act_run hs
    refine undisturbed_run h hwork (fun hjob => ha ℓ read write rest rfl ?_) read write
    rw [hwork, hjob]
  | newConnection ioLoop sockfd =>
    obtain ⟨-, -, -, rfl⟩ := act_newConnection hs
    exact undisturbed_newConnection hc ioLoop sockfd
  | destroy | destroyEnd =>
    simp only [TcpServer.act, Option.ite_none_right_eq_some, Option.some.injEq] at hs
    obtain ⟨-, rfl⟩ := hs
    exact .of_eq rfl rfl rfl rfl rfl fun t ht => ⟨t, ht⟩
  | destroyItem key c' =>
    obtain ⟨-, -, -, rfl⟩ := act_destroyItem hs
    have herase : Undisturbed s { s with connections_ := s.connections_.erase (key, c') } c :=
      .of_eq rfl rfl rfl rfl rfl fun t ht => ⟨t, ht⟩
    exact herase.trans (undisturbed_runInLoop (by simp) fun _ => rfl)
  | send c' data r =>
    exact undisturbed_userCall (fun ℓ => (hstable ℓ c').send (.refl _ c') data r)
      (fun hv p => harmless_of_eq (if_neg (not_connected hv)) hv) hs
  | shutdown c' =>
    exact undisturbed_userCall (fun ℓ => (hstable ℓ c').shutdown (.refl _ c'))
      (fun hv p => harmless_of_eq (if_neg (not_connected hv)) hv) hs
  | setHighWaterMarkCallback c' n =>
    refine undisturbed_userCall (fun ℓ => .refl _ c') (fun hv p => ⟨?_, rfl, fun _ _ he => he⟩) hs
    obtain ⟨name, sockfd, callbacks, b, n', hconn⟩ := hv
    exact ⟨name, sockfd, callbacks, true, n, by
      show ({ s.conns c' with highWaterMarkCallback_ := true, highWaterMark_ := n } :
        TcpConnection) = _
      rw [hconn]⟩
  | keep c' =>
    obtain ⟨-, rfl⟩ := act_keep hs
    exact .of_eq rfl rfl rfl rfl rfl fun t ht => ⟨t, ht⟩
  | drop c' =>
    obtain rfl := act_drop hs
    exact .of_eq rfl rfl rfl rfl rfl fun t ht => ⟨t, ht⟩
  | testSend t c' data => exact undisturbed_test (.inl ⟨data, rfl⟩) hs
  | testShutdown t c' => exact undisturbed_test (.inr rfl) hs
  | enqueueSend t =>
    obtain ⟨c', data, hcaller, rfl⟩ := act_enqueueSend hs
    exact undisturbed_enqueue (by rw [hcaller]; rfl) rfl (by simp)
  | storeDisconnecting t =>
    obtain ⟨c', hcaller, rfl⟩ := act_storeDisconnecting hs
    exact undisturbed_store hcaller
  | enqueueShutdown t =>
    obtain ⟨c', hcaller, rfl⟩ := act_enqueueShutdown hs
    exact undisturbed_enqueue (by rw [hcaller]; rfl) rfl (by simp)

end Steps

/-! ## Runs -/

/-- Callbacks and finished jobs belong to accepted connections, and each of these
is established once. -/
structure Raised (s : TcpServer T L) : Prop where
  confined : s.Confined
  unborn : ∀ c, ¬ s.Born c → s.invoked c = []
  recorded : ∀ x ∈ s.done, s.Born x.1.conn
  dawning : ∀ c, s.Born c → s.Dawning c
  done : ∀ c, (s.done.map (·.1)).count (.connectEstablished c) ≤ 1

theorem raised_fresh (config : Config L) : (fresh config : TcpServer T L).Raised where
  confined := confined_fresh config
  unborn _ _ := rfl
  recorded := nofun
  dawning _ hc := absurd hc.2 (Nat.not_lt.mpr hc.1)
  done _ := Nat.zero_le 1

section Runs

variable [DecidableEq L] {ℓ : L}

theorem runJob_history (s : TcpServer T L) (ℓ : L) (read : ReadvResult) (write : WriteResult)
    (job : Job) : (s.runJob ℓ read write job).done = s.done ∧
      ∀ c, c ≠ job.conn → (s.runJob ℓ read write job).invoked c = s.invoked c := by
  cases job with
  | closeCallback c =>
    simp only [runJob, removeConnection, runInLoop]
    split <;> exact ⟨rfl, fun _ _ => rfl⟩
  | removeConnectionInLoop | notice => exact ⟨rfl, fun _ _ => rfl⟩
  | connectEstablished | connectDestroyed | removeChannel | handle | sendInLoop
  | shutdownInLoop => exact ⟨rfl, fun _ hc => Function.update_of_ne hc _ _⟩

variable [Fintype L] [DecidableEq T]

/-- Callbacks are called on accepted connections, and jobs are done by `run`. -/
theorem history_act (h : s.Confined) {a : Action T L} (hs : s.act a = some s') :
    (∀ c, ¬ s.Born c → s'.invoked c = s.invoked c) ∧
    (s'.done = s.done ∨ ∃ ℓ read write job rest, a = .run ℓ read write ∧
      (s.loops ℓ).work = job :: rest ∧ s'.done = s.done ++ [(job, s.status)]) := by
  cases a with
  | run ℓ read write =>
    obtain ⟨job, rest, hwork, rfl⟩ := act_run hs
    obtain ⟨hdone, hinvoked⟩ := runJob_history (s.popJob ℓ job rest) ℓ read write job
    have hb := ((h.seated ℓ).jobs job (by rw [Loop.agenda, hwork]; exact List.mem_cons_self)).1
    exact ⟨fun c hc => hinvoked c fun he => hc (he ▸ hb),
      .inr ⟨ℓ, read, write, job, rest, rfl, hwork, hdone⟩⟩
  | dispatch ℓ =>
    obtain ⟨c, rest, -, -, ⟨-, rfl⟩ | ⟨-, rfl⟩⟩ := dispatch_cases hs <;>
      exact ⟨fun _ _ => rfl, .inl rfl⟩
  | poll ℓ reports =>
    obtain ⟨-, -, -, -, rfl⟩ := act_poll hs
    exact ⟨fun _ _ => rfl, .inl rfl⟩
  | start ℓ =>
    obtain ⟨-, -, job, queue, -, rfl⟩ := act_start hs
    exact ⟨fun _ _ => rfl, .inl rfl⟩
  | newConnection ioLoop sockfd =>
    obtain ⟨-, -, -, rfl⟩ := act_newConnection hs
    obtain ⟨loops, hloops⟩ := runInLoop_eq (s.addConnection ioLoop sockfd) s.config.loop_ ioLoop
      (.connectEstablished s.nextConnId_)
    rw [newConnection, hloops]
    exact ⟨fun _ _ => rfl, .inl rfl⟩
  | destroyItem key c =>
    obtain ⟨-, -, -, rfl⟩ := act_destroyItem hs
    obtain ⟨loops, hloops⟩ := runInLoop_eq
      { s with connections_ := s.connections_.erase (key, c) } s.config.loop_ (s.loopOf c)
      (.connectDestroyed c)
    rw [hloops]
    exact ⟨fun _ _ => rfl, .inl rfl⟩
  | send | shutdown | setHighWaterMarkCallback =>
    obtain ⟨hb, -, rfl⟩ := userCall_eq hs
    refine ⟨fun c' hc => Function.update_of_ne (fun he => hc ?_) _ _, .inl rfl⟩
    rw [he]
    exact hb
  | drop c =>
    obtain rfl := act_drop hs
    exact ⟨fun _ _ => rfl, .inl rfl⟩
  | testSend t c data =>
    obtain ⟨-, rfl | rfl⟩ := act_testSend hs <;> exact ⟨fun _ _ => rfl, .inl rfl⟩
  | testShutdown t c =>
    obtain ⟨-, rfl | rfl⟩ := act_testShutdown hs <;> exact ⟨fun _ _ => rfl, .inl rfl⟩
  | enqueueSend t =>
    obtain ⟨c, data, -, rfl⟩ := act_enqueueSend hs
    exact ⟨fun _ _ => rfl, .inl rfl⟩
  | storeDisconnecting t =>
    obtain ⟨c, -, rfl⟩ := act_storeDisconnecting hs
    exact ⟨fun _ _ => rfl, .inl rfl⟩
  | enqueueShutdown t =>
    obtain ⟨c, -, rfl⟩ := act_enqueueShutdown hs
    exact ⟨fun _ _ => rfl, .inl rfl⟩
  | release | swap | finish | destroy | destroyEnd | keep =>
    simp only [act, Option.ite_none_right_eq_some, Option.some.injEq] at hs
    obtain ⟨-, rfl⟩ := hs
    exact ⟨fun _ _ => rfl, .inl rfl⟩

omit [DecidableEq L] [Fintype L] [DecidableEq T] in
/-- The loop that takes up the functor is the connection's own. -/
theorem Confined.arrivals_pos (h : s.Confined) {rest : List Job}
    (hwork : (s.loops ℓ).work = .connectEstablished c :: rest) :
    s.Born c ∧ s.loopOf c = ℓ ∧ 0 < s.arrivals c := by
  have hmem : Job.connectEstablished c ∈ (s.loops ℓ).agenda := by
    rw [Loop.agenda, hwork]
    exact List.mem_cons_self
  obtain ⟨hb, hhome⟩ := (h.seated ℓ).jobs _ hmem
  have hℓ : s.loopOf c = ℓ := hhome.symm
  refine ⟨hb, hℓ, ?_⟩
  rw [TcpServer.arrivals, hℓ]
  exact List.count_pos_iff.mpr hmem

omit [Fintype L] [DecidableEq T] in
/-- Once it runs, the functor waits no longer. -/
theorem arrivals_run {rest : List Job} (h : s.Dawning c) (hℓ : s.loopOf c = ℓ)
    (hwork : (s.loops ℓ).work = .connectEstablished c :: rest) (read : ReadvResult)
    (write : WriteResult) :
    ((s.popJob ℓ (.connectEstablished c) rest).runJob ℓ read write
      (.connectEstablished c)).arrivals c = 0 := by
  have hpop : (s.popJob ℓ (.connectEstablished c) rest).arrivals c + 1 = s.arrivals c := by
    have hat : (s.popJob ℓ (.connectEstablished c) rest).loops ℓ =
        { s.loops ℓ with work := rest } := Function.update_self _ _ _
    have hloop : (s.popJob ℓ (.connectEstablished c) rest).loopOf c = ℓ := hℓ
    rw [TcpServer.arrivals, hloop, hat, TcpServer.arrivals, hℓ, Loop.agenda, Loop.agenda, hwork,
      List.cons_append, List.count_cons_self]
  have honce := h.once
  rw [runJob, arrivals_onConn]
  omega

omit [Fintype L] [DecidableEq T] in
/-- A functor is added to what its loop has to do, at the front or at the end. -/
theorem runInLoop_loop (s : TcpServer T L) (ℓ target : L) (job : Job) : ∃ l : Loop,
    s.runInLoop ℓ target job = s.setLoop target l ∧
      l.agenda.Perm (job :: (s.loops target).agenda) ∧
      l.activeChannels_ = (s.loops target).activeChannels_ ∧
      l.poller = (s.loops target).poller := by
  unfold runInLoop
  split
  · rename_i hℓ
    subst hℓ
    exact ⟨_, rfl, List.Perm.refl _, rfl, rfl⟩
  · refine ⟨_, rfl, ?_, rfl, rfl⟩
    rw [Loop.agenda, TaskQueue.waiting_push, ← List.append_assoc]
    exact List.perm_append_singleton _ _

omit [Fintype L] [DecidableEq T] in
/-- The connection that is accepted is untouched, and its functor is queued. -/
theorem dawning_newConnection (h : s.Raised) (ioLoop : L) (sockfd : Int) :
    (s.newConnection ioLoop sockfd).Dawning s.nextConnId_ := by
  have hnot : ¬ s.Born s.nextConnId_ := fun hb => Nat.lt_irrefl _ hb.2
  obtain ⟨l, hset, hperm, hactive, hpoller⟩ := runInLoop_loop (s.addConnection ioLoop sockfd)
    s.config.loop_ ioLoop (.connectEstablished s.nextConnId_)
  have hnone : ∀ j ∈ (s.loops ioLoop).agenda, j.conn ≠ s.nextConnId_ := fun j hj he =>
    hnot (he ▸ ((h.confined.seated ioLoop).jobs j hj).1)
  have hloop : (s.addConnection ioLoop sockfd).loopOf s.nextConnId_ = ioLoop := by
    rw [addConnection_loopOf, if_pos rfl]
  have hat : ((s.addConnection ioLoop sockfd).setLoop ioLoop l).loops
      (((s.addConnection ioLoop sockfd).setLoop ioLoop l).loopOf s.nextConnId_) = l :=
    (congrArg _ hloop).trans (Function.update_self _ _ _)
  have hseated := h.confined.seated ioLoop
  rw [newConnection, hset]
  constructor
  · have hzero : (s.loops ioLoop).agenda.count (.connectEstablished s.nextConnId_) = 0 :=
      List.count_eq_zero_of_not_mem fun hj => hnone _ hj rfl
    have hcount := hperm.count_eq (.connectEstablished s.nextConnId_)
    rw [List.count_cons_self] at hcount
    rw [TcpServer.arrivals, hat, hcount]
    exact (congrArg (· + 1) hzero).le
  · intro _
    have hconn : (s.addConnection ioLoop sockfd).conns s.nextConnId_ =
        TcpConnection.new (s.nameOf s.nextConnId_) sockfd s.callbacks := by
      rw [addConnection_conns, if_pos rfl]
    refine ⟨?_, h.unborn _ hnot, fun x hx he => hnot ?_, ?_, ?_, ?_, fun t ht =>
      hnot (h.confined.callers t _ ht)⟩
    · show ((s.addConnection ioLoop sockfd).conns s.nextConnId_).Virgin
      rw [hconn]
      exact TcpConnection.virgin_new _ _ _
    · have hb := h.recorded x hx
      rw [he] at hb
      exact hb
    · rw [hat, hactive]
      exact fun hc => hnot (hseated.active _ hc).1
    · rw [hat, hpoller]
      exact fun fd ev he => hnot (hseated.watched _ _ _ he).1
    · rw [hat]
      intro j hj hc
      rcases List.mem_cons.mp (hperm.mem_iff.mp hj) with rfl | hj
      · rfl
      · exact absurd hc (hnone j hj)

omit [Fintype L] [DecidableEq T] in
theorem newConnection_nextConnId_eq (s : TcpServer T L) (ioLoop : L) (sockfd : Int) :
    (s.newConnection ioLoop sockfd).nextConnId_ = s.nextConnId_ + 1 :=
  (sameConns_runInLoop _ _ _ _).nextConnId_

theorem born_act {a : Action T L} (hs : s.act a = some s') (hc : s.Born c) : s'.Born c := by
  by_cases ha : ∀ ioLoop sockfd, a ≠ .newConnection ioLoop sockfd
  · rwa [Born, (sameConns_act hs ha).nextConnId_]
  · simp only [not_forall, not_not] at ha
    obtain ⟨ioLoop, sockfd, rfl⟩ := ha
    obtain ⟨-, -, -, rfl⟩ := act_newConnection hs
    rw [Born, newConnection_nextConnId_eq]
    exact ⟨hc.1, Nat.lt_succ_of_lt hc.2⟩

/-- Only `newConnection` brings a connection in. -/
theorem accepted_act {a : Action T L} (hs : s.act a = some s') (hc : s'.Born c)
    (hn : ¬ s.Born c) : ∃ ioLoop sockfd, a = .newConnection ioLoop sockfd ∧
      s' = s.newConnection ioLoop sockfd ∧ c = s.nextConnId_ := by
  by_cases ha : ∀ ioLoop sockfd, a ≠ .newConnection ioLoop sockfd
  · rw [Born, (sameConns_act hs ha).nextConnId_] at hc
    exact absurd hc hn
  · simp only [not_forall, not_not] at ha
    obtain ⟨ioLoop, sockfd, rfl⟩ := ha
    obtain ⟨-, -, -, rfl⟩ := act_newConnection hs
    refine ⟨ioLoop, sockfd, rfl, rfl, ?_⟩
    rw [Born, newConnection_nextConnId_eq] at hc
    exact Nat.le_antisymm (Nat.lt_succ_iff.mp hc.2) (Nat.not_lt.mp fun hlt => hn ⟨hc.1, hlt⟩)

theorem Raised.act (h : s.Raised) {a : Action T L} (hs : s.act a = some s') : s'.Raised := by
  obtain ⟨hinvoked, hdone⟩ := history_act h.confined hs
  have hborn : ∀ c, s.Born c → s'.Born c := fun c => born_act hs
  refine ⟨h.confined.act hs, fun c hc => ?_, fun x hx => ?_, fun c hc => ?_, fun c => ?_⟩
  · have hc' : ¬ s.Born c := fun hb => hc (hborn c hb)
    rw [hinvoked c hc']
    exact h.unborn c hc'
  · rcases hdone with hdone | ⟨ℓ, read, write, job, rest, -, hwork, hdone⟩
    · exact hborn _ (h.recorded x (hdone ▸ hx))
    · rw [hdone, List.mem_append, List.mem_singleton] at hx
      rcases hx with hx | rfl
      · exact hborn _ (h.recorded x hx)
      · refine hborn _ ((h.confined.seated ℓ).jobs job ?_).1
        rw [Loop.agenda, hwork]
        exact List.mem_cons_self
  · by_cases hb : s.Born c
    · by_cases ha : ∃ ℓ read write rest, a = .run ℓ read write ∧
          (s.loops ℓ).work = .connectEstablished c :: rest
      · obtain ⟨ℓ, read, write, rest, rfl, hwork⟩ := ha
        obtain ⟨job, rest', hwork', rfl⟩ := act_run hs
        obtain ⟨rfl, rfl⟩ := List.cons.inj (hwork'.symm.trans hwork)
        have hℓ := (h.confined.arrivals_pos hwork).2.1
        have hzero := arrivals_run (h.dawning c hb) hℓ hwork read write
        exact ⟨by rw [hzero]; exact Nat.zero_le 1, fun hpos => by rw [hzero] at hpos; cases hpos⟩
      · refine (h.dawning c hb).step (undisturbed_act h.confined hb ?_ hs)
        exact fun ℓ read write rest he hw => ha ⟨ℓ, read, write, rest, he, hw⟩
    · obtain ⟨ioLoop, sockfd, rfl, rfl, rfl⟩ := accepted_act hs hc hb
      exact dawning_newConnection h ioLoop sockfd
  · rcases hdone with hdone | ⟨ℓ, read, write, job, rest, -, hwork, hdone⟩
    · rw [hdone]
      exact h.done c
    · rw [hdone, List.map_append, List.count_append]
      by_cases hjob : job = .connectEstablished c
      · -- it was waiting, so it has not run before
        subst hjob
        obtain ⟨hb, -, hpos⟩ := h.confined.arrivals_pos hwork
        have hundone := ((h.dawning c hb).untouched hpos).undone
        rw [List.count_eq_zero_of_not_mem]
        · simp
        · rw [List.mem_map]
          rintro ⟨x, hx, he⟩
          exact hundone x hx he
      · have hzero : [job].count (Job.connectEstablished c) = 0 := by
          rw [List.count_singleton, if_neg (by simpa using hjob)]
        rw [List.map_singleton, hzero]
        exact h.done c

theorem raised (config : Config L) (as : List (Action T L))
    (hr : Execution.exec step (fresh config) as = some s) : s.Raised :=
  Execution.exec_preserves Raised (fun _ _ _ h hs => h.act (step_eq hs).2.2) (raised_fresh config)
    hr

end Runs

end TcpServer

end Mymuduo

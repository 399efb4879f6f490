import Mymuduo.Server.Wellformed

/-!
# Methods and jobs

A method that user code calls, and a job that a loop's thread takes up, is one
step in the life of its connection; other connections go on as they were.
-/

namespace Mymuduo

open Mymuduo.Library

universe u v

namespace TcpServer

variable {T : Type u} {L : Type v} [DecidableEq L]
variable {s s' : TcpServer T L} {ℓ : L} {c c' : ConnId}

/-! ## Methods run by user code -/

section Methods

variable {f : Site ConnId → Site ConnId}

theorem sim_onConn_of_ne (ht : s.terminated = false) (h : c ≠ c') :
    Life.Step .quiet (s.view c) ((s.onConn ℓ c' f).view c) := by
  rw [view_onConn_of_ne s f h, ht, Bool.false_or]
  cases (f { conn := s.conns c', poller := (s.loops ℓ).poller }).thrown
  · have hsame : false = (s.view c).thrown := ht.symm
    rw [hsame]
    exact .stay
  · exact .terminate

/-- A method that calls nobody. -/
theorem view_onConn_silent (hℓ : s.loopOf c = ℓ) {w : Site ConnId}
    (hw : f { conn := s.conns c, poller := (s.loops ℓ).poller } = w)
    (hk : Site.Keeps (s.conns c) w.conn) (hclosing : w.closing = false) (hinvoked : w.invoked = [])
    (hthrown : w.thrown = false) : (s.onConn ℓ c f).view c =
      { s.view c with
        state := w.conn.state_
        registered := w.conn.channel_.index_ != .kNew
        later := (s.view c).later ++ w.queued.map .notice } := by
  rw [view_onConn s f hℓ, hw, hk.tied, hk.heard, hclosing, hinvoked, hthrown, List.append_nil,
    Bool.or_false]
  rfl

theorem registered_of_keeps {conn : TcpConnection} (hk : Site.Keeps (s.conns c) conn)
    (h : (s.view c).registered = true) : (conn.channel_.index_ != .kNew) = true :=
  bne_iff_ne.mpr (hk.registered (bne_iff_ne.mp h))

/-- A method that changes neither the state nor the channel. -/
theorem view_onConn_same (hℓ : s.loopOf c = ℓ) {conn : TcpConnection} {p : EPollPoller ConnId}
    (hw : f { conn := s.conns c, poller := (s.loops ℓ).poller } = { conn := conn, poller := p })
    (hstate : conn.state_ = (s.conns c).state_) (hch : conn.channel_ = (s.conns c).channel_)
    (hcb : conn.connectionCallback_ = (s.conns c).connectionCallback_) :
    (s.onConn ℓ c f).view c = s.view c := by
  rw [view_onConn_silent hℓ hw ⟨by rw [hch], hcb, fun h => by rw [hch]; exact h⟩ rfl rfl rfl,
    List.map_nil, List.append_nil, hstate, hch]
  rfl

variable [Fintype L]

theorem userCall_eq (hs : s.userCall c f = some s') : s.Born c ∧ s.useCount c ≠ 0 ∧
    s' = s.onConn (s.loopOf c) c f := by
  simp only [userCall, Option.ite_none_right_eq_some, Option.some.injEq] at hs
  exact ⟨hs.1.2.1, hs.1.2.2, hs.2.symm⟩

theorem sim_user (ht : s.terminated = false) (hs : s.userCall c' f = some s')
    (hf : c' = c → Life.Step .quiet (s.view c) ((s.onConn (s.loopOf c) c f).view c)) :
    Life.Step .quiet (s.view c) (s'.view c) := by
  obtain ⟨-, -, rfl⟩ := userCall_eq hs
  by_cases hcc : c' = c
  · subst hcc
    exact hf rfl
  · exact sim_onConn_of_ne ht (Ne.symm hcc)

theorem sim_send (ht : s.terminated = false) {data : List Byte} {r : WriteResult}
    (hs : s.userCall c' (Site.send c' data r) = some s') :
    Life.Step .quiet (s.view c) (s'.view c) := by
  refine sim_user ht hs fun he => ?_
  subst he
  let w : Site ConnId := { conn := s.conns c', poller := (s.loops (s.loopOf c')).poller }
  have hk : Site.Keeps (s.conns c') (w.send c' data r).conn :=
    (Site.stable_keeps c' w.conn).send (Site.Keeps.refl w.conn) data r
  have hsilent := Site.silent_send c' data r w
  by_cases hconnected : (s.view c').state = .kConnected
  · rw [view_onConn_silent rfl rfl hk hsilent.closing hsilent.invoked hsilent.thrown]
    exact .user _ _ _ hconnected (.inl (hsilent.state.trans hconnected)) fun hr =>
      registered_of_keeps hk hr
  · have hw : w.send c' data r = w := if_neg hconnected
    have hsame := view_onConn_same rfl hw rfl rfl rfl
    exact hsame ▸ .stay

theorem sim_shutdown (ht : s.terminated = false) (hs : s.userCall c' Site.shutdown = some s') :
    Life.Step .quiet (s.view c) (s'.view c) := by
  refine sim_user ht hs fun he => ?_
  subst he
  let w : Site ConnId := { conn := s.conns c', poller := (s.loops (s.loopOf c')).poller }
  by_cases hconnected : (s.view c').state = .kConnected
  · have hk : Site.Keeps (s.conns c') w.shutdown.conn :=
      (Site.stable_keeps c' w.conn).shutdown (Site.Keeps.refl w.conn)
    obtain ⟨hinvoked, hclosing, hthrown⟩ := Site.shutdown_silent w
    have hstate : w.shutdown.conn.state_ = .kDisconnecting :=
      (Site.state_shutdown w).trans (if_pos hconnected)
    rw [view_onConn_silent rfl rfl hk hclosing hinvoked hthrown]
    exact .user _ _ _ hconnected (.inr hstate) fun hr => registered_of_keeps hk hr
  · have hw : w.shutdown = w := if_neg hconnected
    have hsame := view_onConn_same rfl hw rfl rfl rfl
    exact hsame ▸ .stay

theorem sim_setHighWaterMarkCallback (ht : s.terminated = false) {n : Nat}
    (hs : s.userCall c' (Site.setHighWaterMarkCallback n) = some s') :
    Life.Step .quiet (s.view c) (s'.view c) := by
  refine sim_user ht hs fun he => ?_
  subst he
  have hsame : (s.onConn (s.loopOf c') c' (Site.setHighWaterMarkCallback n)).view c' = s.view c' :=
    view_onConn_same rfl rfl rfl rfl rfl
  exact hsame ▸ .stay

end Methods

/-! ## Jobs -/

section Jobs

variable {job : Job} {rest : List Job}

theorem view_popJob_of_ne (hwork : (s.loops ℓ).work = job :: rest) (hj : job.conn ≠ c) :
    (s.popJob ℓ job rest).view c = s.view c := by
  have hne : ∀ job', job'.conn = c → job ≠ job' := fun job' h he => hj (he ▸ h)
  obtain ⟨now, removals, hnow, hremovals, hview⟩ := s.view_popJob hwork fun h => absurd h hj
  rw [Job.dutyOf, if_neg hj, Option.toList_none, List.nil_append] at hnow
  rw [if_neg (hne _ rfl), Nat.add_zero] at hremovals
  subst hnow hremovals
  rw [hview, if_neg (hne _ rfl), if_neg (hne _ rfl), if_neg fun h => hne _ rfl h.1]
  rfl

/-- A duty is taken up. -/
theorem view_popJob_duty {d : Duty} (hwork : (s.loops ℓ).work = job :: rest)
    (hhome : ℓ = s.home job) (hd : job.dutyOf c = some d) : ∃ now, (s.view c).now = d :: now ∧
    (s.popJob ℓ job rest).view c = { s.view c with
      now := now
      destroys := (s.view c).destroys + if d = .destroy then 1 else 0
      deregisters := (s.view c).deregisters + if d = .deregister then 1 else 0 } := by
  obtain ⟨hconn, -⟩ := home_of_dutyOf (s := s) hd
  have hkind : job.duty = some d := by
    rw [Job.dutyOf, if_pos hconn] at hd
    exact hd
  have hdestroy : job = .connectDestroyed c ↔ d = .destroy := by
    cases job <;> cases hkind <;> cases hconn <;> simp [Job.conn]
  have hderegister : job = .removeChannel c ↔ d = .deregister := by
    cases job <;> cases hkind <;> cases hconn <;> simp [Job.conn]
  have hne : job ≠ .removeConnectionInLoop c := by
    rintro rfl
    simp [Job.dutyOf, Job.duty] at hd
  obtain ⟨now, removals, hnow, hremovals, hview⟩ := s.view_popJob hwork fun _ => hhome
  rw [hd] at hnow
  rw [if_neg hne, Nat.add_zero] at hremovals
  subst hremovals
  refine ⟨now, hnow, ?_⟩
  have hlate : ¬ (job = .removeConnectionInLoop c ∧ s.status ≠ .alive) := fun h => hne h.1
  rw [hview, if_neg hlate]
  simp only [hdestroy, hderegister]
  rfl

/-- A removal is taken up. -/
theorem view_popJob_removal (hwork : (s.loops ℓ).work = .removeConnectionInLoop c :: rest)
    (hhome : ℓ = s.config.loop_) : ∃ n, (s.view c).removals = n + 1 ∧
    (s.popJob ℓ (.removeConnectionInLoop c) rest).view c = { s.view c with
      removals := n
      lateRemovals := (s.view c).lateRemovals + if s.status = .alive then 0 else 1 } := by
  obtain ⟨now, removals, hnow, hremovals, hview⟩ := s.view_popJob (c := c) hwork fun _ => hhome
  have hduty : (Job.removeConnectionInLoop c).dutyOf c = none := if_pos rfl
  rw [if_pos rfl] at hremovals
  refine ⟨removals, hremovals, ?_⟩
  rw [hduty, Option.toList_none, List.nil_append] at hnow
  subst hnow
  rw [hview]
  by_cases ha : s.status = .alive <;> simp [ha]

theorem view_callNext_of_ne (s : TcpServer T L) (ℓ : L) {job : Job} (hj : job.conn ≠ c) :
    (s.callNext ℓ job).view c = s.view c := by
  have hne : job ≠ .removeConnectionInLoop c := fun he => hj (he ▸ rfl)
  rw [s.view_callNext fun h => absurd h hj, Job.dutyOf, if_neg hj, if_neg hne]
  rfl

theorem view_queueInLoop_of_ne (s : TcpServer T L) (ℓ : L) {job : Job} (hj : job.conn ≠ c) :
    (s.queueInLoop ℓ job).view c = s.view c := by
  have hne : job ≠ .removeConnectionInLoop c := fun he => hj (he ▸ rfl)
  rw [s.view_queueInLoop fun h => absurd h hj, Job.dutyOf, if_neg hj, if_neg hne,
    Option.toList_none, List.append_nil]
  rfl

theorem view_runInLoop_of_ne (s : TcpServer T L) (ℓ ℓ' : L) {job : Job} (hj : job.conn ≠ c) :
    (s.runInLoop ℓ ℓ' job).view c = s.view c := by
  unfold runInLoop
  split
  · exact s.view_callNext_of_ne ℓ hj
  · exact s.view_queueInLoop_of_ne ℓ' hj

/-- A duty that is run at once or queued. -/
theorem view_runInLoop_duty (s : TcpServer T L) {ℓ' : L} {d : Duty} (hhome : ℓ' = s.home job)
    (hd : job.dutyOf c = some d) : (s.runInLoop ℓ ℓ' job).view c =
      { s.view c with
        now := if ℓ = ℓ' then d :: (s.view c).now else (s.view c).now
        later := if ℓ = ℓ' then (s.view c).later else (s.view c).later ++ [d] } := by
  have hne : job ≠ .removeConnectionInLoop c := by
    rintro rfl
    simp [Job.dutyOf, Job.duty] at hd
  unfold runInLoop
  split
  · rename_i he
    rw [s.view_callNext fun _ => he.trans hhome, hd, if_neg hne]
    rfl
  · rw [s.view_queueInLoop fun _ => hhome, hd, if_neg hne]
    rfl

/-- Erasing the key of a connection removes that connection from the map. -/
theorem view_eraseKey (h : s.Wf) (c : ConnId) (hc' : s.Born c') :
    ({ s with connections_ := s.connections_.eraseKey (s.conns c').name_ } : TcpServer T L).view c =
      { s.view c with mapped := (s.view c).mapped && decide (c ≠ c') } := by
  have hmem : c ∈ (s.connections_.eraseKey (s.conns c').name_).map (·.2) ↔
      c ∈ s.connections_.map (·.2) ∧ c ≠ c' := by
    simp only [List.mem_map, h.named.mem_eraseKey hc']
    constructor
    · rintro ⟨e, ⟨he, hne⟩, rfl⟩
      exact ⟨⟨e, he, rfl⟩, hne⟩
    · rintro ⟨⟨e, he, rfl⟩, hne⟩
      exact ⟨e, ⟨he, hne⟩, rfl⟩
  simp only [view, hmem, Bool.decide_and]

/-- A job of another connection. -/
theorem sim_runJob_of_ne (h : s.Wf) (ht : s.terminated = false) (hc' : s.Born job.conn)
    (hown : job.own = true) (hj : job.conn ≠ c) (read : ReadvResult) (write : WriteResult) :
    Life.Step .quiet (s.view c) ((s.runJob ℓ read write job).view c) := by
  cases job with
  | connectEstablished c' => exact sim_onConn_of_ne ht (Ne.symm hj)
  | connectDestroyed c' =>
    have hlast : (s.runJob ℓ read write (.connectDestroyed c')).view c =
        (s.onConn ℓ c' (Site.leaveConnected c')).view c := view_callNext_of_ne _ ℓ hj
    exact hlast ▸ sim_onConn_of_ne ht (Ne.symm hj)
  | removeChannel c' => exact sim_onConn_of_ne ht (Ne.symm hj)
  | removeConnectionInLoop c' =>
    have hmap := view_eraseKey h c hc'
    rw [decide_eq_true (Ne.symm hj), Bool.and_true] at hmap
    have hqueued : (s.removeConnectionInLoop c').view c = _ := view_queueInLoop_of_ne _ _ hj
    exact hqueued.trans hmap ▸ .stay
  | closeCallback c' =>
    have hsame : (s.removeConnection ℓ c').view c = s.view c := view_runInLoop_of_ne s _ _ hj
    exact hsame ▸ .stay
  | handle cb c' => exact sim_onConn_of_ne ht (Ne.symm hj)
  | notice n c' => exact .stay
  | sendInLoop | shutdownInLoop => cases hown

/-- A duty of `c` that runs a method of `c`. -/
theorem view_popJob_onConn {d : Duty} {f : Site ConnId → Site ConnId} {w : Site ConnId}
    (hwork : (s.loops ℓ).work = job :: rest) (hhome : ℓ = s.home job)
    (hd : job.dutyOf c = some d)
    (hw : f { conn := s.conns c, poller := (s.loops ℓ).poller } = w) :
    ∃ now, (s.view c).now = d :: now ∧
    ((s.popJob ℓ job rest).onConn ℓ c f).view c = { s.view c with
      state := w.conn.state_
      registered := w.conn.channel_.index_ != .kNew
      tied := w.conn.channel_.tied_
      heard := w.conn.connectionCallback_
      now := (if w.closing then [.finishClose] else []) ++ now
      later := (s.view c).later ++ w.queued.map .notice
      invoked := s.invoked c ++ w.invoked
      thrown := s.terminated || w.thrown
      destroys := (s.view c).destroys + if d = .destroy then 1 else 0
      deregisters := (s.view c).deregisters + if d = .deregister then 1 else 0 } := by
  obtain ⟨now, hnow, hpop⟩ := view_popJob_duty hwork hhome hd
  obtain ⟨-, hloop⟩ := home_of_dutyOf (s := s) hd
  have hpoller : ((s.popJob ℓ job rest).loops ℓ).poller = (s.loops ℓ).poller := by
    simp only [popJob, setLoop, Function.update_self]
  have hsite : f { conn := (s.popJob ℓ job rest).conns c,
                   poller := ((s.popJob ℓ job rest).loops ℓ).poller } = w := by
    rw [hpoller]
    exact hw
  refine ⟨now, hnow, ?_⟩
  rw [view_onConn (s.popJob ℓ job rest) f (hloop.symm.trans hhome.symm), hsite, hpop]
  rfl

theorem sim_connectEstablished (ht : s.terminated = false)
    (hwork : (s.loops ℓ).work = .connectEstablished c :: rest) (hℓ : ℓ = s.loopOf c) :
    Life.Step .quiet (s.view c)
      (((s.popJob ℓ (.connectEstablished c) rest).onConn ℓ c (Site.connectEstablished c)).view c) := by
  let w : Site ConnId := { conn := s.conns c, poller := (s.loops ℓ).poller }
  obtain ⟨hqueued, hclosing, hinvoked, hthrown⟩ := Site.connectEstablished_calls c w
  have hindex := bne_iff_ne.mpr (Site.registered_connectEstablished c w)
  obtain ⟨now, hnow, hview⟩ := view_popJob_onConn (c := c) (f := Site.connectEstablished c) hwork hℓ
    (if_pos rfl) rfl
  rw [hview, hqueued, hclosing, hinvoked, hthrown, hindex,
    Site.state_connectEstablished, Site.tied_connectEstablished, Site.heard_connectEstablished,
    List.map_nil, List.append_nil, ht]
  exact .establish hnow

theorem sim_connectDestroyed (ht : s.terminated = false)
    (hwork : (s.loops ℓ).work = .connectDestroyed c :: rest) (hℓ : ℓ = s.loopOf c) :
    Life.Step .leave (s.view c)
      ((((s.popJob ℓ (.connectDestroyed c) rest).onConn ℓ c (Site.leaveConnected c)).callNext ℓ
        (.removeChannel c)).view c) := by
  let w : Site ConnId := { conn := s.conns c, poller := (s.loops ℓ).poller }
  obtain ⟨now, hnow, hview⟩ := view_popJob_onConn (c := c) (f := Site.leaveConnected c) hwork hℓ
    (if_pos rfl) rfl
  have hduty : (Job.removeChannel c).dutyOf c = some .deregister := if_pos rfl
  rw [view_callNext _ fun _ => hℓ, hduty, hview]
  by_cases hconnected : (s.view c).state = .kConnected
  · obtain ⟨hqueued, hclosing, hinvoked, hthrown⟩ := Site.leaveConnected_calls c w hconnected
    have hindex := bne_iff_ne.mpr (Site.registered_leaveConnected c w hconnected)
    have hk := (Site.stable_keeps c w.conn).leaveConnected (Site.Keeps.refl w.conn)
    have hstate : (w.leaveConnected c).conn.state_ = .kDisconnected :=
      (Site.state_leaveConnected c w).trans (if_pos hconnected)
    rw [hqueued, hclosing, hinvoked, hthrown, hindex, hstate, hk.tied, hk.heard, List.map_nil,
      List.append_nil, ht]
    exact .leave hnow hconnected
  · have hw : w.leaveConnected c = w := if_neg hconnected
    have hqueued : w.queued.map Duty.notice = [] := rfl
    have hinvoked : w.invoked = [] := rfl
    have hthrown : w.thrown = false := rfl
    rw [hw, hqueued, hinvoked, hthrown, List.append_nil, List.append_nil, Bool.or_false]
    exact .leaveSilently hnow hconnected

theorem sim_removeChannel (hwork : (s.loops ℓ).work = .removeChannel c :: rest) (hℓ : ℓ = s.loopOf c) :
    Life.Step .quiet (s.view c)
      (((s.popJob ℓ (.removeChannel c) rest).onConn ℓ c (Site.channel .remove c)).view c) := by
  obtain ⟨now, hnow, hview⟩ := view_popJob_onConn (c := c) (f := Site.channel .remove c) hwork hℓ
    (if_pos rfl) rfl
  let w : Site ConnId := { conn := s.conns c, poller := (s.loops ℓ).poller }
  have hqueued : (w.channel .remove c).queued.map Duty.notice = [] := rfl
  have hinvoked : (w.channel .remove c).invoked = [] := rfl
  have hthrown : (w.channel .remove c).thrown = false := rfl
  rw [hview, hqueued, hinvoked, hthrown, List.append_nil, List.append_nil, Bool.or_false]
  exact .deregister hnow

theorem sim_closeCallback (hwork : (s.loops ℓ).work = .closeCallback c :: rest)
    (hℓ : ℓ = s.loopOf c) :
    Life.Step .quiet (s.view c)
      (((s.popJob ℓ (.closeCallback c) rest).removeConnection ℓ c).view c) := by
  obtain ⟨now, hnow, hpop⟩ := view_popJob_duty (c := c) hwork hℓ (if_pos rfl)
  have hduty : (Job.removeConnectionInLoop c).dutyOf c = none := if_pos rfl
  unfold removeConnection runInLoop
  split
  · rename_i hb
    rw [view_callNext _ fun _ => hb, hduty, hpop, if_pos rfl]
    exact .finishClose hnow
  · have hqueued : ((s.popJob ℓ (.closeCallback c) rest).queueInLoop
        (s.popJob ℓ (.closeCallback c) rest).config.loop_ (.removeConnectionInLoop c)).view c = _ :=
      view_queueInLoop _ fun _ => rfl
    rw [hqueued, hduty, hpop, if_pos rfl, Option.toList_none, List.append_nil]
    exact .finishClose hnow

theorem sim_removeConnectionInLoop (h : s.Wf) (hc : s.Born c)
    (hwork : (s.loops ℓ).work = .removeConnectionInLoop c :: rest) (hℓ : ℓ = s.config.loop_) :
    Life.Step .quiet (s.view c)
      (((s.popJob ℓ (.removeConnectionInLoop c) rest).removeConnectionInLoop c).view c) := by
  obtain ⟨n, hn, hpop⟩ := view_popJob_removal hwork hℓ
  have hduty : (Job.connectDestroyed c).dutyOf c = some .destroy := if_pos rfl
  have hwf := h.popJob hwork
  have hmap := view_eraseKey hwf c hc
  rw [hpop] at hmap
  have hgone : ((s.view c).mapped && decide (c ≠ c)) = false := by simp
  have hqueued : ((s.popJob ℓ (.removeConnectionInLoop c) rest).removeConnectionInLoop c).view c =
      _ := view_queueInLoop _ fun _ => rfl
  rw [hqueued, hduty, hmap, hgone]
  exact .remove hn

theorem sim_handle (h : s.Wf) (hc : s.Born c) (ht : s.terminated = false) {cb : ChannelCallback}
    (hwork : (s.loops ℓ).work = .handle cb c :: rest) (hℓ : ℓ = s.loopOf c) (read : ReadvResult)
    (write : WriteResult) :
    Life.Step (s.jobEvent read (.handle cb c)) (s.view c)
      (((s.popJob ℓ (.handle cb c) rest).onConn ℓ c (Site.callback c read write cb)).view c) := by
  let w : Site ConnId := { conn := s.conns c, poller := (s.loops ℓ).poller }
  obtain ⟨now, hnow, hview⟩ := view_popJob_onConn (c := c) (f := Site.callback c read write cb)
    hwork hℓ (if_pos rfl) rfl
  have hk := (Site.stable_keeps c w.conn).callback (Site.Keeps.refl w.conn) read write cb
  rw [hview, hk.tied, hk.heard]
  simp only [jobEvent]
  obtain ⟨hcl, b, hb⟩ | ⟨hdel, hcl, hstate, hch, hqueued, hclosing, hinvoked, hthrown⟩ |
    ⟨hcl, hdel, hs⟩ := Site.callback_cases c w read write cb
  · let v : Site ConnId := { w with conn := { w.conn with inputBuffer_ := b } }
    obtain ⟨hqueued, hclosing, hinvoked, hthrown⟩ := Site.handleClose_calls c v
    have hindex := bne_iff_ne.mpr (Site.registered_handleClose c v)
    have hcloser : v.conn.closeCallback_ = true := h.closers c hc
    rw [if_pos hcl, hb, hqueued, hclosing, hinvoked, hthrown, hindex, Site.state_handleClose,
      hcloser, List.map_nil, List.append_nil, Bool.or_false]
    exact .close hnow
  · rw [if_neg (ne_true_of_eq_false hcl), if_pos hdel, hstate, hch, hqueued, hclosing, hinvoked,
      hthrown, List.map_nil, List.append_nil, ht]
    exact .deliver w.conn.messageCallback_ hnow
  · rw [if_neg (ne_true_of_eq_false hcl), if_neg (ne_true_of_eq_false hdel), hs.state,
      hs.closing, hs.invoked, hs.thrown, List.append_nil, Bool.or_false]
    exact .handle _ _ hnow fun hr => registered_of_keeps hk hr

variable [Fintype L] [DecidableEq T]

omit [DecidableEq L] [Fintype L] [DecidableEq T] in
theorem Wf.fit_of_work (h : s.Wf) (hwork : (s.loops ℓ).work = job :: rest) : s.Fit ℓ job := by
  have hj : job ∈ (s.loops ℓ).agenda := by
    rw [Loop.agenda, hwork]
    exact List.mem_cons_self
  obtain ⟨hborn, hhome, hown⟩ := (h.tidy ℓ).placed job hj
  exact ⟨hborn, hhome, hown⟩

theorem sim_run (h : s.Wf) (ht : s.terminated = false) (hc : s.Born c) {read : ReadvResult}
    {write : WriteResult} (hs : s.act (.run ℓ read write) = some s') :
    Life.Step (s.event (.run ℓ read write) c) (s.view c) (s'.view c) := by
  obtain ⟨job, rest, hwork, rfl⟩ := act_run hs
  have hfit := h.fit_of_work hwork
  simp only [event, hwork]
  by_cases hj : job.conn = c
  · rw [if_pos hj]
    cases job with
    | connectEstablished c' =>
      obtain rfl := hj
      exact sim_connectEstablished ht hwork hfit.home
    | connectDestroyed c' =>
      obtain rfl := hj
      exact sim_connectDestroyed ht hwork hfit.home
    | removeChannel c' =>
      obtain rfl := hj
      exact sim_removeChannel hwork hfit.home
    | removeConnectionInLoop c' =>
      obtain rfl := hj
      exact sim_removeConnectionInLoop h hc hwork hfit.home
    | closeCallback c' =>
      obtain rfl := hj
      exact sim_closeCallback hwork hfit.home
    | handle cb c' =>
      obtain rfl := hj
      exact sim_handle h hc ht hwork hfit.home read write
    | notice n c' =>
      obtain rfl := hj
      obtain ⟨now, hnow, hpop⟩ := view_popJob_duty (c := c') hwork hfit.home (if_pos rfl)
      have hstep := Life.Step.notice hnow
      exact hpop ▸ hstep
    | sendInLoop | shutdownInLoop => cases hfit.own
  · rw [if_neg hj, ← view_popJob_of_ne hwork hj]
    exact sim_runJob_of_ne (h.popJob hwork) ht hfit.born hfit.own hj read write

end Jobs

end TcpServer

end Mymuduo

import Mymuduo.Poller.Bookkeeping
import Mymuduo.Server.Ownership

/-!
# A connection dies only after it is deregistered

A connection without owner is inert, so that its index is `kNew`, and the
records of its loop's poller, which agree with the channels of its connections,
hold nothing of it. The records agree because of two connections with one
descriptor at least one is inert: the kernel gives a descriptor away only when
its last connection has died.
-/

namespace Mymuduo

open Mymuduo.Library

universe u v

namespace TcpServer

variable {T : Type u} {L : Type v} {s s' t : TcpServer T L} {c : ConnId} {ℓ : L}

/-- The poller of a loop has the channels of its connections on record. -/
structure Recorded (s : TcpServer T L) (ℓ : L) : Prop where
  agrees : Agrees (fun c => s.Born c ∧ s.loopOf c = ℓ) (fun c => (s.conns c).channel_)
    (s.loops ℓ).poller
  quiet : Quiet (s.loops ℓ).poller

/-- Descriptors are as they were, and the records of `s'` agree. -/
structure Sited (s s' : TcpServer T L) : Prop where
  fd : ∀ c, s.Born c → (s'.conns c).channel_.fd_ = (s.conns c).channel_.fd_
  recorded : ∀ ℓ, s'.Recorded ℓ
  safe : s'.dangling = s.dangling

/-- No channel has been operated; channels that are on no record may join. -/
structure SameSites (s s' : TcpServer T L) : Prop where
  born : ∀ c, s.Born c → s'.Born c ∧ s'.loopOf c = s.loopOf c ∧
    ∃ v, (s'.conns c).channel_ = { (s.conns c).channel_ with revents_ := v }
  unborn : ∀ c, s'.Born c → ¬ s.Born c → (s'.conns c).channel_.index_ = .kNew
  poller : ∀ ℓ, (s'.loops ℓ).poller = (s.loops ℓ).poller
  safe : s'.dangling = s.dangling

theorem SameSites.sited (h : SameSites s s') (hrec : ∀ ℓ, s.Recorded ℓ) : Sited s s' := by
  refine ⟨fun c hc => ?_, fun ℓ => ⟨?_, ?_⟩, h.safe⟩
  · obtain ⟨-, -, v, hv⟩ := h.born c hc
    rw [hv]
  · refine (hrec ℓ).agrees.congr (fun c hc => ?_) (fun c hc hn => ?_) ?_ ?_
    · obtain ⟨hb, hloop, v, hv⟩ := h.born c hc.1
      refine ⟨⟨hb, hloop.trans hc.2⟩, ?_, ?_, ?_⟩ <;> rw [hv]
    · refine h.unborn c hc.1 fun hb => hn ⟨hb, ?_⟩
      exact (h.born c hb).2.1.symm.trans hc.2
    · rw [h.poller]
    · rw [h.poller]
  · rw [h.poller]
    exact (hrec ℓ).quiet

/-- When the connections are as they were. -/
theorem SameSites.of_eq (hid : s'.nextConnId_ = s.nextConnId_) (hloop : s'.loopOf = s.loopOf)
    (hconns : s'.conns = s.conns) (hsafe : s'.dangling = s.dangling)
    (hpoller : ∀ ℓ, (s'.loops ℓ).poller = (s.loops ℓ).poller) : SameSites s s' := by
  have hborn : ∀ c, s'.Born c ↔ s.Born c := fun c => by rw [Born, Born, hid]
  refine ⟨fun c hc => ⟨(hborn c).mpr hc, by rw [hloop], _, by rw [hconns]⟩, fun c hc hn => ?_,
    hpoller, hsafe⟩
  exact absurd ((hborn c).mp hc) hn

theorem SameSites.refl (s : TcpServer T L) : SameSites s s := .of_eq rfl rfl rfl rfl fun _ => rfl

/-- An operation of a connection's channel, then none. -/
theorem Sited.trans_same (h : Sited s t) (h' : SameSites t s') (hb : ∀ c, s.Born c → t.Born c) :
    Sited s s' := by
  have hsame := h'.sited h.recorded
  exact ⟨fun c hc => (hsame.fd c (hb c hc)).trans (h.fd c hc), hsame.recorded,
    hsame.safe.trans h.safe⟩

/-- No operation of a channel, then one. -/
theorem SameSites.trans_sited (h : SameSites s t) (hrec : ∀ ℓ, s.Recorded ℓ) (h' : Sited t s') :
    Sited s s' :=
  ⟨fun c hc => (h'.fd c (h.born c hc).1).trans ((h.sited hrec).fd c hc), h'.recorded,
    h'.safe.trans h.safe⟩

section Sites

variable [DecidableEq L]

theorem sameSites_setLoop {l : Loop} (h : l.poller = (s.loops ℓ).poller) :
    SameSites s (s.setLoop ℓ l) := by
  refine .of_eq rfl rfl rfl rfl fun ℓ' => ?_
  simp only [setLoop, Function.update_apply]
  split
  · rename_i he
    rw [he, h]
  · rfl

theorem sited_setLoop (hrec : ∀ ℓ, s.Recorded ℓ) {l : Loop} (h : l.poller = (s.loops ℓ).poller) :
    Sited s (s.setLoop ℓ l) :=
  (sameSites_setLoop h).sited hrec

theorem sameSites_runInLoop (s : TcpServer T L) (ℓ ℓ' : L) (job : Job) :
    SameSites s (s.runInLoop ℓ ℓ' job) := by
  unfold runInLoop
  split
  · exact sameSites_setLoop rfl
  · exact sameSites_setLoop rfl

/-- Connection `c` and the poller of its loop, on record as long as the other
channels stay as they are. -/
structure Filed (s : TcpServer T L) (ℓ : L) (c : ConnId) (conn : TcpConnection)
    (p : EPollPoller ConnId) : Prop where
  fd : conn.channel_.fd_ = (s.conns c).channel_.fd_
  agrees : Agrees (fun c => s.Born c ∧ s.loopOf c = ℓ)
    (Function.update (fun c => (s.conns c).channel_) c conn.channel_) p
  quiet : Quiet p

omit [DecidableEq L] in
theorem Recorded.filed (h : s.Recorded ℓ) {conn : TcpConnection}
    (hch : conn.channel_ = (s.conns c).channel_) : s.Filed ℓ c conn (s.loops ℓ).poller := by
  refine ⟨by rw [hch], ?_, h.quiet⟩
  rw [hch, Function.update_eq_self]
  exact h.agrees

/-- No other registered connection of the loop has the descriptor of `c`. -/
def Lone (s : TcpServer T L) (ℓ : L) (c : ConnId) : Prop :=
  Alone (fun c => s.Born c ∧ s.loopOf c = ℓ) (fun c => (s.conns c).channel_) c

omit [DecidableEq L] in
theorem Filed.op {conn : TcpConnection} {p : EPollPoller ConnId} (h : s.Filed ℓ c conn p)
    (hc : s.Born c ∧ s.loopOf c = ℓ) (ha : s.Lone ℓ c) (op : ChannelOp) :
    s.Filed ℓ c { conn with channel_ := (op.run c conn.channel_ p).1 }
      (op.run c conn.channel_ p).2 := by
  have halone : Alone (fun c => s.Born c ∧ s.loopOf c = ℓ)
      (Function.update (fun c => (s.conns c).channel_) c conn.channel_) c := by
    intro c' hon hreg hfd
    by_contra hne
    rw [Function.update_self] at hfd
    rw [Function.update_of_ne hne] at hreg hfd
    exact hne (ha c' hon hreg (hfd.trans h.fd))
  obtain ⟨hagrees, hquiet⟩ := h.agrees.run h.quiet hc halone op
  rw [Function.update_self, Function.update_idem] at hagrees
  rw [Function.update_self] at hquiet
  exact ⟨(ChannelOp.run_fd c conn.channel_ p op).trans h.fd, hagrees, hquiet⟩

omit [DecidableEq L] in
theorem stable_filed (hc : s.Born c ∧ s.loopOf c = ℓ) (ha : s.Lone ℓ c) :
    Site.Stable c (s.Filed ℓ c) where
  op op _ _ _ h := h.op hc ha op
  rest h hch _ _ _ := ⟨by rw [hch]; exact h.fd, by rw [hch]; exact h.agrees, h.quiet⟩

omit [DecidableEq L] in
theorem Filed.tie {conn : TcpConnection} {p : EPollPoller ConnId} (h : s.Filed ℓ c conn p) :
    s.Filed ℓ c { conn with channel_.tied_ := true } p := by
  refine ⟨h.fd, h.agrees.congr (fun c' hc' => ⟨hc', ?_⟩) (fun _ hc' hn => absurd hc' hn) rfl rfl,
    h.quiet⟩
  by_cases he : c' = c
  · subst he
    simp
  · simp [Function.update_of_ne he]

/-- A method of a connection keeps its own loop's records, and no other loop
has it on record. -/
theorem sited_onConn (hrec : ∀ ℓ, s.Recorded ℓ) (hℓ : s.loopOf c = ℓ)
    {f : Site ConnId → Site ConnId}
    (hf : s.Filed ℓ c (f { conn := s.conns c, poller := (s.loops ℓ).poller }).conn
      (f { conn := s.conns c, poller := (s.loops ℓ).poller }).poller) :
    Sited s (s.onConn ℓ c f) := by
  set w := f { conn := s.conns c, poller := (s.loops ℓ).poller }
  have hconns : (fun c' => ((s.onConn ℓ c f).conns c').channel_) =
      Function.update (fun c' => (s.conns c').channel_) c w.conn.channel_ := by
    funext c'
    simp only [onConn, Function.update_apply]
    split <;> rfl
  refine ⟨fun c' hc' => ?_, fun ℓ' => ?_, rfl⟩
  · rw [congrFun hconns c', Function.update_apply]
    split
    · rename_i he
      rw [he]
      exact hf.fd
    · rfl
  · by_cases he : ℓ' = ℓ
    · subst he
      have hpoller : ((s.onConn ℓ' c f).loops ℓ').poller = w.poller := by
        simp only [onConn, Function.update_self, w]
      refine ⟨?_, hpoller ▸ hf.quiet⟩
      rw [hconns, hpoller]
      exact hf.agrees
    · have hpoller : ((s.onConn ℓ c f).loops ℓ').poller = (s.loops ℓ').poller := by
        simp only [onConn, Function.update_of_ne he]
      refine ⟨?_, hpoller ▸ (hrec ℓ').quiet⟩
      rw [hconns, hpoller]
      refine (hrec ℓ').agrees.congr (fun c' hc' => ⟨hc', ?_⟩) (fun _ hc' hn => absurd hc' hn) rfl rfl
      have hne : c' ≠ c := fun hcc => he (hc'.2.symm.trans (hcc ▸ hℓ))
      rw [Function.update_of_ne hne]
      exact ⟨rfl, rfl, rfl⟩

/-! ## Every action -/

/-- Of two connections with one descriptor at least one is inert. -/
def Apart (s : TcpServer T L) : Prop :=
  ∀ c c', s.Born c → s.Born c' → c ≠ c' → (s.conns c).channel_.fd_ = (s.conns c').channel_.fd_ →
    (s.view c).Inert ∨ (s.view c').Inert

theorem Apart.lone (h : s.Apart) (hc : s.Born c) (hn : ¬ (s.view c).Inert) (ℓ : L) :
    s.Lone ℓ c := by
  intro c' hon hreg hfd
  by_contra hne
  obtain hi | hi := h c' c hon.1 hc hne hfd
  · have hregistered : (s.view c').registered = true := bne_iff_ne.mpr hreg
    rw [hi.registered] at hregistered
    cases hregistered
  · exact hn hi

/-- A job that stands on a loop keeps its connection from being inert. -/
theorem not_inert_of_work {job : Job} {rest : List Job} (hwork : (s.loops ℓ).work = job :: rest)
    (hj : s.Fit ℓ job) : ¬ (s.view job.conn).Inert := by
  intro hi
  have hduty : ∀ d, job.dutyOf job.conn = some d → False := fun d hd => by
    obtain ⟨now, hnow, -⟩ := view_popJob_duty hwork hj.home hd
    have hnone := hi.duties
    rw [Life.duties, hnow] at hnone
    cases hnone
  cases job with
  | removeConnectionInLoop c =>
    obtain ⟨n, hn, -⟩ := view_popJob_removal hwork hj.home
    have hnone := hi.removals
    rw [Job.conn, hn] at hnone
    cases hnone
  | sendInLoop | shutdownInLoop => cases hj.own
  | _ => exact hduty _ (if_pos rfl)

theorem sited_runJob {job : Job} (hrec : ∀ ℓ, s.Recorded ℓ) (hj : s.Fit ℓ job)
    (ha : s.Lone ℓ job.conn) (read : ReadvResult) (write : WriteResult) :
    Sited s (s.runJob ℓ read write job) := by
  have hfiled : s.Filed ℓ job.conn (s.conns job.conn) (s.loops ℓ).poller := (hrec ℓ).filed rfl
  cases job with
  | connectEstablished c =>
    have hstable := stable_filed ⟨hj.born, hj.home.symm⟩ ha
    exact sited_onConn hrec hj.home.symm (hstable.connectEstablished Filed.tie hfiled)
  | connectDestroyed c =>
    have hstable := stable_filed ⟨hj.born, hj.home.symm⟩ ha
    exact (sited_onConn hrec hj.home.symm (hstable.leaveConnected hfiled)).trans_same
      (sameSites_setLoop rfl) fun _ hb => hb
  | removeChannel c =>
    exact sited_onConn hrec hj.home.symm (hfiled.op ⟨hj.born, hj.home.symm⟩ ha .remove)
  | removeConnectionInLoop c =>
    have herase : SameSites s
        { s with connections_ := s.connections_.eraseKey (s.conns c).name_ } :=
      .of_eq rfl rfl rfl rfl fun _ => rfl
    exact (herase.sited hrec).trans_same (sameSites_setLoop rfl) fun _ hb => hb
  | closeCallback c => exact (sameSites_runInLoop s _ _ _).sited hrec
  | handle cb c =>
    have hstable := stable_filed ⟨hj.born, hj.home.symm⟩ ha
    exact sited_onConn hrec hj.home.symm (hstable.callback hfiled read write cb)
  | notice n c => exact (SameSites.refl s).sited hrec
  | sendInLoop | shutdownInLoop => cases hj.own

variable [Fintype L]

omit [Fintype L] in
theorem not_inert_of_open (hheld : (s.view c).Held) (h : (s.conns c).state_ = .kConnected) :
    ¬ (s.view c).Inert := by
  intro hi
  have hmapped := hheld.mapped (h.trans_ne (by decide))
  rw [hi.mapped] at hmapped
  cases hmapped

/-- User code operates the channel of an established connection only. -/
theorem sited_userCall (hheld : ∀ c, s.Born c → (s.view c).Held) (hrec : ∀ ℓ, s.Recorded ℓ)
    (hapart : s.Apart) {f : Site ConnId → Site ConnId} (hs : s.userCall c f = some s')
    (hclosed : ∀ w, w.conn.state_ ≠ .kConnected → f w = w)
    (hf : Site.Stable c (s.Filed (s.loopOf c) c) → ∀ w, s.Filed (s.loopOf c) c w.conn w.poller →
      s.Filed (s.loopOf c) c (f w).conn (f w).poller) : Sited s s' := by
  obtain ⟨hc, -, rfl⟩ := userCall_eq hs
  have hfiled : s.Filed (s.loopOf c) c (s.conns c) (s.loops (s.loopOf c)).poller :=
    (hrec _).filed rfl
  refine sited_onConn hrec rfl ?_
  by_cases hopen : (s.conns c).state_ = .kConnected
  · have hlone := hapart.lone hc (not_inert_of_open (hheld c hc) hopen) (s.loopOf c)
    exact hf (stable_filed ⟨hc, rfl⟩ hlone) _ hfiled
  · rw [hclosed _ hopen]
    exact hfiled

omit [Fintype L] [DecidableEq L] in
/-- A new connection is on no record. -/
theorem sameSites_addConnection (h : s.Wf) (ioLoop : L) (sockfd : Int) :
    SameSites s (s.addConnection ioLoop sockfd) := by
  have hborn := born_addConnection h.named ioLoop sockfd
  refine ⟨fun c hc => ⟨(hborn c).mpr (.inl hc), ?_, ?_⟩, fun c hc hn => ?_, fun _ => rfl,
    rfl⟩
  · rw [addConnection_loopOf, if_neg (ne_next hc)]
  · rw [addConnection_conns, if_neg (ne_next hc)]
    exact ⟨_, rfl⟩
  · obtain rfl := ((hborn c).mp hc).resolve_left hn
    rw [addConnection_conns, if_pos rfl]
    rfl

/-- No channel of a connection without owner is active. -/
theorem not_active_of_useCount (h : s.Wf)
    (hheld : ∀ c, s.Born c → (s.view c).Held) (hzero : s.useCount c = 0) (ℓ : L) :
    c ∉ (s.loops ℓ).activeChannels_ := by
  intro hm
  obtain ⟨hc, rfl⟩ := (h.tidy ℓ).active c hm
  have hactive : (s.view c).active = true := decide_eq_true hm
  rw [(inert_of_useCount (hheld c hc) hzero).active] at hactive
  cases hactive

omit [Fintype L] in
theorem newConnection_fd (s : TcpServer T L) (ioLoop : L) (sockfd : Int) :
    ((s.newConnection ioLoop sockfd).conns s.nextConnId_).channel_.fd_ = sockfd := by
  have hconn := s.addConnection_conns ioLoop sockfd s.nextConnId_
  rw [if_pos rfl] at hconn
  unfold newConnection runInLoop
  split <;> exact congrArg (fun x : TcpConnection => x.channel_.fd_) hconn

/-- No action changes a descriptor, and each keeps the records. -/
theorem sited_act [DecidableEq T] (h : s.Wf) (hheld : ∀ c, s.Born c → (s.view c).Held)
    (hrec : ∀ ℓ, s.Recorded ℓ) (hapart : s.Apart) {a : Action T L} (ha : a.own = true)
    (hs : s.act a = some s') : Sited s s' := by
  cases a with
  | poll ℓ reports =>
    obtain ⟨-, -, -, -, rfl⟩ := act_poll hs
    have hset : SameSites s (s.setLoop ℓ { s.loops ℓ with phase := .handling (reports.map (·.1)) }) :=
      sameSites_setLoop rfl
    refine SameSites.sited ⟨fun c hc => ⟨hc, rfl, ?_⟩, fun c hc hn => absurd hc hn, hset.poller, rfl⟩
      hrec
    obtain ⟨v, hv⟩ := setRevents_eq reports s.conns c
    exact ⟨v, congrArg TcpConnection.channel_ hv⟩
  | dispatch ℓ =>
    obtain ⟨c, rest, hphase, -, ⟨hzero, -⟩ | ⟨-, rfl⟩⟩ := dispatch_cases hs
    · -- an active channel is registered, hence owned
      have hm : c ∈ (s.loops ℓ).activeChannels_ := by
        rw [Loop.activeChannels_, hphase]
        exact List.mem_cons_self
      exact absurd hm (not_active_of_useCount h hheld hzero ℓ)
    · exact sited_setLoop hrec rfl
  | release ℓ | swap ℓ | finish ℓ =>
    simp only [act, Option.ite_none_right_eq_some, Option.some.injEq] at hs
    obtain ⟨-, rfl⟩ := hs
    exact sited_setLoop hrec rfl
  | start ℓ =>
    obtain ⟨-, -, _, _, -, rfl⟩ := act_start hs
    exact sited_setLoop hrec rfl
  | run ℓ read write =>
    obtain ⟨job, rest, hwork, rfl⟩ := act_run hs
    have hfit := h.fit_of_work hwork
    have hlone := hapart.lone hfit.born (not_inert_of_work hwork hfit) ℓ
    have hset : SameSites s (s.setLoop ℓ { s.loops ℓ with work := rest }) := sameSites_setLoop rfl
    have hpop : SameSites s (s.popJob ℓ job rest) := .of_eq rfl rfl rfl rfl hset.poller
    have hfit' : (s.popJob ℓ job rest).Fit ℓ job :=
      ⟨hfit.born, by rw [hfit.home]; cases job <;> rfl, hfit.own⟩
    exact hpop.trans_sited hrec (sited_runJob (hpop.sited hrec).recorded hfit' hlone read write)
  | newConnection ioLoop sockfd =>
    obtain ⟨-, -, -, rfl⟩ := act_newConnection hs
    have hadd := sameSites_addConnection h ioLoop sockfd
    exact (hadd.sited hrec).trans_same (sameSites_runInLoop _ _ _ _) fun c hc => (hadd.born c hc).1
  | destroyItem key c =>
    obtain ⟨-, -, -, rfl⟩ := act_destroyItem hs
    have herase : SameSites s { s with connections_ := s.connections_.erase (key, c) } :=
      .of_eq rfl rfl rfl rfl fun _ => rfl
    exact (herase.sited hrec).trans_same (sameSites_runInLoop _ _ _ _) fun _ hc => hc
  | destroy | destroyEnd | keep =>
    simp only [act, Option.ite_none_right_eq_some, Option.some.injEq] at hs
    obtain ⟨-, rfl⟩ := hs
    exact SameSites.sited (.of_eq rfl rfl rfl rfl fun _ => rfl) hrec
  | drop c =>
    obtain rfl := act_drop hs
    exact SameSites.sited (.of_eq rfl rfl rfl rfl fun _ => rfl) hrec
  | send c data r =>
    exact sited_userCall hheld hrec hapart hs (fun w hw => if_neg hw) fun hst w hw =>
      hst.send hw data r
  | shutdown c =>
    exact sited_userCall hheld hrec hapart hs (fun w hw => if_neg hw) fun hst w hw =>
      hst.shutdown hw
  | setHighWaterMarkCallback c n =>
    obtain ⟨-, -, rfl⟩ := userCall_eq hs
    exact sited_onConn hrec rfl ((hrec _).filed rfl)
  | testSend | enqueueSend | testShutdown | storeDisconnecting | enqueueShutdown => cases ha

/-! ## Runs -/

structure Owned (s : TcpServer T L) : Prop where
  wf : s.Wf
  held : ∀ c, s.Born c → (s.view c).Held
  recorded : ∀ ℓ, s.Recorded ℓ
  apart : s.Apart
  safe : s.dangling = false

omit [Fintype L] in
theorem owned_fresh (config : Config L) : (fresh config : TcpServer T L).Owned := by
  have hnone : ∀ c, ¬ (fresh config : TcpServer T L).Born c := fun c hc =>
    absurd hc.2 (Nat.not_lt.mpr hc.1)
  exact ⟨wf_fresh config, fun c hc => absurd hc (hnone c),
    fun ℓ => ⟨⟨fun fd c => ⟨nofun, fun h => absurd h.1.1 (hnone c)⟩,
      fun fd c ev => ⟨nofun, fun h => absurd h.1.1 (hnone c)⟩⟩, ⟨fun _ _ => rfl, rfl, nofun⟩⟩,
    fun c _ hc => absurd hc (hnone c), rfl⟩

/-- The loops go on, the server lives on, and user code calls `send` and
`shutdown` on the connection's loop. -/
def Action.spared : Action T L → Bool
  | .destroy => false
  | a => a.own

omit [Fintype L] [DecidableEq L] in
theorem Action.own_of_spared {a : Action T L} (h : a.spared = true) : a.own = true ∧ a ≠ .destroy := by
  cases a <;> first | exact ⟨h, nofun⟩ | cases h

omit [Fintype L] [DecidableEq L] in
theorem jobEvent_ne_destroy (s : TcpServer T L) (read : ReadvResult) (job : Job) :
    s.jobEvent read job ≠ .destroy := by
  cases job with
  | handle cb c =>
    simp only [jobEvent]
    split
    · decide
    · split <;> decide
  | _ => simp [jobEvent]

omit [DecidableEq L] in
theorem event_ne_destroy {a : Action T L} (h : a ≠ .destroy) (c : ConnId) :
    s.event a c ≠ .destroy := by
  cases a with
  | destroy => exact absurd rfl h
  | run ℓ read write =>
    simp only [event]
    split
    · split
      · exact jobEvent_ne_destroy _ _ _
      · decide
    · decide
  | dispatch ℓ =>
    simp only [event]
    split
    · split <;> decide
    · decide
  | _ => simp [event]

variable [DecidableEq T]

/-- A descriptor that is free belongs to inert connections only. -/
theorem apart_act (h : s.Owned) (ht : s.terminated = false) {a : Action T L} (ha : a.own = true)
    (hs : s.act a = some s') (hsited : Sited s s') : s'.Apart := by
  have hinert : ∀ c, s.Born c → (s.view c).Inert → (s'.view c).Inert := fun c hc hi =>
    (h.held c hc).inert_step hi (sim_act h.wf ht ha hs hc)
  have hnew : ∀ c c', s.Born c → s'.Born c' → ¬ s.Born c' →
      (s'.conns c).channel_.fd_ = (s'.conns c').channel_.fd_ → (s'.view c).Inert := by
    intro c c' hc hc' hn hfd
    refine hinert c hc (inert_of_useCount (h.held c hc) ?_)
    obtain ⟨ioLoop, sockfd, rfl, rfl, -, hfree⟩ := newborn h.wf hs hc' hn
    by_contra hu
    refine of_decide_eq_true hfree c hc.2 hc.1 hu ?_
    rw [← hsited.fd c hc, hfd, newConnection_fd]
  intro c c' hc hc' hne hfd
  by_cases hb : s.Born c
  · by_cases hb' : s.Born c'
    · rw [hsited.fd c hb, hsited.fd c' hb'] at hfd
      exact (h.apart c c' hb hb' hne hfd).imp (hinert c hb) (hinert c' hb')
    · exact .inl (hnew c c' hb hc' hb' hfd)
  · by_cases hb' : s.Born c'
    · exact .inr (hnew c' c hb' hc hb hfd.symm)
    · obtain ⟨-, -, -, hcn, -⟩ := newborn h.wf hs hc hb
      obtain ⟨-, -, -, hcn', -⟩ := newborn h.wf hs hc' hb'
      exact absurd (hcn.trans hcn'.symm) hne

theorem owned_act (h : s.Owned) (ht : s.terminated = false) {a : Action T L}
    (ha : a.spared = true) (hs : s.act a = some s') : s'.Owned := by
  obtain ⟨hown, hne⟩ := Action.own_of_spared ha
  have hsited := sited_act h.wf h.held h.recorded h.apart hown hs
  refine ⟨h.wf.act hown hs, fun c hc => ?_, hsited.recorded, apart_act h ht hown hs hsited,
    hsited.safe.trans h.safe⟩
  by_cases hb : s.Born c
  · exact (h.held c hb).step (event_ne_destroy hne c) (sim_act h.wf ht hown hs hb)
  · exact .of_new (new_act h.wf hs hc hb)

/-- As long as the server and its loops live on, a connection that nobody holds
has index `kNew` and is on no poller's record and among no loop's active
channels, and no event is dispatched to a dead channel. -/
theorem deregistered_before_death (config : Config L) (as : List (Action T L))
    {s : TcpServer T L} (has : ∀ a ∈ as, a.spared = true)
    (hr : Execution.exec step (fresh config) as = some s) :
    s.dangling = false ∧ ∀ c, s.Born c → s.useCount c = 0 →
      (s.conns c).channel_.index_ = .kNew ∧ ∀ ℓ, c ∉ (s.loops ℓ).activeChannels_ ∧
        (∀ fd, (s.loops ℓ).poller.channels_ fd ≠ some c) ∧
        ∀ fd ev, (s.loops ℓ).poller.epoll fd ≠ some (c, ev) := by
  have howned : s.Owned := by
    refine Execution.exec_invariant Owned (fun s a s' h ha hs => ?_) (owned_fresh config)
      (Execution.guarded_of_forall has (fresh config)) hr
    obtain ⟨hterm, -, hact⟩ := step_eq hs
    exact owned_act h hterm ha hact
  refine ⟨howned.safe, fun c hc hzero => ?_⟩
  have hinert := inert_of_useCount (howned.held c hc) hzero
  have hindex : (s.conns c).channel_.index_ = .kNew := by
    simpa [view] using hinert.registered
  refine ⟨hindex, fun ℓ => ⟨not_active_of_useCount howned.wf howned.held hzero ℓ, fun fd hm => ?_,
    fun fd ev hm => ?_⟩⟩
  · exact (((howned.recorded ℓ).agrees.map_iff fd c).mp hm).2.2 hindex
  · have hadded := (((howned.recorded ℓ).agrees.epoll_iff fd c ev).mp hm).2.2.1
    rw [hindex] at hadded
    cases hadded

/-- The peer closes a connection of which the user keeps a pointer; the pointer
is dropped last. -/
theorem deregistered_before_death_close :
    let run (ℓ : Bool) : Action Unit Bool := .run ℓ (.delivered []) (.took 0)
    let as : List (Action Unit Bool) := [.poll false [], .newConnection true 7,
      .poll true [], .swap true, .start true, run true, .keep 1, .finish true,
      .poll true [(1, POLLIN)], .dispatch true, run true, run true, .release true, .swap true,
      .finish true, .swap false, .start false, run false, .finish false,
      .poll true [], .swap true, .start true, run true, run true, .finish true, .drop 1]
    ∃ s, Execution.exec step pair as = some s ∧ s.useCount 1 = 0 ∧ s.dangling = false ∧
      (s.conns 1).channel_.index_ = .kNew := by
  intro run as
  have hrun : (Execution.exec step pair as).map (fun s =>
      decide (s.Born 1 ∧ s.useCount 1 = 0)) = some true := by
    decide +kernel
  obtain ⟨s, hs, hb⟩ := Option.map_eq_some_iff.mp hrun
  obtain ⟨hborn, hzero⟩ := of_decide_eq_true hb
  obtain ⟨hsafe, hdead⟩ := deregistered_before_death _ as (by decide) hs
  exact ⟨s, hs, hzero, hsafe, (hdead 1 hborn hzero).1⟩

end Sites

end TcpServer

end Mymuduo

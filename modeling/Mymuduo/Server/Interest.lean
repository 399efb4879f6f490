import Mymuduo.Poller.Unwatched
import Mymuduo.Server.Moves
import Mymuduo.Server.Streams

/-!
# The interest list is what the connections wait for

An open connection is always watched for bytes from the peer, and for room to
write exactly while its output buffer holds something: so neither what the peer
sends nor what is left to be sent can be forgotten. The mask is changed by the
methods and the kernel's entry by the poller; the entry follows because no
operation on an open connection empties the mask.
-/

namespace Mymuduo

open Mymuduo.Library Mymuduo.Connection

universe u v

namespace Channel

/-- Added, and enabled for reads, with or without writes. -/
structure Listens (channel : Channel) : Prop where
  index : channel.index_ = .kAdded
  mask : channel.events_ = kReadEvent ∨ channel.events_ = kReadEvent ||| kWriteEvent

variable {κ : Type u} {self : κ} {channel : Channel} {p : EPollPoller κ}

/-- An operation that does not end the interest in reads. -/
theorem Listens.run (h : channel.Listens) {op : ChannelOp}
    (hop : op = .enableReading ∨ op = .enableWriting ∨ op = .disableWriting) :
    (op.run self channel p).1.Listens := by
  have hmask : op.mask channel.events_ = kReadEvent ∨
      op.mask channel.events_ = kReadEvent ||| kWriteEvent := by
    rcases hop with rfl | rfl | rfl <;> rcases h.mask with he | he <;> rw [he] <;> decide
  have hsome : op.mask channel.events_ ≠ 0 := by
    rcases hmask with he | he <;> rw [he] <;> decide
  have hkept : op ≠ .remove := by rcases hop with rfl | rfl | rfl <;> decide
  refine ⟨?_, by rw [ChannelOp.run_events]; exact hmask⟩
  rw [ChannelOp.index_run hkept, if_neg fun he => hsome he.2]

/-- A channel that is not on record begins to listen with `enableReading`. -/
theorem listens_enableReading (hindex : channel.index_ = .kNew)
    (hmask : channel.events_ = kNoneEvent) :
    (ChannelOp.enableReading.run self channel p).1.Listens := by
  refine ⟨?_, .inl ?_⟩
  · rw [ChannelOp.index_run (by decide), if_neg]
    rintro ⟨hadded, -⟩
    rw [hindex] at hadded
    cases hadded
  · rw [ChannelOp.run_events, hmask]
    decide

end Channel

/-- The interest of a connection by its state. -/
structure TcpConnection.Attentive (conn : TcpConnection) : Prop where
  fresh : conn.state_ = .kConnecting →
    conn.channel_.index_ = .kNew ∧ conn.channel_.events_ = Channel.kNoneEvent
  listens : conn.state_ = .kConnected ∨ conn.state_ = .kDisconnecting → conn.channel_.Listens
  closed : conn.state_ = .kDisconnected → conn.channel_.events_ = Channel.kNoneEvent

/-- What the kernel is to report of an open connection. -/
def TcpConnection.wanted (conn : TcpConnection) : Events :=
  if conn.outputBuffer_.contents = [] then Channel.kReadEvent
  else Channel.kReadEvent ||| Channel.kWriteEvent

namespace TcpConnection.Attentive

theorem new (name : List Char) (sockfd : Int) (callbacks : Callbacks) :
    (TcpConnection.new name sockfd callbacks).Attentive where
  fresh _ := ⟨rfl, rfl⟩
  listens h := by rcases h with h | h <;> cases h
  closed := nofun

/-- The state, the index and the mask are all that matters. -/
theorem congr {conn conn' : TcpConnection} (h : conn.Attentive)
    (hstate : conn'.state_ = conn.state_) (hindex : conn'.channel_.index_ = conn.channel_.index_)
    (hmask : conn'.channel_.events_ = conn.channel_.events_) : conn'.Attentive := by
  refine ⟨fun hs => ?_, fun hs => ⟨?_, ?_⟩, fun hs => ?_⟩
  · rw [hindex, hmask]
    exact h.fresh (hstate.symm.trans hs)
  · rw [hindex]
    exact (h.listens (by rwa [hstate] at hs)).index
  · rw [hmask]
    exact (h.listens (by rwa [hstate] at hs)).mask
  · rw [hmask]
    exact h.closed (hstate.symm.trans hs)

theorem of_closed {conn : TcpConnection} (hs : conn.state_ = .kDisconnected)
    (hmask : conn.channel_.events_ = Channel.kNoneEvent) : conn.Attentive := by
  refine ⟨fun hc => ?_, fun hc => ?_, fun _ => hmask⟩
  · rw [hs] at hc
    cases hc
  · rw [hs] at hc
    rcases hc with hc | hc <;> cases hc

theorem of_open {conn : TcpConnection}
    (hs : conn.state_ = .kConnected ∨ conn.state_ = .kDisconnecting)
    (hch : conn.channel_.Listens) : conn.Attentive := by
  refine ⟨fun hc => ?_, fun _ => hch, fun hc => ?_⟩ <;>
  · rw [hc] at hs
    rcases hs with hs | hs <;> cases hs

end TcpConnection.Attentive

namespace Site

variable {κ : Type u} {w : Site κ} (self : κ)

theorem channel_run {v : Site κ} (hv : v.conn.channel_ = w.conn.channel_) {op : ChannelOp} :
    ∃ p, (v.channel op self).conn.channel_ = (op.run self w.conn.channel_ p).1 :=
  ⟨v.poller, by rw [← hv]; rfl⟩

/-- `sendInLoop` enables writing, or leaves the channel alone. -/
theorem channel_sendInLoop (msg : List Byte) (write : WriteResult) :
    (w.sendInLoop self msg write).conn.channel_ = w.conn.channel_ ∨
      ∃ p, (w.sendInLoop self msg write).conn.channel_ =
        (ChannelOp.enableWriting.run self w.conn.channel_ p).1 := by
  have hrest : ∀ (v : Site κ) rest, (v.bufferRest self rest).conn.channel_ = v.conn.channel_ ∨
      ∃ p, (v.bufferRest self rest).conn.channel_ =
        (ChannelOp.enableWriting.run self v.conn.channel_ p).1 := by
    intro v rest
    simp only [bufferRest]
    split
    · exact .inl (by simp)
    · exact .inr (channel_run self (by simp))
  have hdirect : (w.directWrite msg write).2.2.conn.channel_ = w.conn.channel_ := by
    simp only [directWrite]
    split
    · split <;> simp
    · rfl
  simp only [sendInLoop]
  split
  · exact .inl rfl
  · split
    · rw [← hdirect]
      exact hrest _ _
    · exact .inl hdirect

/-- `handleWrite` disables writing, or leaves the channel alone. -/
theorem channel_handleWrite (write : WriteResult) :
    (w.handleWrite self write).conn.channel_ = w.conn.channel_ ∨
      ∃ p, (w.handleWrite self write).conn.channel_ =
        (ChannelOp.disableWriting.run self w.conn.channel_ p).1 := by
  have hshut : ∀ v : Site κ, v.shutdownInLoop.conn.channel_ = v.conn.channel_ := fun v => by
    obtain ⟨b, hb⟩ := shutdownInLoop_conn v
    rw [hb]
  have hdrained : ∀ v : Site κ, (v.drained self).conn.channel_ =
      (ChannelOp.disableWriting.run self v.conn.channel_ v.poller).1 := by
    intro v
    simp only [drained]
    split
    · rw [hshut, queueIf_conn]
      rfl
    · rw [queueIf_conn]
      rfl
  simp only [handleWrite]
  split
  · split
    · split
      · exact .inr ⟨_, hdrained _⟩
      · exact .inl rfl
    · exact .inl rfl
  · exact .inl rfl

theorem attentive_connectEstablished (h : w.conn.Attentive) (hs : w.conn.state_ = .kConnecting) :
    (w.connectEstablished self).conn.Attentive := by
  obtain ⟨hindex, hmask⟩ := h.fresh hs
  refine .of_open (.inl (state_connectEstablished self w)) ?_
  simp only [connectEstablished, invoke_conn]
  exact Channel.listens_enableReading hindex hmask

theorem attentive_closed (v : Site κ) (hs : v.conn.state_ = .kDisconnected) :
    (v.channel .disableAll self).conn.Attentive :=
  .of_closed hs (ChannelOp.run_events self v.conn.channel_ v.poller .disableAll)

theorem attentive_leaveConnected (h : w.conn.Attentive) :
    (w.leaveConnected self).conn.Attentive := by
  simp only [leaveConnected]
  split
  · rw [invoke_conn]
    exact attentive_closed self _ rfl
  · exact h

theorem attentive_handleClose : (w.handleClose self).conn.Attentive := by
  simp only [handleClose, invokeIf_conn]
  exact attentive_closed self _ rfl

theorem attentive_handleRead (h : w.conn.Attentive) (read : ReadvResult) :
    (w.handleRead self read).conn.Attentive := by
  obtain ⟨-, he⟩ | ⟨-, he⟩ := handleRead_cases self (w := w) read
  · rw [he]
    exact attentive_handleClose self
  · rw [he]
    exact h.congr rfl rfl rfl

theorem attentive_handleWrite (h : w.conn.Attentive) (write : WriteResult)
    (hbegun : w.conn.state_ ≠ .kConnecting) : (w.handleWrite self write).conn.Attentive := by
  have hstate := (silent_handleWrite self write w).state
  obtain hch | ⟨p, hch⟩ := channel_handleWrite self (w := w) write
  · exact h.congr hstate (by rw [hch]) (by rw [hch])
  · cases hs : w.conn.state_ with
    | kConnecting => exact absurd hs hbegun
    | kConnected =>
      refine .of_open (.inl (hstate.trans hs)) ?_
      rw [hch]
      exact (h.listens (.inl hs)).run (.inr (.inr rfl))
    | kDisconnecting =>
      refine .of_open (.inr (hstate.trans hs)) ?_
      rw [hch]
      exact (h.listens (.inr hs)).run (.inr (.inr rfl))
    | kDisconnected =>
      refine .of_closed (hstate.trans hs) ?_
      rw [hch, ChannelOp.run_events, h.closed hs]
      decide

theorem attentive_callback (h : w.conn.Attentive) (hbegun : w.conn.state_ ≠ .kConnecting)
    (read : ReadvResult) (write : WriteResult) (cb : ChannelCallback) :
    (w.callback self read write cb).conn.Attentive := by
  cases cb with
  | closeCallback => exact attentive_handleClose self
  | errorCallback => exact h
  | readCallback => exact attentive_handleRead self h read
  | writeCallback => exact attentive_handleWrite self h write hbegun

theorem attentive_send (h : w.conn.Attentive) (msg : List Byte) (write : WriteResult) :
    (w.send self msg write).conn.Attentive := by
  have hstate := (silent_sendInLoop self msg write w).state
  unfold send
  split
  · rename_i hs
    obtain hch | ⟨p, hch⟩ := channel_sendInLoop self (w := w) msg write
    · exact h.congr hstate (by rw [hch]) (by rw [hch])
    · refine .of_open (.inl (hstate.trans hs)) ?_
      rw [hch]
      exact (h.listens (.inl hs)).run (.inr (.inl rfl))
  · exact h

theorem attentive_shutdown (h : w.conn.Attentive) : w.shutdown.conn.Attentive := by
  unfold shutdown
  split
  · rename_i hs
    obtain ⟨b, hb⟩ := shutdownInLoop_conn (w.setState .kDisconnecting)
    rw [hb]
    exact .of_open (.inr rfl) (h.listens (.inl hs))
  · exact h

end Site

theorem Move.attentive {κ : Type u} {self : κ} {conn conn' : TcpConnection}
    (hm : Move self conn conn') (h : conn.Attentive) : conn'.Attentive := by
  cases hm with
  | stay => exact h
  | reported revents => exact h.congr rfl rfl rfl
  | establish hw hs =>
    subst hw
    exact Site.attentive_connectEstablished self h hs
  | leave hw =>
    subst hw
    exact Site.attentive_leaveConnected self h
  | remove hw hs =>
    rename_i w
    subst hw
    refine .of_closed hs ?_
    show (ChannelOp.remove.run self w.conn.channel_ w.poller).1.events_ = _
    rw [ChannelOp.run_events]
    exact h.closed hs
  | callback hw hs read write cb =>
    subst hw
    exact Site.attentive_callback self h hs read write cb
  | send hw data r =>
    subst hw
    exact Site.attentive_send self h data r
  | shutdown hw =>
    subst hw
    exact Site.attentive_shutdown h
  | mark hw n =>
    subst hw
    exact h.congr rfl rfl rfl

namespace TcpServer

variable {T : Type u} {L : Type v} {s s' : TcpServer T L} {c : ConnId}

/-! ## Runs -/

section Runs

variable [Fintype L] [DecidableEq L] [DecidableEq T]

/-- Of two masks the one with write interest is the one for a buffer that holds something. -/
theorem events_eq_wanted {w : Site ConnId} (h : w.conn.Attentive) (hfeeding : Feeding w)
    (hopen : w.conn.state_ = .kConnected ∨ w.conn.state_ = .kDisconnecting) :
    w.conn.channel_.events_ = w.conn.wanted := by
  have hlive : w.conn.state_ ≠ .kDisconnected := by
    rcases hopen with hs | hs <;> rw [hs] <;> decide
  have hinterest := hfeeding.interest hlive
  unfold TcpConnection.wanted
  rcases (h.listens hopen).mask with he | he
  · have hnot : ¬ w.conn.channel_.isWriting = true := by rw [Channel.isWriting, he]; decide
    rw [if_pos (not_not.mp (mt hinterest.mpr hnot)), he]
  · have hwriting : w.conn.channel_.isWriting = true := by rw [Channel.isWriting, he]; decide
    rw [if_neg (hinterest.mp hwriting), he]

theorem attentive_exec (config : Config L) {as : List (Action T L)}
    (has : ∀ a ∈ as, a.spared = true) (hr : Execution.exec step (fresh config) as = some s) :
    s.Owned ∧ ∀ c, s.Born c → (s.conns c).Attentive := by
  refine Execution.exec_invariant (fun s => s.Owned ∧ ∀ c, s.Born c → (s.conns c).Attentive)
    (fun s a s' h ha hs => ?_) ⟨owned_fresh config, fun c hc => absurd hc.2 (Nat.not_lt.mpr hc.1)⟩
    (Execution.guarded_of_forall has (fresh config)) hr
  obtain ⟨howned, hattentive⟩ := h
  obtain ⟨hterm, -, hact⟩ := step_eq hs
  have hown := (Action.own_of_spared ha).1
  refine ⟨owned_act howned hterm ha hact, fun c hc => ?_⟩
  by_cases hb : s.Born c
  · exact (move_act howned.wf (howned.held c hb) hb hown hact).attentive (hattentive c hb)
  · obtain ⟨ioLoop, sockfd, rfl, rfl, rfl⟩ := accepted_act hact hc hb
    rw [newConnection_conns, if_pos rfl]
    exact .new _ _ _

/-- As long as the server lives and user code keeps to the connection's loop: an open connection
stands in the interest list of its own loop's poller, for reads and, exactly while its output
buffer holds something, for writes; and whatever entry a connection has, in any loop, is that one,
or an empty mask once the connection is closed. -/
theorem interest_exact (config : Config L) (as : List (Action T L))
    (has : ∀ a ∈ as, a.spared = true) (hr : Execution.exec step (fresh config) as = some s)
    (c : ConnId) :
    (s.Born c → (s.conns c).state_ = .kConnected ∨ (s.conns c).state_ = .kDisconnecting →
      (s.loops (s.loopOf c)).poller.epoll (s.conns c).channel_.fd_ =
        some (c, (s.conns c).wanted)) ∧
    ∀ ℓ fd ev, (s.loops ℓ).poller.epoll fd = some (c, ev) →
      s.Born c ∧ s.loopOf c = ℓ ∧ (s.conns c).channel_.fd_ = fd ∧
        (s.conns c).state_ ≠ .kConnecting ∧
        ev = if (s.conns c).state_ = .kDisconnected then Channel.kNoneEvent
          else (s.conns c).wanted := by
  obtain ⟨howned, hattentive⟩ := attentive_exec config has hr
  have htimely : Execution.Guarded step Timely (fresh config : TcpServer T L) as := by
    refine timely_of_forall (fun a ha t he => ?_) _
    have hspared := has a ha
    rw [he] at hspared
    cases hspared
  have hflows := (flows_fresh config).exec htimely hr
  refine ⟨fun hc hopen => ?_, fun ℓ fd ev he => ?_⟩
  · have hlistens := (hattentive c hc).listens hopen
    refine ((howned.recorded _).agrees.epoll_iff _ _ _).mpr ⟨⟨hc, rfl⟩, rfl, hlistens.index, ?_⟩
    exact events_eq_wanted (w := s.site c) (hattentive c hc) (hflows.feeding c hc) hopen
  · obtain ⟨⟨hc, hℓ⟩, hfd, hadded, rfl⟩ := ((howned.recorded ℓ).agrees.epoll_iff fd c ev).mp he
    have hnotFresh : (s.conns c).state_ ≠ .kConnecting := fun hs => by
      rw [((hattentive c hc).fresh hs).1] at hadded
      cases hadded
    refine ⟨hc, hℓ, hfd, hnotFresh, ?_⟩
    by_cases hs : (s.conns c).state_ = .kDisconnected
    · rw [if_pos hs]
      exact (hattentive c hc).closed hs
    · rw [if_neg hs]
      refine events_eq_wanted (w := s.site c) (hattentive c hc) (hflows.feeding c hc) ?_
      show (s.conns c).state_ = .kConnected ∨ (s.conns c).state_ = .kDisconnecting
      cases hstate : (s.conns c).state_ with
      | kConnecting => exact absurd hstate hnotFresh
      | kConnected => exact .inl rfl
      | kDisconnecting => exact .inr rfl
      | kDisconnected => exact absurd hstate hs

/-- A connection of which a part of the answer waits. -/
theorem interest_exact_waiting : ∃ s, Execution.exec step pair greeted = some s ∧
    (s.loops false).poller.epoll 7 = some (1, Channel.kReadEvent ||| Channel.kWriteEvent) := by
  have hrun : (Execution.exec step pair greeted).map (fun s => decide
      (s.Born 1 ∧ (s.conns 1).state_ = .kConnected ∧ (s.conns 1).channel_.fd_ = 7 ∧
        s.loopOf 1 = false ∧
        (s.conns 1).wanted = Channel.kReadEvent ||| Channel.kWriteEvent)) = some true := by
    decide +kernel
  obtain ⟨s, hs, hres⟩ := Option.map_eq_some_iff.mp hrun
  obtain ⟨hborn, hstate, hfd, hloop, hwanted⟩ := of_decide_eq_true hres
  have hentry := (interest_exact _ greeted (by decide) hs 1).1 hborn (.inl hstate)
  rw [hfd, hloop, hwanted] at hentry
  exact ⟨s, hs, hentry⟩

end Runs

end TcpServer

end Mymuduo

import Mathlib.Logic.Function.Basic
import Mymuduo.Library.Execution
import Mymuduo.Server.RoundRobin

/-!
# Starting the server and accepting

`TcpServer::start` may be called on any thread and more than once. The first call starts the pool
and then has `Acceptor::listen` run on the base loop; a later call returns at once, also while the
pool is still being started. The base loop accepts one connection for each event of the listening
descriptor and gives it to the next loop of the pool.
-/

namespace Mymuduo

open Mymuduo.Library

universe u

/-- What `accept4` returns. -/
inductive AcceptResult
  | accepted (connfd : Int)
  | failed (errno : Errno)
  deriving DecidableEq

/-- Where a thread stands in `TcpServer::start`. -/
inductive Starter
  | outside
  /-- in `threadPool_->start`, `i` threads started -/
  | starting (i : Nat)
  /-- before `loop_->runInLoop(... listen ...)` -/
  | submitting
  deriving DecidableEq

structure Acceptor where
  /-- the server sets one in its constructor -/
  newConnectionCallback_ : Bool
  listenning_ : Bool := false
  acceptChannel_ : Channel

structure Listening (T : Type u) where
  /-- the base loop's thread -/
  threadId_ : T
  threadInitCallback_ : Bool
  started_ : Nat := 0
  starter : T → Starter := fun _ => .outside
  /-- calls of `Acceptor::listen` queued on the base loop -/
  pending : Nat := 0
  acceptor_ : Acceptor
  poller : EPollPoller Unit := {}
  /-- the pool, and the server with the connections it has created -/
  dispatcher : Dispatcher
  /-- the peers that the kernel has connected and that wait for `accept` -/
  backlog : List InetAddress := []
  /-- history: calls of `Acceptor::listen` done -/
  listens : Nat := 0
  /-- history: the peers that the kernel has connected, and how many of them it has dropped -/
  arrived : List InetAddress := []
  aborted : Nat := 0
  /-- history: what `accept` has given, and the descriptors closed at once -/
  taken : List (Int × InetAddress) := []
  closed : List Int := []

namespace Listening

inductive Action (T : Type u)
  /-- a call of `TcpServer::start` -/
  | start (t : T)
  | startThread (t : T)
  /-- the end of `threadPool_->start` -/
  | startEnd (t : T)
  | submit (t : T)
  /-- the base loop runs the queued `listen` -/
  | runFunctor
  | arrive (peer : InetAddress)
  | abort (i : Nat)
  | handleRead (r : AcceptResult)

variable {T : Type u}

/-- The server after its constructor and `setThreadNum`, its listening socket created and bound. -/
def constructed (threadId_ : T) (config : Config LoopAddr) (numThreads : Int) (cb callback : Bool)
    (sockfd : Int) : Listening T where
  threadId_ := threadId_
  threadInitCallback_ := cb
  acceptor_ := { newConnectionCallback_ := callback, acceptChannel_ := { fd_ := sockfd } }
  dispatcher := {
    pool := ({} : EventLoopThreadPool).setThreadNum numThreads
    server := .fresh config }

def setPool (pool : EventLoopThreadPool) (s : Listening T) : Listening T :=
  { s with dispatcher := { s.dispatcher with pool := pool } }

/-- `Acceptor::listen` on the base loop. -/
def listen (s : Listening T) : Listening T :=
  let (channel, poller) := ChannelOp.enableReading.run () s.acceptor_.acceptChannel_ s.poller
  { s with
    acceptor_ := { s.acceptor_ with listenning_ := true, acceptChannel_ := channel }
    poller := poller
    listens := s.listens + 1 }

/-- The kernel reports the listening descriptor. -/
def watched (s : Listening T) : Bool :=
  match s.poller.epoll s.acceptor_.acceptChannel_.fd_ with
  | some (_, events) => events &&& Channel.kReadEvent != 0
  | none => false

/-- `Acceptor::handleRead`; none where `getNextLoop` reads outside `loops_` or `++nextConnId_` is
more than an `int` holds. -/
def handleRead (s : Listening T) (r : AcceptResult) : Option (Listening T) :=
  match r, s.backlog with
  | .accepted connfd, peer :: rest =>
    let s := { s with backlog := rest, taken := s.taken ++ [(connfd, peer)] }
    if s.acceptor_.newConnectionCallback_ then
      if s.dispatcher.server.nextConnId_ < 0x7fffffff then
        (s.dispatcher.step (.newConnection connfd)).map fun d => { s with dispatcher := d }
      else none
    else some { s with closed := s.closed ++ [connfd] }
  | .accepted _, [] => none
  | .failed _, _ => some s

section

variable [DecidableEq T]

def setStarter (t : T) (x : Starter) (s : Listening T) : Listening T :=
  { s with starter := Function.update s.starter t x }

/-- The base loop's thread is not in a call of `start`. -/
def looping (s : Listening T) : Bool := s.starter s.threadId_ = .outside

def step (s : Listening T) : Action T → Option (Listening T)
  | .start t =>
    -- `started_++` must not come round to zero
    if s.starter t = .outside ∧ s.started_ < 0xffffffff then
      let s' := { s with started_ := s.started_ + 1 }
      if s.started_ = 0 then
        some ((s'.setPool { s.dispatcher.pool with started_ := true }).setStarter t (.starting 0))
      else some s'
    else none
  | .startThread t =>
    match s.starter t with
    | .starting i =>
      if i < s.dispatcher.pool.numThreads_.toNat then
        some ((s.setPool (s.dispatcher.pool.startThread s.threadInitCallback_)).setStarter t
          (.starting (i + 1)))
      else none
    | _ => none
  | .startEnd t =>
    match s.starter t with
    | .starting i =>
      let pool := s.dispatcher.pool
      if i < pool.numThreads_.toNat then none
      else
        let pool := if pool.numThreads_ = 0 ∧ s.threadInitCallback_ then
          pool.callInit s.threadInitCallback_ pool.baseLoop_ else pool
        some ((s.setPool pool).setStarter t .submitting)
    | _ => none
  | .submit t =>
    if s.starter t = .submitting then
      let s := s.setStarter t .outside
      some (if t = s.threadId_ then s.listen else { s with pending := s.pending + 1 })
    else none
  | .runFunctor =>
    if s.looping ∧ 0 < s.pending then some { s.listen with pending := s.pending - 1 } else none
  | .arrive peer =>
    if s.acceptor_.listenning_ then
      some { s with backlog := s.backlog ++ [peer], arrived := s.arrived ++ [peer] }
    else none
  | .abort i =>
    if i < s.backlog.length then
      some { s with backlog := s.backlog.eraseIdx i, aborted := s.aborted + 1 }
    else none
  | .handleRead r => if s.looping ∧ s.watched then s.handleRead r else none

end

/-! ## The pool -/

/-- The pool that `start` leaves where nothing else runs. -/
def startedPool (numThreads : Int) (cb : Bool) : EventLoopThreadPool :=
  (({} : EventLoopThreadPool).setThreadNum numThreads).start cb

variable {numThreads : Int} {cb : Bool}

theorem startedPool_loops : (startedPool numThreads cb).loops_ =
    EventLoopThreadPool.threadLoops numThreads.toNat ∧
    (startedPool numThreads cb).baseLoop_ = .baseLoop ∧ (startedPool numThreads cb).next_ = 0 := by
  rw [startedPool, EventLoopThreadPool.start_eq]
  split
  · unfold EventLoopThreadPool.callInit
    split
    · exact ⟨rfl, rfl, rfl⟩
    · exact ⟨rfl, rfl, rfl⟩
  · exact ⟨rfl, rfl, rfl⟩

/-- The loop of the `k`-th connection. -/
def turn (numThreads : Int) (k : Nat) : LoopAddr :=
  if numThreads.toNat = 0 then .baseLoop else .thread k

/-- `getNextLoop` in the first round, or without threads. -/
theorem getNextLoop_started {pool : EventLoopThreadPool} {k : Nat} {loop : LoopAddr}
    {pool' : EventLoopThreadPool} (hpool : { pool with next_ := 0 } = startedPool numThreads cb)
    (hnext : pool.next_ = if numThreads.toNat = 0 then 0 else k)
    (hs : pool.getNextLoop = some (loop, pool')) :
    loop = turn numThreads k ∧ { pool' with next_ := 0 } = startedPool numThreads cb ∧
      (pool'.next_ = if numThreads.toNat = 0 then 0 else k + 1) ∧
      (numThreads.toNat = 0 ∨ k < numThreads.toNat) := by
  obtain ⟨hloops, hbase, -⟩ := @startedPool_loops numThreads cb
  rw [← hpool] at hloops hbase
  by_cases hn : numThreads.toNat = 0
  · have hempty : pool.loops_ = [] := by
      rw [show pool.loops_ = _ from hloops, hn]
      rfl
    rw [EventLoopThreadPool.getNextLoop, hempty] at hs
    obtain ⟨rfl, rfl⟩ := Prod.mk.inj (Option.some.inj hs)
    refine ⟨?_, hpool, ?_, .inl hn⟩
    · rw [turn, if_pos hn]
      exact hbase
    · rw [hnext, if_pos hn, if_pos hn]
  · rw [if_neg hn] at hnext
    by_cases hlt : k < numThreads.toNat
    · have hin : pool.next_ < pool.loops_.length := by
        rw [hnext, show pool.loops_ = _ from hloops, EventLoopThreadPool.length_threadLoops]
        exact hlt
      rw [EventLoopThreadPool.getNextLoop_inside hin] at hs
      obtain ⟨rfl, rfl⟩ := Prod.mk.inj (Option.some.inj hs)
      refine ⟨?_, hpool, ?_, .inr hlt⟩
      · refine Option.some.inj ?_
        rw [← List.getElem?_eq_getElem hin, show pool.loops_ = _ from hloops, hnext,
          EventLoopThreadPool.getElem?_threadLoops, if_pos hlt, turn, if_neg hn]
      · rw [if_neg hn, hnext]
    · have hout : pool.getNextLoop = none := by
        refine EventLoopThreadPool.getNextLoop_outside ?_ ?_
        · intro he
          rw [show pool.loops_ = _ from hloops] at he
          have hlen := congrArg List.length he
          rw [EventLoopThreadPool.length_threadLoops, List.length_nil] at hlen
          exact hn hlen
        · rw [hnext, show pool.loops_ = _ from hloops, EventLoopThreadPool.length_threadLoops]
          omega
      rw [hout] at hs
      cases hs

/-! ## What every action keeps -/

/-- How far the one call of `start` that matters has come. -/
inductive Progress (numThreads : Int) (cb : Bool) (s : Listening T) : Prop
  | before (hstarted : s.started_ = 0) (houtside : ∀ t, s.starter t = .outside)
    (hpool : s.dispatcher.pool = ({} : EventLoopThreadPool).setThreadNum numThreads)
    (hcalls : s.pending + s.listens = 0)
  | starting (t : T) (i : Nat) (hstarted : s.started_ ≠ 0) (ht : s.starter t = .starting i)
    (houtside : ∀ t', t' ≠ t → s.starter t' = .outside)
    (hpool : s.dispatcher.pool = .begun cb numThreads i i) (hi : i ≤ numThreads.toNat)
    (hcalls : s.pending + s.listens = 0)
  | submitting (t : T) (hstarted : s.started_ ≠ 0) (ht : s.starter t = .submitting)
    (houtside : ∀ t', t' ≠ t → s.starter t' = .outside)
    (hpool : s.dispatcher.pool = startedPool numThreads cb) (hcalls : s.pending + s.listens = 0)
  | done (hstarted : s.started_ ≠ 0) (houtside : ∀ t, s.starter t = .outside)
    (hpool : { s.dispatcher.pool with next_ := 0 } = startedPool numThreads cb)
    (hcalls : s.pending + s.listens = 1)

/-- The acceptor and its channel. -/
structure Ready (sockfd : Int) (s : Listening T) : Prop where
  listenning : s.acceptor_.listenning_ = true ↔ 0 < s.listens
  watched : s.watched = true ↔ 0 < s.listens
  fresh : s.listens = 0 → s.acceptor_.acceptChannel_ = { fd_ := sockfd } ∧ s.poller = {}

/-- The connections made of what `accept` has given. -/
structure Served (config : Config LoopAddr) (numThreads : Int) (s : Listening T) : Prop where
  next : s.dispatcher.pool.next_ = if numThreads.toNat = 0 then 0 else s.dispatcher.chosen.length
  chosen : s.dispatcher.chosen = (List.range s.dispatcher.chosen.length).map (turn numThreads)
  round : numThreads.toNat = 0 ∨ s.dispatcher.chosen.length ≤ numThreads.toNat
  ids : s.dispatcher.server.nextConnId_ = s.dispatcher.chosen.length + 1
  setup : s.dispatcher.server.config = config
  conns : ∀ k, k < s.dispatcher.chosen.length →
    s.dispatcher.server.loopOf (k + 1) = turn numThreads k ∧
      (s.dispatcher.server.conns (k + 1)).name_ =
        connName config.name_ config.listenAddr.toIpPort (k + 1) ∧
      (s.taken.map (·.1))[k]? = some (s.dispatcher.server.conns (k + 1)).channel_.fd_

/-- What becomes of what `accept` gives. -/
structure Handed (s : Listening T) : Prop where
  server : s.acceptor_.newConnectionCallback_ = true →
    s.dispatcher.chosen.length = s.taken.length ∧ s.closed = []
  none : s.acceptor_.newConnectionCallback_ = false →
    s.dispatcher.chosen = [] ∧ s.closed = s.taken.map (·.1)

structure Accepting (config : Config LoopAddr) (numThreads : Int) (cb : Bool) (sockfd : Int)
    (s : Listening T) : Prop where
  callback : s.threadInitCallback_ = cb
  progress : Progress numThreads cb s
  ready : s.Ready sockfd
  early : s.listens = 0 → s.taken = [] ∧ s.arrived = []
  served : s.Served config numThreads
  handed : s.Handed
  order : (s.taken.map (·.2) ++ s.backlog).Sublist s.arrived
  count : s.taken.length + s.backlog.length + s.aborted = s.arrived.length

variable {config : Config LoopAddr} {sockfd : Int} {s s' : Listening T}

theorem accepting_constructed (threadId_ : T) (config : Config LoopAddr) (numThreads : Int)
    (cb callback : Bool) (sockfd : Int) : Accepting config numThreads cb sockfd
      (constructed threadId_ config numThreads cb callback sockfd) where
  callback := rfl
  progress := .before rfl (fun _ => rfl) rfl rfl
  ready := ⟨by simp [constructed], by simp [constructed, watched], fun _ => ⟨rfl, rfl⟩⟩
  early _ := ⟨rfl, rfl⟩
  served := ⟨by simp [constructed, EventLoopThreadPool.setThreadNum], rfl, .inr (Nat.zero_le _),
    rfl, rfl, fun k hk => absurd hk (Nat.not_lt_zero k)⟩
  handed := ⟨fun _ => ⟨rfl, rfl⟩, fun _ => ⟨rfl, rfl⟩⟩
  order := List.Sublist.refl _
  count := rfl

/-- A channel that is enabled for the first time is watched. -/
theorem watched_listen (h : s.Ready sockfd) (hl : s.listens = 0) : s.listen.watched = true := by
  obtain ⟨hchannel, hpoller⟩ := h.fresh hl
  simp only [listen, watched, hchannel, hpoller]
  simp [ChannelOp.run, ChannelOp.mask, EPollPoller.updateChannel, EPollPoller.update, CtlOp.legal,
    EPollPoller.ctlEffect, Channel.kReadEvent]
  decide

/-- Steps that leave the acceptor, the kernel and the connections alone. -/
theorem Accepting.congr (h : Accepting config numThreads cb sockfd s)
    (hs : s' = { s with
      started_ := s'.started_
      starter := s'.starter
      pending := s'.pending
      dispatcher := { s.dispatcher with pool := s'.dispatcher.pool } })
    (hnext : s'.dispatcher.pool.next_ = s.dispatcher.pool.next_)
    (hprogress : Progress numThreads cb s') : Accepting config numThreads cb sockfd s' := by
  have hserved : Served config numThreads s' := by
    rw [hs]
    exact ⟨hnext.trans h.served.next, h.served.chosen, h.served.round, h.served.ids,
      h.served.setup, h.served.conns⟩
  refine ⟨?_, hprogress, ?_, ?_, hserved, ?_, ?_, ?_⟩
  · rw [hs]
    exact h.callback
  · rw [hs]
    exact ⟨h.ready.listenning, h.ready.watched, h.ready.fresh⟩
  · rw [hs]
    exact h.early
  · rw [hs]
    exact ⟨h.handed.server, h.handed.none⟩
  · rw [hs]
    exact h.order
  · rw [hs]
    exact h.count

/-- `Acceptor::listen` on a server that does not listen yet. -/
theorem Accepting.listen (h : Accepting config numThreads cb sockfd s) (hl : s.listens = 0)
    (hs : s' = { s.listen with
      starter := s'.starter
      pending := s'.pending })
    (hprogress : Progress numThreads cb s') : Accepting config numThreads cb sockfd s' := by
  have hready : s'.Ready sockfd := by
    rw [hs]
    exact ⟨⟨fun _ => Nat.succ_pos _, fun _ => rfl⟩,
      ⟨fun _ => Nat.succ_pos _, fun _ => watched_listen h.ready hl⟩,
      fun hz => absurd hz (Nat.succ_ne_zero _)⟩
  have hserved : s'.Served config numThreads := by
    rw [hs]
    exact ⟨h.served.next, h.served.chosen, h.served.round, h.served.ids, h.served.setup,
      h.served.conns⟩
  refine ⟨?_, hprogress, hready, fun hz => ?_, hserved, ?_, ?_, ?_⟩
  · rw [hs]
    exact h.callback
  · rw [hs] at hz
    exact absurd hz (Nat.succ_ne_zero _)
  · rw [hs]
    exact ⟨h.handed.server, h.handed.none⟩
  · rw [hs]
    exact h.order
  · rw [hs]
    exact h.count

/-- The server creates the connection that the first free descriptor is for. -/
theorem Served.newConnection (h : Served config numThreads s) {connfd : Int} (peer : InetAddress)
    (hpool : { s.dispatcher.pool with next_ := 0 } = startedPool numThreads cb)
    (htaken : s.dispatcher.chosen.length = s.taken.length) {d : Dispatcher}
    (hd : s.dispatcher.step (.newConnection connfd) = some d) (rest : List InetAddress) :
    Served config numThreads { s with
      backlog := rest
      taken := s.taken ++ [(connfd, peer)]
      dispatcher := d } ∧
    { d.pool with next_ := 0 } = startedPool numThreads cb ∧
    d.chosen.length = s.dispatcher.chosen.length + 1 := by
  obtain ⟨⟨ioLoop, pool⟩, hnext, rfl⟩ := Option.map_eq_some_iff.mp hd
  obtain ⟨rfl, hpool', hnext', hround⟩ := getNextLoop_started hpool h.next hnext
  have hlen : (s.dispatcher.chosen ++ [turn numThreads s.dispatcher.chosen.length]).length =
      s.dispatcher.chosen.length + 1 := by simp
  refine ⟨⟨?_, ?_, ?_, ?_, ?_, ?_⟩, hpool', hlen⟩
  · show pool.next_ = _
    rw [hnext', hlen]
  · show s.dispatcher.chosen ++ _ = (List.range (s.dispatcher.chosen ++ [_]).length).map _
    rw [hlen, List.range_succ, List.map_append]
    exact congrArg (· ++ _) h.chosen
  · show numThreads.toNat = 0 ∨ (s.dispatcher.chosen ++ [_]).length ≤ _
    rw [hlen]
    exact hround
  · show (s.dispatcher.server.newConnection _ connfd).nextConnId_ =
      (s.dispatcher.chosen ++ [_]).length + 1
    rw [TcpServer.newConnection_nextConnId_, hlen, h.ids]
  · obtain ⟨loops, hloops⟩ := TcpServer.runInLoop_eq
      (s.dispatcher.server.addConnection (turn numThreads s.dispatcher.chosen.length) connfd)
      s.dispatcher.server.config.loop_ (turn numThreads s.dispatcher.chosen.length)
      (.connectEstablished s.dispatcher.server.nextConnId_)
    show (s.dispatcher.server.newConnection _ connfd).config = config
    rw [TcpServer.newConnection, hloops]
    exact h.setup
  · intro k hk
    have hk' : k < s.dispatcher.chosen.length + 1 := hlen ▸ hk
    show (s.dispatcher.server.newConnection _ connfd).loopOf (k + 1) = _ ∧
      ((s.dispatcher.server.newConnection _ connfd).conns (k + 1)).name_ = _ ∧
      ((s.taken ++ [(connfd, peer)]).map (·.1))[k]? =
        some ((s.dispatcher.server.newConnection _ connfd).conns (k + 1)).channel_.fd_
    rw [TcpServer.newConnection_loopOf, TcpServer.newConnection_conns, h.ids, List.map_append]
    by_cases he : k = s.dispatcher.chosen.length
    · subst he
      rw [if_pos rfl, if_pos rfl]
      refine ⟨rfl, ?_, ?_⟩
      · rw [← h.setup]
        rfl
      · rw [List.getElem?_append_right (by rw [List.length_map, htaken]), List.length_map, htaken,
          Nat.sub_self]
        rfl
    · have hlt : k < s.dispatcher.chosen.length := by omega
      obtain ⟨hloop, hname, hfd⟩ := h.conns k hlt
      have hne : k + 1 ≠ s.dispatcher.chosen.length + 1 := by omega
      rw [if_neg hne, if_neg hne, List.getElem?_append_left
        (by rw [List.length_map, ← htaken]; exact hlt)]
      exact ⟨hloop, hname, hfd⟩

/-- `getNextLoop` reads outside `loops_` exactly once every thread has had its connection. -/
theorem Served.getNextLoop (h : Served config numThreads s)
    (hpool : { s.dispatcher.pool with next_ := 0 } = startedPool numThreads cb) :
    s.dispatcher.pool.getNextLoop = none ↔
      0 < numThreads.toNat ∧ s.dispatcher.chosen.length = numThreads.toNat := by
  have hround := h.round
  have hnext := h.next
  obtain ⟨hloops, -, -⟩ := @startedPool_loops numThreads cb
  rw [← hpool] at hloops
  have hlen : s.dispatcher.pool.loops_.length = numThreads.toNat := by
    rw [show s.dispatcher.pool.loops_ = _ from hloops, EventLoopThreadPool.length_threadLoops]
  constructor
  · intro hnone
    by_contra hno
    rcases Nat.eq_zero_or_pos numThreads.toNat with hn | hn
    · rw [EventLoopThreadPool.getNextLoop, List.eq_nil_of_length_eq_zero (hlen.trans hn)] at hnone
      cases hnone
    · rw [if_neg (by omega)] at hnext
      rw [EventLoopThreadPool.getNextLoop_inside (by omega)] at hnone
      cases hnone
  · rintro ⟨hn, hall⟩
    rw [if_neg (by omega)] at hnext
    refine EventLoopThreadPool.getNextLoop_outside ?_ (by omega)
    intro hnil
    rw [hnil, List.length_nil] at hlen
    omega

/-- One event of the listening descriptor. -/
theorem Accepting.handleRead (h : Accepting config numThreads cb sockfd s) (hl : 0 < s.listens)
    {r : AcceptResult} (hs : s.handleRead r = some s') :
    Accepting config numThreads cb sockfd s' := by
  obtain ⟨hstarted, houtside, hpool, hcalls⟩ : s.started_ ≠ 0 ∧ (∀ t, s.starter t = .outside) ∧
      { s.dispatcher.pool with next_ := 0 } = startedPool numThreads cb ∧
      s.pending + s.listens = 1 := by
    cases h.progress with
    | before _ _ _ hc | starting _ _ _ _ _ _ _ hc | submitting _ _ _ _ _ hc => omega
    | done hst hout hp hc => exact ⟨hst, hout, hp, hc⟩
  cases r with
  | failed errno =>
    obtain rfl := Option.some.inj hs
    exact h
  | accepted connfd =>
    cases hb : s.backlog with
    | nil =>
      simp [Listening.handleRead, hb] at hs
    | cons peer rest =>
      have horder : ((s.taken ++ [(connfd, peer)]).map (·.2) ++ rest).Sublist s.arrived := by
        have hold := h.order
        rw [hb] at hold
        rw [List.map_append, List.append_assoc]
        exact hold
      have hcount : (s.taken ++ [(connfd, peer)]).length + rest.length + s.aborted =
          s.arrived.length := by
        have hold := h.count
        rw [hb, List.length_cons] at hold
        rw [List.length_append, List.length_singleton]
        omega
      have hearly : s.listens = 0 → s.taken ++ [(connfd, peer)] = [] ∧ s.arrived = [] :=
        fun hz => absurd hz (Nat.ne_of_gt hl)
      cases hcallback : s.acceptor_.newConnectionCallback_ with
      | true =>
        obtain ⟨htaken, hclosed⟩ := h.handed.server hcallback
        simp only [Listening.handleRead, hb, hcallback, if_true,
          Option.ite_none_right_eq_some] at hs
        obtain ⟨-, hs⟩ := hs
        obtain ⟨d, hd, rfl⟩ := Option.map_eq_some_iff.mp hs
        obtain ⟨hserved, hpool', hlen⟩ := h.served.newConnection peer hpool htaken hd rest
        refine ⟨h.callback, .done hstarted houtside hpool' hcalls,
          ⟨h.ready.listenning, h.ready.watched, h.ready.fresh⟩, hearly, hserved, ⟨fun _ => ?_,
          fun hno => absurd (hcallback.symm.trans hno) (by decide)⟩, horder, hcount⟩
        refine ⟨?_, hclosed⟩
        show d.chosen.length = (s.taken ++ [_]).length
        rw [hlen, htaken, List.length_append, List.length_singleton]
      | false =>
        obtain ⟨hchosen, hclosed⟩ := h.handed.none hcallback
        simp only [Listening.handleRead, hb, hcallback, Bool.false_eq_true, if_false] at hs
        obtain rfl := Option.some.inj hs
        have hnone : s.dispatcher.chosen.length = 0 := by rw [hchosen]; rfl
        refine ⟨h.callback, .done hstarted houtside hpool hcalls,
          ⟨h.ready.listenning, h.ready.watched, h.ready.fresh⟩, hearly,
          ⟨h.served.next, h.served.chosen, h.served.round, h.served.ids, h.served.setup,
            fun k hk => absurd hk (by rw [hnone]; exact Nat.not_lt_zero k)⟩,
          ⟨fun hyes => absurd (hcallback.symm.trans hyes) (by decide), fun _ => ⟨hchosen, ?_⟩⟩,
          horder, hcount⟩
        show s.closed ++ [connfd] = (s.taken ++ [(connfd, peer)]).map (·.1)
        rw [hclosed, List.map_append]
        rfl

section Steps

variable [DecidableEq T] {t : T}

theorem outside_setStarter {x : Starter} (houtside : ∀ t', t' ≠ t → s.starter t' = .outside)
    {t' : T} (ht' : t' ≠ t) : (s.setStarter t x).starter t' = .outside := by
  rw [← houtside t' ht']
  exact Function.update_of_ne ht' _ _

theorem setStarter_self (s : Listening T) (t : T) (x : Starter) :
    (s.setStarter t x).starter t = x :=
  Function.update_self _ _ _

theorem all_outside (houtside : ∀ t', t' ≠ t → s.starter t' = .outside) (t' : T) :
    (s.setStarter t .outside).starter t' = .outside := by
  by_cases ht' : t' = t
  · subst ht'
    exact setStarter_self s t' _
  · exact outside_setStarter houtside ht'

theorem setNext_eq {pool : EventLoopThreadPool} (h : pool.next_ = 0) :
    { pool with next_ := 0 } = pool := by
  cases pool
  cases h
  rfl

/-- The thread that is in `start` is the one that has begun it. -/
theorem Progress.starter (h : Progress numThreads cb s) (ht : s.starter t ≠ .outside) :
    s.started_ ≠ 0 ∧ (∀ t', t' ≠ t → s.starter t' = .outside) ∧ s.pending + s.listens = 0 ∧
      ((∃ i, s.starter t = .starting i ∧ s.dispatcher.pool = .begun cb numThreads i i ∧
          i ≤ numThreads.toNat) ∨
        s.starter t = .submitting ∧ s.dispatcher.pool = startedPool numThreads cb) := by
  cases h with
  | before _ houtside | done _ houtside => exact absurd (houtside t) ht
  | starting t₀ i hstarted hat houtside hpool hi hcalls =>
    obtain rfl : t = t₀ := by
      by_contra hne
      exact ht (houtside t hne)
    exact ⟨hstarted, houtside, hcalls, .inl ⟨i, hat, hpool, hi⟩⟩
  | submitting t₀ hstarted hat houtside hpool hcalls =>
    obtain rfl : t = t₀ := by
      by_contra hne
      exact ht (houtside t hne)
    exact ⟨hstarted, houtside, hcalls, .inr ⟨hat, hpool⟩⟩

theorem Accepting.start (h : Accepting config numThreads cb sockfd s)
    (hs : s.step (.start t) = some s') : Accepting config numThreads cb sockfd s' := by
  simp only [step, Option.ite_none_right_eq_some] at hs
  obtain ⟨⟨ht, -⟩, hs⟩ := hs
  split at hs
  · rename_i hzero
    obtain rfl := Option.some.inj hs
    obtain ⟨houtside, hpool, hcalls⟩ : (∀ t, s.starter t = .outside) ∧
        s.dispatcher.pool = ({} : EventLoopThreadPool).setThreadNum numThreads ∧
        s.pending + s.listens = 0 := by
      cases h.progress with
      | before _ ho hp hc => exact ⟨ho, hp, hc⟩
      | starting _ _ hst | submitting _ hst | done hst => exact absurd hzero hst
    refine h.congr rfl rfl (.starting t 0 (Nat.succ_ne_zero _) (setStarter_self _ _ _)
      (fun t' ht' => (Function.update_of_ne ht' _ _).trans (houtside t')) ?_ (Nat.zero_le _) hcalls)
    show ({ s.dispatcher.pool with started_ := true } : EventLoopThreadPool) = _
    rw [hpool]
    cases cb <;> rfl
  · obtain rfl := Option.some.inj hs
    refine h.congr rfl rfl ?_
    cases h.progress with
    | before hzero => contradiction
    | starting t₀ i hst hat ho hp hi hc => exact .starting t₀ i (Nat.succ_ne_zero _) hat ho hp hi hc
    | submitting t₀ hst hat ho hp hc => exact .submitting t₀ (Nat.succ_ne_zero _) hat ho hp hc
    | done hst ho hp hc => exact .done (Nat.succ_ne_zero _) ho hp hc

theorem Accepting.startThread (h : Accepting config numThreads cb sockfd s)
    (hs : s.step (.startThread t) = some s') : Accepting config numThreads cb sockfd s' := by
  simp only [step] at hs
  split at hs
  case h_2 => cases hs
  case h_1 i ht =>
    obtain ⟨hst, ho, hc, ⟨i', hi', hpool, -⟩ | ⟨hsub, -⟩⟩ :=
      h.progress.starter (t := t) (by rw [ht]; simp)
    · obtain rfl : i = i' := Starter.starting.inj (ht.symm.trans hi')
      simp only [Option.ite_none_right_eq_some, Option.some.injEq] at hs
      obtain ⟨hlt, rfl⟩ := hs
      rw [hpool] at hlt
      have hgrown : s.dispatcher.pool.startThread s.threadInitCallback_ =
          .begun cb numThreads (i + 1) (i + 1) := by
        rw [hpool, h.callback, EventLoopThreadPool.begun_startThread]
      refine h.congr rfl ?_ (.starting t (i + 1) hst (setStarter_self _ _ _)
        (fun t' ht' => outside_setStarter (s := s.setPool _) ho ht') hgrown hlt hc)
      show (s.dispatcher.pool.startThread s.threadInitCallback_).next_ = s.dispatcher.pool.next_
      rw [hgrown, hpool]
      rfl
    · rw [ht] at hsub
      cases hsub

theorem Accepting.startEnd (h : Accepting config numThreads cb sockfd s)
    (hs : s.step (.startEnd t) = some s') : Accepting config numThreads cb sockfd s' := by
  simp only [step] at hs
  split at hs
  case h_2 => cases hs
  case h_1 i ht =>
    obtain ⟨hst, ho, hc, ⟨i', hi', hpool, hle⟩ | ⟨hsub, -⟩⟩ :=
      h.progress.starter (t := t) (by rw [ht]; simp)
    · obtain rfl : i = i' := Starter.starting.inj (ht.symm.trans hi')
      simp only [Option.ite_none_left_eq_some, Option.some.injEq] at hs
      obtain ⟨hnot, rfl⟩ := hs
      have hall : i = numThreads.toNat := by
        rw [hpool] at hnot
        exact Nat.le_antisymm hle (Nat.le_of_not_lt hnot)
      have hlast : (if s.dispatcher.pool.numThreads_ = 0 ∧ s.threadInitCallback_ = true then
          s.dispatcher.pool.callInit s.threadInitCallback_ s.dispatcher.pool.baseLoop_
          else s.dispatcher.pool) = startedPool numThreads cb := by
        rw [startedPool, EventLoopThreadPool.start_eq, hpool, h.callback, hall]
        rfl
      refine h.congr rfl ?_ (.submitting t hst (setStarter_self _ _ _)
        (fun t' ht' => outside_setStarter (s := s.setPool _) ho ht') hlast hc)
      refine (congrArg EventLoopThreadPool.next_ hlast).trans ?_
      rw [startedPool_loops.2.2, hpool]
      rfl
    · rw [ht] at hsub
      cases hsub

theorem Accepting.submit (h : Accepting config numThreads cb sockfd s)
    (hs : s.step (.submit t) = some s') : Accepting config numThreads cb sockfd s' := by
  simp only [step, Option.ite_none_right_eq_some, Option.some.injEq] at hs
  obtain ⟨ht, rfl⟩ := hs
  obtain ⟨hst, ho, hc, ⟨i, hi, -⟩ | ⟨-, hpool⟩⟩ := h.progress.starter (t := t) (by rw [ht]; simp)
  · rw [ht] at hi
    cases hi
  · have hout := all_outside ho
    have hnone : s.listens = 0 := by omega
    have hfinal : { s.dispatcher.pool with next_ := 0 } = startedPool numThreads cb := by
      rw [hpool]
      exact setNext_eq startedPool_loops.2.2
    split
    · refine h.listen hnone rfl (.done hst hout hfinal ?_)
      show s.pending + (s.listens + 1) = 1
      omega
    · refine h.congr rfl rfl (.done hst hout hfinal ?_)
      show s.pending + 1 + s.listens = 1
      omega

theorem Accepting.runFunctor (h : Accepting config numThreads cb sockfd s)
    (hs : s.step .runFunctor = some s') : Accepting config numThreads cb sockfd s' := by
  simp only [step, Option.ite_none_right_eq_some, Option.some.injEq] at hs
  obtain ⟨⟨-, hpending⟩, rfl⟩ := hs
  cases h.progress with
  | before _ _ _ hc | starting _ _ _ _ _ _ _ hc | submitting _ _ _ _ _ hc => omega
  | done hst ho hp hc =>
    refine h.listen (by omega) rfl (.done hst ho hp ?_)
    show s.pending - 1 + (s.listens + 1) = 1
    omega

theorem Accepting.step (h : Accepting config numThreads cb sockfd s) {a : Action T}
    (hs : s.step a = some s') : Accepting config numThreads cb sockfd s' := by
  have hlistens : 0 < s.listens → ∀ s'' : Listening T, s''.started_ = s.started_ →
      s''.starter = s.starter → s''.dispatcher.pool = s.dispatcher.pool →
      s''.pending = s.pending → s''.listens = s.listens → Progress numThreads cb s'' := by
    intro hl s'' hstarted hstarter hpool hpending hlistens
    cases h.progress with
    | before _ _ _ hc | starting _ _ _ _ _ _ _ hc | submitting _ _ _ _ _ hc => omega
    | done hst ho hp hc =>
      refine .done (by rw [hstarted]; exact hst) (by rw [hstarter]; exact ho) ?_ (by omega)
      rw [hpool]
      exact hp
  cases a with
  | start t => exact h.start hs
  | startThread t => exact h.startThread hs
  | startEnd t => exact h.startEnd hs
  | submit t => exact h.submit hs
  | runFunctor => exact h.runFunctor hs
  | arrive peer =>
    simp only [Listening.step, Option.ite_none_right_eq_some, Option.some.injEq] at hs
    obtain ⟨hon, rfl⟩ := hs
    have hl := h.ready.listenning.mp hon
    refine { h with progress := hlistens hl _ rfl rfl rfl rfl rfl, order := ?_, count := ?_
                    ready := ⟨h.ready.listenning, h.ready.watched, h.ready.fresh⟩
                    early := fun hz => absurd hz (Nat.ne_of_gt hl)
                    served := ⟨h.served.next, h.served.chosen, h.served.round, h.served.ids,
                      h.served.setup, h.served.conns⟩
                    handed := ⟨h.handed.server, h.handed.none⟩ }
    · show (s.taken.map (·.2) ++ (s.backlog ++ [peer])).Sublist (s.arrived ++ [peer])
      rw [← List.append_assoc]
      exact h.order.append (List.Sublist.refl _)
    · show s.taken.length + (s.backlog ++ [peer]).length + s.aborted = (s.arrived ++ [peer]).length
      rw [List.length_append, List.length_append, ← h.count]
      omega
  | abort i =>
    simp only [Listening.step, Option.ite_none_right_eq_some, Option.some.injEq] at hs
    obtain ⟨hi, rfl⟩ := hs
    have hl : 0 < s.listens := by
      by_contra hno
      have hcount := h.count
      obtain ⟨-, harrived⟩ := h.early (Nat.eq_zero_of_not_pos hno)
      rw [harrived, List.length_nil] at hcount
      omega
    refine { h with progress := hlistens hl _ rfl rfl rfl rfl rfl, order := ?_, count := ?_
                    ready := ⟨h.ready.listenning, h.ready.watched, h.ready.fresh⟩
                    served := ⟨h.served.next, h.served.chosen, h.served.round, h.served.ids,
                      h.served.setup, h.served.conns⟩
                    handed := ⟨h.handed.server, h.handed.none⟩ }
    · refine (List.Sublist.append (List.Sublist.refl _) ?_).trans h.order
      exact List.eraseIdx_sublist _ _
    · show s.taken.length + (s.backlog.eraseIdx i).length + (s.aborted + 1) = s.arrived.length
      rw [List.length_eraseIdx, if_pos hi, ← h.count]
      omega
  | handleRead r =>
    simp only [Listening.step, Option.ite_none_right_eq_some] at hs
    obtain ⟨⟨-, hwatched⟩, hs⟩ := hs
    exact h.handleRead (h.ready.watched.mp hwatched) hs

/-- No action replaces the callback that the constructor has set. -/
theorem step_newConnectionCallback_ {a : Action T} (hs : s.step a = some s') :
    s'.acceptor_.newConnectionCallback_ = s.acceptor_.newConnectionCallback_ := by
  cases a with
  | handleRead r =>
    simp only [Listening.step, Option.ite_none_right_eq_some] at hs
    obtain ⟨-, hs⟩ := hs
    unfold Listening.handleRead at hs
    split at hs
    · dsimp only at hs
      split at hs
      · obtain ⟨-, hs⟩ := Option.ite_none_right_eq_some.mp hs
        obtain ⟨d, -, rfl⟩ := Option.map_eq_some_iff.mp hs
        rfl
      · obtain rfl := Option.some.inj hs
        rfl
    · cases hs
    · obtain rfl := Option.some.inj hs
      rfl
  | submit t =>
    simp only [Listening.step, Option.ite_none_right_eq_some, Option.some.injEq] at hs
    obtain ⟨-, rfl⟩ := hs
    split
    · rfl
    · rfl
  | startThread t | startEnd t =>
    simp only [Listening.step] at hs
    split at hs
    · split at hs <;> cases hs
      rfl
    · cases hs
  | start t =>
    simp only [Listening.step, Option.ite_none_right_eq_some] at hs
    obtain ⟨-, hs⟩ := hs
    split at hs
    · obtain rfl := Option.some.inj hs
      rfl
    · obtain rfl := Option.some.inj hs
      rfl
  | runFunctor | arrive peer | abort i =>
    simp only [Listening.step, Option.ite_none_right_eq_some, Option.some.injEq] at hs
    obtain ⟨-, rfl⟩ := hs
    rfl

/-- In every order in which threads call `start` and go on in it, peers arrive and give up, and the
base loop runs: one thread builds the pool, alone and before anything is accepted; `listen` runs
once; the peers are accepted in the order in which they arrived, and the `k`-th one becomes the
`k`-th connection, on the loop whose turn it is, until `getNextLoop` reads outside `loops_` or the
numbers run out. -/
theorem accepted_in_turn (threadId_ : T) (config : Config LoopAddr) (numThreads : Int)
    (cb callback : Bool) (sockfd : Int) {actions : List (Action T)} {s : Listening T}
    (hr : Execution.exec step (constructed threadId_ config numThreads cb callback sockfd) actions =
      some s) :
    (∀ t, s.starter t ≠ .outside → (∀ t', t' ≠ t → s.starter t' = .outside) ∧
      s.pending = 0 ∧ s.listens = 0 ∧ s.taken = []) ∧
    (s.pending + s.listens ≤ 1 ∧
      (s.acceptor_.listenning_ = true ↔ s.listens = 1) ∧ (s.watched = true ↔ s.listens = 1) ∧
      (s.pending + s.listens = 1 →
        { s.dispatcher.pool with next_ := 0 } = startedPool numThreads cb)) ∧
    ((s.taken.map (·.2) ++ s.backlog).Sublist s.arrived ∧
      s.taken.length + s.backlog.length + s.aborted = s.arrived.length) ∧
    (callback = true → s.closed = [] ∧
      s.dispatcher.server.nextConnId_ = s.taken.length + 1 ∧
      (∀ k (hk : k < s.taken.length), s.dispatcher.server.loopOf (k + 1) = turn numThreads k ∧
        (s.dispatcher.server.conns (k + 1)).name_ =
          connName config.name_ config.listenAddr.toIpPort (k + 1) ∧
        (s.dispatcher.server.conns (k + 1)).channel_.fd_ = s.taken[k].1) ∧
      ∀ connfd, s.listens = 1 → s.backlog ≠ [] → (s.handleRead (.accepted connfd) = none ↔
        (0 < numThreads.toNat ∧ s.taken.length = numThreads.toNat) ∨
          0x7ffffffe ≤ s.taken.length)) ∧
    (callback = false → s.closed = s.taken.map (·.1) ∧ s.dispatcher.server.nextConnId_ = 1) := by
  have h : Accepting config numThreads cb sockfd s :=
    Execution.exec_preserves (Accepting config numThreads cb sockfd)
      (fun _ _ _ h hs => h.step hs) (accepting_constructed threadId_ config numThreads cb callback
        sockfd) hr
  have hcallback : s.acceptor_.newConnectionCallback_ = callback :=
    Execution.exec_preserves (fun s : Listening T => s.acceptor_.newConnectionCallback_ = callback)
      (fun _ _ _ h hs => (step_newConnectionCallback_ hs).trans h) (by rfl) hr
  have hone : s.pending + s.listens ≤ 1 := by
    cases h.progress with
    | before _ _ _ hc | starting _ _ _ _ _ _ _ hc | submitting _ _ _ _ _ hc => omega
    | done _ _ _ hc => omega
  have hbuilt : s.pending + s.listens = 1 →
      { s.dispatcher.pool with next_ := 0 } = startedPool numThreads cb := by
    intro hc
    cases h.progress with
    | before _ _ _ hc' | starting _ _ _ _ _ _ _ hc' | submitting _ _ _ _ _ hc' => omega
    | done _ _ hp _ => exact hp
  have hpos : 0 < s.listens ↔ s.listens = 1 := by omega
  refine ⟨fun t ht => ?_, ⟨hone, h.ready.listenning.trans hpos, h.ready.watched.trans hpos, hbuilt⟩,
    ⟨h.order, h.count⟩, fun htrue => ?_, fun hfalse => ?_⟩
  · obtain ⟨-, hout, hc, -⟩ := h.progress.starter ht
    have hnone : s.listens = 0 := by omega
    exact ⟨hout, by omega, hnone, (h.early hnone).1⟩
  · obtain ⟨hlen, hclosed⟩ := h.handed.server (hcallback.trans htrue)
    refine ⟨hclosed, by rw [h.served.ids, hlen], fun k hk => ?_, fun connfd hl hb => ?_⟩
    · obtain ⟨hloop, hname, hfd⟩ := h.served.conns k (by rw [hlen]; exact hk)
      refine ⟨hloop, hname, ?_⟩
      rw [List.getElem?_map, List.getElem?_eq_getElem hk] at hfd
      exact (Option.some.inj hfd).symm
    · obtain ⟨peer, rest, hcons⟩ := List.exists_cons_of_ne_nil hb
      have hids := h.served.ids
      rw [← hlen, ← h.served.getNextLoop (hbuilt (by omega))]
      simp only [handleRead, hcons, hcallback, htrue, if_true, hids]
      split
      · rename_i hroom
        rw [Dispatcher.step, Option.map_eq_none_iff, Option.map_eq_none_iff]
        exact ⟨.inl, fun hor => hor.resolve_right (by omega)⟩
      · rename_i hfull
        exact ⟨fun _ => .inr (by omega), fun _ => rfl⟩
  · obtain ⟨hchosen, hclosed⟩ := h.handed.none (hcallback.trans hfalse)
    exact ⟨hclosed, by rw [h.served.ids, hchosen]; rfl⟩

end Steps

/-- A thread starts the server while the base loop's thread calls `start` too, which returns at
once; the second of three peers gives up. -/
theorem accepted_in_turn_two : ∃ s : Listening Bool,
    s.taken = [(7, ⟨(10, 0, 0, 1), 1⟩), (8, ⟨(10, 0, 0, 3), 3⟩)] ∧ s.listens = 1 ∧
      s.dispatcher.server.loopOf 1 = .thread 0 ∧ s.dispatcher.server.loopOf 2 = .thread 1 ∧
      (s.dispatcher.server.conns 2).channel_.fd_ = 8 ∧
      (∀ connfd, s.handleRead (.accepted connfd) = none) := by
  have hrun : (Execution.exec step (constructed true
      ⟨.baseLoop, ⟨(127, 0, 0, 1), 8000⟩, ['s'], true, true, false⟩ 2 false true 3) [
      .start false, .startThread false, .start true, .startThread false, .startEnd false,
      .submit false, .runFunctor, .arrive ⟨(10, 0, 0, 1), 1⟩, .arrive ⟨(10, 0, 0, 2), 2⟩,
      .arrive ⟨(10, 0, 0, 3), 3⟩, .abort 1, .handleRead (.accepted 7),
      .handleRead (.failed .EWOULDBLOCK), .handleRead (.accepted 8),
      .arrive ⟨(10, 0, 0, 4), 4⟩]).map (fun s : Listening Bool =>
        decide (s.taken = [(7, ⟨(10, 0, 0, 1), 1⟩), (8, ⟨(10, 0, 0, 3), 3⟩)] ∧ s.listens = 1 ∧
          s.backlog = [⟨(10, 0, 0, 4), 4⟩])) = some true := by
    decide +kernel
  obtain ⟨s, hs, hres⟩ := Option.map_eq_some_iff.mp hrun
  obtain ⟨htaken, hlistens, hbacklog⟩ := of_decide_eq_true hres
  obtain ⟨-, -, -, hserved, -⟩ := accepted_in_turn true _ 2 false true 3 hs
  obtain ⟨-, -, hconns, hout⟩ := hserved rfl
  have hlen : s.taken.length = 2 := by rw [htaken]; rfl
  obtain ⟨hloop, -, -⟩ := hconns 0 (by omega)
  obtain ⟨hloop', -, hfd⟩ := hconns 1 (by omega)
  refine ⟨s, htaken, hlistens, hloop, hloop', ?_, fun connfd => ?_⟩
  · rw [hfd]
    simp [htaken]
  · exact (hout connfd hlistens (by rw [hbacklog]; simp)).mpr (.inl ⟨by decide, hlen⟩)

end Listening

end Mymuduo

import Mymuduo.Server.EventLoopThreadPool
import Mymuduo.Server.Upkeep

/-!
# Empty callbacks

A `std::function` without a target throws when it is called. The write-complete, the
high-water-mark and the init callback are tested first, and so is the connection callback
in `handleClose`; `connectEstablished` and `connectDestroyed` call the connection callback,
and `handleRead` the message callback, without a test. The constructor of `TcpServer`
leaves all of them empty, so no call fails exactly where the user has set these two.
-/

namespace Mymuduo

open Mymuduo.Library

universe u v

/-! ## Methods -/

/-- The callbacks that are called without a test have targets. -/
def TcpConnection.Furnished (c : TcpConnection) : Prop :=
  c.connectionCallback_ = true ∧ c.messageCallback_ = true

theorem upkeep_furnished : Site.Upkeep TcpConnection.Furnished where
  state _ _ h := h
  channel _ _ h := h
  socket _ _ h := h
  input _ _ h := h
  fill _ _ h := h
  drain _ _ h := h
  mark _ _ h := h

namespace Site

variable {κ : Type u} {w : Site κ} (self : κ)

/-- The method calls no empty function of a furnished connection. -/
def Calm (f : Site κ → Site κ) : Prop := ∀ w, w.conn.Furnished → (f w).thrown = w.thrown

theorem calm_connectEstablished : Calm (connectEstablished self) := by
  intro w h
  rw [(connectEstablished_calls self w).thrown, h.1]
  exact Bool.or_false _

theorem calm_leaveConnected : Calm (leaveConnected self) := by
  intro w h
  by_cases hs : w.conn.state_ = .kConnected
  · rw [(leaveConnected_calls self w hs).thrown, h.1]
    exact Bool.or_false _
  · rw [leaveConnected, if_neg hs]

theorem calm_callback (read : ReadvResult) (write : WriteResult) (cb : ChannelCallback) :
    Calm (callback self read write cb) := by
  intro w h
  rcases callback_cases self w read write cb with ⟨-, b, hb⟩ | ⟨-, -, -, -, hcalls⟩ | ⟨-, -, hs⟩
  · rw [hb, (handleClose_calls self _).2.2.2]
  · rw [hcalls.thrown, h.2]
    exact Bool.or_false _
  · exact hs.thrown

end Site

namespace TcpServer

variable {T : Type u} {L : Type v} [DecidableEq L] {s s' : TcpServer T L} {c : ConnId}

theorem terminated_onConn {ℓ : L} {f : Site ConnId → Site ConnId} (hf : Site.Calm f)
    (hc : (s.conns c).Furnished) : (s.onConn ℓ c f).terminated = s.terminated := by
  have hquiet := hf { conn := s.conns c, poller := (s.loops ℓ).poller } hc
  simp only [onConn]
  rw [hquiet]
  exact Bool.or_false _

theorem terminated_runInLoop (ℓ ℓ' : L) (job : Job) :
    (s.runInLoop ℓ ℓ' job).terminated = s.terminated := by
  obtain ⟨loops, hloops⟩ := s.runInLoop_eq ℓ ℓ' job
  rw [hloops]

theorem terminated_runJob {ℓ : L} {job : Job} (read : ReadvResult) (write : WriteResult)
    (hc : (s.conns job.conn).Furnished) :
    (s.runJob ℓ read write job).terminated = s.terminated := by
  cases job with
  | connectEstablished c => exact terminated_onConn (Site.calm_connectEstablished c) hc
  | connectDestroyed c => exact terminated_onConn (Site.calm_leaveConnected c) hc
  | removeChannel c => exact terminated_onConn (f := Site.channel .remove c) (fun _ _ => rfl) hc
  | removeConnectionInLoop c => rfl
  | closeCallback c => exact terminated_runInLoop _ _ _
  | handle cb c => exact terminated_onConn (Site.calm_callback c read write cb) hc
  | notice n c => rfl
  | sendInLoop c data =>
    exact terminated_onConn (fun w _ => (Site.silent_sendInLoop c data write w).thrown) hc
  | shutdownInLoop c =>
    exact terminated_onConn (fun w _ => (Site.silent_shutdownInLoop w).thrown) hc

section Actions

variable [Fintype L]

theorem terminated_userCall {f : Site ConnId → Site ConnId} (hf : Site.Calm f)
    (hc : ∀ c, s.Mentioned c → (s.conns c).Furnished) (hs : s.userCall c f = some s') :
    s'.terminated = s.terminated := by
  obtain ⟨-, hu, rfl⟩ := userCall_eq hs
  exact terminated_onConn hf (hc c (mentioned_of_useCount hu))

/-- No action throws where every connection that somebody can come to is furnished. -/
theorem terminated_act [DecidableEq T] {a : Action T L}
    (hc : ∀ c, s.Mentioned c → (s.conns c).Furnished) (hs : s.act a = some s') :
    s'.terminated = s.terminated := by
  cases a with
  | poll ℓ reports =>
    obtain ⟨-, -, -, -, rfl⟩ := act_poll hs
    rfl
  | dispatch ℓ =>
    obtain ⟨c', rest, -, -, rfl⟩ := act_dispatch hs
    simp only [handleEvent]
    split <;> rfl
  | release ℓ =>
    obtain ⟨-, rfl⟩ := act_release hs
    rfl
  | swap ℓ =>
    obtain ⟨-, -, rfl⟩ := act_swap hs
    rfl
  | start ℓ =>
    obtain ⟨-, -, job, queue, -, rfl⟩ := act_start hs
    rfl
  | finish ℓ =>
    obtain ⟨-, -, -, rfl⟩ := act_finish hs
    rfl
  | run ℓ read write =>
    obtain ⟨job, rest, hwork, rfl⟩ := act_run hs
    have hjob : s.Mentioned job.conn := .loop ℓ (.inr ⟨job, by simp [hwork], rfl⟩)
    exact terminated_runJob (s := s.popJob ℓ job rest) read write (hc _ hjob)
  | newConnection ioLoop sockfd =>
    obtain ⟨-, -, -, rfl⟩ := act_newConnection hs
    exact terminated_runInLoop _ _ _
  | destroy =>
    simp only [act, Option.ite_none_right_eq_some, Option.some.injEq] at hs
    obtain ⟨-, rfl⟩ := hs
    rfl
  | destroyItem key c' =>
    obtain ⟨-, -, -, rfl⟩ := act_destroyItem hs
    exact terminated_runInLoop _ _ _
  | destroyEnd =>
    simp only [act, Option.ite_none_right_eq_some, Option.some.injEq] at hs
    obtain ⟨-, rfl⟩ := hs
    rfl
  | send c' data r =>
    exact terminated_userCall (fun w _ => (Site.silent_send c' data r w).thrown) hc hs
  | shutdown c' => exact terminated_userCall (fun w _ => (Site.shutdown_silent w).2.2) hc hs
  | setHighWaterMarkCallback c' n =>
    exact terminated_userCall (f := Site.setHighWaterMarkCallback n) (fun _ _ => rfl) hc hs
  | keep c' =>
    obtain ⟨-, rfl⟩ := act_keep hs
    rfl
  | drop c' =>
    obtain rfl := act_drop hs
    rfl
  | testSend t c' data =>
    obtain ⟨-, rfl | rfl⟩ := act_testSend hs <;> rfl
  | enqueueSend t =>
    obtain ⟨c', data, -, rfl⟩ := act_enqueueSend hs
    rfl
  | testShutdown t c' =>
    obtain ⟨-, rfl | rfl⟩ := act_testShutdown hs <;> rfl
  | storeDisconnecting t =>
    obtain ⟨c', -, rfl⟩ := act_storeDisconnecting hs
    rfl
  | enqueueShutdown t =>
    obtain ⟨c', -, rfl⟩ := act_enqueueShutdown hs
    rfl

end Actions

end TcpServer

/-! ## The program around the server -/

/-- A setter of a connection, with whether the function passed has a target. -/
inductive ConnSetter
  | setConnectionCallback (cb : Bool)
  | setMessageCallback (cb : Bool)
  | setWriteCompleteCallback (cb : Bool)
  | setHighWaterMarkCallback (cb : Bool) (highWaterMark : Nat)

namespace ConnSetter

def apply : ConnSetter → TcpConnection → TcpConnection
  | setConnectionCallback cb, c => { c with connectionCallback_ := cb }
  | setMessageCallback cb, c => { c with messageCallback_ := cb }
  | setWriteCompleteCallback cb, c => { c with writeCompleteCallback_ := cb }
  | setHighWaterMarkCallback cb n, c => { c with highWaterMarkCallback_ := cb, highWaterMark_ := n }

/-- The connection callback and the message callback are set, not taken away. -/
def targeted : ConnSetter → Bool
  | setConnectionCallback cb | setMessageCallback cb => cb
  | setWriteCompleteCallback _ | setHighWaterMarkCallback _ _ => true

theorem furnished_apply {x : ConnSetter} (hx : x.targeted = true) {c : TcpConnection}
    (h : c.Furnished) : (x.apply c).Furnished := by
  cases x with
  | setConnectionCallback cb => exact ⟨hx, h.2⟩
  | setMessageCallback cb => exact ⟨h.1, hx⟩
  | setWriteCompleteCallback cb => exact h
  | setHighWaterMarkCallback cb n => exact h

end ConnSetter

/-- The user calls a setter of the connection. -/
def Site.set {κ : Type u} (x : ConnSetter) (w : Site κ) : Site κ :=
  { w with conn := x.apply w.conn }

/-- A server with its pool and with what the user has set on it. -/
structure Application (T : Type u) (L : Type v) where
  server : TcpServer T L
  pool : EventLoopThreadPool := {}
  threadInitCallback_ : Bool := false
  started_ : Nat := 0

namespace Application

variable {T : Type u} {L : Type v}

inductive Action (T : Type u) (L : Type v)
  | server (x : TcpServer.Action T L)
  | start
  | setThreadNum (numThreads : Int)
  | setThreadInitCallback (cb : Bool)
  | setConnectionCallback (cb : Bool)
  | setMessageCallback (cb : Bool)
  | setWriteCompleteCallback (cb : Bool)
  /-- user code on the thread of the connection's loop -/
  | onConnection (c : ConnId) (x : ConnSetter)

/-- The server as its constructor and the setters called on it so far leave it. -/
def fresh (config : Config L) (threadInitCallback_ : Bool) : Application T L where
  server := .fresh config
  threadInitCallback_ := threadInitCallback_

/-- `TcpServer::start`; the second time it does nothing. -/
def start (a : Application T L) : Application T L :=
  { a with
    pool := if a.started_ = 0 then a.pool.start a.threadInitCallback_ else a.pool
    started_ := a.started_ + 1 }

/-- The acceptor listens from `start` on. -/
def accepts : TcpServer.Action T L → Bool
  | .newConnection _ _ => true
  | _ => false

variable [Fintype L] [DecidableEq L] [DecidableEq T]

def act (a : Application T L) : Action T L → Option (Application T L)
  | .server x =>
    if accepts x ∧ a.started_ = 0 then none
    else (a.server.act x).map fun s => { a with server := s }
  | .start => some a.start
  | .setThreadNum numThreads => some { a with pool := a.pool.setThreadNum numThreads }
  | .setThreadInitCallback cb => some { a with threadInitCallback_ := cb }
  | .setConnectionCallback cb => some { a with server.config.connectionCallback_ := cb }
  | .setMessageCallback cb => some { a with server.config.messageCallback_ := cb }
  | .setWriteCompleteCallback cb => some { a with server.config.writeCompleteCallback_ := cb }
  | .onConnection c x =>
    (a.server.userCall c (Site.set x)).map fun s => { a with server := s }

/-- An exception that nobody catches ends the process. -/
def step (a : Application T L) (x : Action T L) : Option (Application T L) :=
  if a.server.terminated || a.server.dangling || a.pool.thrown then none else a.act x

/-! ## Where both callbacks are set -/

/-- A connection is accepted when both callbacks are set on the server, and neither is
taken away from a connection. -/
def Equips (a : Application T L) : Action T L → Prop
  | .server x => accepts x = true →
    a.server.config.connectionCallback_ = true ∧ a.server.config.messageCallback_ = true
  | .onConnection _ x => x.targeted = true
  | _ => True

/-- Every connection that somebody can come to is furnished, and nothing has been thrown. -/
structure Equipped (a : Application T L) : Prop where
  furnished : ∀ c, a.server.Mentioned c → (a.server.conns c).Furnished
  running : a.server.terminated = false
  init : a.pool.thrown = false

omit [Fintype L] [DecidableEq L] [DecidableEq T] in
theorem equipped_fresh (config : Config L) (threadInitCallback_ : Bool) :
    (fresh config threadInitCallback_ : Application T L).Equipped where
  furnished c hc := by
    cases hc with
    | entry key h => cases h
    | pointer h => exact absurd rfl h
    | caller t h => cases h
    | loop ℓ h =>
      rcases h with hg | ⟨j, hj, -⟩
      · cases hg
      · cases hj
  running := rfl
  init := rfl

theorem Equipped.server {a : Application T L} (h : a.Equipped) {x : TcpServer.Action T L}
    (hok : accepts x = true → a.server.config.connectionCallback_ = true ∧
      a.server.config.messageCallback_ = true) {s : TcpServer T L} (hs : a.server.act x = some s) :
    ({ a with server := s } : Application T L).Equipped where
  furnished c hc := by
    have hnew : (∃ ioLoop sockfd, x = .newConnection ioLoop sockfd) → ∀ name sockfd,
        (TcpConnection.new name sockfd a.server.callbacks).Furnished := by
      rintro ⟨ioLoop, sockfd, rfl⟩ name sockfd'
      exact hok rfl
    rcases TcpServer.mentioned_act hs hc with hm | ⟨rfl, ioLoop, sockfd, rfl⟩
    · exact TcpServer.upkeep_act upkeep_furnished hnew hs (h.furnished c hm)
    · obtain ⟨-, -, -, rfl⟩ := TcpServer.act_newConnection hs
      show ((a.server.newConnection ioLoop sockfd).conns a.server.nextConnId_).Furnished
      rw [TcpServer.newConnection_conns, if_pos rfl]
      exact hnew ⟨ioLoop, sockfd, rfl⟩ _ _
  running := (TcpServer.terminated_act h.furnished hs).trans h.running
  init := h.init

omit [Fintype L] [DecidableEq L] [DecidableEq T] in
/-- The setters of the server write its configuration. -/
theorem Equipped.setConfig {a : Application T L} (h : a.Equipped) (config : Config L) :
    ({ a with server.config := config } : Application T L).Equipped where
  furnished c hc := h.furnished c (hc.congr (fun _ => id) rfl rfl rfl)
  running := h.running
  init := h.init

theorem Equipped.step {a a' : Application T L} {x : Action T L} (h : a.Equipped)
    (hok : a.Equips x) (hs : a.step x = some a') : a'.Equipped := by
  simp only [Application.step, Option.ite_none_left_eq_some] at hs
  replace hs := hs.2
  cases x with
  | server x =>
    simp only [act, Option.ite_none_left_eq_some, Option.map_eq_some_iff] at hs
    obtain ⟨-, s, hs, rfl⟩ := hs
    exact h.server hok hs
  | start =>
    obtain rfl := Option.some.inj hs
    refine ⟨h.furnished, h.running, ?_⟩
    simp only [Application.start]
    split
    · rw [EventLoopThreadPool.start_thrown]
      exact h.init
    · exact h.init
  | setThreadNum n =>
    obtain rfl := Option.some.inj hs
    exact ⟨h.furnished, h.running, h.init⟩
  | setThreadInitCallback cb =>
    obtain rfl := Option.some.inj hs
    exact ⟨h.furnished, h.running, h.init⟩
  | setConnectionCallback cb =>
    obtain rfl := Option.some.inj hs
    exact h.setConfig _
  | setMessageCallback cb =>
    obtain rfl := Option.some.inj hs
    exact h.setConfig _
  | setWriteCompleteCallback cb =>
    obtain rfl := Option.some.inj hs
    exact h.setConfig _
  | onConnection c x =>
    obtain ⟨s, hcall, rfl⟩ := Option.map_eq_some_iff.mp hs
    refine ⟨fun c' hc' => ?_, ?_, h.init⟩
    · exact TcpServer.upkeep_userCall (f := Site.set x)
        (fun w hw => ConnSetter.furnished_apply hok hw)
        (h.furnished c' (TcpServer.mentioned_userCall hcall hc')) hcall
    · exact (TcpServer.terminated_userCall (f := Site.set x) (fun _ _ => rfl) h.furnished
        hcall).trans h.running

/-- In every run in which connections are accepted with both callbacks set on the server,
and neither is taken away from one, no empty function is called. -/
theorem no_bad_function_call (config : Config L) (threadInitCallback_ : Bool)
    (as : List (Action T L)) {a : Application T L}
    (hg : Execution.Guarded step Equips (fresh config threadInitCallback_) as)
    (hr : Execution.exec step (fresh config threadInitCallback_) as = some a) : a.Equipped :=
  Execution.exec_invariant Equipped (fun _ _ _ h hok hs => h.step hok hs)
    (equipped_fresh config threadInitCallback_) hg hr

end Application

/-! ## Where one of them is not -/

theorem handleEventWithGuard_of_readable {ch : Channel} (h : ch.revents_ = POLLIN) :
    ch.handleEventWithGuard = [.readCallback] := by
  rw [Channel.handleEventWithGuard, h]
  decide

theorem established_new (name : List Char) (sockfd : Int) (callbacks : Callbacks) (c : ConnId) :
    ∀ w : Site ConnId,
    w = Site.connectEstablished c { conn := TcpConnection.new name sockfd callbacks } →
    w.conn.toCallbacks = callbacks ∧ w.conn.inputBuffer_ = .new kInitialSize ∧
      ∃ events, w.poller.epoll w.conn.channel_.fd_ = some (c, events) := by
  rintro w rfl
  simp only [Site.connectEstablished, Site.invoke_conn, Site.invoke_poller]
  refine ⟨rfl, rfl, 0 ||| Channel.kReadEvent, ?_⟩
  show Function.update _ _ _ sockfd = _
  exact Function.update_self _ _ _

namespace TcpServer

variable {T : Type u} {L : Type v} [Fintype L] [DecidableEq L] [DecidableEq T]

/-- The base loop has accepted one connection and runs `connectEstablished`. -/
def firstAccept (loop_ : L) : List (Action T L) :=
  [.poll loop_ [], .newConnection loop_ 7, .run loop_ (.delivered []) (.took 0)]

/-- A connection on the base loop that a message can come for. -/
structure Awaiting (s : TcpServer T L) (c : ConnId) : Prop where
  intact : s.dangling = false
  alive : s.status = .alive
  loop : ∃ p, s.loops s.config.loop_ = { phase := .handling [], poller := p } ∧
    ∃ events, p.epoll (s.conns c).channel_.fd_ = some (c, events)
  fresh : (s.conns c).inputBuffer_ = .new kInitialSize
  listed : c ∈ s.connections_.map (·.2)

/-- The base loop has accepted the descriptor 7. -/
def accepted (config : Config L) : TcpServer T L :=
  ((fresh config).setLoop config.loop_ { phase := .handling [] }).newConnection config.loop_ 7

theorem exec_accepted (config : Config L) :
    Execution.exec step (fresh config : TcpServer T L)
      [.poll config.loop_ [], .newConnection config.loop_ 7] = some (accepted config) := by
  set m : TcpServer T L := (fresh config).setLoop config.loop_ { phase := .handling [] } with hm
  have hpoll : (fresh config : TcpServer T L).step (.poll config.loop_ []) = some m := by
    simp [step, act, fresh, looping, Loop.idle, setLoop, hm]
    rfl
  have haccept : m.step (.newConnection config.loop_ 7) = some (accepted config) := by
    simp [step, act, fresh, Loop.idle, setLoop, freeFd, hm, accepted]
  exact Execution.exec_cons_some.mpr ⟨m, hpoll, Execution.exec_cons_some.mpr ⟨_, haccept, rfl⟩⟩

omit [Fintype L] [DecidableEq T] in
theorem accepted_loop (config : Config L) : (accepted config : TcpServer T L).loops config.loop_ =
    { phase := .handling [], work := [.connectEstablished 1] } := by
  simp [accepted, newConnection, fresh, addConnection, runInLoop, callNext, setLoop]

omit [Fintype L] [DecidableEq T] in
theorem accepted_conn (config : Config L) : ∃ name callbacks,
    (accepted config : TcpServer T L).conns 1 = TcpConnection.new name 7 callbacks ∧
      callbacks.connectionCallback_ = config.connectionCallback_ ∧
      callbacks.messageCallback_ = config.messageCallback_ := by
  refine ⟨connName config.name_ config.listenAddr.toIpPort 1,
    (fresh config : TcpServer T L).callbacks, ?_, rfl, rfl⟩
  simp [accepted, newConnection, fresh, addConnection, runInLoop, callNext, setLoop, ipPort_,
    callbacks]

omit [Fintype L] [DecidableEq T] in
theorem accepted_listed (config : Config L) :
    (accepted config : TcpServer T L).connections_.map (·.2) = [1] := by
  simp [accepted, newConnection, fresh, addConnection, runInLoop, callNext, setLoop,
    ConnectionMap.insert, ConnectionMap.eraseKey]

omit [Fintype L] [DecidableEq T] in
theorem accepted_rest (config : Config L) : (accepted config : TcpServer T L).terminated = false ∧
    (accepted config : TcpServer T L).dangling = false ∧
    (accepted config : TcpServer T L).status = .alive ∧
    (accepted config : TcpServer T L).config = config := by
  simp [accepted, newConnection, fresh, addConnection, runInLoop, callNext, setLoop]

theorem first_accept (config : Config L) : ∃ s : TcpServer T L,
    Execution.exec step (fresh config) (firstAccept config.loop_) = some s ∧
      s.terminated = !config.connectionCallback_ ∧
      (s.conns 1).messageCallback_ = config.messageCallback_ ∧ s.config = config ∧
      s.Awaiting 1 := by
  obtain ⟨name, callbacks, hconn, hconnection, hmessage⟩ := accepted_conn (T := T) config
  obtain ⟨hrun, hintact, halive, hconfig⟩ := accepted_rest (T := T) config
  have hloop := accepted_loop (T := T) config
  have hlisted := accepted_listed (T := T) config
  have hexec := exec_accepted (T := T) config
  set s : TcpServer T L := accepted config
  set m := s.popJob config.loop_ (.connectEstablished 1) [] with hm
  have hwork : m.loops config.loop_ = { phase := .handling [] } := by
    simp [hm, popJob, setLoop, hloop]
  set w := Site.connectEstablished (1 : ConnId) { conn := s.conns 1 } with hw
  have hlast : s.step (.run config.loop_ (.delivered []) (.took 0)) =
      some (m.onConn config.loop_ 1 (Site.connectEstablished 1)) := by
    simp [step, act, hrun, hintact, hloop, runJob, hm]
  have hsite : Site.connectEstablished (1 : ConnId)
      { conn := m.conns 1, poller := (m.loops config.loop_).poller } = w := by
    rw [hwork]
    rfl
  have hconns : (m.onConn config.loop_ 1 (Site.connectEstablished 1)).conns 1 = w.conn := by
    rw [onConn_conns, if_pos rfl, hsite]
  obtain ⟨hcallbacks, hfresh, events, hwatched⟩ :=
    established_new name 7 callbacks 1 w (by rw [hw, hconn])
  obtain ⟨hqueued, hclosing, -, hthrown⟩ :=
    Site.connectEstablished_calls 1 ({ conn := s.conns 1 } : Site ConnId)
  refine ⟨m.onConn config.loop_ 1 (Site.connectEstablished 1), ?_, ?_, ?_, hconfig, hintact,
    halive, ⟨w.poller, ?_, events, ?_⟩, ?_, ?_⟩
  · have hsplit : (firstAccept config.loop_ : List (Action T L)) =
        [.poll config.loop_ [], .newConnection config.loop_ 7] ++
          [.run config.loop_ (.delivered []) (.took 0)] := rfl
    rw [hsplit, Execution.exec_append, hexec]
    exact Execution.exec_cons_some.mpr ⟨_, hlast, rfl⟩
  · simp only [onConn, hsite]
    show (s.terminated || w.thrown) = _
    rw [hrun, hthrown, hconn]
    exact congrArg (!·) hconnection
  · rw [hconns, ← hmessage]
    exact congrArg Callbacks.messageCallback_ hcallbacks
  · have hc : (m.onConn config.loop_ 1 (Site.connectEstablished 1)).config = config := hconfig
    have hsame : m.conns = s.conns := rfl
    rw [hc]
    simp only [onConn, Function.update_self, hwork, hsame, hqueued, hclosing]
    rfl
  · rw [hconns]
    exact hwatched
  · rw [hconns]
    exact hfresh
  · show 1 ∈ s.connections_.map (·.2)
    rw [hlisted]
    exact List.mem_singleton_self 1

/-- The loop comes round and reads a message of one byte. -/
def firstMessage (loop_ : L) (c : ConnId) : List (Action T L) :=
  [.swap loop_, .finish loop_, .poll loop_ [(c, POLLIN)], .dispatch loop_,
    .run loop_ (.delivered [65]) (.took 0)]

/-- The event comes to the channel, which has its read callback called. -/
theorem first_dispatch {s : TcpServer T L} {c : ConnId} (h : s.Awaiting c)
    (hrun : s.terminated = false) : ∃ s' : TcpServer T L,
    Execution.exec step s [.swap s.config.loop_, .finish s.config.loop_,
      .poll s.config.loop_ [(c, POLLIN)], .dispatch s.config.loop_] = some s' ∧
    s'.terminated = false ∧ s'.dangling = false ∧
    (s'.loops s.config.loop_).work = [.handle .readCallback c] ∧
    s'.conns c = { s.conns c with channel_.revents_ := POLLIN } := by
  obtain ⟨hintact, halive, ⟨p, hloop, events, hwatched⟩, -, hlisted⟩ := h
  set ℓ := s.config.loop_ with hℓ
  set s1 := s.setLoop ℓ { phase := .calling, poller := p } with hs1
  have h1 : s.step (.swap ℓ) = some s1 := by
    simp [step, act, hrun, hintact, looping, halive, hloop, Loop.idle, TaskQueue.swap, hs1]
  have hloop1 : s1.loops ℓ = { phase := .calling, poller := p } := by simp [hs1, setLoop]
  set s2 := s1.setLoop ℓ { phase := .polling, poller := p } with hs2
  have h2 : s1.step (.finish ℓ) = some s2 := by
    have hhere : s1.terminated = false ∧ s1.dangling = false ∧ s1.status = .alive :=
      ⟨hrun, hintact, halive⟩
    simp [step, act, hhere, looping, hloop1, Loop.idle, TaskQueue.finish, hs2]
  have hloop2 : s2.loops ℓ = { phase := .polling, poller := p } := by simp [hs2, setLoop]
  set s3 : TcpServer T L := { s2.setLoop ℓ { phase := .handling [c], poller := p } with
    conns := setRevents [(c, POLLIN)] s.conns } with hs3
  have h3 : s2.step (.poll ℓ [(c, POLLIN)]) = some s3 := by
    have hhere : s2.terminated = false ∧ s2.dangling = false ∧ s2.status = .alive :=
      ⟨hrun, hintact, halive⟩
    have hconns : s2.conns = s.conns := rfl
    simp [step, act, hhere, hconns, looping, hloop2, Loop.idle, watched, hwatched, hs3]
  have hloop3 : s3.loops ℓ = { phase := .handling [c], poller := p } := by simp [hs3, setLoop]
  have hconn3 : s3.conns c = { s.conns c with channel_.revents_ := POLLIN } := by
    simp [hs3, setRevents]
  set m := s3.setLoop ℓ { phase := .handling [], poller := p } with hm
  have h4 : s3.step (.dispatch ℓ) = some (m.handleEvent ℓ c) := by
    have hhere : s3.terminated = false ∧ s3.dangling = false ∧ s3.status = .alive :=
      ⟨hrun, hintact, halive⟩
    simp [step, act, hhere, looping, hloop3, Loop.idle, hm]
  have howned : m.useCount c ≠ 0 := fun hzero => (useCount_eq_zero.mp hzero).1 hlisted
  have hevent : m.handleEvent ℓ c = m.setLoop ℓ
      { phase := .handling [], guard := if (s.conns c).channel_.tied_ then some c else none,
        work := [.handle .readCallback c], poller := p } := by
    have hjobs : (s3.conns c).channel_.handleEventWithGuard = [.readCallback] := by
      rw [hconn3]
      exact handleEventWithGuard_of_readable rfl
    have hconns : m.conns = s3.conns := rfl
    rw [handleEvent]
    simp only [hconns, howned, if_false, hjobs]
    rw [hconn3]
    simp [hm, setLoop]
  refine ⟨m.handleEvent ℓ c, ?_, ?_, ?_, ?_, ?_⟩
  · exact Execution.exec_cons_some.mpr ⟨s1, h1, Execution.exec_cons_some.mpr ⟨s2, h2,
      Execution.exec_cons_some.mpr ⟨s3, h3, Execution.exec_cons_some.mpr ⟨_, h4, rfl⟩⟩⟩⟩
  · rw [hevent]
    exact hrun
  · rw [hevent]
    exact hintact
  · rw [hevent]
    simp [setLoop]
  · rw [hevent]
    exact hconn3

/-- Reading one byte calls the message callback. -/
theorem first_read (w : Site ConnId) (c : ConnId)
    (hfresh : w.conn.inputBuffer_ = .new kInitialSize) :
    (w.callback c (.delivered [65]) (.took 0) .readCallback).thrown =
      (w.thrown || !w.conn.messageCallback_) := by
  have hread : ((SoundBuffer.new kInitialSize).readFd (.delivered [65])).1 = 1 := by decide +kernel
  rcases Site.callback_cases c w (.delivered [65]) (.took 0) .readCallback with
    ⟨hcl, -⟩ | ⟨-, -, -, -, hcalls⟩ | ⟨-, hdel, -⟩
  · simp [Site.closes, hfresh, hread] at hcl
  · exact hcalls.thrown
  · simp [Site.delivers, hfresh, hread] at hdel

theorem first_message {s : TcpServer T L} {c : ConnId} (h : s.Awaiting c)
    (hrun : s.terminated = false) :
    ∃ s' : TcpServer T L, Execution.exec step s (firstMessage s.config.loop_ c) = some s' ∧
      s'.terminated = !(s.conns c).messageCallback_ := by
  obtain ⟨m, hm, hmrun, hmintact, hwork, hconn⟩ := first_dispatch h hrun
  set ℓ := s.config.loop_ with hℓ
  set t := m.popJob ℓ (.handle .readCallback c) [] with ht
  have hlast : m.step (.run ℓ (.delivered [65]) (.took 0)) = some
      (t.onConn ℓ c (Site.callback c (.delivered [65]) (.took 0) .readCallback)) := by
    simp [step, act, hmrun, hmintact, hwork, runJob, ht]
  have hsame : t.conns c = { s.conns c with channel_.revents_ := POLLIN } := hconn
  have hthrown := first_read { conn := t.conns c, poller := (t.loops ℓ).poller } c
    (by rw [hsame]; exact h.fresh)
  refine ⟨t.onConn ℓ c (Site.callback c (.delivered [65]) (.took 0) .readCallback), ?_, ?_⟩
  · have hsplit : (firstMessage ℓ c : List (Action T L)) =
        [.swap ℓ, .finish ℓ, .poll ℓ [(c, POLLIN)], .dispatch ℓ] ++
          [.run ℓ (.delivered [65]) (.took 0)] := rfl
    rw [hsplit, Execution.exec_append, hm]
    exact Execution.exec_cons_some.mpr ⟨_, hlast, rfl⟩
  · simp only [onConn]
    show (m.terminated || _) = _
    rw [hthrown, hsame, hmrun]
    rfl

end TcpServer

namespace Application

variable {T : Type u} {L : Type v} [Fintype L] [DecidableEq L] [DecidableEq T]

/-- A run of the started server alone. -/
theorem exec_server {a : Application T L} (hstarted : a.started_ ≠ 0)
    (hinit : a.pool.thrown = false) {as : List (TcpServer.Action T L)} {s : TcpServer T L}
    (hr : Execution.exec TcpServer.step a.server as = some s) :
    Execution.exec step a (as.map .server) = some { a with server := s } := by
  induction as generalizing a with
  | nil =>
    obtain rfl := Option.some.inj hr
    rfl
  | cons x as ih =>
    obtain ⟨m, hm, hrest⟩ := Execution.exec_cons_some.mp hr
    obtain ⟨hrun, hintact, hact⟩ := TcpServer.step_eq hm
    have hstep : a.step (.server x) = some { a with server := m } := by
      simp [step, act, hrun, hintact, hinit, hstarted, hact]
    exact Execution.exec_cons_some.mpr
      ⟨_, hstep, ih (a := { a with server := m }) hstarted hinit hrest⟩

/-- The setters pass functions with a target for the two callbacks. -/
def Action.targeted : Action T L → Bool
  | .setConnectionCallback cb | .setMessageCallback cb => cb
  | .onConnection _ x => x.targeted
  | _ => true

/-- Both callbacks are set on the server, and stay so. -/
theorem targeted_step {a a' : Application T L} {x : Action T L}
    (h : a.Equipped ∧ a.server.config.connectionCallback_ = true ∧
      a.server.config.messageCallback_ = true) (hx : x.targeted = true)
    (hs : a.step x = some a') : a'.Equipped ∧ a'.server.config.connectionCallback_ = true ∧
      a'.server.config.messageCallback_ = true := by
  have hok : a.Equips x := by
    cases x with
    | server x => exact fun _ => h.2
    | onConnection c x => exact hx
    | start | setThreadNum _ | setThreadInitCallback _ | setConnectionCallback _
    | setMessageCallback _ | setWriteCompleteCallback _ => trivial
  refine ⟨h.1.step hok hs, ?_⟩
  simp only [step, Option.ite_none_left_eq_some] at hs
  replace hs := hs.2
  cases x with
  | server x =>
    simp only [act, Option.ite_none_left_eq_some, Option.map_eq_some_iff] at hs
    obtain ⟨-, s, hs, rfl⟩ := hs
    show s.config.connectionCallback_ = true ∧ s.config.messageCallback_ = true
    rw [TcpServer.config_act hs]
    exact h.2
  | start =>
    obtain rfl := Option.some.inj hs
    exact h.2
  | setThreadNum n =>
    obtain rfl := Option.some.inj hs
    exact h.2
  | setThreadInitCallback cb =>
    obtain rfl := Option.some.inj hs
    exact h.2
  | setConnectionCallback cb =>
    obtain rfl := Option.some.inj hs
    exact ⟨hx, h.2.2⟩
  | setMessageCallback cb =>
    obtain rfl := Option.some.inj hs
    exact ⟨h.2.1, hx⟩
  | setWriteCompleteCallback cb =>
    obtain rfl := Option.some.inj hs
    exact h.2
  | onConnection c x =>
    obtain ⟨s, hcall, rfl⟩ := Option.map_eq_some_iff.mp hs
    obtain ⟨-, -, rfl⟩ := TcpServer.userCall_eq hcall
    exact h.2

/-- A run that calls an empty function, where one of the two callbacks is not set. -/
theorem throws (config : Config L) (threadInitCallback_ : Bool)
    (h : config.connectionCallback_ = false ∨ config.messageCallback_ = false) :
    ∃ (as : List (TcpServer.Action T L)) (a : Application T L), Execution.exec step
      (fresh config threadInitCallback_) (.start :: as.map .server) = some a ∧
      a.server.terminated = true := by
  have hstart : (fresh config threadInitCallback_ : Application T L).step .start =
      some (fresh config threadInitCallback_).start := by
    simp [step, act, fresh, TcpServer.fresh]
  have hinit : (fresh config threadInitCallback_ : Application T L).start.pool.thrown = false := by
    simp [start, fresh, EventLoopThreadPool.start_thrown]
  have hlift : ∀ as (s : TcpServer T L), Execution.exec TcpServer.step (.fresh config) as = some s →
      ∃ a : Application T L, Execution.exec step (fresh config threadInitCallback_)
        (.start :: as.map .server) = some a ∧ a.server = s := by
    intro as s hs
    refine ⟨_, Execution.exec_cons_some.mpr ⟨_, hstart, exec_server ?_ hinit hs⟩, rfl⟩
    exact Nat.succ_ne_zero _
  obtain ⟨s, hs, hthrown, hmessage, hconfig, hawaiting⟩ := TcpServer.first_accept (T := T) config
  cases hc : config.connectionCallback_ with
  | false =>
    obtain ⟨a, ha, hserver⟩ := hlift _ s hs
    refine ⟨_, a, ha, ?_⟩
    rw [hserver, hthrown, hc]
    rfl
  | true =>
    have hm : config.messageCallback_ = false := by simpa [hc] using h
    obtain ⟨s', hs', hthrown'⟩ := TcpServer.first_message hawaiting (by rw [hthrown, hc]; rfl)
    have hboth : Execution.exec TcpServer.step (.fresh config)
        (TcpServer.firstAccept config.loop_ ++ TcpServer.firstMessage config.loop_ 1) =
        some s' := by
      rw [Execution.exec_append, hs]
      rw [hconfig] at hs'
      exact hs'
    obtain ⟨a, ha, hserver⟩ := hlift _ s' hboth
    refine ⟨_, a, ha, ?_⟩
    rw [hserver, hthrown', hmessage, hm]
    rfl

/-- For every choice of callbacks: no run calls an empty function exactly where the
connection callback and the message callback are set on the server. -/
theorem bad_function_call_unreachable_iff (config : Config L) (threadInitCallback_ : Bool) :
    (∀ as : List (Action T L), (∀ x ∈ as, x.targeted = true) → ∀ a,
      Execution.exec step (fresh config threadInitCallback_) as = some a →
      a.server.terminated = false ∧ a.pool.thrown = false) ↔
    config.connectionCallback_ = true ∧ config.messageCallback_ = true := by
  constructor
  · intro h
    by_contra hunset
    have hempty : config.connectionCallback_ = false ∨ config.messageCallback_ = false := by
      cases hc : config.connectionCallback_ <;> cases hm : config.messageCallback_ <;>
        simp [hc, hm] at hunset ⊢
    obtain ⟨as, a, hr, hthrown⟩ := throws (T := T) config threadInitCallback_ hempty
    have hsafe := h (.start :: as.map .server) (fun x hx => ?_) a hr
    · rw [hthrown] at hsafe
      exact absurd hsafe.1 (by decide)
    · rcases List.mem_cons.mp hx with rfl | hx
      · rfl
      · obtain ⟨y, -, rfl⟩ := List.mem_map.mp hx
        rfl
  · intro hset as has a hr
    have hinv := Execution.exec_invariant
      (fun a : Application T L => a.Equipped ∧ a.server.config.connectionCallback_ = true ∧
        a.server.config.messageCallback_ = true)
      (fun _ _ _ h hx hs => targeted_step h hx hs)
      ⟨equipped_fresh config threadInitCallback_, hset⟩
      (Execution.guarded_of_forall has (fresh config threadInitCallback_)) hr
    exact ⟨hinv.1.running, hinv.1.init⟩

/-- A server on which no callback has been set accepts a connection. -/
theorem bad_function_call_reachable :
    ¬∀ (config : Config Bool) (cb : Bool) (as : List (Action Unit Bool)) a,
      Execution.exec step (fresh config cb) as = some a →
      a.server.terminated = false ∧ a.pool.thrown = false := by
  intro h
  have hrun : (Execution.exec step
      (fresh ⟨false, ⟨(127, 0, 0, 1), 8000⟩, ['s'], false, false, false⟩ false :
        Application Unit Bool)
      [.start, .server (.poll false []), .server (.newConnection false 7),
        .server (.run false (.delivered []) (.took 0))]).map (fun a => a.server.terminated) =
      some true := by decide +kernel
  obtain ⟨a, ha, hthrown⟩ := Option.map_eq_some_iff.mp hrun
  rw [(h _ _ _ a ha).1] at hthrown
  cases hthrown

end Application

end Mymuduo

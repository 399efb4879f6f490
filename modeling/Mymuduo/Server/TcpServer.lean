import Mathlib.Algebra.BigOperators.Group.Finset.Basic
import Mathlib.Data.Fintype.Basic
import Mathlib.Logic.Function.Basic
import Mymuduo.Connection.TcpConnection
import Mymuduo.Library.TaskQueue
import Mymuduo.Server.Life
import Mymuduo.Server.Naming

/-!
# The server, its loops and its connections

A server with a base loop and any number of io loops, each running on a thread
of its own. A loop's thread polls, handles the channels reported to it and then
runs a batch of functors; what it still has to do of the handler or functor it
is in is a list of jobs. A job is one method of a connection or of the server,
up to the point where user code may run or the rest is left to another thread.
User code may run on a loop's thread between any two of its jobs. Who holds a
`TcpConnectionPtr` is read off the state. The io loops may go on after
`~TcpServer`, since `threadPool_` is shared.

The wakeup and acceptor channels are left out: a loop may return from its poll
at any time, and the base loop may accept a connection while it handles events.
-/

namespace Mymuduo

open Mymuduo.Library

universe u v

/-- A connection is named by the `nextConnId_` it was created with. -/
abbrev ConnId := Nat

inductive Job
  | connectEstablished (c : ConnId)
  /-- `connectDestroyed` up to its last statement, which is `removeChannel` -/
  | connectDestroyed (c : ConnId)
  | removeChannel (c : ConnId)
  | removeConnectionInLoop (c : ConnId)
  /-- the last statement of `handleClose`, bound to `removeConnection` -/
  | closeCallback (c : ConnId)
  /-- a callback that `handleEventWithGuard` still has to run -/
  | handle (callback : ChannelCallback) (c : ConnId)
  | notice (n : Notice) (c : ConnId)
  | sendInLoop (c : ConnId) (data : List Byte)
  | shutdownInLoop (c : ConnId)
  deriving DecidableEq

def Job.conn : Job → ConnId
  | connectEstablished c | connectDestroyed c | removeChannel c | removeConnectionInLoop c
  | closeCallback c | handle _ c | notice _ c | sendInLoop c _ | shutdownInLoop c => c

/-- The connection of which a job holds a `TcpConnectionPtr`: bound to the
functor, or as `guardThis`. `send` and `shutdown` bind the raw `this`. -/
def Job.owner : Job → Option ConnId
  | connectEstablished c | connectDestroyed c | removeChannel c | removeConnectionInLoop c
  | closeCallback c | notice _ c => some c
  | handle _ _ | sendInLoop _ _ | shutdownInLoop _ => none

inductive Phase
  | polling
  /-- the channels of `activeChannels_` not yet handled -/
  | handling (activeChannels_ : List ConnId)
  /-- in `doPendingFunctors` -/
  | calling
  deriving DecidableEq

structure Loop where
  phase : Phase := .polling
  /-- the guard of `Channel::handleEvent` -/
  guard : Option ConnId := none
  /-- what is left of the handler or functor the thread is in -/
  work : List Job := []
  queue : TaskQueue Job := {}
  poller : EPollPoller ConnId := {}

namespace Loop

def activeChannels_ (l : Loop) : List ConnId :=
  match l.phase with
  | .handling active => active
  | _ => []

/-- All jobs of the loop, in the order in which they will run. -/
def agenda (l : Loop) : List Job := l.work ++ l.queue.waiting

/-- The thread is between two handlers or functors. -/
def idle (l : Loop) : Bool := l.work.isEmpty && l.guard.isNone

theorem idle_iff {l : Loop} : l.idle = true ↔ l.work = [] ∧ l.guard = none := by
  simp [idle]

/-- The connections of which the loop holds a `TcpConnectionPtr`. -/
def owners (l : Loop) : List ConnId :=
  l.guard.toList ++ (l.work ++ l.queue.held).filterMap Job.owner

end Loop

/-- `ConnectionMap`: each entry with its key. -/
abbrev ConnectionMap := List (List Char × ConnId)

/-- `connections_.erase(key)`. -/
def ConnectionMap.eraseKey (m : ConnectionMap) (key : List Char) : ConnectionMap :=
  m.filter fun e => e.1 ≠ key

/-- `connections_[key] = c`. -/
def ConnectionMap.insert (m : ConnectionMap) (key : List Char) (c : ConnId) : ConnectionMap :=
  m.eraseKey key ++ [(key, c)]

/-- What the constructor and the setters fix. -/
structure Config (L : Type v) where
  loop_ : L
  listenAddr : InetAddress
  name_ : List Char
  connectionCallback_ : Bool
  messageCallback_ : Bool
  writeCompleteCallback_ : Bool

/-- Where a thread that is no loop's thread stands in `send` or `shutdown`. -/
inductive Caller
  | idle
  | sending (c : ConnId) (data : List Byte)
  | leaving (c : ConnId)
  | left (c : ConnId)
  deriving DecidableEq

structure TcpServer (T : Type u) (L : Type v) where
  config : Config L
  status : Status := .alive
  nextConnId_ : Nat := 1
  connections_ : ConnectionMap := []
  loops : L → Loop := fun _ => {}
  conns : ConnId → TcpConnection := fun _ => TcpConnection.new [] (-1) {}
  /-- `loop_` of a connection -/
  loopOf : ConnId → L
  /-- copies of a `TcpConnectionPtr` that user code keeps -/
  refs : ConnId → Nat := fun _ => 0
  caller : T → Caller := fun _ => .idle
  /-- history: the user callbacks of each connection -/
  invoked : ConnId → List Invocation := fun _ => []
  /-- history: the jobs done, each with the server's status at that time -/
  done : List (Job × Status) := []
  /-- history: an event has been dispatched to a connection without owner -/
  dangling : Bool := false
  /-- `std::bad_function_call` has ended the process -/
  terminated : Bool := false

namespace TcpServer

variable {T : Type u} {L : Type v}

/-- A server as its constructor leaves it, with fresh loops. -/
def fresh (config : Config L) : TcpServer T L where
  config := config
  loopOf := fun _ => config.loop_

def ipPort_ (s : TcpServer T L) : List Char := s.config.listenAddr.toIpPort

/-- A connection that has been accepted. -/
def Born (s : TcpServer T L) (c : Nat) : Prop := 1 ≤ c ∧ c < s.nextConnId_

instance (s : TcpServer T L) (c : Nat) : Decidable (s.Born c) :=
  inferInstanceAs (Decidable (_ ∧ _))

/-- The holders of the connection. A functor that runs is counted with its batch
and with what is left of it. -/
def useCount [Fintype L] (s : TcpServer T L) (c : ConnId) : Nat :=
  s.connections_.countP (·.2 = c) + s.refs c + ∑ ℓ, (s.loops ℓ).owners.count c

section Steps

variable [DecidableEq L]

def setLoop (ℓ : L) (l : Loop) (s : TcpServer T L) : TcpServer T L :=
  { s with loops := Function.update s.loops ℓ l }

def queueInLoop (ℓ : L) (job : Job) (s : TcpServer T L) : TcpServer T L :=
  s.setLoop ℓ { s.loops ℓ with queue := (s.loops ℓ).queue.push job }

/-- Go on with `job`. -/
def callNext (ℓ : L) (job : Job) (s : TcpServer T L) : TcpServer T L :=
  s.setLoop ℓ { s.loops ℓ with work := job :: (s.loops ℓ).work }

/-- `target->runInLoop(job)`, called on the thread of `ℓ`. -/
def runInLoop (ℓ target : L) (job : Job) (s : TcpServer T L) : TcpServer T L :=
  if ℓ = target then s.callNext ℓ job else s.queueInLoop target job

/-- Run a method of connection `c` on the thread of `ℓ`. -/
def onConn (ℓ : L) (c : ConnId) (f : Site ConnId → Site ConnId) (s : TcpServer T L) :
    TcpServer T L :=
  let l := s.loops ℓ
  let w := f { conn := s.conns c, poller := l.poller }
  { s with
    conns := Function.update s.conns c w.conn
    loops := Function.update s.loops ℓ
      { l with
        work := (if w.closing then [.closeCallback c] else []) ++ l.work
        queue := l.queue.pushAll (w.queued.map (.notice · c))
        poller := w.poller }
    invoked := Function.update s.invoked c (s.invoked c ++ w.invoked)
    terminated := s.terminated || w.thrown }

def removeConnection (ℓ : L) (c : ConnId) (s : TcpServer T L) : TcpServer T L :=
  s.runInLoop ℓ s.config.loop_ (.removeConnectionInLoop c)

def removeConnectionInLoop (c : ConnId) (s : TcpServer T L) : TcpServer T L :=
  let s := { s with connections_ := s.connections_.eraseKey (s.conns c).name_ }
  s.queueInLoop (s.loopOf c) (.connectDestroyed c)

/-- The thread of `ℓ` takes up a job. -/
def popJob (ℓ : L) (job : Job) (rest : List Job) (s : TcpServer T L) : TcpServer T L :=
  { s.setLoop ℓ { s.loops ℓ with work := rest } with done := s.done ++ [(job, s.status)] }

/-- One job on the thread of `ℓ`, with the kernel's answers. A `sendInLoop` or `shutdownInLoop`,
bound to the raw pointer, is run here as if its connection still lived. -/
def runJob (ℓ : L) (read : ReadvResult) (write : WriteResult) (s : TcpServer T L) :
    Job → TcpServer T L
  | .connectEstablished c => s.onConn ℓ c (Site.connectEstablished c)
  | .connectDestroyed c => (s.onConn ℓ c (Site.leaveConnected c)).callNext ℓ (.removeChannel c)
  | .removeChannel c => s.onConn ℓ c (Site.channel .remove c)
  | .removeConnectionInLoop c => s.removeConnectionInLoop c
  | .closeCallback c => s.removeConnection ℓ c
  | .handle callback c => s.onConn ℓ c (Site.callback c read write callback)
  | .notice _ _ => s
  | .sendInLoop c data => s.onConn ℓ c (Site.sendInLoop c data write)
  | .shutdownInLoop c => s.onConn ℓ c Site.shutdownInLoop

/-- What `newConnection` sets on each connection; the close callback is
`removeConnection`. -/
def callbacks (s : TcpServer T L) : Callbacks where
  connectionCallback_ := s.config.connectionCallback_
  messageCallback_ := s.config.messageCallback_
  writeCompleteCallback_ := s.config.writeCompleteCallback_
  closeCallback_ := true

/-- The part of `newConnection` that creates the connection and stores it. -/
def addConnection (ioLoop : L) (sockfd : Int) (s : TcpServer T L) : TcpServer T L :=
  let c := s.nextConnId_
  let name := connName s.config.name_ s.ipPort_ c
  { s with
    nextConnId_ := c + 1
    conns := Function.update s.conns c (TcpConnection.new name sockfd s.callbacks)
    loopOf := Function.update s.loopOf c ioLoop
    connections_ := s.connections_.insert name c }

/-- `accept` has given `sockfd`; `getNextLoop` has chosen `ioLoop`. -/
def newConnection (ioLoop : L) (sockfd : Int) (s : TcpServer T L) : TcpServer T L :=
  (s.addConnection ioLoop sockfd).runInLoop s.config.loop_ ioLoop (.connectEstablished s.nextConnId_)

/-- `fillActiveChannels`: `set_revents` on each reported channel. -/
def setRevents (reports : List (ConnId × Events)) (conns : ConnId → TcpConnection) :
    ConnId → TcpConnection :=
  fun c =>
    match reports.lookup c with
    | some revents => { conns c with channel_.revents_ := revents }
    | none => conns c

/-- `Channel::handleEvent` on the thread of `ℓ`. The channel may be gone. -/
def handleEvent [Fintype L] (ℓ : L) (c : ConnId) (s : TcpServer T L) : TcpServer T L :=
  let channel := (s.conns c).channel_
  let jobs := channel.handleEventWithGuard.map (Job.handle · c)
  if s.useCount c = 0 then { s with dangling := true }
  else s.setLoop ℓ { s.loops ℓ with
    guard := if channel.tied_ then some c else none
    work := jobs }

inductive Action (T : Type u) (L : Type v)
  -- a loop's thread
  | poll (ℓ : L) (reports : List (ConnId × Events))
  | dispatch (ℓ : L)
  | release (ℓ : L)
  | swap (ℓ : L)
  | start (ℓ : L)
  | finish (ℓ : L)
  | run (ℓ : L) (read : ReadvResult) (write : WriteResult)
  | newConnection (ioLoop : L) (sockfd : Int)
  | destroy
  | destroyItem (key : List Char) (c : ConnId)
  | destroyEnd
  -- user code on the thread of the connection's loop
  | send (c : ConnId) (data : List Byte) (r : WriteResult)
  | shutdown (c : ConnId)
  | setHighWaterMarkCallback (c : ConnId) (highWaterMark : Nat)
  -- user code anywhere
  | keep (c : ConnId)
  | drop (c : ConnId)
  -- other threads; each holds a copy of the pointer during its call
  | testSend (t : T) (c : ConnId) (data : List Byte)
  | enqueueSend (t : T)
  | testShutdown (t : T) (c : ConnId)
  | storeDisconnecting (t : T)
  | enqueueShutdown (t : T)

/-- The thread of `ℓ` is in its event loop, not in the destructor. -/
def looping (s : TcpServer T L) (ℓ : L) : Bool :=
  !(decide (ℓ = s.config.loop_) && decide (s.status = .destroying))

/-- The kernel reports a channel that is in the interest list of `ℓ`. -/
def watched (s : TcpServer T L) (ℓ : L) (c : ConnId) : Bool :=
  ((s.loops ℓ).poller.epoll (s.conns c).channel_.fd_).map (·.1) = some c

/-- No connection that is still owned has the descriptor. -/
def freeFd [Fintype L] (s : TcpServer T L) (sockfd : Int) : Bool :=
  decide (∀ c < s.nextConnId_, 1 ≤ c → s.useCount c ≠ 0 → (s.conns c).channel_.fd_ ≠ sockfd)

def acquire (c : ConnId) (s : TcpServer T L) : TcpServer T L :=
  { s with refs := Function.update s.refs c (s.refs c + 1) }

def releasePtr (c : ConnId) (s : TcpServer T L) : TcpServer T L :=
  { s with refs := Function.update s.refs c (s.refs c - 1) }

def setCaller [DecidableEq T] (t : T) (x : Caller) (s : TcpServer T L) : TcpServer T L :=
  { s with caller := Function.update s.caller t x }

/-- User code on the thread of the loop of `c` runs a method of `c`. -/
def userCall [Fintype L] (c : ConnId) (f : Site ConnId → Site ConnId) (s : TcpServer T L) :
    Option (TcpServer T L) :=
  if (s.loops (s.loopOf c)).phase ≠ .polling ∧ s.Born c ∧ s.useCount c ≠ 0 then
    some (s.onConn (s.loopOf c) c f)
  else none

/-- An action of a process that has not been terminated. -/
def act [Fintype L] [DecidableEq T] (s : TcpServer T L) : Action T L → Option (TcpServer T L)
  | .poll ℓ reports =>
    let l := s.loops ℓ
    if s.looping ℓ ∧ l.phase = .polling ∧ l.idle ∧ (reports.map (·.1)).Nodup ∧
        ∀ x ∈ reports, s.watched ℓ x.1 then
      some { s.setLoop ℓ { l with phase := .handling (reports.map (·.1)) } with
        conns := setRevents reports s.conns }
    else none
  | .dispatch ℓ =>
    let l := s.loops ℓ
    match l.phase with
    | .handling (c :: rest) =>
      if s.looping ℓ ∧ l.idle then
        some ((s.setLoop ℓ { l with phase := .handling rest }).handleEvent ℓ c)
      else none
    | _ => none
  | .release ℓ =>
    let l := s.loops ℓ
    if l.work = [] ∧ l.guard.isSome then some (s.setLoop ℓ { l with guard := none }) else none
  | .swap ℓ =>
    let l := s.loops ℓ
    if s.looping ℓ ∧ l.phase = .handling [] ∧ l.idle then
      some (s.setLoop ℓ { l with phase := .calling, queue := l.queue.swap })
    else none
  | .start ℓ =>
    let l := s.loops ℓ
    if s.looping ℓ ∧ l.phase = .calling ∧ l.idle then
      l.queue.start.map fun (job, queue) => s.setLoop ℓ { l with work := [job], queue := queue }
    else none
  | .finish ℓ =>
    let l := s.loops ℓ
    if s.looping ℓ ∧ l.phase = .calling ∧ l.idle ∧ l.queue.todo = [] then
      some (s.setLoop ℓ { l with phase := .polling, queue := l.queue.finish })
    else none
  | .run ℓ read write =>
    let l := s.loops ℓ
    match l.work with
    | [] => none
    | job :: rest => some ((s.popJob ℓ job rest).runJob ℓ read write job)
  | .newConnection ioLoop sockfd =>
    let l := s.loops s.config.loop_
    -- `++nextConnId_` must not overflow `int`
    if s.status = .alive ∧ l.phase ≠ .polling ∧ l.phase ≠ .calling ∧ l.idle ∧
        s.nextConnId_ < 0x7fffffff ∧ 0 ≤ sockfd ∧ s.freeFd sockfd then
      some (s.newConnection ioLoop sockfd)
    else none
  | .destroy =>
    if s.status = .alive ∧ (s.loops s.config.loop_).idle then some { s with status := .destroying }
    else none
  -- the order of an unordered_map is left open
  | .destroyItem key c =>
    if s.status = .destroying ∧ (s.loops s.config.loop_).idle ∧ (key, c) ∈ s.connections_ then
      some (({ s with connections_ := s.connections_.erase (key, c) }).runInLoop s.config.loop_
        (s.loopOf c) (.connectDestroyed c))
    else none
  | .destroyEnd =>
    if s.status = .destroying ∧ (s.loops s.config.loop_).idle ∧ s.connections_ = [] then
      some { s with status := .destroyed }
    else none
  | .send c data r => s.userCall c (Site.send c data r)
  | .shutdown c => s.userCall c Site.shutdown
  | .setHighWaterMarkCallback c n => s.userCall c (Site.setHighWaterMarkCallback n)
  | .keep c => if s.Born c ∧ s.useCount c ≠ 0 then some (s.acquire c) else none
  | .drop c => if s.refs c = 0 then none else some (s.releasePtr c)
  | .testSend t c data =>
    if s.caller t = .idle ∧ s.refs c ≠ 0 then
      if (s.conns c).state_ = .kConnected then
        some ((s.acquire c).setCaller t (.sending c data))
      else some s
    else none
  | .enqueueSend t =>
    match s.caller t with
    | .sending c data =>
      some (((s.queueInLoop (s.loopOf c) (.sendInLoop c data)).releasePtr c).setCaller t .idle)
    | _ => none
  | .testShutdown t c =>
    if s.caller t = .idle ∧ s.refs c ≠ 0 then
      if (s.conns c).state_ = .kConnected then some ((s.acquire c).setCaller t (.leaving c))
      else some s
    else none
  | .storeDisconnecting t =>
    match s.caller t with
    | .leaving c =>
      some { s.setCaller t (.left c) with
        conns := Function.update s.conns c { s.conns c with state_ := .kDisconnecting } }
    | _ => none
  | .enqueueShutdown t =>
    match s.caller t with
    | .left c =>
      some (((s.queueInLoop (s.loopOf c) (.shutdownInLoop c)).releasePtr c).setCaller t .idle)
    | _ => none

/-- Nothing is said of what a process does that has touched a dead channel. -/
def step [Fintype L] [DecidableEq T] (s : TcpServer T L) (a : Action T L) :
    Option (TcpServer T L) :=
  if s.terminated || s.dangling then none else s.act a

/-! ## What an action has found and done -/

section Inversion

variable [Fintype L] [DecidableEq T] {s s' : TcpServer T L} {ℓ : L} {c : ConnId} {t : T}

-- the equations of `act`, for all the lemmas below
attribute [local simp] act

theorem act_poll {reports : List (ConnId × Events)} (hs : s.act (.poll ℓ reports) = some s') :
    (s.loops ℓ).phase = .polling ∧ (s.loops ℓ).idle = true ∧ (reports.map (·.1)).Nodup ∧
      (∀ x ∈ reports, s.watched ℓ x.1 = true) ∧
      s' = { s.setLoop ℓ { s.loops ℓ with phase := .handling (reports.map (·.1)) } with
        conns := setRevents reports s.conns } := by
  simp only [act, Option.ite_none_right_eq_some, Option.some.injEq] at hs
  obtain ⟨⟨-, hphase, hidle, hnodup, hreports⟩, rfl⟩ := hs
  exact ⟨hphase, hidle, hnodup, hreports, rfl⟩

theorem act_dispatch (hs : s.act (.dispatch ℓ) = some s') : ∃ c rest,
    (s.loops ℓ).phase = .handling (c :: rest) ∧ (s.loops ℓ).idle = true ∧
      s' = (s.setLoop ℓ { s.loops ℓ with phase := .handling rest }).handleEvent ℓ c := by
  simp only [act] at hs
  split at hs
  · rename_i c rest hphase
    simp only [Option.ite_none_right_eq_some, Option.some.injEq] at hs
    exact ⟨c, rest, hphase, hs.1.2, hs.2.symm⟩
  · cases hs

theorem act_release (hs : s.act (.release ℓ) = some s') :
    (s.loops ℓ).work = [] ∧ s' = s.setLoop ℓ { s.loops ℓ with guard := none } := by
  simp only [act, Option.ite_none_right_eq_some, Option.some.injEq] at hs
  exact ⟨hs.1.1, hs.2.symm⟩

theorem act_swap (hs : s.act (.swap ℓ) = some s') :
    (s.loops ℓ).phase = .handling [] ∧ (s.loops ℓ).idle = true ∧
      s' = s.setLoop ℓ
        { s.loops ℓ with phase := .calling, queue := (s.loops ℓ).queue.swap } := by
  simp only [act, Option.ite_none_right_eq_some, Option.some.injEq] at hs
  exact ⟨hs.1.2.1, hs.1.2.2, hs.2.symm⟩

theorem act_start (hs : s.act (.start ℓ) = some s') :
    (s.loops ℓ).phase = .calling ∧ (s.loops ℓ).idle = true ∧ ∃ job queue,
      (s.loops ℓ).queue.start = some (job, queue) ∧
      s' = s.setLoop ℓ { s.loops ℓ with work := [job], queue := queue } := by
  simp only [act, Option.ite_none_right_eq_some, Option.map_eq_some_iff] at hs
  obtain ⟨⟨-, hphase, hidle⟩, ⟨job, queue⟩, hstart, rfl⟩ := hs
  exact ⟨hphase, hidle, job, queue, hstart, rfl⟩

theorem act_finish (hs : s.act (.finish ℓ) = some s') :
    (s.loops ℓ).phase = .calling ∧ (s.loops ℓ).idle = true ∧ (s.loops ℓ).queue.todo = [] ∧
      s' = s.setLoop ℓ
        { s.loops ℓ with phase := .polling, queue := (s.loops ℓ).queue.finish } := by
  simp only [act, Option.ite_none_right_eq_some, Option.some.injEq] at hs
  obtain ⟨⟨-, hphase, hidle, htodo⟩, rfl⟩ := hs
  exact ⟨hphase, hidle, htodo, rfl⟩

theorem act_run {read : ReadvResult} {write : WriteResult}
    (hs : s.act (.run ℓ read write) = some s') : ∃ job rest, (s.loops ℓ).work = job :: rest ∧
      s' = (s.popJob ℓ job rest).runJob ℓ read write job := by
  simp only [act] at hs
  split at hs
  · cases hs
  · rename_i job rest hwork
    exact ⟨job, rest, hwork, (Option.some.inj hs).symm⟩

theorem act_newConnection {ioLoop : L} {sockfd : Int}
    (hs : s.act (.newConnection ioLoop sockfd) = some s') :
    s.status = .alive ∧ s.nextConnId_ < 0x7fffffff ∧ s.freeFd sockfd = true ∧
      s' = s.newConnection ioLoop sockfd := by
  simp only [act, Option.ite_none_right_eq_some, Option.some.injEq] at hs
  obtain ⟨⟨halive, -, -, -, hid, -, hfree⟩, rfl⟩ := hs
  exact ⟨halive, hid, hfree, rfl⟩

theorem act_destroyItem {key : List Char} (hs : s.act (.destroyItem key c) = some s') :
    s.status = .destroying ∧ (s.loops s.config.loop_).idle = true ∧ (key, c) ∈ s.connections_ ∧
      s' = ({ s with connections_ := s.connections_.erase (key, c) }).runInLoop s.config.loop_
        (s.loopOf c) (.connectDestroyed c) := by
  simp only [act, Option.ite_none_right_eq_some, Option.some.injEq] at hs
  obtain ⟨⟨hstatus, hidle, hmem⟩, rfl⟩ := hs
  exact ⟨hstatus, hidle, hmem, rfl⟩

theorem act_keep (hs : s.act (.keep c) = some s') : s.Born c ∧ s' = s.acquire c := by
  simp only [act, Option.ite_none_right_eq_some, Option.some.injEq] at hs
  exact ⟨hs.1.1, hs.2.symm⟩

theorem act_drop (hs : s.act (.drop c) = some s') : s' = s.releasePtr c := by
  simp only [act, Option.ite_none_left_eq_some, Option.some.injEq] at hs
  exact hs.2.symm

theorem act_testSend {data : List Byte} (hs : s.act (.testSend t c data) = some s') :
    s.refs c ≠ 0 ∧ (s' = s ∨ s' = (s.acquire c).setCaller t (.sending c data)) := by
  simp only [act, Option.ite_none_right_eq_some] at hs
  obtain ⟨⟨-, hrefs⟩, hs⟩ := hs
  split at hs
  · exact ⟨hrefs, .inr (Option.some.inj hs).symm⟩
  · exact ⟨hrefs, .inl (Option.some.inj hs).symm⟩

theorem act_testShutdown (hs : s.act (.testShutdown t c) = some s') :
    s.refs c ≠ 0 ∧ (s' = s ∨ s' = (s.acquire c).setCaller t (.leaving c)) := by
  simp only [act, Option.ite_none_right_eq_some] at hs
  obtain ⟨⟨-, hrefs⟩, hs⟩ := hs
  split at hs
  · exact ⟨hrefs, .inr (Option.some.inj hs).symm⟩
  · exact ⟨hrefs, .inl (Option.some.inj hs).symm⟩

theorem act_enqueueSend (hs : s.act (.enqueueSend t) = some s') : ∃ c data,
    s.caller t = .sending c data ∧
      s' = ((s.queueInLoop (s.loopOf c) (.sendInLoop c data)).releasePtr c).setCaller t .idle := by
  simp only [act] at hs
  split at hs
  · rename_i c data hc
    exact ⟨c, data, hc, (Option.some.inj hs).symm⟩
  · cases hs

theorem act_storeDisconnecting (hs : s.act (.storeDisconnecting t) = some s') : ∃ c,
    s.caller t = .leaving c ∧ s' = { s.setCaller t (.left c) with
      conns := Function.update s.conns c { s.conns c with state_ := .kDisconnecting } } := by
  simp only [act] at hs
  split at hs
  · rename_i c hc
    exact ⟨c, hc, (Option.some.inj hs).symm⟩
  · cases hs

theorem act_enqueueShutdown (hs : s.act (.enqueueShutdown t) = some s') : ∃ c,
    s.caller t = .left c ∧
      s' = ((s.queueInLoop (s.loopOf c) (.shutdownInLoop c)).releasePtr c).setCaller t .idle := by
  simp only [act] at hs
  split at hs
  · rename_i c hc
    exact ⟨c, hc, (Option.some.inj hs).symm⟩
  · cases hs

end Inversion

end Steps

end TcpServer

end Mymuduo

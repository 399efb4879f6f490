import Mymuduo.Buffer.SoundBuffer
import Mymuduo.Poller.EPollPoller

/-!
# A connection on its loop's thread

The methods of `TcpConnection` that run on the loop's thread, and the part of
`Channel` that calls them. A `Site` is the connection with the poller of its
loop and with what a call leaves for others: functors queued on the loop, user
callbacks invoked, and whether `closeCallback_` is to be called last. A
`std::function` is known by whether it holds a target.
-/

namespace Mymuduo

universe u

inductive StateE
  | kConnecting
  | kConnected
  | kDisconnecting
  | kDisconnected
  deriving DecidableEq, Repr

/-- The connected socket: the bytes the kernel has accepted so far, and
whether `shutdownWrite` has been called. -/
structure Socket where
  accepted : List Byte := []
  writeShut : Bool := false
  deriving DecidableEq, Repr

structure Callbacks where
  connectionCallback_ : Bool := false
  messageCallback_ : Bool := false
  writeCompleteCallback_ : Bool := false
  highWaterMarkCallback_ : Bool := false
  closeCallback_ : Bool := false
  deriving DecidableEq, Repr

structure TcpConnection extends Callbacks where
  name_ : List Char
  state_ : StateE := .kConnecting
  socket_ : Socket := {}
  channel_ : Channel
  highWaterMark_ : Nat := 64 * 1024 * 1024
  inputBuffer_ : SoundBuffer := .new kInitialSize
  outputBuffer_ : SoundBuffer := .new kInitialSize
  deriving DecidableEq

/-- The constructor, and the callbacks its owner sets on it. -/
def TcpConnection.new (name : List Char) (sockfd : Int) (callbacks : Callbacks) : TcpConnection where
  toCallbacks := callbacks
  name_ := name
  channel_ := { fd_ := sockfd }

/-- A functor that a connection queues on its own loop. -/
inductive Notice
  | writeComplete
  | highWaterMark (len : Nat)
  deriving DecidableEq, Repr

/-- An invocation of a user callback; `state` is `state_` at that moment. -/
inductive Invocation
  | connectionCallback (state : StateE)
  | messageCallback
  deriving DecidableEq, Repr

/-- The callbacks a channel holds. -/
inductive ChannelCallback
  | closeCallback
  | errorCallback
  | readCallback
  | writeCallback
  deriving DecidableEq, Repr

/-- The callbacks `handleEventWithGuard` runs, in order. Nothing rechecks the
connection's state between them. -/
def Channel.handleEventWithGuard (ch : Channel) : List ChannelCallback :=
  (if ch.revents_ &&& POLLHUP != 0 && ch.revents_ &&& POLLIN == 0 then [.closeCallback] else []) ++
  (if ch.revents_ &&& POLLERR != 0 then [.errorCallback] else []) ++
  (if ch.revents_ &&& (POLLIN ||| POLLPRI) != 0 then [.readCallback] else []) ++
  (if ch.revents_ &&& POLLOUT != 0 then [.writeCallback] else [])

structure Site (κ : Type u) where
  conn : TcpConnection
  poller : EPollPoller κ := {}
  queued : List Notice := []
  invoked : List Invocation := []
  /-- `closeCallback_` is called when the method returns -/
  closing : Bool := false
  /-- an empty `std::function` has been invoked: `std::bad_function_call` -/
  thrown : Bool := false

namespace Site

variable {κ : Type u}

def setState (s : StateE) (w : Site κ) : Site κ := { w with conn.state_ := s }

/-- `channel_->enableReading()` and its siblings. -/
def channel (op : ChannelOp) (self : κ) (w : Site κ) : Site κ :=
  let (channel, poller) := op.run self w.conn.channel_ w.poller
  { w with conn.channel_ := channel, poller := poller }

/-- `if (condition) loop_->queueInLoop(n)`. -/
def queueIf (condition : Bool) (n : Notice) (w : Site κ) : Site κ :=
  if condition then { w with queued := w.queued ++ [n] } else w

/-- Call a `std::function`. -/
def invoke (target : Bool) (i : Invocation) (w : Site κ) : Site κ :=
  if target then { w with invoked := w.invoked ++ [i] } else { w with thrown := true }

/-- Call a `std::function` if it is not empty. -/
def invokeIf (target : Bool) (i : Invocation) (w : Site κ) : Site κ :=
  if target then { w with invoked := w.invoked ++ [i] } else w

/-- The kernel takes bytes. -/
def accept (bytes : List Byte) (w : Site κ) : Site κ :=
  { w with conn.socket_.accepted := w.conn.socket_.accepted ++ bytes }

def setOutputBuffer (b : SoundBuffer) (w : Site κ) : Site κ := { w with conn.outputBuffer_ := b }

/-- `!channel_->isWriting() && outputBuffer_.writableBytes() == 0`. -/
def writesDirectly (w : Site κ) : Bool :=
  !w.conn.channel_.isWriting && w.conn.outputBuffer_.writableBytes == 0

/-- `faultError`: the direct write has met a reset by the peer. The source tests `errno` once more
after `LOG_ERROR`, which may have overwritten it where the log file cannot be opened; here the test
sees what `write` left. -/
def faultError (r : WriteResult) : Bool :=
  r.errno == some .EPIPE || r.errno == some .ECONNRESET

/-- The first half of `sendInLoop`: `nwrote`, `faultError`, and the state. -/
def directWrite (data : List Byte) (r : WriteResult) (w : Site κ) : Nat × Bool × Site κ :=
  -- a buffer that its constructor has made with 1024 bytes always has room when it is empty, so no
  -- connection of a server comes here
  if w.writesDirectly then
    let nwrote := r.count data
    let w := w.accept (r.accepted data)
    if 0 ≤ nwrote then
      let remaining := data.length - nwrote.toNat
      (nwrote.toNat, false,
        w.queueIf (remaining = 0 && w.conn.writeCompleteCallback_) .writeComplete)
    else (0, faultError r, w)
  else (0, false, w)

/-- The mark is reached from below by `remaining` more bytes. -/
def reachesMark (remaining : Nat) (c : TcpConnection) : Bool :=
  c.highWaterMark_ ≤ c.outputBuffer_.readableBytes + remaining &&
    c.outputBuffer_.readableBytes < c.highWaterMark_ && c.highWaterMarkCallback_

/-- The second half: what remains goes into `outputBuffer_`. -/
def bufferRest (self : κ) (rest : List Byte) (w : Site κ) : Site κ :=
  let oldLen := w.conn.outputBuffer_.readableBytes
  let w := w.queueIf (reachesMark rest.length w.conn) (.highWaterMark (oldLen + rest.length))
  let w := w.setOutputBuffer (w.conn.outputBuffer_.append rest)
  if w.conn.channel_.isWriting then w else w.channel .enableWriting self

def sendInLoop (self : κ) (data : List Byte) (r : WriteResult) (w : Site κ) : Site κ :=
  if w.conn.state_ = .kDisconnected then w
  else
    let (nwrote, faultError, w) := w.directWrite data r
    if !faultError && 0 < data.length - nwrote then w.bufferRest self (data.drop nwrote) else w

/-- `send` on the loop's thread. -/
def send (self : κ) (data : List Byte) (r : WriteResult) (w : Site κ) : Site κ :=
  if w.conn.state_ = .kConnected then w.sendInLoop self data r else w

def shutdownInLoop (w : Site κ) : Site κ :=
  if w.conn.channel_.isWriting then w else { w with conn.socket_.writeShut := true }

/-- `shutdown` on the loop's thread. -/
def shutdown (w : Site κ) : Site κ :=
  if w.conn.state_ = .kConnected then (w.setState .kDisconnecting).shutdownInLoop else w

/-- `channel_->tie(shared_from_this())`. -/
def tie (w : Site κ) : Site κ := { w with conn.channel_.tied_ := true }

def connectEstablished (self : κ) (w : Site κ) : Site κ :=
  let w := ((w.setState .kConnected).tie).channel .enableReading self
  w.invoke w.conn.connectionCallback_ (.connectionCallback w.conn.state_)

/-- `connectDestroyed` up to its last statement. -/
def leaveConnected (self : κ) (w : Site κ) : Site κ :=
  if w.conn.state_ = .kConnected then
    let w := (w.setState .kDisconnected).channel .disableAll self
    w.invoke w.conn.connectionCallback_ (.connectionCallback w.conn.state_)
  else w

def connectDestroyed (self : κ) (w : Site κ) : Site κ :=
  let w := w.leaveConnected self
  if w.thrown then w else w.channel .remove self

def handleClose (self : κ) (w : Site κ) : Site κ :=
  let w := (w.setState .kDisconnected).channel .disableAll self
  let w := w.invokeIf w.conn.connectionCallback_ (.connectionCallback w.conn.state_)
  { w with closing := w.conn.closeCallback_ }

/-- `handleError` only asks for `SO_ERROR` and logs. -/
def handleError (w : Site κ) : Site κ := w

def handleRead (self : κ) (r : ReadvResult) (w : Site κ) : Site κ :=
  let (n, inputBuffer) := w.conn.inputBuffer_.readFd r
  let w := { w with conn.inputBuffer_ := inputBuffer }
  if 0 < n then w.invoke w.conn.messageCallback_ .messageCallback
  else if n = 0 then w.handleClose self
  else w.handleError

/-- The branch of `handleWrite` in which everything has been sent. -/
def drained (self : κ) (w : Site κ) : Site κ :=
  let w := w.channel .disableWriting self
  let w := w.queueIf w.conn.writeCompleteCallback_ .writeComplete
  if w.conn.state_ = .kDisconnecting then w.shutdownInLoop else w

def handleWrite (self : κ) (r : WriteResult) (w : Site κ) : Site κ :=
  if w.conn.channel_.isWriting then
    let (n, bytes) := w.conn.outputBuffer_.writeFd r
    let w := w.accept bytes
    if 0 < n then
      let w := w.setOutputBuffer (w.conn.outputBuffer_.retrieve n.toNat)
      if w.conn.outputBuffer_.readableBytes = 0 then w.drained self else w
    else w
  else w

/-- The method behind a channel's callback, with the kernel's answer to the
call it makes. -/
def callback (self : κ) (read : ReadvResult) (write : WriteResult) :
    ChannelCallback → Site κ → Site κ
  | .closeCallback => handleClose self
  | .errorCallback => handleError
  | .readCallback => handleRead self read
  | .writeCallback => handleWrite self write

/-- `setHighWaterMarkCallback`, with a callback that is not empty. -/
def setHighWaterMarkCallback (highWaterMark : Nat) (w : Site κ) : Site κ :=
  { w with conn.highWaterMarkCallback_ := true, conn.highWaterMark_ := highWaterMark }

/-! ## What the parts leave alone -/

section Frame

variable (op : ChannelOp) (self : κ) (w : Site κ)

@[simp] theorem setState_conn (s : StateE) :
    (w.setState s).conn = { w.conn with state_ := s } := rfl
@[simp] theorem tie_conn : w.tie.conn = { w.conn with channel_.tied_ := true } := rfl
@[simp] theorem accept_conn (bytes : List Byte) :
    (w.accept bytes).conn = { w.conn with socket_.accepted := w.conn.socket_.accepted ++ bytes } :=
  rfl
@[simp] theorem setOutputBuffer_conn (b : SoundBuffer) :
    (w.setOutputBuffer b).conn = { w.conn with outputBuffer_ := b } := rfl
@[simp] theorem channel_state : (w.channel op self).conn.state_ = w.conn.state_ := rfl
@[simp] theorem channel_socket : (w.channel op self).conn.socket_ = w.conn.socket_ := rfl
@[simp] theorem channel_outputBuffer :
    (w.channel op self).conn.outputBuffer_ = w.conn.outputBuffer_ := rfl

@[simp] theorem queueIf_conn (b : Bool) (n : Notice) : (w.queueIf b n).conn = w.conn := by
  unfold queueIf; split <;> rfl

@[simp] theorem queueIf_poller (b : Bool) (n : Notice) : (w.queueIf b n).poller = w.poller := by
  unfold queueIf; split <;> rfl

@[simp] theorem invoke_conn (target : Bool) (i : Invocation) :
    (w.invoke target i).conn = w.conn := by
  unfold invoke; split <;> rfl

@[simp] theorem invoke_poller (target : Bool) (i : Invocation) :
    (w.invoke target i).poller = w.poller := by
  unfold invoke; split <;> rfl

@[simp] theorem invokeIf_conn (target : Bool) (i : Invocation) :
    (w.invokeIf target i).conn = w.conn := by
  unfold invokeIf; split <;> rfl

@[simp] theorem invokeIf_poller (target : Bool) (i : Invocation) :
    (w.invokeIf target i).poller = w.poller := by
  unfold invokeIf; split <;> rfl

/-- `shutdownInLoop` touches nothing but the socket, and of that only `writeShut`. -/
theorem shutdownInLoop_conn : ∃ b, w.shutdownInLoop.conn = { w.conn with socket_.writeShut := b } := by
  unfold shutdownInLoop
  split
  · exact ⟨w.conn.socket_.writeShut, rfl⟩
  · exact ⟨true, rfl⟩

@[simp] theorem shutdownInLoop_poller : w.shutdownInLoop.poller = w.poller := by
  unfold shutdownInLoop; split <;> rfl

/-- Write interest after an operation is read off the new mask. -/
theorem channel_isWriting : (w.channel op self).conn.channel_.isWriting =
    ((op.mask w.conn.channel_.events_ &&& Channel.kWriteEvent) != 0) := by
  simp only [channel, Channel.isWriting, ChannelOp.run_events]

@[simp] theorem isWriting_enableWriting :
    (w.channel .enableWriting self).conn.channel_.isWriting = true := by
  rw [channel_isWriting, bne_iff_ne]
  exact Mymuduo.isWriting_enableWriting _

@[simp] theorem isWriting_disableWriting :
    (w.channel .disableWriting self).conn.channel_.isWriting = false := by
  rw [channel_isWriting, Mymuduo.isWriting_disableWriting]
  rfl

@[simp] theorem isWriting_disableAll :
    (w.channel .disableAll self).conn.channel_.isWriting = false := by
  rw [channel_isWriting]
  simp [ChannelOp.mask, Channel.kNoneEvent]

@[simp] theorem isWriting_enableReading :
    (w.channel .enableReading self).conn.channel_.isWriting = w.conn.channel_.isWriting := by
  rw [channel_isWriting, Mymuduo.isWriting_enableReading]
  rfl

@[simp] theorem isWriting_remove :
    (w.channel .remove self).conn.channel_.isWriting = w.conn.channel_.isWriting := by
  rw [channel_isWriting]
  rfl

end Frame

end Site

end Mymuduo

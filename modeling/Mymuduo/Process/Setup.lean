import Mymuduo.Process.Primitives

/-!
# Loops, acceptors and channels

The functions that make the calls treated as fatal, and their callers: the constructors
and destructors of `EventLoop` and `Acceptor`, `Acceptor::listen` and the operations of a
channel down to `epoll_ctl`. Each check of a result is followed by its `LOG_FATAL`, and the
code after it goes on with the bad descriptor or with the index it has already set.
-/

namespace Mymuduo.Process

/-! ## Assignments -/

namespace Objects

def setLoop (loop : Nat) (l : Option EventLoop) (o : Objects) : Objects :=
  { o with loops := Function.update o.loops loop l }

def setThread (tid : Nat) (loop : Option Nat) (o : Objects) : Objects :=
  { o with t_loopInThisThread := Function.update o.t_loopInThisThread tid loop }

def setPoller (loop : Nat) (f : Poller → Poller) (o : Objects) : Objects :=
  { o with pollers := Function.update o.pollers loop (f (o.pollers loop)) }

def setAcceptor (acceptor : Nat) (a : Option Acceptor) (o : Objects) : Objects :=
  { o with acceptors := Function.update o.acceptors acceptor a }

def setConnection (conn : Nat) (live : Bool) (o : Objects) : Objects :=
  { o with connections := Function.update o.connections conn live }

/-- The constructor `Channel(loop, fd)` at an address where nothing was. -/
def newChannel (ch : ChannelId) (loop : Nat) (fd : Int) (o : Objects) : Objects :=
  { o with
    channels := Function.update o.channels ch { loop_ := loop, fd_ := fd }
    lastCtl := Function.update o.lastCtl ch none }

def setChannel (ch : ChannelId) (f : OwnedChannel → OwnedChannel) (o : Objects) : Objects :=
  { o with channels := Function.update o.channels ch (f (o.channels ch)) }

def set_index (ch : ChannelId) (idx : Index) : Objects → Objects :=
  setChannel ch fun channel => { channel with index_ := idx }

end Objects

/-- The number that stands for the index in the source. -/
def indexNumber : Index → Int
  | .kNew => -1
  | .kAdded => 1
  | .kDeleted => 2

def operationNumber : CtlOp → Nat
  | .EPOLL_CTL_ADD => 1
  | .EPOLL_CTL_DEL => 2
  | .EPOLL_CTL_MOD => 3

/-! ## The poller and its channels -/

def newEPollPoller (loop : Nat) : Program Unit := do
  let epollfd ← call .epoll_create1
  store (Objects.setPoller loop fun _ => { epollfd_ := epollfd })
  if epollfd < 0 then
    log ((LOG_DEBUG "EPollPoller.cc" 23 "EPollPoller").shift "epoll_create error:")

def update (operation : CtlOp) (ch : ChannelId) : Program Unit := do
  let o ← load
  let channel := o.channels ch
  let fd := channel.fd_
  let epollfd := (o.pollers channel.loop_).epollfd_
  let result ← call (.epoll_ctl epollfd operation fd ch channel.events_)
  if result < 0 then
    if operation = .EPOLL_CTL_DEL then
      log ((LOG_FATAL "EPollPoller.cc" 150 "update").shift
        ("epoll_ctl op =" ++ toString (operationNumber operation) ++ " fd =" ++ toString fd))
    else
      log ((LOG_FATAL "EPollPoller.cc" 154 "update").shift
        ("epoll_ctl op =" ++ toString (operationNumber operation) ++ " fd =" ++ toString fd))
  log ((LOG_INFO "EPollPoller.cc" 157 "update").shift
    ("epoll_ctl op = " ++ toString (operationNumber operation) ++ " fd = " ++ toString fd ++
      "  success!"))

def updateChannel (ch : ChannelId) : Program Unit := do
  let o ← load
  let channel := o.channels ch
  let index := channel.index_
  log ((LOG_INFO "EPollPoller.cc" 79 "updateChannel").shift
    ("fd = " ++ toString channel.fd_ ++ " events = " ++ toString channel.events_.toInt ++
      " index = " ++ toString (indexNumber index)))
  if index = .kNew ∨ index = .kDeleted then
    if index = .kNew then
      store (Objects.setPoller channel.loop_ fun p =>
        { p with channels_ := Function.update p.channels_ channel.fd_ (some ch) })
    store (Objects.set_index ch .kAdded)
    update .EPOLL_CTL_ADD ch
  else if channel.isNoneEvent then
    update .EPOLL_CTL_DEL ch
    store (Objects.set_index ch .kDeleted)
  else
    update .EPOLL_CTL_MOD ch

def removeChannel (ch : ChannelId) : Program Unit := do
  let o ← load
  let channel := o.channels ch
  store (Objects.setPoller channel.loop_ fun p =>
    { p with channels_ := Function.update p.channels_ channel.fd_ none })
  log ((LOG_INFO "EPollPoller.cc" 115 "removeChannel").shift ("fd = " ++ toString channel.fd_))
  if channel.index_ = .kAdded then
    update .EPOLL_CTL_DEL ch
  store (Objects.set_index ch .kNew)

/-- `enableReading` and its siblings, `disableAll` and `remove`. -/
def channelOp (op : ChannelOp) (ch : ChannelId) : Program Unit :=
  match op with
  | .remove => removeChannel ch
  | _ => do
    store (Objects.setChannel ch fun channel => { channel with events_ := op.mask channel.events_ })
    updateChannel ch

/-! ## Event loops -/

def createEventfd : Program Int := do
  let evtfd ← call .eventfd
  if evtfd < 0 then
    log ((LOG_FATAL "EventLoop.cc" 24 "createEventfd").shift
      ("Failed in eventfd" ++ toString (← errno)))
  return evtfd

/-- The constructor, executed by the thread `tid`. -/
def newEventLoop (loop tid : Nat) : Program Unit := do
  newEPollPoller loop
  let wakeupFd ← createEventfd
  store (Objects.setLoop loop (some { threadId_ := tid, wakeupFd_ := wakeupFd }))
  store (Objects.newChannel (.wakeup loop) loop wakeupFd)
  log ((LOG_DEBUG "EventLoop.cc" 38 "EventLoop").shift
    ("EventLoop created " ++ toString loop ++ " in thread " ++ toString tid))
  let o ← load
  match o.t_loopInThisThread tid with
  | some other =>
    log ((LOG_FATAL "EventLoop.cc" 41 "EventLoop").shift
      ("Another EventLoop " ++ toString other ++ " exists in this thread " ++ toString tid))
  | none => store (Objects.setThread tid (some loop))
  channelOp .enableReading (.wakeup loop)

/-- The destructor, executed by the thread `tid`. -/
def deleteEventLoop (loop tid : Nat) : Program Unit := do
  let o ← load
  let wakeup := o.channels (.wakeup loop)
  log ((LOG_DEBUG "EventLoop.cc" 59 "~EventLoop").shift
    ("EventLoop " ++ toString loop ++ " of thread " ++
      toString (((o.loops loop).map EventLoop.threadId_).getD 0) ++
      " destructs in thread " ++ toString tid))
  channelOp .disableAll (.wakeup loop)
  channelOp .remove (.wakeup loop)
  let _ ← call (.close wakeup.fd_)
  store (Objects.setThread tid none)
  let _ ← call (.close (o.pollers loop).epollfd_)
  store (Objects.setLoop loop none)

/-! ## Sockets and acceptors -/

def createNonblocking : Program Int := do
  let sockfd ← call .socket
  if sockfd < 0 then
    log ((LOG_FATAL "Acceptor.cc" 15 "createNonblocking").shift
      ("sockets::createNonblockingOrDie error, errno:" ++ toString (← errno)))
  return sockfd

def bindAddress (sockfd : Int) : Program Unit := do
  let result ← call (.bind sockfd)
  if result ≠ 0 then
    log ((LOG_FATAL "Socket.cc" 19 "bindAddress").shift
      ("Socket::bindAddress error, errno: " ++ toString (← errno)))

def listen (sockfd : Int) : Program Unit := do
  log ((LOG_DEBUG "Socket.cc" 25 "listen").shift "Socket::listen()")
  let result ← call (.listen sockfd 1024)
  if result ≠ 0 then
    log ((LOG_FATAL "Socket.cc" 30 "listen").shift
      ("Socket::listen error, errno: " ++ toString (← errno)))

def setReuseAddr (sockfd : Int) : Program Unit := do
  let _ ← call (.setsockopt sockfd "SO_REUSEADDR")

def setReusePort (sockfd : Int) (on : Bool) : Program Unit := do
  let ret ← call (.setsockopt sockfd "SO_REUSEPORT")
  if ret < 0 ∧ on = true then
    log ((LOG_ERROR "Socket.cc" 83 "setReusePort").shift "SO_REUSEPORT failed.")

def newAcceptor (acceptor loop : Nat) : Program Unit := do
  let sockfd ← createNonblocking
  store (Objects.setAcceptor acceptor
    (some { loop_ := loop, acceptSocket_ := sockfd, listenning_ := false }))
  store (Objects.newChannel (.accept acceptor) loop sockfd)
  setReuseAddr sockfd
  setReusePort sockfd true
  bindAddress sockfd

/-- `Acceptor::listen`. -/
def acceptorListen (acceptor : Nat) : Program Unit := do
  log ((LOG_DEBUG "Acceptor.cc" 43 "listen").shift "Acceptor::listen()")
  let o ← load
  match o.acceptors acceptor with
  | none => return
  | some a =>
    store (Objects.setAcceptor acceptor (some { a with listenning_ := true }))
    listen a.acceptSocket_
    channelOp .enableReading (.accept acceptor)

def deleteAcceptor (acceptor : Nat) : Program Unit := do
  let o ← load
  channelOp .disableAll (.accept acceptor)
  channelOp .remove (.accept acceptor)
  let _ ← call (.close (o.channels (.accept acceptor)).fd_)
  store (Objects.setAcceptor acceptor none)

end Mymuduo.Process

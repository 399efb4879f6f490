import Mymuduo.Server.Streams

/-!
# The echo server

The application that comes with the library: `onMessage` takes everything off the
input buffer, sends it back and calls `shutdown`. A read brings in what has
arrived by then, not a message of any protocol, and after `shutdown` a `send`
does nothing. So a client gets back what the first `readv` has brought in, or a
part of it, and the write side is shut only behind all of it. Any number of loops
may serve, as with `setThreadNum`; the server lives as long as the process.
-/

namespace Mymuduo

open Mymuduo.Library Mymuduo.Connection

universe u v

def ReadvResult.bytes : ReadvResult → List Byte
  | .delivered bytes => bytes
  | .failed _ => []

namespace Site

variable {κ : Type u}

/-- `EchoServer::onMessage`: the message, and the connection after `send` and `shutdown`. -/
def onMessage (self : κ) (write : WriteResult) (w : Site κ) : List Byte × Site κ :=
  let (msg, inputBuffer) := w.conn.inputBuffer_.retrieveAllAsString
  (msg, (send self msg write { w with conn.inputBuffer_ := inputBuffer }).shutdown)

/-- What `readv` brings into the input buffer. -/
def chunk (read : ReadvResult) (conn : TcpConnection) : List Byte :=
  (conn.inputBuffer_.arrived read).bytes

end Site

/-! ## One connection -/

/-- The chunks that `onMessage` has been given, each with `state_` at that time. -/
abbrev Heard := List (StateE × List Byte)

/-- What is to be sent back: the first chunk, if the connection was still up. -/
def Heard.echo : Heard → List Byte
  | (.kConnected, msg) :: _ => msg
  | _ => []

/-- The first chunk has been answered. -/
def Heard.Answered (heard : Heard) : Prop := ∃ msg rest, heard = (.kConnected, msg) :: rest

/-- Later chunks, and those of a connection that is not up, are not sent back. -/
theorem Heard.echo_append {heard : Heard} {state : StateE} (h : heard ≠ [] ∨ state ≠ .kConnected)
    (msg : List Byte) : echo (heard ++ [(state, msg)]) = echo heard := by
  cases heard with
  | nil =>
    have hstate := h.resolve_left fun hne => hne rfl
    cases state with
    | kConnected => exact absurd rfl hstate
    | kConnecting | kDisconnecting | kDisconnected => rfl
  | cons x rest => cases x with | mk state' msg' => cases state' <;> rfl

theorem Heard.Answered.append {heard : Heard} (h : heard.Answered) (later : Heard) :
    Answered (heard ++ later) := by
  obtain ⟨msg, rest, rfl⟩ := h
  exact ⟨msg, rest ++ later, rfl⟩

theorem Heard.Answered.ne_nil {heard : Heard} (h : heard.Answered) : heard ≠ [] := by
  obtain ⟨msg, rest, rfl⟩ := h
  exact List.cons_ne_nil _ _

structure Echoing {κ : Type u} (heard : Heard) (w : Site κ) : Prop where
  feeding : Feeding w
  stream : outputStream w = heard.echo
  taken : w.conn.inputBuffer_.contents = []
  begun : w.conn.state_ = .kConnecting ∨ w.conn.state_ = .kConnected → heard = []
  leaving : w.conn.state_ = .kDisconnecting → heard.Answered
  shut : w.conn.socket_.writeShut = true → w.conn.outputBuffer_.contents = [] ∧ heard.Answered
  waits : w.conn.state_ = .kDisconnecting → w.conn.outputBuffer_.contents = [] →
    w.conn.socket_.writeShut = true

namespace Echoing

variable {κ : Type u} {heard : Heard} {w w' : Site κ}

theorem congr (h : Echoing heard w) (hw : w'.conn = w.conn) : Echoing heard w' := by
  refine ⟨h.feeding.congr hw, ?_, ?_, ?_, ?_, ?_, ?_⟩
  · rw [outputStream, hw]
    exact h.stream
  · rw [hw]
    exact h.taken
  · rw [hw]
    exact h.begun
  · rw [hw]
    exact h.leaving
  · rw [hw]
    exact h.shut
  · rw [hw]
    exact h.waits

/-- What touches neither buffer nor socket nor state, and keeps write interest. -/
theorem of_same (h : Echoing heard w) (hin : w'.conn.inputBuffer_.contents = [])
    (hout : w'.conn.outputBuffer_ = w.conn.outputBuffer_)
    (hsocket : w'.conn.socket_ = w.conn.socket_)
    (hwriting : w'.conn.channel_.isWriting = w.conn.channel_.isWriting)
    (hstate : w'.conn.state_ = w.conn.state_) : Echoing heard w' := by
  have hadds : Adds w w' := h.feeding.of_same hout (by rw [hsocket]) hwriting (.inl hstate)
  refine ⟨hadds.feeding, hadds.stream.trans h.stream, hin, ?_, ?_, ?_, ?_⟩
  · rw [hstate]
    exact h.begun
  · rw [hstate]
    exact h.leaving
  · rw [hsocket, hout]
    exact h.shut
  · rw [hstate, hsocket, hout]
    exact h.waits

theorem new (name : List Char) (sockfd : Int) (callbacks : Callbacks) :
    Echoing [] ({ conn := TcpConnection.new name sockfd callbacks } : Site κ) where
  feeding := feeding_new name sockfd callbacks
  stream := by simp [outputStream, TcpConnection.new, Heard.echo]
  taken := by simp [TcpConnection.new]
  begun _ := rfl
  leaving := nofun
  shut := nofun
  waits := nofun

/-- The end of the connection keeps what has been accepted. -/
theorem closed (h : Echoing heard w) (hin : w'.conn.inputBuffer_.contents = [])
    (hout : w'.conn.outputBuffer_ = w.conn.outputBuffer_)
    (hsocket : w'.conn.socket_ = w.conn.socket_)
    (hwriting : w'.conn.channel_.isWriting = false) (hstate : w'.conn.state_ = .kDisconnected) :
    Echoing heard w' := by
  have hadds : Adds w w' := adds_of_closed h.feeding.roomy hout (by rw [hsocket]) hstate hwriting
  refine ⟨hadds.feeding, hadds.stream.trans h.stream, hin, fun hs => ?_, fun hs => ?_, ?_,
    fun hs => ?_⟩
  · rw [hstate] at hs
    rcases hs with hs | hs <;> cases hs
  · rw [hstate] at hs
    cases hs
  · rw [hsocket, hout]
    exact h.shut
  · rw [hstate] at hs
    cases hs

theorem connectEstablished (h : Echoing heard w) (self : κ) (hs : w.conn.state_ = .kConnecting) :
    Echoing heard (w.connectEstablished self) := by
  have hnone := h.begun (.inl hs)
  have hfeeding := h.feeding.connectEstablished self (by rw [hs]; decide)
  refine ⟨hfeeding, ?_, ?_, fun _ => hnone, fun hl => ?_, fun hshut => ?_, fun hl => ?_⟩
  · rw [← h.stream]
    simp [Site.connectEstablished, outputStream]
  · have hin := h.taken
    simp only [Site.connectEstablished, Site.invoke_conn]
    exact hin
  · rw [Site.state_connectEstablished] at hl
    cases hl
  · simp only [Site.connectEstablished, Site.invoke_conn, Site.channel_socket, Site.tie_conn,
      Site.setState_conn] at hshut
    exact absurd hnone (h.shut hshut).2.ne_nil
  · rw [Site.state_connectEstablished] at hl
    cases hl

theorem leaveConnected (h : Echoing heard w) (self : κ) :
    Echoing heard (w.leaveConnected self) := by
  simp only [Site.leaveConnected]
  split
  · have hin := h.taken
    refine h.closed ?_ ?_ ?_ ?_ ?_
    · rw [Site.invoke_conn]
      exact hin
    all_goals simp
  · exact h

theorem remove (h : Echoing heard w) (self : κ) : Echoing heard (w.channel .remove self) :=
  h.of_same h.taken rfl rfl (Site.isWriting_remove self w) rfl

theorem handleClose (h : Echoing heard w) (self : κ) : Echoing heard (w.handleClose self) := by
  have hin := h.taken
  simp only [Site.handleClose]
  refine h.closed ?_ ?_ ?_ ?_ ?_
  · rw [Site.invokeIf_conn]
    exact hin
  all_goals simp

theorem input_handleWrite (self : κ) (r : WriteResult) :
    (w.handleWrite self r).conn.inputBuffer_ = w.conn.inputBuffer_ := by
  have hshut : ∀ v : Site κ, v.shutdownInLoop.conn.inputBuffer_ = v.conn.inputBuffer_ := fun v => by
    obtain ⟨b, hb⟩ := Site.shutdownInLoop_conn v
    rw [hb]
  have hdrained : ∀ v : Site κ, (v.drained self).conn.inputBuffer_ = v.conn.inputBuffer_ := by
    intro v
    simp only [Site.drained]
    split
    · rw [hshut, Site.queueIf_conn]
      rfl
    · rw [Site.queueIf_conn]
      rfl
  simp only [Site.handleWrite]
  split
  · split
    · split
      · rw [hdrained]
        rfl
      · rfl
    · rfl
  · rfl

/-- What has been drained behind a `shutdown` is shut. -/
theorem shut_drained (self : κ) (hs : w.conn.state_ = .kDisconnecting) :
    (w.drained self).conn.socket_.writeShut = true := by
  have hstate : ((w.channel .disableWriting self).queueIf
      (w.channel .disableWriting self).conn.writeCompleteCallback_ .writeComplete).conn.state_ =
        .kDisconnecting := by
    rw [Site.queueIf_conn]
    exact hs
  simp only [Site.drained]
  rw [if_pos hstate, Site.shutdownInLoop, Site.queueIf_conn, if_neg (by simp)]

/-- Bytes move on to the kernel; what is drained behind a `shutdown` shuts the write side. -/
theorem handleWrite (h : Echoing heard w) (self : κ) (r : WriteResult) :
    Echoing heard (w.handleWrite self r) := by
  have hadds := h.feeding.handleWrite self r
  have hstate := (Site.silent_handleWrite self r w).state
  refine ⟨hadds.feeding, hadds.stream.trans h.stream, ?_, ?_, ?_, fun hshut => ?_,
    fun hl hnothing => ?_⟩
  · rw [input_handleWrite]
    exact h.taken
  · rw [hstate]
    exact h.begun
  · rw [hstate]
    exact h.leaving
  · obtain ⟨v, -, hs, hv, -, ⟨-, he, hout⟩ | ⟨-, he, hempty⟩⟩ := handleWrite_cases self (w := w) r
    · rw [he] at hshut ⊢
      obtain ⟨hnothing, hanswered⟩ := h.shut (hv.symm.trans hshut)
      refine ⟨?_, hanswered⟩
      rcases hout with hout | ⟨hwriting, -⟩
      · rw [hout]
        exact hnothing
      · -- a drained connection has no write interest
        by_cases hd : w.conn.state_ = .kDisconnected
        · rw [h.feeding.mute hd] at hwriting
          cases hwriting
        · exact absurd hnothing ((h.feeding.interest hd).mp hwriting)
    · obtain ⟨hb, -, -, -, hsocket⟩ := drained_spec self (w := v)
      rw [he] at hshut ⊢
      refine ⟨by rw [hb]; exact hempty, ?_⟩
      by_cases hl : w.conn.state_ = .kDisconnecting
      · exact h.leaving hl
      · rw [hsocket (by rw [hs]; exact hl), hv] at hshut
        exact (h.shut hshut).2
  · have hl' : w.conn.state_ = .kDisconnecting := hstate.symm.trans hl
    obtain ⟨v, -, hs, hv, -, ⟨-, he, hout⟩ | ⟨-, he, -⟩⟩ := handleWrite_cases self (w := w) r
    · rw [he] at hnothing ⊢
      rw [hv]
      refine h.waits hl' ?_
      rcases hout with hout | ⟨-, hsome⟩
      · rw [← hout]
        exact hnothing
      · exact absurd hnothing hsome
    · rw [he]
      exact shut_drained self (hs.trans hl')

/-! ### A read -/

/-- A read that delivers nothing. -/
theorem handleRead (h : Echoing heard w) (self : κ) (read : ReadvResult)
    (hnone : Site.delivers read w.conn .readCallback = false) :
    Echoing heard (w.handleRead self read) := by
  have hcount : ¬ 0 < (w.conn.inputBuffer_.readFd read).1 := of_decide_eq_false hnone
  have hin : (w.conn.inputBuffer_.readFd read).2.contents = [] := by
    cases read with
    | failed errno =>
      rw [SoundBuffer.readFd_failed]
      exact h.taken
    | delivered bytes =>
      obtain ⟨hn, hc⟩ := w.conn.inputBuffer_.readFd_delivered bytes
      have hzero : (bytes.take w.conn.inputBuffer_.raw.readCapacity).length = 0 := by omega
      rw [hc, h.taken, List.length_eq_zero_iff.mp hzero]
      rfl
  obtain ⟨-, he⟩ | ⟨-, he⟩ := handleRead_cases self (w := w) read
  · have hread : Echoing heard ({ w with
        conn.inputBuffer_ := (w.conn.inputBuffer_.readFd read).2 } : Site κ) :=
      h.of_same hin rfl rfl rfl rfl
    rw [he]
    exact hread.handleClose self
  · exact h.of_same (by rw [he]; exact hin) (by rw [he]) (by rw [he]) (by rw [he]) (by rw [he])

/-- Before it calls the message callback, `handleRead` only fills the input buffer. -/
theorem conn_handleRead (self : κ) {read : ReadvResult}
    (hmsg : Site.delivers read w.conn .readCallback = true) :
    (w.handleRead self read).conn = { w.conn with
      inputBuffer_ := (w.conn.inputBuffer_.readFd read).2 } := by
  have hcount : 0 < (w.conn.inputBuffer_.readFd read).1 := of_decide_eq_true hmsg
  obtain ⟨hz, -⟩ | ⟨-, he⟩ := handleRead_cases self (w := w) read
  · exact absurd hz (Int.ne_of_gt hcount)
  · exact he

/-- A read that calls the message callback leaves in the input buffer what it has brought in. -/
theorem chunk_spec (h : Echoing heard w) {read : ReadvResult}
    (hmsg : Site.delivers read w.conn .readCallback = true) :
    Site.chunk read w.conn ≠ [] ∧
      (w.conn.inputBuffer_.readFd read).2.contents = Site.chunk read w.conn := by
  have hcount : 0 < (w.conn.inputBuffer_.readFd read).1 := of_decide_eq_true hmsg
  cases read with
  | failed errno =>
    rw [SoundBuffer.readFd_failed] at hcount
    cases hcount
  | delivered bytes =>
    obtain ⟨hn, hc⟩ := w.conn.inputBuffer_.readFd_delivered bytes
    refine ⟨fun hnil => ?_, ?_⟩
    · have hlen : bytes.take w.conn.inputBuffer_.raw.readCapacity = [] := hnil
      rw [hn, hlen] at hcount
      cases hcount
    · rw [hc, h.taken]
      rfl

/-- `send` on a connection to which nothing has been sent leaves all in the buffer. -/
theorem first_send (h : Echoing [] w) (self : κ) (write : WriteResult) (msg : List Byte)
    (hs : w.conn.state_ = .kConnected) :
    Feeding (w.sendInLoop self msg write) ∧
      (w.sendInLoop self msg write).conn.state_ = .kConnected ∧
      (w.sendInLoop self msg write).conn.socket_.accepted = [] ∧
      (w.sendInLoop self msg write).conn.outputBuffer_.contents = msg := by
  have hd : w.conn.state_ ≠ .kDisconnected := by rw [hs]; decide
  obtain ⟨hfeeding, hstate, hstream⟩ := h.feeding.sendInLoop self msg write
  have hnothing : w.conn.socket_.accepted ++ w.conn.outputBuffer_.contents = [] := h.stream
  have haccepted : (w.sendInLoop self msg write).conn.socket_.accepted = [] := by
    have hoffered : w.offered msg = none := by
      rw [Site.offered, h.feeding.writesDirectly hd]
      simp
    rw [Site.accepted_sendInLoop, hoffered, (List.append_eq_nil_iff.mp hnothing).1]
    rfl
  refine ⟨hfeeding, hstate.trans hs, haccepted, ?_⟩
  rw [if_neg hd, outputStream, outputStream, haccepted, hnothing] at hstream
  exact hstream

theorem callback (h : Echoing heard w) (self : κ) (read : ReadvResult) (write : WriteResult)
    (cb : ChannelCallback) (hnone : Site.delivers read w.conn cb = false) :
    Echoing heard (w.callback self read write cb) := by
  cases cb with
  | closeCallback => exact h.handleClose self
  | errorCallback => exact h
  | readCallback => exact h.handleRead self read hnone
  | writeCallback => exact h.handleWrite self write

theorem input_sendInLoop (self : κ) (msg : List Byte) (write : WriteResult) :
    (w.sendInLoop self msg write).conn.inputBuffer_ = w.conn.inputBuffer_ := by
  have hrest : ∀ (v : Site κ) rest,
      (v.bufferRest self rest).conn.inputBuffer_ = v.conn.inputBuffer_ := by
    intro v rest
    simp only [Site.bufferRest]
    split <;> simp [Site.channel]
  have hdirect : (w.directWrite msg write).2.2.conn.inputBuffer_ = w.conn.inputBuffer_ := by
    simp only [Site.directWrite]
    split
    · split <;> simp
    · rfl
  simp only [Site.sendInLoop]
  split
  · rfl
  · split
    · rw [hrest]
      exact hdirect
    · exact hdirect

/-- The first chunk of a connection that is up is put into the output buffer, and the write
side is to be shut behind it. -/
theorem answer (h : Echoing [] w) (self : κ) (write : WriteResult) {msg : List Byte}
    (hmsg : msg ≠ []) (hs : w.conn.state_ = .kConnected) :
    Echoing [(.kConnected, msg)] (w.send self msg write).shutdown := by
  have hlive : w.conn.state_ ≠ .kDisconnected := by rw [hs]; decide
  obtain ⟨hfeeding, hstate, haccepted, hcontents⟩ := h.first_send self write msg hs
  obtain ⟨-, -, -, -, -, hunshut, -⟩ := sendInLoop_spec self hlive msg write
  have hwaiting : (w.sendInLoop self msg write).conn.channel_.isWriting = true :=
    (hfeeding.interest (by rw [hstate]; decide)).mpr (by rw [hcontents]; exact hmsg)
  -- bytes wait, so `shutdownInLoop` leaves the socket alone
  have hleft : (w.send self msg write).shutdown =
      (w.sendInLoop self msg write).setState .kDisconnecting := by
    rw [Site.send, if_pos hs, Site.shutdown, if_pos hstate, Site.shutdownInLoop, Site.setState_conn,
      if_pos hwaiting]
  rw [hleft]
  refine ⟨⟨hfeeding.roomy, fun _ => hfeeding.interest (by rw [hstate]; decide),
    fun hd => by cases hd⟩, ?_, ?_, fun hn => ?_, fun _ => ⟨msg, [], rfl⟩, fun hshut => ?_,
    fun _ hnothing => ?_⟩
  · rw [outputStream, Site.setState_conn, haccepted, hcontents]
    rfl
  · rw [Site.setState_conn, input_sendInLoop]
    exact h.taken
  · rcases hn with hn | hn <;> cases hn
  · rw [Site.setState_conn, hunshut] at hshut
    exact absurd rfl (h.shut hshut).2.ne_nil
  · rw [Site.setState_conn, hcontents] at hnothing
    exact absurd hnothing hmsg

/-- `onMessage` is given what the read has brought in, and answers the first of it. -/
theorem onMessage (h : Echoing heard w) (self : κ) {read : ReadvResult} (write : WriteResult)
    (hs : w.conn.state_ ≠ .kConnecting)
    (hmsg : Site.delivers read w.conn .readCallback = true)
    (hw : w'.conn = { w.conn with inputBuffer_ := (w.conn.inputBuffer_.readFd read).2 }) :
    (w'.onMessage self write).1 = Site.chunk read w.conn ∧
      Echoing (heard ++ [(w.conn.state_, Site.chunk read w.conn)])
        (w'.onMessage self write).2 := by
  obtain ⟨hchunk, hcontents⟩ := h.chunk_spec hmsg
  have hv : Echoing heard ({ w' with
      conn.inputBuffer_ := w'.conn.inputBuffer_.retrieveAllAsString.2 } : Site κ) := by
    refine h.of_same (SoundBuffer.contents_retrieveAllAsString _) ?_ ?_ ?_ ?_ <;>
      rw [hw]
  have hsame : w'.conn.state_ = w.conn.state_ := by rw [hw]
  have hfst : w'.conn.inputBuffer_.retrieveAllAsString.1 = Site.chunk read w.conn := by
    rw [SoundBuffer.retrieveAllAsString_fst, hw]
    exact hcontents
  simp only [Site.onMessage, hfst]
  refine ⟨trivial, ?_⟩
  by_cases hup : w.conn.state_ = .kConnected
  · obtain rfl := h.begun (.inr hup)
    rw [hup]
    exact hv.answer self write hchunk (hsame.trans hup)
  · have hnot : w'.conn.state_ ≠ .kConnected := fun he => hup (hsame.symm.trans he)
    rw [Site.send, if_neg hnot, Site.shutdown, if_neg hnot]
    refine ⟨hv.feeding, ?_, hv.taken, fun hn => ?_, fun hl => (hv.leaving hl).append _, fun hshut =>
      ⟨(hv.shut hshut).1, (hv.shut hshut).2.append _⟩, hv.waits⟩
    · rw [hv.stream, Heard.echo_append (.inr hup)]
    · exact absurd hn (not_or.mpr ⟨by rw [hsame]; exact hs, hnot⟩)

end Echoing

/-! ## The server -/

namespace EchoServer

open TcpServer

/-- What the constructor registers. -/
def config {L : Type v} (loop_ : L) (listenAddr : InetAddress) (name_ : List Char) : Config L where
  loop_ := loop_
  listenAddr := listenAddr
  name_ := name_
  connectionCallback_ := true
  messageCallback_ := true
  writeCompleteCallback_ := false

/-- There are only the loops' threads; `onConnection` logs and does nothing else. -/
def accepts {L : Type v} : TcpServer.Action Empty L → Bool
  | .poll .. | .dispatch _ | .release _ | .swap _ | .start _ | .finish _ | .run ..
  | .newConnection .. => true
  | _ => false

/-- A call of `onMessage`: its loop and connection, and what the kernel answers to the read
before it and to a write in it. -/
structure Delivery (L : Type v) where
  loop : L
  conn : ConnId
  read : ReadvResult
  write : WriteResult

section Steps

variable {L : Type v}

/-- The call of `onMessage` that an action leads to. -/
def delivery (s : TcpServer Empty L) : TcpServer.Action Empty L → Option (Delivery L)
  | .run ℓ read write =>
    match (s.loops ℓ).work with
    | .handle cb c :: _ =>
      if Site.delivers read (s.conns c) cb then
        some { loop := ℓ, conn := c, read := read, write := write }
      else none
    | _ => none
  | _ => none

/-- `handleRead` calls `onMessage` last. -/
def call [DecidableEq L] (d : Delivery L) (s : TcpServer Empty L) : TcpServer Empty L :=
  s.onConn d.loop d.conn fun w => (w.onMessage d.conn d.write).2

def step [Fintype L] [DecidableEq L] (s : TcpServer Empty L) (a : TcpServer.Action Empty L) :
    Option (TcpServer Empty L) :=
  if accepts a then
    (TcpServer.step s a).map fun s' =>
      match delivery s a with
      | some d => call d s'
      | none => s'
  else none

/-- The chunk of the connection that an action gives to `onMessage`. -/
def hears (s : TcpServer Empty L) (c : ConnId) (a : TcpServer.Action Empty L) : Heard :=
  match delivery s a with
  | some d => if d.conn = c then [((s.conns c).state_, Site.chunk d.read (s.conns c))] else []
  | none => []

/-- The chunks of the connection in a run. -/
def heard [Fintype L] [DecidableEq L] (s : TcpServer Empty L) (c : ConnId) :
    List (TcpServer.Action Empty L) → Heard
  | [] => []
  | a :: as => hears s c a ++
    match step s a with
    | some s' => heard s' c as
    | none => []

end Steps

section Runs

variable {L : Type v} {s s' : TcpServer Empty L} {c : ConnId} {now : Heard}

theorem own_of_accepts {a : TcpServer.Action Empty L} (ha : accepts a = true) : a.own = true := by
  cases a with
  | testSend | enqueueSend | testShutdown | storeDisconnecting | enqueueShutdown => cases ha
  | _ => rfl

variable [DecidableEq L] {ℓ : L}

theorem echoing_onConn (h : Echoing now (s.site c)) {c' : ConnId} {f : Site ConnId → Site ConnId}
    (hf : c' = c → ∀ w : Site ConnId, w.conn = s.conns c → Echoing now w → Echoing now (f w)) :
    Echoing now ((s.onConn ℓ c' f).site c) := by
  have hconns := onConn_conns (ℓ := ℓ) (s := s) (c := c') f c
  by_cases hc : c' = c
  · subst hc
    rw [if_pos rfl] at hconns
    have hw := hf rfl { conn := s.conns c', poller := (s.loops ℓ).poller } rfl (h.congr rfl)
    exact hw.congr hconns
  · rw [if_neg (Ne.symm hc)] at hconns
    exact h.congr hconns

/-- A job keeps the echo, unless it calls `onMessage`. -/
theorem echoing_runJob (h : Echoing now (s.site c)) {job : Job} (hown : job.own = true)
    (hfresh : job = .connectEstablished c → (s.conns c).state_ = .kConnecting)
    (read : ReadvResult) (write : WriteResult)
    (hnone : ∀ cb, job = .handle cb c → Site.delivers read (s.conns c) cb = false) :
    Echoing now ((s.runJob ℓ read write job).site c) := by
  cases job with
  | connectEstablished c' =>
    refine echoing_onConn h fun he w hw hecho => hecho.connectEstablished c' ?_
    rw [hw]
    exact hfresh (congrArg _ he)
  | connectDestroyed c' => exact echoing_onConn h fun _ _ _ hecho => hecho.leaveConnected c'
  | removeChannel c' => exact echoing_onConn h fun _ _ _ hecho => hecho.remove c'
  | removeConnectionInLoop c' => exact h.congr rfl
  | closeCallback c' =>
    obtain ⟨loops, hloops⟩ := s.runInLoop_eq ℓ s.config.loop_ (.removeConnectionInLoop c')
    refine h.congr ?_
    rw [runJob, removeConnection, hloops]
    rfl
  | handle cb c' =>
    refine echoing_onConn h fun he w hw hecho => hecho.callback c' read write cb ?_
    rw [hw]
    exact hnone cb (congrArg _ he)
  | notice n c' => exact h.congr rfl
  | sendInLoop | shutdownInLoop => cases hown

variable [Fintype L]

theorem echoing_act (hwf : s.Wf) (hbegun : (s.view c).Begun) (h : Echoing now (s.site c))
    {a : TcpServer.Action Empty L} (ha : accepts a = true) (hs : s.act a = some s') (hb : s.Born c)
    (hnone : ∀ d, delivery s a = some d → d.conn ≠ c) : Echoing now (s'.site c) := by
  cases a with
  | poll ℓ reports =>
    obtain ⟨-, -, -, -, rfl⟩ := act_poll hs
    obtain ⟨v, hv⟩ := setRevents_eq reports s.conns c
    have hreported : Echoing now
        ({ conn := { s.conns c with channel_.revents_ := v } } : Site ConnId) :=
      h.of_same h.taken rfl rfl rfl rfl
    exact hreported.congr hv
  | dispatch ℓ =>
    obtain ⟨c', rest, -, -, ⟨-, rfl⟩ | ⟨-, rfl⟩⟩ := dispatch_cases hs <;> exact h.congr rfl
  | start ℓ =>
    obtain ⟨-, -, job, queue, -, rfl⟩ := act_start hs
    exact h.congr rfl
  | run ℓ read write =>
    obtain ⟨job, rest, hwork, rfl⟩ := act_run hs
    have hfit := hwf.fit_of_work hwork
    have hfresh : job = .connectEstablished c → (s.conns c).state_ = .kConnecting := by
      rintro rfl
      by_contra hne
      have hduty : Job.dutyOf c (.connectEstablished c) = some .establish := if_pos rfl
      refine hbegun.begun hne (List.mem_append_left _ (List.mem_filterMap.mpr ⟨_, ?_, hduty⟩))
      have hloop : s.loopOf c = ℓ := hfit.home.symm
      rw [hloop, hwork]
      exact List.mem_cons_self
    refine echoing_runJob (s := s.popJob ℓ job rest) h hfit.own hfresh read write fun cb he => ?_
    subst he
    refine Bool.eq_false_iff.mpr fun hdel => ?_
    refine hnone { loop := ℓ, conn := c, read := read, write := write } ?_ rfl
    simp only [delivery, hwork]
    exact if_pos hdel
  | newConnection ioLoop sockfd =>
    obtain ⟨-, -, -, rfl⟩ := act_newConnection hs
    refine h.congr ?_
    obtain ⟨loops, hloops⟩ := runInLoop_eq (s.addConnection ioLoop sockfd) s.config.loop_ ioLoop
      (.connectEstablished s.nextConnId_)
    rw [newConnection, hloops]
    exact (addConnection_conns s ioLoop sockfd c).trans (if_neg (ne_next hb))
  | release | swap | finish =>
    simp only [act, Option.ite_none_right_eq_some, Option.some.injEq] at hs
    obtain ⟨-, rfl⟩ := hs
    exact h.congr rfl
  | destroy | destroyItem | destroyEnd | send | shutdown | setHighWaterMarkCallback | keep | drop
  | testSend | enqueueSend | testShutdown | storeDisconnecting | enqueueShutdown => cases ha

/-- What is known where `onMessage` is called. -/
theorem delivery_act (hwf : s.Wf) (hbegun : ∀ c, s.Born c → (s.view c).Begun)
    {a : TcpServer.Action Empty L} {d : Delivery L} (hd : delivery s a = some d)
    (hs : s.act a = some s') :
    s.Born d.conn ∧ s.loopOf d.conn = d.loop ∧ (s.conns d.conn).state_ ≠ .kConnecting ∧
      Site.delivers d.read (s.conns d.conn) .readCallback = true ∧
      s'.conns d.conn = { s.conns d.conn with
        inputBuffer_ := ((s.conns d.conn).inputBuffer_.readFd d.read).2 } ∧
      s'.loopOf = s.loopOf := by
  cases a with
  | run ℓ read write =>
    obtain ⟨job, rest, hwork, rfl⟩ := act_run hs
    simp only [delivery, hwork] at hd
    cases job with
    | handle cb c' =>
      simp only [Option.ite_none_right_eq_some, Option.some.injEq] at hd
      obtain ⟨hdel, rfl⟩ := hd
      have hfit := hwf.fit_of_work hwork
      have hloop : s.loopOf c' = ℓ := hfit.home.symm
      cases cb with
      | readCallback =>
        refine ⟨hfit.born, hloop, ?_, hdel, ?_, rfl⟩
        · obtain ⟨now, hnow, -⟩ := view_popJob_duty (c := c') hwork hfit.home (if_pos rfl)
          exact (hbegun c' hfit.born).head hnow nofun
        · exact (Function.update_self _ _ _).trans (Echoing.conn_handleRead c' hdel)
      | closeCallback | errorCallback | writeCallback => cases hdel
    | _ => cases hd
  | _ => cases hd

/-! ### Calls of `onMessage` -/

/-- `onMessage` leaves the channel where it is, and calls nothing back. -/
theorem onMessage_kept (c : ConnId) (write : WriteResult) (w : Site ConnId)
    (P : TcpConnection → EPollPoller ConnId → Prop) (hP : Site.Stable c P)
    (h : P w.conn w.poller) :
    P (w.onMessage c write).2.conn (w.onMessage c write).2.poller := by
  let v : Site ConnId := { w with conn.inputBuffer_ := w.conn.inputBuffer_.retrieveAllAsString.2 }
  have hv : P v.conn v.poller := hP.rest h rfl rfl rfl rfl
  exact hP.shutdown (hP.send hv _ _)

omit [Fintype L] in
theorem begun_onMessage (hbegun : (s.view c).Begun) (hℓ : s.loopOf c = ℓ) (write : WriteResult) :
    ((s.onConn ℓ c fun w => (w.onMessage c write).2).view c).Begun := by
  let w : Site ConnId := { conn := s.conns c, poller := (s.loops ℓ).poller }
  have hk : Site.Keeps w.conn (w.onMessage c write).2.conn :=
    onMessage_kept c write w (fun conn _ => Site.Keeps w.conn conn) (Site.stable_keeps c w.conn)
      (Site.Keeps.refl w.conn)
  let v : Site ConnId := { w with conn.inputBuffer_ := w.conn.inputBuffer_.retrieveAllAsString.2 }
  let msg := w.conn.inputBuffer_.retrieveAllAsString.1
  have hw : (w.onMessage c write).2 = (v.send c msg write).shutdown := rfl
  by_cases hup : (s.view c).state = .kConnected
  · have hsilent := Site.silent_send c msg write v
    obtain ⟨hinvoked, hclosing, hthrown⟩ := Site.shutdown_silent (v.send c msg write)
    have hstate : (v.send c msg write).shutdown.conn.state_ = .kDisconnecting := by
      rw [Site.state_shutdown, hsilent.state]
      exact if_pos hup
    rw [view_onConn_silent (w := (w.onMessage c write).2) hℓ rfl hk (hclosing.trans hsilent.closing)
      (hinvoked.trans hsilent.invoked) (hthrown.trans hsilent.thrown)]
    refine hbegun.step (.user _ _ _ hup (.inr ?_) fun hr => registered_of_keeps hk hr)
    exact hstate
  · have hv : (v.send c msg write).shutdown = v := by
      have hnot : v.conn.state_ ≠ .kConnected := hup
      rw [Site.send, if_neg hnot, Site.shutdown, if_neg hnot]
    have hsame : (w.onMessage c write).2 = { conn := v.conn, poller := v.poller } := hw.trans hv
    have hview : (s.onConn ℓ c fun w => (w.onMessage c write).2).view c = s.view c := by
      refine view_onConn_same hℓ hsame ?_ ?_ ?_
      · rfl
      · rfl
      · rfl
    rw [hview]
    exact hbegun

omit [Fintype L] in
/-- What another connection's `onMessage` may do to a view, it does not do to its beginning. -/
theorem begun_onConn_of_ne {c' : ConnId} (hbegun : (s.view c).Begun) (hc : c ≠ c')
    (f : Site ConnId → Site ConnId) : ((s.onConn ℓ c' f).view c).Begun := by
  rw [view_onConn_of_ne s f hc]
  exact ⟨hbegun.connecting, hbegun.bare, hbegun.begun⟩

/-! ### Runs -/

/-- Every connection sends back the first chunk that it has been given. -/
structure Serving (s : TcpServer Empty L) (given : ConnId → Heard) : Prop where
  wf : s.Wf
  begun : ∀ c, s.Born c → (s.view c).Begun
  echoing : ∀ c, s.Born c → Echoing (given c) (s.site c)
  unheard : ∀ c, ¬ s.Born c → given c = []

omit [Fintype L] in
theorem serving_fresh (config : Config L) : Serving (fresh config) fun _ => [] where
  wf := wf_fresh config
  begun _ hc := absurd hc.2 (Nat.not_lt.mpr hc.1)
  echoing _ hc := absurd hc.2 (Nat.not_lt.mpr hc.1)
  unheard _ _ := rfl

/-- An action of the loops, before `onMessage` is called for it. -/
theorem Serving.act {given : ConnId → Heard} (h : Serving s given) (ht : s.terminated = false)
    {a : TcpServer.Action Empty L} (ha : accepts a = true) (hs : s.act a = some s') :
    s'.Wf ∧ (∀ c, s'.Born c → (s'.view c).Begun) ∧
      ∀ c, s'.Born c → (∀ d, delivery s a = some d → d.conn ≠ c) →
        Echoing (given c) (s'.site c) := by
  have hown := own_of_accepts ha
  refine ⟨h.wf.act hown hs, fun c hc => ?_, fun c hc hnone => ?_⟩
  · by_cases hb : s.Born c
    · exact (h.begun c hb).step (sim_act h.wf ht hown hs hb)
    · exact .of_new (new_act h.wf hs hc hb)
  · by_cases hb : s.Born c
    · exact echoing_act h.wf (h.begun c hb) (h.echoing c hb) ha hs hb hnone
    · obtain ⟨ioLoop, sockfd, rfl, rfl, rfl⟩ := accepted_act hs hc hb
      obtain ⟨loops, hloops⟩ := runInLoop_eq (s.addConnection ioLoop sockfd) s.config.loop_ ioLoop
        (.connectEstablished s.nextConnId_)
      have hconn : (s.newConnection ioLoop sockfd).conns s.nextConnId_ =
          TcpConnection.new (s.nameOf s.nextConnId_) sockfd s.callbacks := by
        rw [newConnection, hloops]
        exact (addConnection_conns s ioLoop sockfd _).trans (if_pos rfl)
      rw [h.unheard _ hb]
      exact (Echoing.new _ _ _).congr hconn

theorem Serving.step {given : ConnId → Heard} (h : Serving s given) {a : TcpServer.Action Empty L}
    (hs : step s a = some s') : Serving s' fun c => given c ++ hears s c a := by
  simp only [EchoServer.step, Option.ite_none_right_eq_some, Option.map_eq_some_iff] at hs
  obtain ⟨ha, t, ht, rfl⟩ := hs
  obtain ⟨hterm, -, hact⟩ := step_eq ht
  obtain ⟨hwf, hbegun, hechoing⟩ := h.act hterm ha hact
  have hborn : ∀ c, s.Born c → t.Born c := fun c => born_act hact
  cases hd : delivery s a with
  | none =>
    have hsilent : ∀ c, hears s c a = [] := fun c => by rw [hears, hd]
    simp only [hsilent, List.append_nil]
    refine ⟨hwf, hbegun, fun c hc => hechoing c hc fun d he => ?_, fun c hc =>
      h.unheard c (mt (hborn c) hc)⟩
    rw [hd] at he
    cases he
  | some d =>
    obtain ⟨hb, hℓ, hbeginning, hdel, hconn, hloops⟩ := delivery_act h.wf h.begun hd hact
    have hhome : t.loopOf d.conn = d.loop := by rw [hloops, hℓ]
    have hother : ∀ c, c ≠ d.conn → hears s c a = [] := fun c hc => by
      rw [hears, hd]
      exact if_neg (Ne.symm hc)
    refine ⟨?_, fun c hc => ?_, fun c hc => ?_, fun c hc => ?_⟩
    · exact hwf.onConn (hborn _ hb) hhome
        (onMessage_kept d.conn d.write _ _ stable_kept (hwf.kept d.conn d.loop))
    · by_cases hcd : c = d.conn
      · subst hcd
        exact begun_onMessage (hbegun _ hc) hhome d.write
      · exact begun_onConn_of_ne (hbegun c hc) hcd _
    · have hconns := onConn_conns (ℓ := d.loop) (s := t) (c := d.conn)
        (fun w => (w.onMessage d.conn d.write).2) c
      by_cases hcd : c = d.conn
      · subst hcd
        rw [if_pos rfl] at hconns
        have hhears : hears s d.conn a =
            [((s.conns d.conn).state_, Site.chunk d.read (s.conns d.conn))] := by
          rw [hears, hd]
          exact if_pos rfl
        let v : Site ConnId := { conn := t.conns d.conn, poller := (t.loops d.loop).poller }
        have hv : v.conn = _ := hconn
        have honMessage := (h.echoing _ hb).onMessage d.conn d.write hbeginning hdel hv
        rw [hhears]
        exact honMessage.2.congr hconns
      · rw [if_neg hcd] at hconns
        rw [hother c hcd, List.append_nil]
        refine (hechoing c hc fun d' he => ?_).congr hconns
        obtain rfl := Option.some.inj (hd.symm.trans he)
        exact Ne.symm hcd
    · have hn : ¬ s.Born c := mt (hborn c) hc
      have hcd : c ≠ d.conn := fun he => hn (he ▸ hb)
      rw [h.unheard c hn, hother c hcd]
      rfl

theorem Serving.exec {given : ConnId → Heard} (h : Serving s given)
    {as : List (TcpServer.Action Empty L)}
    (hr : Execution.exec EchoServer.step s as = some s') :
    Serving s' fun c => given c ++ heard s c as := by
  induction as generalizing s given with
  | nil =>
    obtain rfl := Option.some.inj hr
    simpa [heard] using h
  | cons a as ih =>
    obtain ⟨t, ht, hrest⟩ := Execution.exec_cons_some.mp hr
    have hnext := ih (h.step ht) hrest
    simpa only [heard, ht, List.append_assoc] using hnext

/-- In every run of the echo server, over any number of loops: what a client is sent is the first
chunk that a read has brought in while the connection was up, in order and once. Nothing is added
for later chunks. After the answer, until the connection is closed, either a part of it still waits
with write interest, or all of it has been written and the write side is shut; it is never shut
before. -/
theorem echoes (loop_ : L) (listenAddr : InetAddress) (name_ : List Char)
    (as : List (TcpServer.Action Empty L))
    (hr : Execution.exec step (fresh (config loop_ listenAddr name_)) as = some s) (c : ConnId)
    (hc : s.Born c) :
    let given := heard (fresh (config loop_ listenAddr name_)) c as
    let conn := s.conns c
    conn.socket_.accepted ++ conn.outputBuffer_.contents = given.echo ∧
    (conn.state_ = .kConnected → given = []) ∧
    (conn.state_ = .kDisconnecting → given.Answered ∧
      (conn.channel_.isWriting = true ∨ conn.socket_.writeShut = true)) ∧
    (conn.socket_.writeShut = true → given.Answered ∧ conn.socket_.accepted = given.echo) := by
  have h := ((serving_fresh (config loop_ listenAddr name_)).exec hr).echoing c hc
  simp only [List.nil_append] at h
  refine ⟨h.stream, fun hs => h.begun (.inr hs), fun hs => ⟨h.leaving hs, ?_⟩, fun hshut => ?_⟩
  · by_cases hnothing : (s.conns c).outputBuffer_.contents = []
    · exact .inr (h.waits hs hnothing)
    · have hlive : (s.conns c).state_ ≠ .kDisconnected := by rw [hs]; decide
      exact .inl ((h.feeding.interest hlive).mpr hnothing)
  · obtain ⟨hnothing, hanswered⟩ := h.shut hshut
    have hstream := h.stream
    rw [outputStream, hnothing, List.append_nil] at hstream
    exact ⟨hanswered, hstream⟩

end Runs

/-- The server of the program, on its one loop. -/
def myEchoServer : TcpServer Empty Unit :=
  fresh (config () ⟨(0, 0, 0, 0), 8000⟩
    ['m', 'y', 'E', 'c', 'h', 'o', 'S', 'e', 'r', 'v', 'e', 'r'])

/-- A client that sends two bytes and is sent them back. -/
def client : List (TcpServer.Action Empty Unit) :=
  [.poll () [], .newConnection () 7, .run () (.delivered []) (.took 0), .swap (), .finish (),
    .poll () [(1, POLLIN)], .dispatch (), .run () (.delivered [72, 105]) (.took 0), .release (),
    .swap (), .finish (),
    .poll () [(1, POLLOUT)], .dispatch (), .run () (.delivered []) (.took 2)]

theorem echoes_client : ∃ s, Execution.exec step myEchoServer client = some s ∧
    (s.conns 1).socket_.accepted = [72, 105] ∧
    (heard myEchoServer 1 client).Answered ∧
      (s.conns 1).socket_.accepted = (heard myEchoServer 1 client).echo := by
  have hrun : (Execution.exec step myEchoServer client).map (fun s => decide
      ((s.conns 1).socket_.accepted = [72, 105] ∧ (s.conns 1).socket_.writeShut = true ∧
        s.Born 1)) = some true := by decide +kernel
  obtain ⟨s, hs, hres⟩ := Option.map_eq_some_iff.mp hrun
  obtain ⟨haccepted, hshut, hborn⟩ := of_decide_eq_true hres
  obtain ⟨-, -, -, hall⟩ := echoes () _ _ client hs 1 hborn
  exact ⟨s, hs, haccepted, hall hshut⟩

end EchoServer

end Mymuduo

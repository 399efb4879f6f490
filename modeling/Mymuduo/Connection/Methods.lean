import Mymuduo.Connection.TcpConnection

/-!
# What the methods of a connection do

One description of each method for those who look at the state, the callbacks
and the registration of a connection and not at its bytes. A property of a
connection and its poller is `Stable` when no operation of the channel but
`remove` breaks it; every method then keeps it.
-/

namespace Mymuduo.Site

universe u

variable {κ : Type u}

structure Stable (me : κ) (P : TcpConnection → EPollPoller κ → Prop) : Prop where
  op : ∀ (op : ChannelOp) c p, op ≠ .remove → P c p →
    P { c with channel_ := (op.run me c.channel_ p).1 } (op.run me c.channel_ p).2
  rest : ∀ {c c' p}, P c p → c'.channel_ = c.channel_ → c'.name_ = c.name_ →
    c'.closeCallback_ = c.closeCallback_ → c'.connectionCallback_ = c.connectionCallback_ → P c' p

section Stable

variable {self : κ} {P : TcpConnection → EPollPoller κ → Prop} {w : Site κ}

theorem Stable.channel (h : Stable self P) (hp : P w.conn w.poller) {op : ChannelOp}
    (hop : op ≠ .remove) : P (w.channel op self).conn (w.channel op self).poller :=
  h.op op w.conn w.poller hop hp

theorem Stable.shutdownInLoop (h : Stable self P) (hp : P w.conn w.poller) :
    P w.shutdownInLoop.conn w.shutdownInLoop.poller := by
  obtain ⟨b, hb⟩ := shutdownInLoop_conn w
  rw [hb, shutdownInLoop_poller]
  exact h.rest hp rfl rfl rfl rfl

theorem Stable.shutdown (h : Stable self P) (hp : P w.conn w.poller) :
    P w.shutdown.conn w.shutdown.poller := by
  unfold Site.shutdown
  split
  · exact h.shutdownInLoop (h.rest hp rfl rfl rfl rfl)
  · exact hp

theorem Stable.bufferRest (h : Stable self P) (hp : P w.conn w.poller) (rest : List Byte) :
    P (w.bufferRest self rest).conn (w.bufferRest self rest).poller := by
  simp only [Site.bufferRest]
  have hbuffered : ∀ n b, P ((w.queueIf b n).setOutputBuffer
      ((w.queueIf b n).conn.outputBuffer_.append rest)).conn (w.queueIf b n).poller := fun n b => by
    rw [queueIf_poller]
    exact h.rest hp (by simp) (by simp) (by simp) (by simp)
  split
  · exact hbuffered _ _
  · exact h.channel (hbuffered _ _) (by decide)

theorem Stable.sendInLoop (h : Stable self P) (hp : P w.conn w.poller) (data : List Byte)
    (r : WriteResult) : P (w.sendInLoop self data r).conn (w.sendInLoop self data r).poller := by
  have hdirect : P (w.directWrite data r).2.2.conn (w.directWrite data r).2.2.poller := by
    simp only [directWrite]
    split
    · have haccept : P (w.accept (r.accepted data)).conn (w.accept (r.accepted data)).poller :=
        h.rest hp rfl rfl rfl rfl
      split
      · simp only [queueIf_conn, queueIf_poller]
        exact haccept
      · exact haccept
    · exact hp
  simp only [Site.sendInLoop]
  split
  · exact hp
  · split
    · exact h.bufferRest hdirect _
    · exact hdirect

theorem Stable.send (h : Stable self P) (hp : P w.conn w.poller) (data : List Byte)
    (r : WriteResult) : P (w.send self data r).conn (w.send self data r).poller := by
  unfold Site.send
  split
  · exact h.sendInLoop hp data r
  · exact hp

theorem Stable.connectEstablished (h : Stable self P)
    (htie : ∀ {c p}, P c p → P { c with channel_.tied_ := true } p) (hp : P w.conn w.poller) :
    P (w.connectEstablished self).conn (w.connectEstablished self).poller := by
  have hconnected : P (w.setState .kConnected).conn (w.setState .kConnected).poller :=
    h.rest hp rfl rfl rfl rfl
  have htied : P (w.setState .kConnected).tie.conn (w.setState .kConnected).tie.poller :=
    htie hconnected
  have hreading := h.channel htied (by decide : ChannelOp.enableReading ≠ .remove)
  simpa only [Site.connectEstablished, invoke_conn, invoke_poller] using hreading

theorem Stable.closed (h : Stable self P) (hp : P w.conn w.poller) :
    P ((w.setState .kDisconnected).channel .disableAll self).conn
      ((w.setState .kDisconnected).channel .disableAll self).poller := by
  have hstate : P (w.setState .kDisconnected).conn (w.setState .kDisconnected).poller :=
    h.rest hp rfl rfl rfl rfl
  exact h.channel hstate (by decide)

theorem Stable.leaveConnected (h : Stable self P) (hp : P w.conn w.poller) :
    P (w.leaveConnected self).conn (w.leaveConnected self).poller := by
  simp only [Site.leaveConnected]
  split
  · simpa only [invoke_conn, invoke_poller] using h.closed hp
  · exact hp

theorem Stable.handleClose (h : Stable self P) (hp : P w.conn w.poller) :
    P (w.handleClose self).conn (w.handleClose self).poller := by
  simpa only [Site.handleClose, invokeIf_conn, invokeIf_poller] using h.closed hp

theorem Stable.drained (h : Stable self P) (hp : P w.conn w.poller) :
    P (w.drained self).conn (w.drained self).poller := by
  have hmute := h.channel hp (by decide : ChannelOp.disableWriting ≠ .remove)
  simp only [Site.drained]
  split
  · exact h.shutdownInLoop (by simpa only [queueIf_conn, queueIf_poller] using hmute)
  · simpa only [queueIf_conn, queueIf_poller] using hmute

theorem Stable.handleWrite (h : Stable self P) (hp : P w.conn w.poller) (r : WriteResult) :
    P (w.handleWrite self r).conn (w.handleWrite self r).poller := by
  simp only [Site.handleWrite]
  split
  · split
    · split
      · exact h.drained (h.rest hp rfl rfl rfl rfl)
      · exact h.rest hp rfl rfl rfl rfl
    · exact h.rest hp rfl rfl rfl rfl
  · exact hp

theorem Stable.handleRead (h : Stable self P) (hp : P w.conn w.poller) (r : ReadvResult) :
    P (w.handleRead self r).conn (w.handleRead self r).poller := by
  have hread : P { w.conn with inputBuffer_ := (w.conn.inputBuffer_.readFd r).2 } w.poller :=
    h.rest hp rfl rfl rfl rfl
  simp only [Site.handleRead]
  split
  · simpa only [invoke_conn, invoke_poller] using hread
  · split
    · exact h.handleClose hread
    · exact hread

theorem Stable.callback (h : Stable self P) (hp : P w.conn w.poller) (read : ReadvResult)
    (write : WriteResult) (cb : ChannelCallback) :
    P (w.callback self read write cb).conn (w.callback self read write cb).poller := by
  cases cb with
  | closeCallback => exact h.handleClose hp
  | errorCallback => exact hp
  | readCallback => exact h.handleRead hp read
  | writeCallback => exact h.handleWrite hp write

theorem Stable.setHighWaterMarkCallback (h : Stable self P) (hp : P w.conn w.poller) (n : Nat) :
    P (w.setHighWaterMarkCallback n).conn (w.setHighWaterMarkCallback n).poller :=
  h.rest hp rfl rfl rfl rfl

end Stable

/-! ## Registration -/

/-- A registered channel stays registered. What only `connectEstablished` and
the owner set is kept. -/
structure Keeps (c c' : TcpConnection) : Prop where
  tied : c'.channel_.tied_ = c.channel_.tied_
  heard : c'.connectionCallback_ = c.connectionCallback_
  registered : c.channel_.index_ ≠ .kNew → c'.channel_.index_ ≠ .kNew

section Registration

variable (self : κ) (w : Site κ)

theorem stable_keeps (c₀ : TcpConnection) :
    Stable self fun c (_ : EPollPoller κ) => Keeps c₀ c where
  op op c p hop h := by
    obtain ⟨i, hi⟩ := ChannelOp.run_channel self c.channel_ p op
    exact ⟨by rw [hi]; exact h.tied, h.heard, fun _ => ChannelOp.run_index _ _ _ hop⟩
  rest h hch _ _ hcb :=
    ⟨by rw [hch]; exact h.tied, hcb.trans h.heard, fun hr => by rw [hch]; exact h.registered hr⟩

theorem Keeps.refl (c : TcpConnection) : Keeps c c := ⟨rfl, rfl, id⟩

theorem registered_channel {op : ChannelOp} (hop : op ≠ .remove) :
    (w.channel op self).conn.channel_.index_ ≠ .kNew :=
  ChannelOp.run_index self w.conn.channel_ w.poller hop

theorem registered_handleClose : (w.handleClose self).conn.channel_.index_ ≠ .kNew := by
  simp only [handleClose, invokeIf_conn]
  exact registered_channel self _ (by decide)

theorem registered_leaveConnected (h : w.conn.state_ = .kConnected) :
    (w.leaveConnected self).conn.channel_.index_ ≠ .kNew := by
  simp only [leaveConnected, if_pos h, invoke_conn]
  exact registered_channel self _ (by decide)

theorem registered_connectEstablished :
    (w.connectEstablished self).conn.channel_.index_ ≠ .kNew := by
  simp only [connectEstablished, invoke_conn]
  exact registered_channel self _ (by decide)

theorem stable_heard (b : Bool) :
    Stable self fun c (_ : EPollPoller κ) => c.connectionCallback_ = b where
  op _ _ _ _ h := h
  rest h _ _ _ hcb := hcb.trans h

theorem heard_connectEstablished :
    (w.connectEstablished self).conn.connectionCallback_ = w.conn.connectionCallback_ :=
  (stable_heard self w.conn.connectionCallback_).connectEstablished id rfl

@[simp] theorem tied_connectEstablished :
    (w.connectEstablished self).conn.channel_.tied_ = true := by
  simp only [connectEstablished, invoke_conn]
  obtain ⟨i, hi⟩ := ChannelOp.run_channel self (w.setState .kConnected).tie.conn.channel_ w.poller
    .enableReading
  exact (congrArg Channel.tied_ hi).trans rfl

end Registration

/-! ## State and callbacks -/

/-- The state and the callbacks are left alone. -/
structure Silent (w w' : Site κ) : Prop where
  state : w'.conn.state_ = w.conn.state_
  invoked : w'.invoked = w.invoked
  closing : w'.closing = w.closing
  thrown : w'.thrown = w.thrown

section Silent

variable (self : κ) {w w' w'' : Site κ}

theorem Silent.refl (w : Site κ) : Silent w w := ⟨rfl, rfl, rfl, rfl⟩

theorem Silent.trans (h : Silent w w') (h' : Silent w' w'') : Silent w w'' :=
  ⟨h'.state.trans h.state, h'.invoked.trans h.invoked, h'.closing.trans h.closing,
    h'.thrown.trans h.thrown⟩

theorem silent_channel (op : ChannelOp) (w : Site κ) : Silent w (w.channel op self) :=
  ⟨rfl, rfl, rfl, rfl⟩

theorem silent_queueIf (b : Bool) (n : Notice) (w : Site κ) : Silent w (w.queueIf b n) := by
  unfold queueIf
  split <;> exact ⟨rfl, rfl, rfl, rfl⟩

theorem silent_shutdownInLoop (w : Site κ) : Silent w w.shutdownInLoop := by
  unfold shutdownInLoop
  split <;> exact ⟨rfl, rfl, rfl, rfl⟩

theorem silent_bufferRest (rest : List Byte) (w : Site κ) : Silent w (w.bufferRest self rest) := by
  simp only [bufferRest]
  have hbuffered : ∀ b n v, Silent w ((w.queueIf b n).setOutputBuffer v) := fun b n v =>
    (silent_queueIf b n w).trans ⟨rfl, rfl, rfl, rfl⟩
  split
  · exact hbuffered _ _ _
  · exact (hbuffered _ _ _).trans (silent_channel self _ _)

theorem silent_directWrite (data : List Byte) (r : WriteResult) (w : Site κ) :
    Silent w (w.directWrite data r).2.2 := by
  have haccept : Silent w (w.accept (r.accepted data)) := ⟨rfl, rfl, rfl, rfl⟩
  simp only [directWrite]
  split
  · split
    · exact haccept.trans (silent_queueIf _ _ _)
    · exact haccept
  · exact .refl w

theorem silent_sendInLoop (data : List Byte) (r : WriteResult) (w : Site κ) :
    Silent w (w.sendInLoop self data r) := by
  simp only [sendInLoop]
  split
  · exact .refl w
  · split
    · exact (silent_directWrite data r w).trans (silent_bufferRest self _ _)
    · exact silent_directWrite data r w

theorem silent_send (data : List Byte) (r : WriteResult) (w : Site κ) :
    Silent w (w.send self data r) := by
  unfold send
  split
  · exact silent_sendInLoop self data r w
  · exact .refl w

theorem silent_drained (w : Site κ) : Silent w (w.drained self) := by
  have hmute : ∀ b n, Silent w ((w.channel .disableWriting self).queueIf b n) := fun b n =>
    (silent_channel self .disableWriting w).trans (silent_queueIf b n _)
  simp only [drained]
  split
  · exact (hmute _ _).trans (silent_shutdownInLoop _)
  · exact hmute _ _

theorem silent_handleWrite (r : WriteResult) (w : Site κ) : Silent w (w.handleWrite self r) := by
  have hmoved : ∀ bytes v, Silent w ((w.accept bytes).setOutputBuffer v) := fun _ _ =>
    ⟨rfl, rfl, rfl, rfl⟩
  simp only [handleWrite]
  split
  · split
    · split
      · exact (hmoved _ _).trans (silent_drained self _)
      · exact ⟨rfl, rfl, rfl, rfl⟩
    · exact ⟨rfl, rfl, rfl, rfl⟩
  · exact .refl w

end Silent

/-- The callback runs `handleClose`. -/
def closes (read : ReadvResult) (c : TcpConnection) : ChannelCallback → Bool
  | .closeCallback => true
  | .readCallback => (c.inputBuffer_.readFd read).1 == 0
  | _ => false

/-- The callback runs the message callback. -/
def delivers (read : ReadvResult) (c : TcpConnection) : ChannelCallback → Bool
  | .readCallback => decide (0 < (c.inputBuffer_.readFd read).1)
  | _ => false

section Behaviour

variable (self : κ) (w : Site κ)

@[simp] theorem state_shutdown : w.shutdown.conn.state_ =
    if w.conn.state_ = .kConnected then .kDisconnecting else w.conn.state_ := by
  unfold shutdown
  split
  · exact (silent_shutdownInLoop (w.setState .kDisconnecting)).state
  · rfl

theorem shutdown_silent : w.shutdown.invoked = w.invoked ∧ w.shutdown.closing = w.closing ∧
    w.shutdown.thrown = w.thrown := by
  unfold shutdown
  split
  · have h := silent_shutdownInLoop (w.setState .kDisconnecting)
    exact ⟨h.invoked, h.closing, h.thrown⟩
  · exact ⟨rfl, rfl, rfl⟩

@[simp] theorem state_connectEstablished :
    (w.connectEstablished self).conn.state_ = .kConnected := by
  simp [connectEstablished]

/-- What a method leaves behind besides the connection: nothing queued, one
invocation of a callback, and an exception when that is empty. -/
structure Calls (w w' : Site κ) (target : Bool) (i : Invocation) : Prop where
  queued : w'.queued = w.queued
  closing : w'.closing = w.closing
  invoked : w'.invoked = w.invoked ++ if target then [i] else []
  thrown : w'.thrown = (w.thrown || !target)

theorem calls_invoke (target : Bool) (i : Invocation) : Calls w (w.invoke target i) target i := by
  unfold invoke
  cases target
  · exact ⟨rfl, rfl, (List.append_nil _).symm, (Bool.or_true _).symm⟩
  · exact ⟨rfl, rfl, rfl, (Bool.or_false _).symm⟩

theorem connectEstablished_calls : Calls w (w.connectEstablished self)
    w.conn.connectionCallback_ (.connectionCallback .kConnected) := by
  obtain ⟨hq, hc, hi, ht⟩ := calls_invoke (((w.setState .kConnected).tie).channel .enableReading self)
    w.conn.connectionCallback_ (.connectionCallback .kConnected)
  exact ⟨hq, hc, hi, ht⟩

theorem leaveConnected_calls (h : w.conn.state_ = .kConnected) : Calls w (w.leaveConnected self)
    w.conn.connectionCallback_ (.connectionCallback .kDisconnected) := by
  obtain ⟨hq, hc, hi, ht⟩ := calls_invoke ((w.setState .kDisconnected).channel .disableAll self)
    w.conn.connectionCallback_ (.connectionCallback .kDisconnected)
  rw [leaveConnected, if_pos h]
  exact ⟨hq, hc, hi, ht⟩

@[simp] theorem state_leaveConnected : (w.leaveConnected self).conn.state_ =
    if w.conn.state_ = .kConnected then .kDisconnected else w.conn.state_ := by
  simp only [leaveConnected]
  split <;> simp

@[simp] theorem state_handleClose : (w.handleClose self).conn.state_ = .kDisconnected := by
  simp [handleClose]

theorem handleClose_calls : (w.handleClose self).queued = w.queued ∧
    (w.handleClose self).closing = w.conn.closeCallback_ ∧
    (w.handleClose self).invoked = w.invoked ++
      (if w.conn.connectionCallback_ then [.connectionCallback .kDisconnected] else []) ∧
    (w.handleClose self).thrown = w.thrown := by
  simp only [handleClose, invokeIf]
  split <;> simp_all [channel, setState]

/-- A callback runs `handleClose`, or delivers a message, or neither. -/
theorem callback_cases (read : ReadvResult) (write : WriteResult) (cb : ChannelCallback) :
    (closes read w.conn cb = true ∧ ∃ b,
      w.callback self read write cb =
        handleClose self { w with conn := { w.conn with inputBuffer_ := b } }) ∨
    (delivers read w.conn cb = true ∧ closes read w.conn cb = false ∧
      (w.callback self read write cb).conn.state_ = w.conn.state_ ∧
      (w.callback self read write cb).conn.channel_ = w.conn.channel_ ∧
      Calls w (w.callback self read write cb) w.conn.messageCallback_ .messageCallback) ∨
    (closes read w.conn cb = false ∧ delivers read w.conn cb = false ∧
      Silent w (w.callback self read write cb)) := by
  cases cb with
  | closeCallback => exact .inl ⟨rfl, w.conn.inputBuffer_, rfl⟩
  | errorCallback => exact .inr (.inr ⟨rfl, rfl, .refl w⟩)
  | writeCallback => exact .inr (.inr ⟨rfl, rfl, silent_handleWrite self write w⟩)
  | readCallback =>
    let v : Site κ := { w with conn.inputBuffer_ := (w.conn.inputBuffer_.readFd read).2 }
    rcases Int.lt_trichotomy 0 (w.conn.inputBuffer_.readFd read).1 with hn | hn | hn
    · have he : w.callback self read write .readCallback =
          v.invoke w.conn.messageCallback_ .messageCallback := by
        simp only [callback, handleRead, if_pos hn, v]
      obtain ⟨hq, hc, hi, ht⟩ := calls_invoke v w.conn.messageCallback_ .messageCallback
      refine .inr (.inl ⟨by simp [delivers, hn], by simp [closes, Int.ne_of_gt hn], ?_, ?_, ?_⟩)
      · rw [he, invoke_conn]
      · rw [he, invoke_conn]
      · rw [he]
        exact ⟨hq, hc, hi, ht⟩
    · refine .inl ⟨by simp [closes, ← hn], (w.conn.inputBuffer_.readFd read).2, ?_⟩
      simp only [callback, handleRead, ← hn, Int.lt_irrefl, if_true, if_false]
    · have hneg : ¬ 0 < (w.conn.inputBuffer_.readFd read).1 := Int.not_lt.mpr (Int.le_of_lt hn)
      refine .inr (.inr ⟨by simp [closes, Int.ne_of_lt hn], by simp [delivers, hneg], ?_⟩)
      simp only [callback, handleRead, if_neg hneg, if_neg (Int.ne_of_lt hn), handleError]
      exact ⟨rfl, rfl, rfl, rfl⟩

end Behaviour

end Mymuduo.Site

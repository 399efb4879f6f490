import Mymuduo.Connection.SendOrder
import Mymuduo.Server.Upkeep

/-!
# An idle connection does not send at once

`sendInLoop` is to pass the message to `::write` when nothing waits in
`outputBuffer_`. Its guard asks for `writableBytes() == 0` where `readableBytes()`
is meant. An empty buffer always has room behind its indices, so that on an idle
connection the direct path is never taken: the message is copied into the buffer and
goes out when the poller reports the channel writable.
-/

namespace Mymuduo

open Mymuduo.Library

universe u v

namespace Site

variable {κ : Type u} {w : Site κ} {data : List Byte}

/-- What `sendInLoop` passes to `::write`. -/
def offered (data : List Byte) (w : Site κ) : Option (List Byte) :=
  if w.conn.state_ ≠ .kDisconnected ∧ w.writesDirectly then some data else none

/-- What `::write` takes of the message has been offered to it. -/
theorem accepted_sendInLoop (self : κ) (r : WriteResult) :
    (w.sendInLoop self data r).conn.socket_.accepted =
      w.conn.socket_.accepted ++ ((w.offered data).map r.accepted).getD [] := by
  have hrest : ∀ (w' : Site κ) rest,
      (w'.bufferRest self rest).conn.socket_.accepted = w'.conn.socket_.accepted := by
    intro w' rest
    simp only [bufferRest]
    split <;> simp
  have hdirect : w.conn.state_ ≠ .kDisconnected →
      (w.directWrite data r).2.2.conn.socket_.accepted =
        w.conn.socket_.accepted ++ ((w.offered data).map r.accepted).getD [] := by
    intro hstate
    simp only [directWrite, offered, hstate, ne_eq, not_false_eq_true, true_and]
    split
    · split <;> simp
    · simp
  simp only [sendInLoop]
  split
  · rename_i hstate
    simp [offered, hstate]
  · rename_i hstate
    split
    · rw [hrest, hdirect hstate]
    · exact hdirect hstate

/-- Where nothing is offered, the kernel's answer is not asked for. -/
theorem sendInLoop_of_not_offered (self : κ) (h : w.offered data = none) (r r' : WriteResult) :
    w.sendInLoop self data r = w.sendInLoop self data r' := by
  simp only [offered, ite_eq_right_iff, reduceCtorEq, imp_false, not_and, Bool.not_eq_true] at h
  simp only [sendInLoop]
  split
  · rfl
  · rename_i hstate
    simp [directWrite, h hstate]

/-- The message is offered to `::write` within the call; what the kernel leaves goes into
`outputBuffer_`, with write interest only when that is something; and when it takes all,
the callback is queued and nothing else changes. -/
structure SendsAtOnce (me : κ) (data : List Byte) (r : WriteResult) (w : Site κ) : Prop where
  offered : w.offered data = some data
  rest : ∀ n, r = .took n →
    (w.sendInLoop me data r).conn.outputBuffer_.contents = data.drop n
  interest : ∀ n, r = .took n →
    (w.sendInLoop me data r).conn.channel_.isWriting = true → n < data.length
  complete : ∀ n, r = .took n → data.length ≤ n →
    (w.conn.writeCompleteCallback_ = true →
      (w.sendInLoop me data r).queued = w.queued ++ [.writeComplete]) ∧
    (w.sendInLoop me data r).conn.outputBuffer_ = w.conn.outputBuffer_ ∧
    (w.sendInLoop me data r).conn.channel_.events_ = w.conn.channel_.events_

end Site

/-- Established and not closed, with nothing to write. -/
structure TcpConnection.Idle (c : TcpConnection) : Prop where
  established : c.state_ = .kConnected ∨ c.state_ = .kDisconnecting
  quiet : c.channel_.isWriting = false
  empty : c.outputBuffer_.readableBytes = 0

/-- The vector is longer than `kCheapPrepend`. -/
def TcpConnection.Roomy (c : TcpConnection) : Prop :=
  kCheapPrepend < c.outputBuffer_.raw.buffer_.length

theorem TcpConnection.roomy_new (name : List Char) (sockfd : Int) (callbacks : Callbacks) :
    (TcpConnection.new name sockfd callbacks).Roomy := by
  show kCheapPrepend < (List.replicate (kCheapPrepend + kInitialSize) (0 : Byte)).length
  rw [List.length_replicate, kCheapPrepend, kInitialSize]
  omega

theorem upkeep_roomy : Site.Upkeep TcpConnection.Roomy where
  state _ _ h := h
  channel _ _ h := h
  socket _ _ h := h
  input _ _ h := h
  fill _ data h := Connection.roomy_append h data
  drain _ n h := Connection.roomy_retrieve h n
  mark _ _ h := h

/-- An empty buffer has its indices at the front and room behind them. -/
theorem TcpConnection.Roomy.writableBytes {c : TcpConnection} (h : c.Roomy)
    (hempty : c.outputBuffer_.readableBytes = 0) : c.outputBuffer_.writableBytes ≠ 0 := by
  have ho := c.outputBuffer_.wf.ordered
  have hreset := c.outputBuffer_.wf.reset
  have hlen : kCheapPrepend < c.outputBuffer_.raw.buffer_.length := h
  simp only [SoundBuffer.readableBytes, Buffer.readableBytes] at hempty
  have heq : c.outputBuffer_.raw.readerIndex_ = c.outputBuffer_.raw.writerIndex_ := by omega
  have hfront := hreset heq
  simp only [SoundBuffer.writableBytes, Buffer.writableBytes]
  omega

namespace Site

variable {κ : Type u} {w : Site κ} {data : List Byte}

theorem not_offered (h : w.conn.Roomy) (hempty : w.conn.outputBuffer_.readableBytes = 0) :
    w.offered data = none := by
  have hroom := h.writableBytes hempty
  have hguard : w.writesDirectly = false := by
    simp [writesDirectly, hroom]
  simp [offered, hguard]

end Site

namespace TcpServer

variable {T : Type u} {L : Type v} [Fintype L] [DecidableEq L] [DecidableEq T]

theorem roomy (config : Config L) (as : List (Action T L)) {s : TcpServer T L}
    (hr : Execution.exec step (fresh config) as = some s) (c : ConnId) : (s.conns c).Roomy := by
  have hfresh : ∀ c, ((fresh config : TcpServer T L).conns c).Roomy := by
    intro c
    exact TcpConnection.roomy_new _ _ _
  refine Execution.exec_preserves (fun s : TcpServer T L => ∀ c, (s.conns c).Roomy)
    (fun s a s' h hs => ?_) hfresh hr c
  intro c
  exact upkeep_act upkeep_roomy (fun _ name sockfd => TcpConnection.roomy_new name sockfd _)
    (step_eq hs).2.2 (h c)

/-- In every state that any run of the server leads to, on every idle connection, for
every message and every answer of the kernel: `sendInLoop` does not send at once. -/
theorem never_sends_at_once (config : Config L) (as : List (Action T L)) {s : TcpServer T L}
    (hr : Execution.exec step (fresh config) as = some s) (c : ConnId)
    (hidle : (s.conns c).Idle) (data : List Byte) (r : WriteResult) (w : Site ConnId)
    (hw : w.conn = s.conns c) : ¬w.SendsAtOnce c data r := by
  intro h
  have hroomy : w.conn.Roomy := by
    rw [hw]
    exact roomy config as hr c
  have hempty : w.conn.outputBuffer_.readableBytes = 0 := by
    rw [hw]
    exact hidle.empty
  have hnone : w.offered data = none := Site.not_offered hroomy hempty
  rw [h.offered] at hnone
  cases hnone

/-- A connection that has been accepted and established on the base loop. -/
def established : List (Action Unit Bool) :=
  [.poll false [], .newConnection false 7, .run false (.delivered []) (.took 0)]

/-- One byte, which the kernel would take. -/
theorem never_sends_at_once_byte :
    ∃ s, Execution.exec step pair established = some s ∧ (s.conns 1).Idle ∧
      ¬Site.SendsAtOnce (1 : ConnId) [65] (.took 1) { conn := s.conns 1 } := by
  have hrun : (Execution.exec step pair established).map (fun s => decide
      ((s.conns 1).state_ = .kConnected ∧ (s.conns 1).channel_.isWriting = false ∧
        (s.conns 1).outputBuffer_.readableBytes = 0)) = some true := by decide +kernel
  obtain ⟨s, hs, hres⟩ := Option.map_eq_some_iff.mp hrun
  obtain ⟨hstate, hquiet, hempty⟩ := of_decide_eq_true hres
  have hidle : (s.conns 1).Idle := ⟨.inl hstate, hquiet, hempty⟩
  exact ⟨s, hs, hidle, never_sends_at_once _ established hs 1 hidle [65] (.took 1) _ rfl⟩

/-- The same, read off the run. -/
theorem sends_at_once_fails :
    ¬∀ (config : Config Bool) (as : List (Action Unit Bool)) (s : TcpServer Unit Bool),
      Execution.exec step (fresh config) as = some s → ∀ c, (s.conns c).Idle →
      ∀ data ≠ [], ∀ r, Site.SendsAtOnce c data r { conn := s.conns c } := by
  intro h
  have hrun : (Execution.exec step pair established).map (fun s => decide
      ((s.conns 1).state_ = .kConnected ∧ (s.conns 1).channel_.isWriting = false ∧
        (s.conns 1).outputBuffer_.readableBytes = 0 ∧
        Site.offered [65] ({ conn := s.conns 1 } : Site ConnId) = none)) = some true := by
    decide +kernel
  obtain ⟨s, hs, hres⟩ := Option.map_eq_some_iff.mp hrun
  obtain ⟨hstate, hquiet, hempty, hnone⟩ := of_decide_eq_true hres
  have hsends := h _ established s hs 1 ⟨.inl hstate, hquiet, hempty⟩ [65] (by decide) (.took 1)
  rw [hsends.offered] at hnone
  cases hnone

end TcpServer

end Mymuduo

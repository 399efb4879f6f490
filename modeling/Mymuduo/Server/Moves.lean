import Mymuduo.Server.Deregistration
import Mymuduo.Server.Upkeep

/-!
# What may happen to a connection

As long as user code keeps to the connection's loop, an action leaves a connection alone or runs one
of its methods on it, and it runs `connectEstablished`, a callback of the channel or the removal of
the channel only in a state in which these are due.
-/

namespace Mymuduo

open Mymuduo.Library

universe u v

/-- What an action makes of a connection. -/
inductive Move {κ : Type u} (self : κ) (conn : TcpConnection) : TcpConnection → Prop
  | stay : Move self conn conn
  | reported (revents : Events) : Move self conn { conn with channel_.revents_ := revents }
  | establish {w : Site κ} (hw : w.conn = conn) (hs : conn.state_ = .kConnecting) :
    Move self conn (w.connectEstablished self).conn
  | leave {w : Site κ} (hw : w.conn = conn) : Move self conn (w.leaveConnected self).conn
  | remove {w : Site κ} (hw : w.conn = conn) (hs : conn.state_ = .kDisconnected) :
    Move self conn (w.channel .remove self).conn
  | callback {w : Site κ} (hw : w.conn = conn) (hs : conn.state_ ≠ .kConnecting)
    (read : ReadvResult) (write : WriteResult) (cb : ChannelCallback) :
    Move self conn (w.callback self read write cb).conn
  | send {w : Site κ} (hw : w.conn = conn) (data : List Byte) (r : WriteResult) :
    Move self conn (w.send self data r).conn
  | shutdown {w : Site κ} (hw : w.conn = conn) : Move self conn w.shutdown.conn
  | mark {w : Site κ} (hw : w.conn = conn) (n : Nat) :
    Move self conn (w.setHighWaterMarkCallback n).conn

namespace TcpServer

variable {T : Type u} {L : Type v} {s s' : TcpServer T L} {c : ConnId}

section Steps

variable [DecidableEq L] {ℓ : L}

theorem move_onConn {c' : ConnId} {f : Site ConnId → Site ConnId}
    (hf : c' = c → ∀ w : Site ConnId, w.conn = s.conns c → Move c (s.conns c) (f w).conn) :
    Move c (s.conns c) ((s.onConn ℓ c' f).conns c) := by
  rw [onConn_conns]
  split
  · rename_i hc
    exact hf hc.symm _ (congrArg s.conns hc.symm)
  · exact .stay

/-- A job finds its connection in a state in which it is due. -/
theorem move_runJob {job : Job} (hown : job.own = true)
    (hfresh : job = .connectEstablished c → (s.conns c).state_ = .kConnecting)
    (hbegun : ∀ cb, job = .handle cb c → (s.conns c).state_ ≠ .kConnecting)
    (hleft : job = .removeChannel c → (s.conns c).state_ = .kDisconnected)
    (read : ReadvResult) (write : WriteResult) :
    Move c (s.conns c) ((s.runJob ℓ read write job).conns c) := by
  cases job with
  | connectEstablished c' =>
    refine move_onConn fun hc w hw => ?_
    subst hc
    exact .establish hw (hfresh rfl)
  | connectDestroyed c' =>
    refine move_onConn fun hc w hw => ?_
    subst hc
    exact .leave hw
  | removeChannel c' =>
    refine move_onConn fun hc w hw => ?_
    subst hc
    exact .remove hw (hleft rfl)
  | handle cb c' =>
    refine move_onConn fun hc w hw => ?_
    subst hc
    exact .callback hw (hbegun cb rfl) read write cb
  | closeCallback c' =>
    obtain ⟨loops, hloops⟩ := runInLoop_eq s ℓ s.config.loop_ (.removeConnectionInLoop c')
    show Move c (s.conns c) ((s.runInLoop ℓ s.config.loop_ (.removeConnectionInLoop c')).conns c)
    rw [hloops]
    exact .stay
  | removeConnectionInLoop c' | notice n c' => exact .stay
  | sendInLoop | shutdownInLoop => cases hown

variable [Fintype L]

theorem move_userCall {c' : ConnId} {f : Site ConnId → Site ConnId}
    (hf : c' = c → ∀ w : Site ConnId, w.conn = s.conns c → Move c (s.conns c) (f w).conn)
    (hs : s.userCall c' f = some s') : Move c (s.conns c) (s'.conns c) := by
  obtain ⟨-, -, rfl⟩ := userCall_eq hs
  exact move_onConn hf

/-- The methods that wait for a connection come when they are due. -/
theorem move_act [DecidableEq T] (hwf : s.Wf) (hheld : (s.view c).Held) (hb : s.Born c)
    {a : Action T L} (ha : a.own = true) (hs : s.act a = some s') :
    Move c (s.conns c) (s'.conns c) := by
  cases a with
  | poll ℓ reports =>
    obtain ⟨-, -, -, -, rfl⟩ := act_poll hs
    obtain ⟨v, hv⟩ := setRevents_eq reports s.conns c
    show Move c (s.conns c) (setRevents reports s.conns c)
    rw [hv]
    exact .reported v
  | dispatch ℓ =>
    obtain ⟨c', rest, -, -, ⟨-, rfl⟩ | ⟨-, rfl⟩⟩ := dispatch_cases hs
    · exact .stay
    · exact .stay
  | start ℓ =>
    obtain ⟨-, -, job, queue, -, rfl⟩ := act_start hs
    exact .stay
  | run ℓ read write =>
    obtain ⟨job, rest, hwork, rfl⟩ := act_run hs
    have hfit := hwf.fit_of_work hwork
    have hduty : ∀ d, job.dutyOf c = some d → ∃ now, (s.view c).now = d :: now := by
      intro d hd
      obtain ⟨now, hnow, -⟩ := view_popJob_duty hwork hfit.home hd
      exact ⟨now, hnow⟩
    refine move_runJob (s := s.popJob ℓ job rest) hfit.own ?_ ?_ ?_ read write
    · rintro rfl
      obtain ⟨now, hnow⟩ := hduty .establish (if_pos rfl)
      by_contra hne
      refine hheld.order.begun hne (List.mem_append_left _ ?_)
      rw [hnow]
      exact List.mem_cons_self
    · rintro cb rfl
      obtain ⟨now, hnow⟩ := hduty (.callback cb) (if_pos rfl)
      exact hheld.order.head hnow (by simp)
    · rintro rfl
      obtain ⟨now, hnow⟩ := hduty .deregister (if_pos rfl)
      refine hheld.closed (.inr (.inr (.inl (List.mem_append_left _ ?_))))
      rw [hnow]
      exact List.mem_cons_self
  | newConnection ioLoop sockfd =>
    obtain ⟨-, -, -, rfl⟩ := act_newConnection hs
    rw [newConnection_conns, if_neg (ne_next hb)]
    exact .stay
  | destroyItem key c' =>
    obtain ⟨-, -, -, rfl⟩ := act_destroyItem hs
    obtain ⟨loops, hloops⟩ := runInLoop_eq
      { s with connections_ := s.connections_.erase (key, c') } s.config.loop_ (s.loopOf c')
      (.connectDestroyed c')
    rw [hloops]
    exact .stay
  | send c' data r =>
    refine move_userCall (fun hc w hw => ?_) hs
    subst hc
    exact .send hw data r
  | shutdown c' => exact move_userCall (fun _ w hw => .shutdown hw) hs
  | setHighWaterMarkCallback c' n => exact move_userCall (fun _ w hw => .mark hw n) hs
  | drop c' =>
    obtain rfl := act_drop hs
    exact .stay
  | release | swap | finish | destroy | destroyEnd | keep =>
    simp only [act, Option.ite_none_right_eq_some, Option.some.injEq] at hs
    obtain ⟨-, rfl⟩ := hs
    exact .stay
  | testSend | enqueueSend | testShutdown | storeDisconnecting | enqueueShutdown => cases ha

end Steps

end TcpServer

end Mymuduo

import Mymuduo.Server.QueuedCalls

/-!
# What every action keeps of every connection

A property of connections that the primitives of a method keep is kept by every
method and by every action of the server. And no action names a connection that
nobody named before, but for the one that is accepted.
-/

namespace Mymuduo

open Mymuduo.Library

universe u v

/-! ## Methods -/

namespace Site

variable {κ : Type u}

/-- The assignments that the methods are made of keep the property. -/
structure Upkeep (P : TcpConnection → Prop) : Prop where
  state : ∀ c x, P c → P { c with state_ := x }
  channel : ∀ c x, P c → P { c with channel_ := x }
  socket : ∀ c x, P c → P { c with socket_ := x }
  input : ∀ c x, P c → P { c with inputBuffer_ := x }
  fill : ∀ c data, P c → P { c with outputBuffer_ := c.outputBuffer_.append data }
  drain : ∀ c n, P c → P { c with outputBuffer_ := c.outputBuffer_.retrieve n }
  mark : ∀ c n, P c → P { c with highWaterMarkCallback_ := true, highWaterMark_ := n }

namespace Upkeep

variable {P : TcpConnection → Prop} {w : Site κ} (h : Upkeep P) (self : κ)

include h

theorem shutdownInLoop (hp : P w.conn) : P w.shutdownInLoop.conn := by
  unfold Site.shutdownInLoop
  split
  · exact hp
  · exact h.socket _ _ hp

theorem shutdown (hp : P w.conn) : P w.shutdown.conn := by
  unfold Site.shutdown
  split
  · exact h.shutdownInLoop (h.state _ _ hp)
  · exact hp

theorem bufferRest (hp : P w.conn) (rest : List Byte) : P (w.bufferRest self rest).conn := by
  have hfill : ∀ b n, P ((w.queueIf b n).setOutputBuffer
      ((w.queueIf b n).conn.outputBuffer_.append rest)).conn := by
    intro b n
    rw [setOutputBuffer_conn, queueIf_conn]
    exact h.fill _ _ hp
  simp only [Site.bufferRest]
  split
  · exact hfill _ _
  · exact h.channel _ _ (hfill _ _)

theorem directWrite (hp : P w.conn) (data : List Byte) (r : WriteResult) :
    P (w.directWrite data r).2.2.conn := by
  have haccept : P (w.accept (r.accepted data)).conn := h.socket _ _ hp
  simp only [Site.directWrite]
  split
  · split
    · rw [queueIf_conn]
      exact haccept
    · exact haccept
  · exact hp

theorem sendInLoop (hp : P w.conn) (data : List Byte) (r : WriteResult) :
    P (w.sendInLoop self data r).conn := by
  have hdirect := h.directWrite hp data r
  simp only [Site.sendInLoop]
  split
  · exact hp
  · split
    · exact h.bufferRest self hdirect _
    · exact hdirect

theorem send (hp : P w.conn) (data : List Byte) (r : WriteResult) :
    P (w.send self data r).conn := by
  unfold Site.send
  split
  · exact h.sendInLoop self hp data r
  · exact hp

theorem connectEstablished (hp : P w.conn) : P (w.connectEstablished self).conn := by
  simp only [Site.connectEstablished, invoke_conn]
  exact h.channel _ _ (h.channel _ _ (h.state _ _ hp))

theorem leaveConnected (hp : P w.conn) : P (w.leaveConnected self).conn := by
  simp only [Site.leaveConnected]
  split
  · rw [invoke_conn]
    exact h.channel _ _ (h.state _ _ hp)
  · exact hp

theorem handleClose (hp : P w.conn) : P (w.handleClose self).conn := by
  simp only [Site.handleClose, invokeIf_conn]
  exact h.channel _ _ (h.state _ _ hp)

theorem handleRead (hp : P w.conn) (r : ReadvResult) : P (w.handleRead self r).conn := by
  have hread : P { w.conn with inputBuffer_ := (w.conn.inputBuffer_.readFd r).2 } :=
    h.input _ _ hp
  simp only [Site.handleRead]
  split
  · rw [invoke_conn]
    exact hread
  · split
    · exact h.handleClose (w := { w with conn := _ }) self hread
    · exact hread

theorem drained (hp : P w.conn) : P (w.drained self).conn := by
  have hmute : ∀ b n, P ((w.channel .disableWriting self).queueIf b n).conn := by
    intro b n
    rw [queueIf_conn]
    exact h.channel _ _ hp
  simp only [Site.drained]
  split
  · exact h.shutdownInLoop (hmute _ _)
  · exact hmute _ _

theorem handleWrite (hp : P w.conn) (r : WriteResult) : P (w.handleWrite self r).conn := by
  have hmoved : P (w.accept (w.conn.outputBuffer_.writeFd r).2).conn := h.socket _ _ hp
  simp only [Site.handleWrite]
  split
  · split
    · have hdrain := h.drain _ (w.conn.outputBuffer_.writeFd r).1.toNat hmoved
      split
      · exact h.drained (w := (w.accept _).setOutputBuffer _) self hdrain
      · exact hdrain
    · exact hmoved
  · exact hp

theorem callback (hp : P w.conn) (read : ReadvResult) (write : WriteResult)
    (cb : ChannelCallback) : P (w.callback self read write cb).conn := by
  cases cb with
  | closeCallback => exact h.handleClose self hp
  | errorCallback => exact hp
  | readCallback => exact h.handleRead self hp read
  | writeCallback => exact h.handleWrite self hp write

end Upkeep

end Site

/-! ## Actions -/

/-- A loop holds a connection, or a job of it. -/
def Loop.Mentions (l : Loop) (c : ConnId) : Prop :=
  l.guard = some c ∨ ∃ j ∈ l.work ++ l.queue.held, j.conn = c

namespace TcpServer

variable {T : Type u} {L : Type v} {s s' : TcpServer T L} {c : ConnId}

section Conns

variable [DecidableEq L] {ℓ : L} {P : TcpConnection → Prop}

theorem onConn_conns (f : Site ConnId → Site ConnId) (c' : ConnId) :
    (s.onConn ℓ c f).conns c' = if c' = c then
      (f { conn := s.conns c, poller := (s.loops ℓ).poller }).conn else s.conns c' :=
  Function.update_apply _ _ _ _

theorem upkeep_onConn {f : Site ConnId → Site ConnId} (hf : ∀ w, P w.conn → P (f w).conn)
    (hp : P (s.conns c)) (c' : ConnId) : P ((s.onConn ℓ c' f).conns c) := by
  rw [onConn_conns]
  split
  · rename_i hc
    subst hc
    exact hf _ hp
  · exact hp

theorem upkeep_runInLoop {ℓ' : L} {job : Job} (hp : P (s.conns c)) :
    P ((s.runInLoop ℓ ℓ' job).conns c) := by
  obtain ⟨loops, hloops⟩ := s.runInLoop_eq ℓ ℓ' job
  rw [hloops]
  exact hp

theorem upkeep_runJob (h : Site.Upkeep P) (hp : P (s.conns c)) (read : ReadvResult)
    (write : WriteResult) (job : Job) : P ((s.runJob ℓ read write job).conns c) := by
  cases job with
  | connectEstablished c' => exact upkeep_onConn (fun _ => h.connectEstablished c') hp c'
  | connectDestroyed c' => exact upkeep_onConn (fun _ => h.leaveConnected c') hp c'
  | removeChannel c' =>
    exact upkeep_onConn (f := Site.channel .remove c') (fun _ => h.channel _ _) hp c'
  | removeConnectionInLoop c' => exact hp
  | closeCallback c' => exact upkeep_runInLoop hp
  | handle cb c' => exact upkeep_onConn (fun _ hw => h.callback c' hw read write cb) hp c'
  | notice n c' => exact hp
  | sendInLoop c' data => exact upkeep_onConn (fun _ hw => h.sendInLoop c' hw data write) hp c'
  | shutdownInLoop c' => exact upkeep_onConn (fun _ => h.shutdownInLoop) hp c'

theorem upkeep_userCall [Fintype L] {f : Site ConnId → Site ConnId} {c' : ConnId}
    (hf : ∀ w, P w.conn → P (f w).conn) (hp : P (s.conns c)) (hs : s.userCall c' f = some s') :
    P (s'.conns c) := by
  obtain ⟨-, -, rfl⟩ := userCall_eq hs
  exact upkeep_onConn hf hp c'

theorem upkeep_newConnection (hnew : ∀ name sockfd, P (TcpConnection.new name sockfd s.callbacks))
    (hp : P (s.conns c)) (ioLoop : L) (sockfd : Int) :
    P ((s.newConnection ioLoop sockfd).conns c) := by
  rw [newConnection_conns]
  split
  · exact hnew _ _
  · exact hp

/-- A property that methods keep, and that an accepted connection has from the start. -/
theorem upkeep_act [Fintype L] [DecidableEq T] {a : Action T L} (h : Site.Upkeep P)
    (hnew : (∃ ioLoop sockfd, a = .newConnection ioLoop sockfd) →
      ∀ name sockfd, P (TcpConnection.new name sockfd s.callbacks))
    (hs : s.act a = some s') (hp : P (s.conns c)) : P (s'.conns c) := by
  cases a with
  | poll ℓ reports =>
    obtain ⟨-, -, -, -, rfl⟩ := act_poll hs
    obtain ⟨v, hv⟩ := setRevents_eq reports s.conns c
    show P (setRevents reports s.conns c)
    rw [hv]
    exact h.channel _ _ hp
  | dispatch ℓ =>
    obtain ⟨c', rest, -, -, rfl⟩ := act_dispatch hs
    simp only [handleEvent]
    split
    · exact hp
    · exact hp
  | release ℓ =>
    obtain ⟨-, rfl⟩ := act_release hs
    exact hp
  | swap ℓ =>
    obtain ⟨-, -, rfl⟩ := act_swap hs
    exact hp
  | start ℓ =>
    obtain ⟨-, -, job, queue, -, rfl⟩ := act_start hs
    exact hp
  | finish ℓ =>
    obtain ⟨-, -, -, rfl⟩ := act_finish hs
    exact hp
  | run ℓ read write =>
    obtain ⟨job, rest, -, rfl⟩ := act_run hs
    exact upkeep_runJob (s := s.popJob ℓ job rest) h hp read write job
  | newConnection ioLoop sockfd =>
    obtain ⟨-, -, -, rfl⟩ := act_newConnection hs
    exact upkeep_newConnection (hnew ⟨ioLoop, sockfd, rfl⟩) hp ioLoop sockfd
  | destroy =>
    simp only [act, Option.ite_none_right_eq_some, Option.some.injEq] at hs
    obtain ⟨-, rfl⟩ := hs
    exact hp
  | destroyItem key c' =>
    obtain ⟨-, -, -, rfl⟩ := act_destroyItem hs
    exact upkeep_runInLoop (s := { s with connections_ := s.connections_.erase (key, c') }) hp
  | destroyEnd =>
    simp only [act, Option.ite_none_right_eq_some, Option.some.injEq] at hs
    obtain ⟨-, rfl⟩ := hs
    exact hp
  | send c' data r => exact upkeep_userCall (fun _ hw => h.send c' hw data r) hp hs
  | shutdown c' => exact upkeep_userCall (fun _ => h.shutdown) hp hs
  | setHighWaterMarkCallback c' n => exact upkeep_userCall (fun _ => h.mark _ n) hp hs
  | keep c' =>
    obtain ⟨-, rfl⟩ := act_keep hs
    exact hp
  | drop c' =>
    obtain rfl := act_drop hs
    exact hp
  | testSend t c' data =>
    obtain ⟨-, rfl | rfl⟩ := act_testSend hs
    · exact hp
    · exact hp
  | enqueueSend t =>
    obtain ⟨c', data, -, rfl⟩ := act_enqueueSend hs
    exact hp
  | testShutdown t c' =>
    obtain ⟨-, rfl | rfl⟩ := act_testShutdown hs
    · exact hp
    · exact hp
  | storeDisconnecting t =>
    obtain ⟨c', -, rfl⟩ := act_storeDisconnecting hs
    show P (Function.update s.conns c' _ c)
    rw [Function.update_apply]
    split
    · rename_i hc
      subst hc
      exact h.state _ _ hp
    · exact hp
  | enqueueShutdown t =>
    obtain ⟨c', -, rfl⟩ := act_enqueueShutdown hs
    exact hp

theorem config_runInLoop {ℓ' : L} {job : Job} :
    (s.runInLoop ℓ ℓ' job).config = s.config := by
  obtain ⟨loops, hloops⟩ := s.runInLoop_eq ℓ ℓ' job
  rw [hloops]

theorem config_act [Fintype L] [DecidableEq T] {a : Action T L} (hs : s.act a = some s') :
    s'.config = s.config := by
  cases a with
  | dispatch ℓ =>
    obtain ⟨c', rest, -, -, rfl⟩ := act_dispatch hs
    simp only [handleEvent]
    split <;> rfl
  | run ℓ read write =>
    obtain ⟨job, rest, -, rfl⟩ := act_run hs
    cases job with
    | closeCallback c' => exact config_runInLoop
    | connectEstablished _ | connectDestroyed _ | removeChannel _ | removeConnectionInLoop _
    | handle _ _ | notice _ _ | sendInLoop _ _ | shutdownInLoop _ => rfl
  | newConnection ioLoop sockfd =>
    obtain ⟨-, -, -, rfl⟩ := act_newConnection hs
    exact config_runInLoop
  | destroyItem key c' =>
    obtain ⟨-, -, -, rfl⟩ := act_destroyItem hs
    exact config_runInLoop
  | poll ℓ reports =>
    obtain ⟨-, -, -, -, rfl⟩ := act_poll hs
    rfl
  | release ℓ =>
    obtain ⟨-, rfl⟩ := act_release hs
    rfl
  | swap ℓ =>
    obtain ⟨-, -, rfl⟩ := act_swap hs
    rfl
  | start ℓ =>
    obtain ⟨-, -, job, queue, -, rfl⟩ := act_start hs
    rfl
  | finish ℓ =>
    obtain ⟨-, -, -, rfl⟩ := act_finish hs
    rfl
  | destroy | destroyEnd =>
    simp only [act, Option.ite_none_right_eq_some, Option.some.injEq] at hs
    obtain ⟨-, rfl⟩ := hs
    rfl
  | send _ _ _ | shutdown _ | setHighWaterMarkCallback _ _ =>
    obtain ⟨-, -, rfl⟩ := userCall_eq hs
    rfl
  | keep c' =>
    obtain ⟨-, rfl⟩ := act_keep hs
    rfl
  | drop c' =>
    obtain rfl := act_drop hs
    rfl
  | testSend t c' data => obtain ⟨-, rfl | rfl⟩ := act_testSend hs <;> rfl
  | testShutdown t c' => obtain ⟨-, rfl | rfl⟩ := act_testShutdown hs <;> rfl
  | enqueueSend t =>
    obtain ⟨c', data, -, rfl⟩ := act_enqueueSend hs
    rfl
  | storeDisconnecting t =>
    obtain ⟨c', -, rfl⟩ := act_storeDisconnecting hs
    rfl
  | enqueueShutdown t =>
    obtain ⟨c', -, rfl⟩ := act_enqueueShutdown hs
    rfl

end Conns

/-! ## Who is mentioned -/

/-- Somebody can come to the connection. -/
inductive Mentioned (s : TcpServer T L) (c : ConnId) : Prop
  | entry (key : List Char) (h : (key, c) ∈ s.connections_)
  | pointer (h : s.refs c ≠ 0)
  | caller (t : T) (h : (s.caller t).conn = some c)
  | loop (ℓ : L) (h : (s.loops ℓ).Mentions c)

theorem mentioned_of_useCount [Fintype L] (hu : s.useCount c ≠ 0) : s.Mentioned c := by
  by_contra hm
  refine hu (useCount_eq_zero.mpr ⟨fun he => hm ?_, ?_, fun ℓ ho => hm (.loop ℓ ?_)⟩)
  · obtain ⟨⟨key, c'⟩, hmem, hc⟩ := List.mem_map.mp he
    exact .entry key (hc ▸ hmem)
  · by_contra hr
    exact hm (.pointer hr)
  · rcases List.mem_append.mp ho with hg | hj
    · exact .inl (by simpa using hg)
    · obtain ⟨j, hj, hown⟩ := List.mem_filterMap.mp hj
      exact .inr ⟨j, hj, Job.conn_of_owner hown⟩

section Mentions

variable [DecidableEq L] {ℓ : L} {job : Job}

omit [DecidableEq L] in
/-- Entries, pointers, callers and loops, each of them mentioned before. -/
theorem Mentioned.mono (h : s'.Mentioned c)
    (hentry : ∀ key, (key, c) ∈ s'.connections_ → s.Mentioned c)
    (hpointer : s'.refs c ≠ 0 → s.Mentioned c)
    (hcaller : ∀ t, (s'.caller t).conn = some c → s.Mentioned c)
    (hloop : ∀ ℓ, (s'.loops ℓ).Mentions c → s.Mentioned c) : s.Mentioned c := by
  cases h with
  | entry key h => exact hentry key h
  | pointer h => exact hpointer h
  | caller t h => exact hcaller t h
  | loop ℓ h => exact hloop ℓ h

omit [DecidableEq L] in
/-- Entries may leave the map. -/
theorem Mentioned.congr (h : s'.Mentioned c) (hmap : s'.connections_ ⊆ s.connections_)
    (hrefs : s'.refs = s.refs) (hcaller : s'.caller = s.caller) (hloops : s'.loops = s.loops) :
    s.Mentioned c := by
  refine h.mono (fun key he => .entry key (hmap he)) (fun hr => .pointer ?_)
    (fun t ht => .caller t ?_) fun ℓ hl => .loop ℓ ?_
  · rwa [hrefs] at hr
  · rwa [hcaller] at ht
  · rwa [hloops] at hl

theorem mentioned_setLoop {l : Loop} (h : (s.setLoop ℓ l).Mentioned c) :
    s.Mentioned c ∨ l.Mentions c := by
  cases h with
  | entry key h => exact .inl (.entry key h)
  | pointer h => exact .inl (.pointer h)
  | caller t h => exact .inl (.caller t h)
  | loop ℓ' h =>
    simp only [setLoop, Function.update_apply] at h
    split at h
    · exact .inr h
    · exact .inl (.loop ℓ' h)

/-- A loop that holds no more than before. -/
theorem mentioned_setLoop_of_le {l : Loop} (hl : l.Mentions c → (s.loops ℓ).Mentions c)
    (h : (s.setLoop ℓ l).Mentioned c) : s.Mentioned c := by
  rcases mentioned_setLoop h with h | h
  · exact h
  · exact .loop ℓ (hl h)

theorem mentioned_callNext (h : (s.callNext ℓ job).Mentioned c) : s.Mentioned c ∨ job.conn = c := by
  rcases mentioned_setLoop h with h | hg | ⟨j, hj, hc⟩
  · exact .inl h
  · exact .inl (.loop ℓ (.inl hg))
  · rw [List.cons_append, List.mem_cons] at hj
    rcases hj with rfl | hj
    · exact .inr hc
    · exact .inl (.loop ℓ (.inr ⟨j, hj, hc⟩))

theorem mentioned_queueInLoop (h : (s.queueInLoop ℓ job).Mentioned c) :
    s.Mentioned c ∨ job.conn = c := by
  rcases mentioned_setLoop h with h | hg | ⟨j, hj, hc⟩
  · exact .inl h
  · exact .inl (.loop ℓ (.inl hg))
  · simp only [TaskQueue.held, TaskQueue.waiting_push, List.mem_append, List.mem_singleton] at hj
    have hold : j ∈ (s.loops ℓ).work ++ (s.loops ℓ).queue.held ∨ j = job := by
      simp only [TaskQueue.held, List.mem_append]
      tauto
    rcases hold with hj | rfl
    · exact .inl (.loop ℓ (.inr ⟨j, hj, hc⟩))
    · exact .inr hc

theorem mentioned_runInLoop {ℓ' : L} (h : (s.runInLoop ℓ ℓ' job).Mentioned c) :
    s.Mentioned c ∨ job.conn = c := by
  unfold runInLoop at h
  split at h
  · exact mentioned_callNext h
  · exact mentioned_queueInLoop h

theorem mentioned_onConn {f : Site ConnId → Site ConnId} {c' : ConnId}
    (h : (s.onConn ℓ c' f).Mentioned c) : s.Mentioned c ∨ c' = c := by
  set w := f { conn := s.conns c', poller := (s.loops ℓ).poller } with hw
  have hset : (s.setLoop ℓ { s.loops ℓ with
      work := (if w.closing then [.closeCallback c'] else []) ++ (s.loops ℓ).work
      queue := (s.loops ℓ).queue.pushAll (w.queued.map (.notice · c'))
      poller := w.poller }).Mentioned c :=
    h.congr (fun _ => id) rfl rfl rfl
  rcases mentioned_setLoop hset with h | hg | ⟨j, hj, hc⟩
  · exact .inl h
  · exact .inl (.loop ℓ (.inl hg))
  · simp only [TaskQueue.held, TaskQueue.waiting_pushAll, List.mem_append, List.mem_map] at hj
    have hold : j ∈ (s.loops ℓ).work ++ (s.loops ℓ).queue.held ∨ j.conn = c' := by
      simp only [TaskQueue.held, List.mem_append]
      rcases hj with (hj | hj) | hj | hj | ⟨n, -, rfl⟩
      · split at hj
        · rw [List.mem_singleton.mp hj]
          exact .inr rfl
        · cases hj
      · exact .inl (.inl hj)
      · exact .inl (.inr (.inl hj))
      · exact .inl (.inr (.inr hj))
      · exact .inr rfl
    rcases hold with hj | hj
    · exact .inl (.loop ℓ (.inr ⟨j, hj, hc⟩))
    · exact .inr (hj.symm.trans hc)

theorem mentioned_popJob {rest : List Job} (hwork : (s.loops ℓ).work = job :: rest)
    (h : (s.popJob ℓ job rest).Mentioned c) : s.Mentioned c := by
  have hset : (s.setLoop ℓ { s.loops ℓ with work := rest }).Mentioned c :=
    h.congr (fun _ => id) rfl rfl rfl
  refine mentioned_setLoop_of_le (fun hl => ?_) hset
  rcases hl with hg | ⟨j, hj, hc⟩
  · exact .inl hg
  · refine .inr ⟨j, ?_, hc⟩
    rw [hwork]
    exact List.mem_cons_of_mem _ hj

theorem mentioned_runJob {read : ReadvResult} {write : WriteResult}
    (h : (s.runJob ℓ read write job).Mentioned c) : s.Mentioned c ∨ job.conn = c := by
  cases job with
  | connectEstablished c' => exact mentioned_onConn h
  | connectDestroyed c' =>
    rcases mentioned_callNext h with h | hc
    · exact mentioned_onConn h
    · exact .inr hc
  | removeChannel c' => exact mentioned_onConn h
  | removeConnectionInLoop c' =>
    rcases mentioned_queueInLoop h with h | hc
    · exact .inl (h.congr (fun _ => List.mem_of_mem_filter) rfl rfl rfl)
    · exact .inr hc
  | closeCallback c' =>
    have hc : s.Mentioned c ∨ (Job.removeConnectionInLoop c').conn = c := mentioned_runInLoop h
    exact hc
  | handle cb c' => exact mentioned_onConn h
  | notice n c' => exact .inl h
  | sendInLoop c' data => exact mentioned_onConn h
  | shutdownInLoop c' => exact mentioned_onConn h

theorem mentioned_newConnection {ioLoop : L} {sockfd : Int}
    (h : (s.newConnection ioLoop sockfd).Mentioned c) : s.Mentioned c ∨ c = s.nextConnId_ := by
  rcases mentioned_runInLoop h with h | hc
  · cases h with
    | entry key h =>
      rcases List.mem_append.mp h with he | he
      · exact .inl (.entry key (List.mem_of_mem_filter he))
      · exact .inr (Prod.mk.inj (List.mem_singleton.mp he)).2
    | pointer h => exact .inl (.pointer h)
    | caller t h => exact .inl (.caller t h)
    | loop ℓ h => exact .inl (.loop ℓ h)
  · exact .inr hc.symm

theorem mentioned_handleEvent [Fintype L] {c' : ConnId} (hwork : (s.loops ℓ).work = [])
    (h : (s.handleEvent ℓ c').Mentioned c) : s.Mentioned c := by
  simp only [handleEvent] at h
  split at h
  · exact h.congr (fun _ => id) rfl rfl rfl
  · rename_i hu
    rcases mentioned_setLoop h with h | hg | ⟨j, hj, hc⟩
    · exact h
    · simp only at hg
      split at hg
      · exact Option.some.inj hg ▸ mentioned_of_useCount hu
      · cases hg
    · rcases List.mem_append.mp hj with hj | hj
      · obtain ⟨cb, -, rfl⟩ := List.mem_map.mp hj
        exact hc ▸ mentioned_of_useCount hu
      · refine .loop ℓ (.inr ⟨j, ?_, hc⟩)
        rw [hwork]
        exact hj

omit [DecidableEq L] in
theorem mentioned_acquire {c' : ConnId} (hc' : s.Mentioned c')
    (h : (s.acquire c').Mentioned c) : s.Mentioned c := by
  refine h.mono (fun key he => .entry key he) (fun hr => ?_)
    (fun t ht => .caller t ht) fun ℓ hl => .loop ℓ hl
  by_cases hc : c = c'
  · exact hc ▸ hc'
  · simp only [acquire, Function.update_of_ne hc] at hr
    exact .pointer hr

omit [DecidableEq L] in
theorem mentioned_acquired : (s.acquire c).Mentioned c := by
  refine .pointer ?_
  show Function.update s.refs c (s.refs c + 1) c ≠ 0
  rw [Function.update_self]
  exact Nat.succ_ne_zero _

omit [DecidableEq L] in
theorem mentioned_releasePtr {c' : ConnId} (h : (s.releasePtr c').Mentioned c) : s.Mentioned c := by
  refine h.mono (fun key he => .entry key he) (fun hr => .pointer fun hzero => hr ?_)
    (fun t ht => .caller t ht) fun ℓ hl => .loop ℓ hl
  simp only [releasePtr, Function.update_apply]
  split
  · rename_i hc
    rw [← hc, hzero]
  · exact hzero

omit [DecidableEq L] in
theorem mentioned_setCaller [DecidableEq T] {t : T} {x : Caller}
    (hx : ∀ c', x.conn = some c' → s.Mentioned c') (h : (s.setCaller t x).Mentioned c) :
    s.Mentioned c := by
  refine h.mono (fun key he => .entry key he) (fun hr => .pointer hr) (fun t' ht => ?_)
    fun ℓ hl => .loop ℓ hl
  simp only [setCaller, Function.update_apply] at ht
  split at ht
  · exact hx c ht
  · exact .caller t' ht

omit [DecidableEq L] in
/-- A thread begins a call through the pointer it has. -/
theorem mentioned_begin [DecidableEq T] {t : T} {x : Caller} {c' : ConnId} (hrefs : s.refs c' ≠ 0)
    (hx : x.conn = some c') (h : ((s.acquire c').setCaller t x).Mentioned c) : s.Mentioned c := by
  refine mentioned_acquire (.pointer hrefs) (mentioned_setCaller (fun c'' hc'' => ?_) h)
  obtain rfl := Option.some.inj (hx.symm.trans hc'')
  exact mentioned_acquired

/-- It ends the call by queueing a functor for the connection. -/
theorem mentioned_enqueue [DecidableEq T] {t : T} {c' : ConnId}
    (hcall : (s.caller t).conn = some c') (hjob : job.conn = c')
    (h : (((s.queueInLoop ℓ job).releasePtr c').setCaller t .idle).Mentioned c) :
    s.Mentioned c := by
  have hq := mentioned_releasePtr (mentioned_setCaller (fun c'' hx => by cases hx) h)
  rcases mentioned_queueInLoop hq with h | hc
  · exact h
  · obtain rfl := hc.symm.trans hjob
    exact .caller t hcall

theorem mentioned_userCall [Fintype L] {f : Site ConnId → Site ConnId} {c' : ConnId}
    (hs : s.userCall c' f = some s') (h : s'.Mentioned c) : s.Mentioned c := by
  obtain ⟨-, hu, rfl⟩ := userCall_eq hs
  rcases mentioned_onConn h with h | rfl
  · exact h
  · exact mentioned_of_useCount hu

/-- Only `newConnection` brings a connection in. -/
theorem mentioned_act [Fintype L] [DecidableEq T] {a : Action T L} (hs : s.act a = some s')
    (h : s'.Mentioned c) :
    s.Mentioned c ∨ c = s.nextConnId_ ∧ ∃ ioLoop sockfd, a = .newConnection ioLoop sockfd := by
  cases a with
  | poll ℓ reports =>
    obtain ⟨-, -, -, -, rfl⟩ := act_poll hs
    refine .inl (mentioned_setLoop_of_le (ℓ := ℓ)
      (l := { s.loops ℓ with phase := .handling (reports.map (·.1)) }) id ?_)
    exact h.congr (fun _ => id) rfl rfl rfl
  | dispatch ℓ =>
    obtain ⟨c', rest, -, hidle, rfl⟩ := act_dispatch hs
    have hwork : ((s.setLoop ℓ { s.loops ℓ with phase := .handling rest }).loops ℓ).work = [] := by
      simp only [setLoop, Function.update_self]
      exact (Loop.idle_iff.mp hidle).1
    have hbefore := mentioned_handleEvent hwork h
    exact .inl (mentioned_setLoop_of_le (l := { s.loops ℓ with phase := .handling rest }) id hbefore)
  | release ℓ =>
    obtain ⟨-, rfl⟩ := act_release hs
    refine .inl (mentioned_setLoop_of_le (fun hl => ?_) h)
    rcases hl with hg | hj
    · cases hg
    · exact .inr hj
  | swap ℓ =>
    obtain ⟨-, -, rfl⟩ := act_swap hs
    refine .inl (mentioned_setLoop_of_le (fun hl => ?_) h)
    rcases hl with hg | ⟨j, hj, hc⟩
    · exact .inl hg
    · refine .inr ⟨j, ?_, hc⟩
      simp only [TaskQueue.held, TaskQueue.swap, TaskQueue.waiting, List.mem_append] at hj ⊢
      tauto
  | start ℓ =>
    obtain ⟨-, hidle, job, queue, hstart, rfl⟩ := act_start hs
    obtain ⟨hwait, hran, -⟩ := TaskQueue.waiting_of_start hstart
    refine .inl (mentioned_setLoop_of_le (fun hl => ?_) h)
    rcases hl with hg | ⟨j, hj, hc⟩
    · exact .inl hg
    · refine .inr ⟨j, ?_, hc⟩
      simp only [TaskQueue.held, hran, hwait, List.mem_append, List.mem_cons,
        List.not_mem_nil, or_false] at hj ⊢
      tauto
  | finish ℓ =>
    obtain ⟨-, -, -, rfl⟩ := act_finish hs
    refine .inl (mentioned_setLoop_of_le (fun hl => ?_) h)
    rcases hl with hg | ⟨j, hj, hc⟩
    · exact .inl hg
    · refine .inr ⟨j, ?_, hc⟩
      simp only [TaskQueue.held, TaskQueue.finish, TaskQueue.waiting, List.mem_append] at hj ⊢
      rcases hj with hj | hj | hj
      · exact .inl hj
      · cases hj
      · exact .inr (.inr hj)
  | run ℓ read write =>
    obtain ⟨job, rest, hwork, rfl⟩ := act_run hs
    rcases mentioned_runJob h with h | hc
    · exact .inl (mentioned_popJob hwork h)
    · refine .inl (.loop ℓ (.inr ⟨job, ?_, hc⟩))
      rw [hwork]
      exact List.mem_cons_self
  | newConnection ioLoop sockfd =>
    obtain ⟨-, -, -, rfl⟩ := act_newConnection hs
    exact (mentioned_newConnection h).imp_right fun hc => ⟨hc, ioLoop, sockfd, rfl⟩
  | destroy =>
    simp only [act, Option.ite_none_right_eq_some, Option.some.injEq] at hs
    obtain ⟨-, rfl⟩ := hs
    exact .inl (h.congr (fun _ => id) rfl rfl rfl)
  | destroyItem key c' =>
    obtain ⟨-, -, hmem, rfl⟩ := act_destroyItem hs
    rcases mentioned_runInLoop h with h | rfl
    · exact .inl (h.congr (fun _ => List.mem_of_mem_erase) rfl rfl rfl)
    · exact .inl (.entry key hmem)
  | destroyEnd =>
    simp only [act, Option.ite_none_right_eq_some, Option.some.injEq] at hs
    obtain ⟨-, rfl⟩ := hs
    exact .inl (h.congr (fun _ => id) rfl rfl rfl)
  | send c' data r => exact .inl (mentioned_userCall hs h)
  | shutdown c' => exact .inl (mentioned_userCall hs h)
  | setHighWaterMarkCallback c' n => exact .inl (mentioned_userCall hs h)
  | keep c' =>
    simp only [act, Option.ite_none_right_eq_some, Option.some.injEq] at hs
    obtain ⟨⟨-, hu⟩, rfl⟩ := hs
    exact .inl (mentioned_acquire (mentioned_of_useCount hu) h)
  | drop c' =>
    obtain rfl := act_drop hs
    exact .inl (mentioned_releasePtr h)
  | testSend t c' data =>
    obtain ⟨hrefs, rfl | rfl⟩ := act_testSend hs
    · exact .inl h
    · exact .inl (mentioned_begin hrefs rfl h)
  | enqueueSend t =>
    obtain ⟨c', data, hcaller, rfl⟩ := act_enqueueSend hs
    have hcall : (s.caller t).conn = some c' := by rw [hcaller]; rfl
    exact .inl (mentioned_enqueue hcall rfl h)
  | testShutdown t c' =>
    obtain ⟨hrefs, rfl | rfl⟩ := act_testShutdown hs
    · exact .inl h
    · exact .inl (mentioned_begin hrefs rfl h)
  | storeDisconnecting t =>
    obtain ⟨c', hcaller, rfl⟩ := act_storeDisconnecting hs
    have hcall : (s.caller t).conn = some c' := by rw [hcaller]; rfl
    refine .inl (mentioned_setCaller (t := t) (x := .left c') (fun c'' hx => ?_)
      (h.congr (fun _ => id) rfl rfl rfl))
    obtain rfl := Option.some.inj hx
    exact .caller t hcall
  | enqueueShutdown t =>
    obtain ⟨c', hcaller, rfl⟩ := act_enqueueShutdown hs
    have hcall : (s.caller t).conn = some c' := by rw [hcaller]; rfl
    exact .inl (mentioned_enqueue hcall rfl h)

end Mentions

end TcpServer

end Mymuduo

import Mymuduo.Server.Placement

/-!
# Queued calls find their connection alive

A call on another thread queues its functor and returns, and its pointer may be
dropped then. Where users let go of their last pointer only while the functors are
covered, every functor runs on a connection that has an owner. A call that tests
`state_` before the connection closes and queues its functor after
`connectDestroyed` has run is not covered.
-/

namespace Mymuduo

open Mymuduo.Library

universe u v

namespace TcpServer

variable {T : Type u} {L : Type v} {s s' : TcpServer T L} {c : ConnId}

/-! ## One step -/

/-- Whatever the users do with their other pointers. -/
structure Safe (s : TcpServer T L) : Prop where
  sound : s.Sound
  covered : ∀ c, s.refs c ≠ 0 ∨ s.Covered c

/-- A connection that has not been accepted is named by no functor. -/
theorem Sound.covered_of_unborn (h : s.Sound) (hc : ¬ s.Born c)
    (hkeeps : ∀ ℓ, (s.loops ℓ).Keeps c (s'.loops ℓ)) : s'.Covered c := by
  have hnone : ∀ ℓ, ∀ j ∈ (s.loops ℓ).work ++ (s.loops ℓ).queue.held, j.rawThis ≠ some c :=
    fun ℓ j hj hraw => hc (Job.conn_of_rawThis hraw ▸ (h.placed ℓ).born j hj)
  refine ⟨fun hr => ?_, fun hr => ?_⟩
  · obtain ⟨j, hj, hraw⟩ := List.mem_map.mp ((hkeeps _).pending hr)
    refine absurd hraw (hnone (s'.loopOf c) j ?_)
    simp only [TaskQueue.held, TaskQueue.waiting, List.mem_append]
    exact .inr (.inr (.inr hj))
  · obtain ⟨j, hj, hraw⟩ := List.mem_map.mp ((hkeeps _).batch hr)
    refine absurd hraw (hnone (s'.loopOf c) j ?_)
    simp only [Loop.batch, TaskQueue.held, TaskQueue.waiting, List.mem_append] at hj ⊢
    tauto

theorem Safe.of_keeps (h : s.Safe) (hs : s'.Sound) (hrefs : ∀ c, s.refs c ≠ 0 → s'.refs c ≠ 0)
    (hloop : ∀ c, s.Born c → s'.loopOf c = s.loopOf c)
    (hkeeps : ∀ c ℓ, (s.loops ℓ).Keeps c (s'.loops ℓ))
    (htrack : ∀ c, s.Retained c → s'.Awaited c) : s'.Safe where
  sound := hs
  covered c := by
    by_cases hc : s.Born c
    · exact (h.covered c).imp (hrefs c) fun hcov => hcov.mono (hloop c hc) (hkeeps c) (htrack c)
    · exact .inr (h.sound.covered_of_unborn hc (hkeeps c))

section Steps

variable [DecidableEq L] {ℓ : L} {job : Job} {rest : List Job}

omit [DecidableEq L] in
/-- No method renames its connection. -/
theorem stable_name (n : List Char) :
    Site.Stable c fun conn (_ : EPollPoller ConnId) => conn.name_ = n where
  op _ _ _ _ h := h
  rest h _ hn _ _ := hn.trans h

theorem Sound.runJob (h : s.Sound) (hb : s.Born job.conn) (read : ReadvResult)
    (write : WriteResult) : (s.runJob ℓ read write job).Sound := by
  have hstable := fun c => stable_name (c := c) (s.conns c).name_
  cases job with
  | connectEstablished c => exact h.onConn hb ((hstable c).connectEstablished id rfl)
  | connectDestroyed c => exact (h.onConn hb ((hstable c).leaveConnected rfl)).callNext hb rfl
  | removeChannel c => exact h.onConn hb rfl
  | removeConnectionInLoop c =>
    exact (h.setConnections List.filter_sublist).queueInLoop hb (by simp [Job.rawThis])
  | closeCallback c => exact h.runInLoop hb rfl
  | handle cb c => exact h.onConn hb ((hstable c).callback rfl read write cb)
  | notice n c => exact h
  | sendInLoop c data => exact h.onConn hb ((hstable c).sendInLoop rfl data write)
  | shutdownInLoop c => exact h.onConn hb ((hstable c).shutdownInLoop rfl)

/-- A removal ends with `connectDestroyed` behind what is queued. -/
theorem awaited_removeConnectionInLoop (h : s.Sound) {c' : ConnId} (hb : s.Born c')
    (hret : c' = c ∨ s.Retained c) : (s.removeConnectionInLoop c').Awaited c := by
  by_cases hc : c' = c
  · subst hc
    refine .inr ?_
    simp only [removeConnectionInLoop, queueInLoop, setLoop, Function.update_self,
      TaskQueue.push_pending, List.map_append, List.mem_append]
    exact .inr (by simp [Job.owner])
  · obtain hmap | ⟨ℓ, hℓ⟩ := hret.resolve_left hc
    · obtain ⟨e, he, rfl⟩ := List.mem_map.mp hmap
      refine .inl (.inl (List.mem_map_of_mem ?_))
      exact (h.named.mem_eraseKey hb).mpr ⟨he, Ne.symm hc⟩
    · refine .inl (Retained.queueInLoop (s := { s with
        connections_ := s.connections_.eraseKey (s.conns c').name_ }) ?_)
      exact .inr ⟨ℓ, hℓ⟩

theorem Safe.run (h : s.Safe) (hwork : (s.loops ℓ).work = job :: rest) (read : ReadvResult)
    (write : WriteResult) : ((s.popJob ℓ job rest).runJob ℓ read write job).Safe := by
  have hb : s.Born job.conn :=
    (h.sound.placed ℓ).born job (by rw [hwork]; exact List.mem_cons_self)
  have hpop := h.sound.popJob hwork
  have hsound := hpop.runJob (ℓ := ℓ) hb read write
  have hkeeps := fun c ℓ' => keeps_popJob (c := c) hwork ℓ'
  have htrack := fun c (hr : s.Retained c) => hr.popJob hwork
  cases job with
  | connectEstablished c | handle cb c | sendInLoop c data | shutdownInLoop c
  | removeChannel c =>
    exact h.of_keeps hsound (fun _ => id) (fun _ _ => rfl)
      (fun c ℓ' => (hkeeps c ℓ').trans (keeps_onConn _ ℓ'))
      fun c hr => .inl (((htrack c hr).resolve_left (by simp [Job.removes])).onConn _)
  | connectDestroyed c' =>
    exact h.of_keeps hsound (fun _ => id) (fun _ _ => rfl)
      (fun c ℓ' => ((hkeeps c ℓ').trans (keeps_onConn _ ℓ')).trans
        (keeps_callNext (by simp [Job.rawThis]) ℓ'))
      fun c hr => .inl (((htrack c hr).resolve_left (by simp [Job.removes])).onConn _).callNext
  | removeConnectionInLoop c' =>
    refine h.of_keeps hsound (fun _ => id) (fun _ _ => rfl)
      (fun c ℓ' => (hkeeps c ℓ').trans (keeps_queueInLoop (by simp [Job.rawThis]) ℓ'))
      fun c hr => awaited_removeConnectionInLoop hpop hb ?_
    exact (htrack c hr).imp_left Option.some.inj
  | closeCallback c' =>
    refine h.of_keeps hsound (fun c hc => ?_) (fun c _ => ?_)
      (fun c ℓ' => (hkeeps c ℓ').trans (keeps_runInLoop (by simp [Job.rawThis]) ℓ'))
      fun c hr => .inl ?_
    · rw [TcpServer.runJob, removeConnection, runInLoop_refs]
      exact hc
    · rw [TcpServer.runJob, removeConnection, runInLoop_loopOf]
      rfl
    · obtain hjob | hr := htrack c hr
      · exact retained_runInLoop _ hjob
      · exact hr.runInLoop
  | notice n c' =>
    exact h.of_keeps hsound (fun _ => id) (fun _ _ => rfl) hkeeps
      fun c hr => .inl ((htrack c hr).resolve_left (by simp [Job.removes]))

/-- The loop goes on to its next handler, with the same jobs before it. -/
theorem Safe.setLoop (h : s.Safe) {l : Loop} (hl : s.Placed ℓ l)
    (hkeeps : ∀ c, (s.loops ℓ).Keeps c l)
    (hagenda : ∀ c, some c ∈ (s.loops ℓ).agenda.map Job.removes →
      some c ∈ l.agenda.map Job.removes) : (s.setLoop ℓ l).Safe :=
  h.of_keeps (h.sound.setLoop hl) (fun _ => id) (fun _ _ => rfl)
    (fun c ℓ' => keeps_update (hkeeps c) ℓ') fun c hr => .inl (hr.setLoop (hagenda c))

/-- Only the connections of a loop have functors on it. -/
theorem Covered.setLoop (h : s.Covered c) {l : Loop}
    (hret : s.Retained c → (s.setLoop ℓ l).Retained c)
    (hpending : s.loopOf c = ℓ → some c ∈ l.queue.pending.map Job.rawThis →
      s.Retained c ∨ some c ∈ l.queue.pending.map Job.owner)
    (hbatch : s.loopOf c = ℓ → some c ∈ l.batch.map Job.rawThis →
      s.Retained c ∨ some c ∈ l.queue.held.map Job.owner) : (s.setLoop ℓ l).Covered c := by
  have hloopOf : (s.setLoop ℓ l).loopOf c = s.loopOf c := rfl
  by_cases hℓ : s.loopOf c = ℓ
  · have hloop : (s.setLoop ℓ l).loops (s.loopOf c) = l := by
      rw [hℓ]
      exact Function.update_self _ _ _
    refine ⟨fun hr => ?_, fun hr => ?_⟩
    · rw [hloopOf, hloop] at hr
      rw [Awaited, hloopOf, hloop]
      exact (hpending hℓ hr).imp_left hret
    · rw [hloopOf, hloop] at hr ⊢
      exact (hbatch hℓ hr).imp_left hret
  · have hloop : (s.setLoop ℓ l).loops (s.loopOf c) = s.loops (s.loopOf c) :=
      Function.update_of_ne hℓ _ _
    refine ⟨fun hr => ?_, fun hr => ?_⟩
    · rw [hloopOf, hloop] at hr
      rw [Awaited, hloopOf, hloop]
      exact (h.pending hr).imp_left hret
    · rw [hloopOf, hloop] at hr ⊢
      exact (h.batch hr).imp_left hret

/-- What was behind the functors is now in one batch with them. -/
theorem Safe.swap (h : s.Safe) (hwork : (s.loops ℓ).work = [])
    (htodo : (s.loops ℓ).queue.todo = []) :
    (s.setLoop ℓ { s.loops ℓ with phase := .calling, queue := (s.loops ℓ).queue.swap }).Safe := by
  have hp := h.sound.placed ℓ
  have hheld : (s.loops ℓ).queue.swap.held = (s.loops ℓ).queue.pending := by
    simp [TaskQueue.held, TaskQueue.swap, TaskQueue.waiting]
  refine ⟨h.sound.setLoop (hp.of_le (fun j hj => ?_) hp.guarded fun hn => absurd rfl hn),
    fun c => (h.covered c).imp_right fun hcov => hcov.setLoop (fun hr => ?_) (fun _ hr => ?_)
      fun hℓ hr => ?_⟩
  · rw [hheld] at hj
    simp only [TaskQueue.held, TaskQueue.waiting, List.mem_append] at hj ⊢
    tauto
  · refine hr.setLoop fun hm => ?_
    rw [Loop.agenda, TaskQueue.waiting_swap htodo]
    exact hm
  · cases hr
  · rw [Loop.batch, hwork, List.nil_append, TaskQueue.swap_todo, ← hℓ] at hr
    rw [hheld, ← hℓ]
    exact hcov.pending hr

/-- The batch is dropped when none of its functors is left to run. -/
theorem Safe.finish (h : s.Safe) (hwork : (s.loops ℓ).work = [])
    (htodo : (s.loops ℓ).queue.todo = []) :
    (s.setLoop ℓ { s.loops ℓ with
      phase := .polling, queue := (s.loops ℓ).queue.finish }).Safe := by
  have hp := h.sound.placed ℓ
  refine ⟨h.sound.setLoop (hp.of_le (fun j hj => ?_) hp.guarded fun _ => htodo),
    fun c => (h.covered c).imp_right fun hcov => hcov.setLoop (fun hr => hr.setLoop id)
      (fun hℓ hr => ?_) fun hℓ hr => ?_⟩
  · simp only [TaskQueue.held, TaskQueue.finish, TaskQueue.waiting, List.nil_append,
      List.mem_append] at hj ⊢
    tauto
  · subst hℓ
    exact hcov.pending hr
  · rw [Loop.batch, hwork, List.nil_append] at hr
    simp only [TaskQueue.finish, htodo] at hr
    cases hr

/-- A functor is taken from the batch, which keeps it. -/
theorem Safe.start (h : s.Safe) {queue : TaskQueue Job} (hwork : (s.loops ℓ).work = [])
    (hphase : (s.loops ℓ).phase = .calling) (hstart : (s.loops ℓ).queue.start = some (job, queue)) :
    (s.setLoop ℓ { s.loops ℓ with work := [job], queue := queue }).Safe := by
  have hp := h.sound.placed ℓ
  obtain ⟨hwait, hran, hpending, htodo⟩ := TaskQueue.waiting_of_start hstart
  have hheld : queue.held = (s.loops ℓ).queue.held := by
    rw [TaskQueue.held, TaskQueue.held, hran, hwait, List.append_assoc, List.singleton_append]
  refine h.setLoop (hp.of_le (fun j hj => ?_) hp.guarded fun hn => absurd hphase hn)
    (fun c => ⟨fun hr => ?_, fun hr => ?_, fun ho => ?_, fun ho => ?_⟩) fun c hr => ?_
  · rw [hheld, List.singleton_append] at hj
    obtain rfl | hj := List.mem_cons.mp hj
    · refine List.mem_append_right _ (TaskQueue.mem_held_of_waiting ?_)
      rw [hwait]
      exact List.mem_cons_self
    · exact List.mem_append_right _ hj
  · rw [← hpending]
    exact hr
  · rw [Loop.batch, hwork, List.nil_append, htodo]
    exact hr
  · rw [hpending]
    exact ho
  · rw [hheld]
    exact ho
  · rw [Loop.agenda, hwork, List.nil_append, hwait] at hr
    exact hr

omit [DecidableEq L] in
/-- `shared_ptr` copies come and go in the users' hands. -/
theorem Safe.setRefs (h : s.Safe) {refs : ConnId → Nat} {caller : T → Caller}
    (hrefs : ∀ c, refs c ≠ 0 → s.Born c) (hcallers : ∀ t c, (caller t).conn = some c → s.Born c)
    (hgone : ∀ c, s.refs c ≠ 0 → refs c = 0 → s.Covered c) :
    ({ s with refs := refs, caller := caller } : TcpServer T L).Safe := by
  refine ⟨h.sound.congr rfl (fun _ => rfl) hrefs hcallers, fun c => ?_⟩
  by_cases hzero : refs c = 0
  · have hcov : s.Covered c := (h.covered c).elim (fun hr => hgone c hr hzero) id
    exact .inr (hcov.mono rfl (fun _ => .of_eq rfl rfl) .inl)
  · exact .inl hzero

omit [DecidableEq L] in
theorem Safe.acquire (h : s.Safe) (hb : s.Born c) : (s.acquire c).Safe := by
  have hrefs : ∀ c', Function.update s.refs c (s.refs c + 1) c' =
      if c' = c then s.refs c + 1 else s.refs c' := fun c' => Function.update_apply _ _ _ _
  refine h.setRefs (fun c' hr => ?_) h.sound.callers fun c' hne hzero => ?_
  · rw [hrefs] at hr
    split at hr
    · rename_i he
      exact he ▸ hb
    · exact h.sound.pointers c' hr
  · rw [hrefs] at hzero
    split at hzero
    · cases hzero
    · exact absurd hzero hne

omit [DecidableEq L] in
theorem Safe.releasePtr (h : s.Safe) (hlast : s.refs c ≤ 1 → s.Covered c) :
    (s.releasePtr c).Safe := by
  have hrefs : ∀ c', Function.update s.refs c (s.refs c - 1) c' =
      if c' = c then s.refs c - 1 else s.refs c' := fun c' => Function.update_apply _ _ _ _
  refine h.setRefs (fun c' hr => h.sound.pointers c' fun hzero => hr ?_) h.sound.callers
    fun c' hne hzero => ?_
  · rw [hrefs]
    split
    · rename_i he
      rw [← he, hzero]
    · exact hzero
  · rw [hrefs] at hzero
    split at hzero
    · rename_i he
      rw [he]
      exact hlast (by omega)
    · exact absurd hzero hne

omit [DecidableEq L] in
theorem Safe.setCaller [DecidableEq T] (h : s.Safe) {t : T} {x : Caller}
    (hx : ∀ c, x.conn = some c → s.Born c) : (s.setCaller t x).Safe := by
  refine h.setRefs h.sound.pointers (fun t' c hc => ?_) fun c hne hzero => absurd hzero hne
  rw [Function.update_apply] at hc
  split at hc
  · exact hx c hc
  · exact h.sound.callers t' c hc

omit [DecidableEq L] in
/-- A call has found the connection open; the caller's pointer is good for it. -/
theorem Safe.test [DecidableEq T] (h : s.Safe) {t : T} {x : Caller} (hr : s.refs c ≠ 0)
    (hx : x.conn = some c) : ((s.acquire c).setCaller t x).Safe := by
  have hb := h.sound.pointers c hr
  exact (h.acquire hb).setCaller fun c' hc' => Option.some.inj (hx.symm.trans hc') ▸ hb

/-- A call queues its functor and lets go of its pointer. -/
theorem Safe.enqueue (h : s.Safe) (hb : s.Born c) (hraw : job.rawThis = some c)
    (hok : s.refs c ≤ 1 → s.Awaited c) :
    ((s.queueInLoop (s.loopOf c) job).releasePtr c).Safe := by
  have hsound : (s.queueInLoop (s.loopOf c) job).Sound :=
    h.sound.queueInLoop (Job.conn_of_rawThis hraw ▸ hb) fun c' hc' => by
      rw [Option.some.inj (hraw.symm.trans hc')]
  have hawaited : s.Awaited c → (s.queueInLoop (s.loopOf c) job).Awaited c := by
    refine Or.imp Retained.queueInLoop fun ho => ?_
    simp only [TcpServer.queueInLoop, TcpServer.setLoop, Function.update_self,
      TaskQueue.push_pending, List.map_append, List.mem_append]
    exact .inl ho
  have hlast : s.refs c ≤ 1 → (s.queueInLoop (s.loopOf c) job).Covered c := fun hr =>
    ⟨fun _ => hawaited (hok hr), fun _ => (hawaited (hok hr)).owned⟩
  refine Safe.releasePtr ⟨hsound, fun c' => ?_⟩ hlast
  by_cases hcc : c' = c
  · subst hcc
    by_cases hr : s.refs c' ≤ 1
    · exact .inr (hlast hr)
    · exact .inl fun hzero => hr (Nat.le_trans (Nat.le_of_eq hzero) (Nat.zero_le 1))
  · refine (h.covered c').imp_right fun hcov => hcov.mono rfl (keeps_queueInLoop ?_)
      fun hr => .inl hr.queueInLoop
    rw [hraw]
    exact fun he => hcc (Option.some.inj he).symm

end Steps

/-! ## Every action -/

/-- Not `~TcpServer`. -/
def Action.lasting : Action T L → Bool
  | .destroy => false
  | _ => true

section Actions

variable [Fintype L] [DecidableEq L] {ℓ : L}

theorem Safe.handleEvent (h : s.Safe) (hwork : (s.loops ℓ).work = []) :
    (s.handleEvent ℓ c).Safe := by
  have hp := h.sound.placed ℓ
  unfold TcpServer.handleEvent
  simp only
  split
  · exact h.of_keeps (h.sound.congr rfl (fun _ => rfl) h.sound.pointers h.sound.callers)
      (fun _ => id) (fun _ _ => rfl) (fun _ _ => .of_eq rfl rfl) fun _ => .inl
  · rename_i hu
    have hb := h.sound.born_of_useCount hu
    set jobs := (s.conns c).channel_.handleEventWithGuard.map (Job.handle · c) with hjobs
    have hhandle : ∀ j ∈ jobs, j.conn = c ∧ j.rawThis = none ∧ j.removes = none := fun j hj => by
      obtain ⟨cb, -, rfl⟩ := List.mem_map.mp hj
      exact ⟨rfl, rfl, rfl⟩
    have hmem : ∀ j ∈ jobs ++ (s.loops ℓ).queue.held,
        j ∈ jobs ∨ j ∈ (s.loops ℓ).work ++ (s.loops ℓ).queue.held := fun j hj => by
      rw [hwork]
      exact List.mem_append.mp hj
    refine h.setLoop ⟨fun j hj => ?_, fun j hj c' hc' => ?_, fun c' hc' => ?_, hp.drained⟩
      (fun c' => ?_) fun c' hr => ?_
    · obtain hj | hj := hmem j hj
      · rw [(hhandle j hj).1]
        exact hb
      · exact hp.born j hj
    · obtain hj | hj := hmem j hj
      · rw [(hhandle j hj).2.1] at hc'
        cases hc'
      · exact hp.home j hj c' hc'
    · simp only at hc'
      split at hc'
      · exact Option.some.inj hc' ▸ hb
      · cases hc'
    · have hk := (s.loops ℓ).keeps_work c' jobs fun j hj => by simp [(hhandle j hj).2.1]
      rw [hwork, List.append_nil] at hk
      exact hk.trans (.of_eq rfl rfl)
    · rw [Loop.agenda, hwork, List.nil_append] at hr
      rw [Loop.agenda, List.map_append]
      exact List.mem_append_right _ hr

omit [Fintype L] [DecidableEq L] in
theorem Sound.addConnection (h : s.Sound) (hid : s.nextConnId_ < 0x7fffffff) (ioLoop : L)
    (sockfd : Int) : (s.addConnection ioLoop sockfd).Sound := by
  have hborn : ∀ c, s.Born c → (s.addConnection ioLoop sockfd).Born c := fun c hc =>
    (born_addConnection h.named ioLoop sockfd c).mpr (.inl hc)
  refine ⟨h.alive, h.named.addConnection hid ioLoop sockfd, fun ℓ => ?_,
    fun c hc => hborn c (h.pointers c hc), fun t c hc => hborn c (h.callers t c hc)⟩
  have hp := h.placed ℓ
  refine ⟨fun j hj => hborn _ (hp.born j hj), fun j hj c hc => ?_,
    fun c hc => hborn c (hp.guarded c hc), hp.drained⟩
  have hb : s.Born c := Job.conn_of_rawThis hc ▸ hp.born j hj
  rw [addConnection_loopOf, if_neg (ne_next hb)]
  exact hp.home j hj c hc

omit [Fintype L] in
theorem Safe.newConnection (h : s.Safe) (hid : s.nextConnId_ < 0x7fffffff) (ioLoop : L)
    (sockfd : Int) : (s.newConnection ioLoop sockfd).Safe := by
  have hsound := h.sound.addConnection hid ioLoop sockfd
  have hb : (s.addConnection ioLoop sockfd).Born s.nextConnId_ :=
    (born_addConnection h.sound.named ioLoop sockfd _).mpr (.inr rfl)
  have hmap := h.sound.named.connections_addConnection ioLoop sockfd
  have hadd : (s.addConnection ioLoop sockfd).Safe := by
    refine h.of_keeps hsound (fun _ => id) (fun c hc => ?_) (fun _ _ => .of_eq rfl rfl)
      fun c hr => .inl (hr.mono (fun hm => ?_) fun _ => id)
    · rw [addConnection_loopOf, if_neg (ne_next hc)]
    · rw [hmap, List.map_append]
      exact List.mem_append_left _ hm
  exact hadd.of_keeps (hsound.runInLoop hb rfl)
    (fun c hc => by rw [TcpServer.newConnection, runInLoop_refs]; exact hc)
    (fun c _ => by rw [TcpServer.newConnection, runInLoop_loopOf])
    (fun c => keeps_runInLoop (by simp [Job.rawThis])) fun c hr => .inl hr.runInLoop

theorem Safe.userCall (h : s.Safe) {f : Site ConnId → Site ConnId}
    (hf : ∀ w : Site ConnId, (f w).conn.name_ = w.conn.name_) (hs : s.userCall c f = some s') :
    s'.Safe := by
  obtain ⟨hb, -, rfl⟩ := userCall_eq hs
  exact h.of_keeps (h.sound.onConn hb (hf _)) (fun _ => id) (fun _ _ => rfl)
    (fun _ => keeps_onConn f) fun _ hr => .inl (hr.onConn f)

variable [DecidableEq T]

theorem Safe.act (h : s.Safe) {a : Action T L} (ha : a.lasting = true) (hok : s.Cautious a)
    (hs : s.act a = some s') : s'.Safe := by
  cases a with
  | poll ℓ reports =>
    obtain ⟨hphase, -, -, -, rfl⟩ := act_poll hs
    have hp := h.sound.placed ℓ
    have hset : (s.setLoop ℓ { s.loops ℓ with phase := .handling (reports.map (·.1)) }).Safe :=
      h.setLoop (hp.of_le (fun _ hj => hj) hp.guarded fun _ =>
        hp.drained (by rw [hphase]; decide)) (fun _ => .of_eq rfl rfl) fun _ => id
    refine hset.of_keeps (hset.sound.congr rfl (fun c => ?_) h.sound.pointers h.sound.callers)
      (fun _ => id) (fun _ _ => rfl) (fun _ _ => .of_eq rfl rfl) fun _ => .inl
    obtain ⟨v, hv⟩ := setRevents_eq reports s.conns c
    show (setRevents reports s.conns c).name_ = _
    rw [hv]
    rfl
  | dispatch ℓ =>
    obtain ⟨c, rest, hphase, hidle, rfl⟩ := act_dispatch hs
    have hp := h.sound.placed ℓ
    have hset : (s.setLoop ℓ { s.loops ℓ with phase := .handling rest }).Safe :=
      h.setLoop (hp.of_le (fun _ hj => hj) hp.guarded fun _ => hp.drained (by simp [hphase]))
        (fun _ => .of_eq rfl rfl) fun _ => id
    refine hset.handleEvent ?_
    simp only [TcpServer.setLoop, Function.update_self]
    exact (Loop.idle_iff.mp hidle).1
  | release ℓ =>
    obtain ⟨-, rfl⟩ := act_release hs
    have hp := h.sound.placed ℓ
    exact h.setLoop (hp.of_le (fun _ hj => hj) (by simp) hp.drained) (fun _ => .of_eq rfl rfl)
      fun _ => id
  | swap ℓ =>
    obtain ⟨hphase, hidle, rfl⟩ := act_swap hs
    exact h.swap (Loop.idle_iff.mp hidle).1 ((h.sound.placed ℓ).drained (by simp [hphase]))
  | start ℓ =>
    obtain ⟨hphase, hidle, job, queue, hstart, rfl⟩ := act_start hs
    exact h.start (Loop.idle_iff.mp hidle).1 hphase hstart
  | finish ℓ =>
    obtain ⟨-, hidle, htodo, rfl⟩ := act_finish hs
    exact h.finish (Loop.idle_iff.mp hidle).1 htodo
  | run ℓ read write =>
    obtain ⟨job, rest, hwork, rfl⟩ := act_run hs
    exact h.run hwork read write
  | newConnection ioLoop sockfd =>
    obtain ⟨-, hid, -, rfl⟩ := act_newConnection hs
    exact h.newConnection hid ioLoop sockfd
  | destroy => cases ha
  | destroyItem key c =>
    obtain ⟨hstatus, -⟩ := act_destroyItem hs
    exact absurd (h.sound.alive.symm.trans hstatus) (by decide)
  | destroyEnd =>
    simp only [TcpServer.act, Option.ite_none_right_eq_some] at hs
    exact absurd (h.sound.alive.symm.trans hs.1.1) (by decide)
  | send c data r => exact h.userCall (fun w => (stable_name _).send rfl data r) hs
  | shutdown c => exact h.userCall (fun w => (stable_name (c := c) _).shutdown rfl) hs
  | setHighWaterMarkCallback c n =>
    exact h.userCall (fun w => (stable_name (c := c) _).setHighWaterMarkCallback rfl n) hs
  | keep c =>
    obtain ⟨hb, rfl⟩ := act_keep hs
    exact h.acquire hb
  | drop c =>
    obtain rfl := act_drop hs
    exact h.releasePtr hok
  | testSend t c data =>
    obtain ⟨hrefs, rfl | rfl⟩ := act_testSend hs
    · exact h
    · exact h.test hrefs rfl
  | enqueueSend t =>
    obtain ⟨c, data, hc, rfl⟩ := act_enqueueSend hs
    have hconn : (s.caller t).conn = some c := by rw [hc]; rfl
    refine (h.enqueue (h.sound.callers t c hconn) rfl ?_).setCaller fun c hc => by cases hc
    simpa only [Cautious, hconn] using hok
  | testShutdown t c =>
    obtain ⟨hrefs, rfl | rfl⟩ := act_testShutdown hs
    · exact h
    · exact h.test hrefs rfl
  | storeDisconnecting t =>
    obtain ⟨c, hc, rfl⟩ := act_storeDisconnecting hs
    have hleft : (s.setCaller t (.left c)).Safe := h.setCaller fun c' hc' =>
      h.sound.callers t c' (by rw [hc]; exact hc')
    refine hleft.of_keeps (hleft.sound.congr rfl (fun c' => ?_) hleft.sound.pointers
      hleft.sound.callers) (fun _ => id) (fun _ _ => rfl) (fun _ _ => .of_eq rfl rfl) fun _ => .inl
    show (Function.update s.conns c _ c').name_ = (s.conns c').name_
    rw [Function.update_apply]
    split
    · rename_i he
      rw [he]
    · rfl
  | enqueueShutdown t =>
    obtain ⟨c, hc, rfl⟩ := act_enqueueShutdown hs
    have hconn : (s.caller t).conn = some c := by rw [hc]; rfl
    refine (h.enqueue (h.sound.callers t c hconn) rfl ?_).setCaller fun c hc => by cases hc
    simpa only [Cautious, hconn] using hok

omit [DecidableEq L] [DecidableEq T] in
/-- A functor about to run finds an owner of its connection. -/
theorem Safe.useCount_ne_zero (h : s.Safe) {job : Job} {rest : List Job}
    (hwork : (s.loops ℓ).work = job :: rest) (hraw : job.rawThis = some c) :
    s.useCount c ≠ 0 := by
  intro hzero
  obtain ⟨hmap, hrefs, howners⟩ := useCount_eq_zero.mp hzero
  have hnone : ∀ ℓ', ∀ j ∈ (s.loops ℓ').work ++ (s.loops ℓ').queue.held, j.owner ≠ some c :=
    fun ℓ' j hj ho => howners ℓ' (List.mem_append_right _ (List.mem_filterMap.mpr ⟨j, hj, ho⟩))
  have hhome : s.loopOf c = ℓ := (h.sound.placed ℓ).home job (by simp [hwork]) c hraw
  have hbatch : some c ∈ (s.loops (s.loopOf c)).batch.map Job.rawThis := by
    rw [hhome, Loop.batch, hwork, List.cons_append, List.map_cons, hraw]
    exact List.mem_cons_self
  obtain hr | hcov := h.covered c
  · exact hr hrefs
  · obtain (hm | ⟨ℓ', hm⟩) | hm := hcov.batch hbatch
    · exact hmap hm
    · obtain ⟨j, hj, hrem⟩ := List.mem_map.mp hm
      refine hnone ℓ' j ?_ (Job.owner_of_removes hrem)
      exact (List.mem_append.mp hj).elim (List.mem_append_left _)
        fun hj => List.mem_append_right _ (TaskQueue.mem_held_of_waiting hj)
    · obtain ⟨j, hj, ho⟩ := List.mem_map.mp hm
      exact hnone _ j (List.mem_append_right _ hj) ho

/-- Where users let go of their last pointer to a connection only while its queued
calls are covered, each of them runs on a connection that has an owner, in every
interleaving of threads and loops. -/
theorem queued_calls_owned (config : Config L) (as : List (Action T L)) {s : TcpServer T L}
    (has : ∀ a ∈ as, a.lasting = true)
    (hg : Execution.Guarded step Cautious (fresh config) as)
    (hr : Execution.exec step (fresh config) as = some s) (ℓ : L) (job : Job) (rest : List Job)
    (c : ConnId) (hwork : (s.loops ℓ).work = job :: rest) (hraw : job.rawThis = some c) :
    s.useCount c ≠ 0 := by
  have hfresh : (fresh config : TcpServer T L).Safe :=
    ⟨sound_fresh config, fun c => .inr ⟨by simp [fresh], by simp [fresh, Loop.batch]⟩⟩
  have hsafe : s.Safe := by
    refine Execution.exec_invariant Safe (fun s a s' h hok hs => ?_) hfresh
      ((Execution.guarded_of_forall has (fresh config)).and hg) hr
    exact h.act hok.1 hok.2 (step_eq hs).2.2
  exact hsafe.useCount_ne_zero hwork hraw

end Actions

/-- A thread tests `state_`, and then the peer closes the connection. -/
def sendAfterTest : List (Action Unit Bool) :=
  let run (ℓ : Bool) : Action Unit Bool := .run ℓ (.delivered []) (.took 0)
  [.poll false [], .newConnection true 7, .poll true [], .swap true, .start true, run true,
    .keep 1, .finish true, .testSend () 1 [65], .poll true [(1, POLLIN)], .dispatch true, run true,
    run true, .release true, .swap true, .finish true]

/-- The call comes before the removal, and the pointer is dropped at once. -/
theorem queued_calls_owned_early :
    let as : List (Action Unit Bool) := sendAfterTest ++ [.enqueueSend (), .drop 1, .swap false,
      .start false, .run false (.delivered []) (.took 0), .poll true [], .swap true, .start true]
    ∃ s, Execution.exec step pair as = some s ∧ (s.loops true).work = [.sendInLoop 1 [65]] ∧
      s.refs 1 = 0 ∧ s.useCount 1 ≠ 0 := by
  intro as
  have hrun : (Execution.exec step pair as).map (fun s => decide
      ((s.loops true).work = [.sendInLoop 1 [65]] ∧ s.refs 1 = 0)) = some true := by
    decide +kernel
  obtain ⟨s, hs, hres⟩ := Option.map_eq_some_iff.mp hrun
  obtain ⟨hwork, hrefs⟩ := of_decide_eq_true hres
  exact ⟨s, hs, hwork, hrefs, queued_calls_owned _ as (by decide) (by decide +kernel) hs true _ _ 1
    hwork rfl⟩

/-- The call comes after `connectDestroyed`: its functor runs on a connection that
nobody owns. -/
theorem queued_calls_dangle :
    let run (ℓ : Bool) : Action Unit Bool := .run ℓ (.delivered []) (.took 0)
    let as : List (Action Unit Bool) := sendAfterTest ++ [.swap false, .start false, run false,
      .finish false, .poll true [], .swap true, .start true, run true, run true, .finish true,
      .enqueueSend (), .drop 1, .poll true [], .swap true, .start true]
    (∀ a ∈ as, a.lasting = true) ∧ ∃ s, Execution.exec step pair as = some s ∧
      (s.loops true).work = [.sendInLoop 1 [65]] ∧ s.useCount 1 = 0 := by
  intro run as
  refine ⟨by decide, ?_⟩
  have hrun : (Execution.exec step pair as).map (fun s => decide
      ((s.loops true).work = [.sendInLoop 1 [65]] ∧ s.useCount 1 = 0)) = some true := by
    decide +kernel
  obtain ⟨s, hs, hres⟩ := Option.map_eq_some_iff.mp hrun
  exact ⟨s, hs, of_decide_eq_true hres⟩

end TcpServer

end Mymuduo

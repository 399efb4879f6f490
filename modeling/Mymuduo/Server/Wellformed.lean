import Mymuduo.Server.ConnectionMap
import Mymuduo.Server.View

/-!
# What every reachable server has in common

Names and map entries belong to accepted connections, each job stands on the
loop where it belongs, and a kernel entry points to an added channel of that
loop. The runs are those without calls of `send` and `shutdown` from threads
that are no loop's.
-/

namespace Mymuduo

open Mymuduo.Library

universe u v

/-- A job that some loop's thread has queued. -/
def Job.own : Job → Bool
  | sendInLoop _ _ | shutdownInLoop _ => false
  | _ => true

namespace TcpServer

variable {T : Type u} {L : Type v}

/-- No part of a call from another thread. -/
def Action.own : Action T L → Bool
  | .testSend _ _ _ | .enqueueSend _ | .testShutdown _ _ | .storeDisconnecting _
  | .enqueueShutdown _ => false
  | _ => true

structure Tidy (s : TcpServer T L) (ℓ : L) (l : Loop) : Prop where
  placed : ∀ j ∈ l.agenda, s.Born j.conn ∧ ℓ = s.home j ∧ j.own = true
  active : ∀ c ∈ l.activeChannels_, s.Born c ∧ s.loopOf c = ℓ
  distinct : l.activeChannels_.Nodup
  watch : ∀ fd c ev, l.poller.epoll fd = some (c, ev) → s.Born c ∧ s.loopOf c = ℓ ∧
    (s.conns c).channel_.fd_ = fd ∧ (s.conns c).channel_.index_ = .kAdded
  refuse : ∀ op fd, l.poller.refuse op fd = false
  batch : l.phase ≠ .calling → l.queue.todo = []

structure Wf (s : TcpServer T L) : Prop where
  ids : 1 ≤ s.nextConnId_ ∧ s.nextConnId_ ≤ 0x7fffffff
  names : ∀ c, s.Born c → (s.conns c).name_ = s.nameOf c
  closers : ∀ c, s.Born c → (s.conns c).closeCallback_ = true
  keys : ∀ e ∈ s.connections_, s.Born e.2 ∧ e.1 = s.nameOf e.2
  once : s.connections_.Nodup
  unborn : ∀ c, ¬ s.Born c → s.invoked c = []
  recorded : ∀ x ∈ s.done, s.Born x.1.conn
  tidy : ∀ ℓ, s.Tidy ℓ (s.loops ℓ)

/-- Tidiness reads four parts of the server. -/
theorem Tidy.congr {s s' : TcpServer T L} {ℓ : L} {l : Loop} (h : s.Tidy ℓ l)
    (hid : s'.nextConnId_ = s.nextConnId_) (hconfig : s'.config = s.config)
    (hloop : s'.loopOf = s.loopOf) (hconns : s'.conns = s.conns) : s'.Tidy ℓ l := by
  have hborn : ∀ c, s.Born c → s'.Born c := fun c hc => by
    unfold Born
    rw [hid]
    exact hc
  refine ⟨fun j hj => ?_, fun c hc => ?_, h.distinct, fun fd c ev he => ?_, h.refuse, h.batch⟩
  · obtain ⟨hb, hhome, hown⟩ := h.placed j hj
    refine ⟨hborn _ hb, hhome.trans ?_, hown⟩
    cases j <;> simp only [home, hconfig, hloop]
  · rw [hloop]
    exact ⟨hborn _ (h.active c hc).1, (h.active c hc).2⟩
  · rw [hloop, hconns]
    exact ⟨hborn _ (h.watch fd c ev he).1, (h.watch fd c ev he).2⟩

/-- A loop with nothing more to do and no more channels to handle. -/
theorem Tidy.of_le {s : TcpServer T L} {ℓ : L} {l l' : Loop} (h : s.Tidy ℓ l)
    (hagenda : ∀ j ∈ l'.agenda, j ∈ l.agenda)
    (hactive : l'.activeChannels_.Sublist l.activeChannels_) (hpoller : l'.poller = l.poller)
    (hbatch : l'.phase ≠ .calling → l'.queue.todo = []) : s.Tidy ℓ l' where
  placed j hj := h.placed j (hagenda j hj)
  active c hc := h.active c (hactive.subset hc)
  distinct := h.distinct.sublist hactive
  watch := hpoller ▸ h.watch
  refuse := hpoller ▸ h.refuse
  batch := hbatch

theorem Wf.named {s : TcpServer T L} (h : s.Wf) : s.Named := ⟨h.ids, h.names, h.keys, h.once⟩

theorem wf_fresh (config : Config L) : (fresh config : TcpServer T L).Wf where
  ids := by simp [fresh]
  names c hc := by simp only [Born, fresh] at hc; omega
  closers c hc := by simp only [Born, fresh] at hc; omega
  keys := nofun
  once := List.nodup_nil
  unborn _ _ := rfl
  recorded := nofun
  tidy _ := ⟨nofun, nofun, List.nodup_nil, nofun, fun _ _ => rfl, fun _ => rfl⟩

/-! ## Jobs and loops -/

section Loops

variable [DecidableEq L] {s : TcpServer T L} {ℓ : L} {job : Job}

theorem Wf.setLoop (h : s.Wf) {l : Loop} (hl : s.Tidy ℓ l) : (s.setLoop ℓ l).Wf where
  ids := h.ids
  names := h.names
  closers := h.closers
  keys := h.keys
  once := h.once
  unborn := h.unborn
  recorded := h.recorded
  tidy ℓ' := by
    by_cases hℓ : ℓ' = ℓ
    · subst hℓ
      simp only [TcpServer.setLoop, Function.update_self]
      exact hl.congr rfl rfl rfl rfl
    · simp only [TcpServer.setLoop, Function.update_of_ne hℓ]
      exact (h.tidy ℓ').congr rfl rfl rfl rfl

/-- A job may be put on its own loop. -/
structure Fit (s : TcpServer T L) (ℓ : L) (job : Job) : Prop where
  born : s.Born job.conn
  home : ℓ = s.home job
  own : job.own = true

theorem Wf.callNext (h : s.Wf) (hj : s.Fit ℓ job) : (s.callNext ℓ job).Wf := by
  have ht := h.tidy ℓ
  refine h.setLoop { ht with placed := fun j hmem => ?_ }
  obtain rfl | hmem := List.mem_cons.mp (show j ∈ job :: (s.loops ℓ).agenda from hmem)
  · exact ⟨hj.born, hj.home, hj.own⟩
  · exact ht.placed j hmem

theorem Wf.queueInLoop (h : s.Wf) (hj : s.Fit ℓ job) : (s.queueInLoop ℓ job).Wf := by
  have ht := h.tidy ℓ
  refine h.setLoop { ht with placed := fun j hmem => ?_ }
  rw [Loop.agenda, TaskQueue.waiting_push, ← List.append_assoc] at hmem
  obtain hmem | hmem := List.mem_append.mp hmem
  · exact ht.placed j hmem
  · obtain rfl := List.mem_singleton.mp hmem
    exact ⟨hj.born, hj.home, hj.own⟩

theorem Wf.runInLoop (h : s.Wf) {ℓ' : L} (hj : s.Fit ℓ job) : (s.runInLoop ℓ' ℓ job).Wf := by
  unfold TcpServer.runInLoop
  split
  · rename_i he
    exact h.callNext (he ▸ hj)
  · exact h.queueInLoop hj

theorem Wf.popJob (h : s.Wf) {rest : List Job} (hwork : (s.loops ℓ).work = job :: rest) :
    (s.popJob ℓ job rest).Wf := by
  have ht := h.tidy ℓ
  have hsub : ∀ j ∈ rest ++ (s.loops ℓ).queue.waiting, j ∈ (s.loops ℓ).agenda := fun j hj => by
    rw [Loop.agenda, hwork]
    exact List.mem_cons_of_mem _ hj
  have hset : (s.setLoop ℓ { s.loops ℓ with work := rest }).Wf :=
    h.setLoop (ht.of_le hsub (List.Sublist.refl _) rfl ht.batch)
  refine { hset with recorded := fun x hx => ?_, tidy := fun ℓ' => ?_ }
  · obtain hx | hx := List.mem_append.mp hx
    · exact h.recorded x hx
    · obtain rfl := List.mem_singleton.mp hx
      exact (ht.placed job (by rw [Loop.agenda, hwork]; exact List.mem_cons_self)).1
  · exact (hset.tidy ℓ').congr rfl rfl rfl rfl

end Loops

/-! ## Methods -/

/-- What every method keeps of connection `c` and the poller of `ℓ`. -/
structure Kept (s : TcpServer T L) (ℓ : L) (c : ConnId) (conn : TcpConnection)
    (p : EPollPoller ConnId) : Prop where
  name : conn.name_ = (s.conns c).name_
  closer : conn.closeCallback_ = (s.conns c).closeCallback_
  fd : conn.channel_.fd_ = (s.conns c).channel_.fd_
  refuse : ∀ op fd, p.refuse op fd = false
  holds : p.Holds c conn.channel_
  others : ∀ c' fd ev, c' ≠ c → p.epoll fd = some (c', ev) →
    (s.loops ℓ).poller.epoll fd = some (c', ev)

section Methods

variable {s : TcpServer T L} {ℓ : L} {c : ConnId}

theorem Kept.op {conn : TcpConnection} {p : EPollPoller ConnId} (h : s.Kept ℓ c conn p)
    (op : ChannelOp) : s.Kept ℓ c { conn with channel_ := (op.run c conn.channel_ p).1 }
      (op.run c conn.channel_ p).2 := by
  obtain ⟨hholds, hothers⟩ := ChannelOp.run_epoll op h.refuse h.holds
  refine ⟨h.name, h.closer, (ChannelOp.run_fd c conn.channel_ p op).trans h.fd, ?_, hholds, ?_⟩
  · rw [ChannelOp.run_refuse]
    exact h.refuse
  · exact fun c' fd ev hc he => h.others c' fd ev hc (hothers c' fd ev hc he)

theorem stable_kept : Site.Stable c (s.Kept ℓ c) where
  op op _ _ _ h := h.op op
  rest h hch hn hcl _ := ⟨hn.trans h.name, hcl.trans h.closer, by rw [hch]; exact h.fd, h.refuse,
    by rw [hch]; exact h.holds, h.others⟩

theorem Kept.tie {conn : TcpConnection} {p : EPollPoller ConnId} (h : s.Kept ℓ c conn p) :
    s.Kept ℓ c { conn with channel_.tied_ := true } p :=
  ⟨h.name, h.closer, h.fd, h.refuse, h.holds, h.others⟩

theorem Wf.kept (h : s.Wf) (c : ConnId) (ℓ : L) :
    s.Kept ℓ c (s.conns c) (s.loops ℓ).poller where
  name := rfl
  closer := rfl
  fd := rfl
  refuse := (h.tidy ℓ).refuse
  holds fd ev he := ((h.tidy ℓ).watch fd c ev he).2.2
  others _ _ _ _ he := he

variable [DecidableEq L]

theorem Wf.onConn (h : s.Wf) (hc : s.Born c) (hℓ : s.loopOf c = ℓ)
    {f : Site ConnId → Site ConnId}
    (hf : s.Kept ℓ c (f { conn := s.conns c, poller := (s.loops ℓ).poller }).conn
      (f { conn := s.conns c, poller := (s.loops ℓ).poller }).poller) : (s.onConn ℓ c f).Wf := by
  set w := f { conn := s.conns c, poller := (s.loops ℓ).poller }
  have hconns : ∀ c', (s.onConn ℓ c f).conns c' = if c' = c then w.conn else s.conns c' :=
    fun c' => Function.update_apply _ _ _ _
  refine ⟨h.ids, fun c' hb => ?_, fun c' hb => ?_, h.keys, h.once, fun c' hb => ?_, h.recorded,
    fun ℓ' => ?_⟩
  · rw [hconns]
    split
    · rename_i he
      rw [hf.name, ← he]
      exact h.names c' hb
    · exact h.names c' hb
  · rw [hconns]
    split
    · rename_i he
      rw [hf.closer, ← he]
      exact h.closers c' hb
    · exact h.closers c' hb
  · have hne : c' ≠ c := fun he => hb (he ▸ hc)
    exact (Function.update_of_ne hne _ _).trans (h.unborn c' hb)
  · have ht := h.tidy ℓ'
    by_cases he : ℓ' = ℓ
    · subst he
      have hloop : (s.onConn ℓ' c f).loops ℓ' = { s.loops ℓ' with
          work := (if w.closing then [.closeCallback c] else []) ++ (s.loops ℓ').work
          queue := (s.loops ℓ').queue.pushAll (w.queued.map (.notice · c))
          poller := w.poller } := Function.update_self _ _ _
      rw [hloop]
      refine ⟨fun j hj => ?_, ht.active, ht.distinct, fun fd c' ev he => ?_, hf.refuse, ht.batch⟩
      · have hj : (j ∈ if w.closing then [Job.closeCallback c] else []) ∨ j ∈ (s.loops ℓ').agenda ∨
            j ∈ w.queued.map (Job.notice · c) := by
          simpa [Loop.agenda, or_assoc] using hj
        obtain hj | hj | hj := hj
        · obtain rfl : j = .closeCallback c := by
            split at hj
            · exact List.mem_singleton.mp hj
            · cases hj
          exact ⟨hc, hℓ.symm, rfl⟩
        · exact ht.placed j hj
        · obtain ⟨n, -, rfl⟩ := List.mem_map.mp hj
          exact ⟨hc, hℓ.symm, rfl⟩
      · rw [hconns]
        split
        · rename_i hcc
          subst hcc
          exact ⟨hc, hℓ, hf.holds fd ev he⟩
        · rename_i hcc
          exact ht.watch fd c' ev (hf.others c' fd ev hcc he)
    · have hloop : (s.onConn ℓ c f).loops ℓ' = s.loops ℓ' := Function.update_of_ne he _ _
      rw [hloop]
      refine { ht with watch := fun fd c' ev hmem => ?_ }
      have hw := ht.watch fd c' ev hmem
      have hne : c' ≠ c := fun hcc => he (hw.2.1.symm.trans (hcc ▸ hℓ))
      rw [hconns, if_neg hne]
      exact hw

end Methods

/-! ## Every action -/

section Actions

variable {s s' : TcpServer T L} {ℓ : L} {c : ConnId}

/-- Entries may leave the map. -/
theorem Wf.setConnections (h : s.Wf) {m : ConnectionMap} (hm : m.Sublist s.connections_) :
    ({ s with connections_ := m } : TcpServer T L).Wf where
  ids := h.ids
  names := h.names
  closers := h.closers
  keys e he := h.keys e (hm.subset he)
  once := h.once.sublist hm
  unborn := h.unborn
  recorded := h.recorded
  tidy ℓ := (h.tidy ℓ).congr rfl rfl rfl rfl

variable [DecidableEq L]

theorem Wf.runJob (h : s.Wf) {job : Job} (hj : s.Fit ℓ job) (read : ReadvResult)
    (write : WriteResult) : (s.runJob ℓ read write job).Wf := by
  have hkept := h.kept job.conn ℓ
  cases job with
  | connectEstablished c =>
    exact h.onConn hj.born hj.home.symm (stable_kept.connectEstablished Kept.tie hkept)
  | connectDestroyed c =>
    exact (h.onConn hj.born hj.home.symm (stable_kept.leaveConnected hkept)).callNext
      ⟨hj.born, hj.home, rfl⟩
  | removeChannel c => exact h.onConn hj.born hj.home.symm (hkept.op .remove)
  | removeConnectionInLoop c =>
    exact (h.setConnections List.filter_sublist).queueInLoop ⟨hj.born, rfl, rfl⟩
  | closeCallback c => exact h.runInLoop ⟨hj.born, rfl, rfl⟩
  | handle cb c => exact h.onConn hj.born hj.home.symm (stable_kept.callback hkept read write cb)
  | notice n c => exact h
  | sendInLoop c data => cases hj.own
  | shutdownInLoop c => cases hj.own

theorem Wf.userCall [Fintype L] (h : s.Wf) {f : Site ConnId → Site ConnId}
    (hf : s.Kept (s.loopOf c) c
      (f { conn := s.conns c, poller := (s.loops (s.loopOf c)).poller }).conn
      (f { conn := s.conns c, poller := (s.loops (s.loopOf c)).poller }).poller)
    (hs : s.userCall c f = some s') : s'.Wf := by
  unfold TcpServer.userCall at hs
  split at hs
  · rename_i hg
    obtain rfl := Option.some.inj hs
    exact h.onConn hg.2.1 rfl hf
  · cases hs

theorem setRevents_eq (reports : List (ConnId × Events)) (conns : ConnId → TcpConnection)
    (c : ConnId) : ∃ v, setRevents reports conns c = { conns c with channel_.revents_ := v } := by
  unfold setRevents
  split
  · exact ⟨_, rfl⟩
  · exact ⟨_, rfl⟩

omit [DecidableEq L] in
theorem Wf.setRevents (h : s.Wf) (reports : List (ConnId × Events)) :
    ({ s with conns := setRevents reports s.conns } : TcpServer T L).Wf := by
  refine { h with
    names := fun c hc => ?_
    closers := fun c hc => ?_
    tidy := fun ℓ => { h.tidy ℓ with watch := fun fd c ev he => ?_ } }
  all_goals obtain ⟨v, hv⟩ := setRevents_eq reports s.conns c
  · simp only [hv]
    exact h.names c hc
  · simp only [hv]
    exact h.closers c hc
  · simp only [hv]
    exact (h.tidy ℓ).watch fd c ev he

theorem Wf.handleEvent [Fintype L] (h : s.Wf) (hc : s.Born c) (hℓ : s.loopOf c = ℓ) :
    (s.handleEvent ℓ c).Wf := by
  have ht := h.tidy ℓ
  unfold TcpServer.handleEvent
  simp only
  split
  · exact { h with tidy := fun ℓ' => (h.tidy ℓ').congr rfl rfl rfl rfl }
  · refine h.setLoop { ht with placed := fun j hj => ?_ }
    obtain hj | hj := List.mem_append.mp hj
    · obtain ⟨cb, -, rfl⟩ := List.mem_map.mp hj
      exact ⟨hc, hℓ.symm, rfl⟩
    · exact ht.placed j (List.mem_append_right _ hj)

omit [DecidableEq L] in
theorem Wf.addConnection (h : s.Wf) (hid : s.nextConnId_ < 0x7fffffff) (ioLoop : L)
    (sockfd : Int) : (s.addConnection ioLoop sockfd).Wf := by
  have hnamed := h.named.addConnection hid ioLoop sockfd
  have hborn := born_addConnection h.named ioLoop sockfd
  have hconns := s.addConnection_conns ioLoop sockfd
  have hloop := s.addConnection_loopOf ioLoop sockfd
  refine ⟨hnamed.ids, hnamed.names, fun c hc => ?_, hnamed.keys, hnamed.once, fun c hc => ?_,
    fun x hx => ?_, fun ℓ => ?_⟩
  · rw [hconns]
    obtain hc | rfl := (hborn c).mp hc
    · rw [if_neg (ne_next hc)]
      exact h.closers c hc
    · rw [if_pos rfl]
      rfl
  · exact h.unborn c fun hb => hc ((hborn c).mpr (.inl hb))
  · exact (hborn _).mpr (.inl (h.recorded x hx))
  · have ht := h.tidy ℓ
    refine ⟨fun j hj => ?_, fun c hc => ?_, ht.distinct, fun fd c ev he => ?_, ht.refuse, ht.batch⟩
    · obtain ⟨hb, hhome, hown⟩ := ht.placed j hj
      have hsame : (s.addConnection ioLoop sockfd).loopOf j.conn = s.loopOf j.conn := by
        rw [hloop, if_neg (ne_next hb)]
      refine ⟨(hborn _).mpr (.inl hb), ?_, hown⟩
      rw [hhome]
      cases j <;> first | exact hsame.symm | rfl
    · obtain ⟨hb, hon⟩ := ht.active c hc
      rw [hloop, if_neg (ne_next hb)]
      exact ⟨(hborn _).mpr (.inl hb), hon⟩
    · obtain ⟨hb, hon, hconn⟩ := ht.watch fd c ev he
      rw [hloop, hconns, if_neg (ne_next hb), if_neg (ne_next hb)]
      exact ⟨(hborn _).mpr (.inl hb), hon, hconn⟩

theorem Wf.newConnection (h : s.Wf) (hid : s.nextConnId_ < 0x7fffffff) (ioLoop : L)
    (sockfd : Int) : (s.newConnection ioLoop sockfd).Wf := by
  have hloop := s.addConnection_loopOf ioLoop sockfd s.nextConnId_
  rw [if_pos rfl] at hloop
  exact (h.addConnection hid ioLoop sockfd).runInLoop
    ⟨(born_addConnection h.named ioLoop sockfd _).mpr (.inr rfl), hloop.symm, rfl⟩

omit [DecidableEq L] in
/-- The status, the user's pointers and the history flags do not matter. -/
theorem Wf.congr (h : s.Wf) {s' : TcpServer T L} (hs : s' = { s with
    status := s'.status, refs := s'.refs, caller := s'.caller, dangling := s'.dangling,
    terminated := s'.terminated }) : s'.Wf := by
  rw [hs]
  exact { h with tidy := fun ℓ => (h.tidy ℓ).congr rfl rfl rfl rfl }

/-- Every action of the loops and of user code keeps the invariant. -/
theorem Wf.act [Fintype L] [DecidableEq T] (h : s.Wf) {a : Action T L} (ha : a.own = true)
    (hs : s.act a = some s') : s'.Wf := by
  cases a with
  | poll ℓ reports =>
    obtain ⟨hphase, -, hnodup, hreports, rfl⟩ := act_poll hs
    have ht := h.tidy ℓ
    have hset : (s.setLoop ℓ
        { s.loops ℓ with phase := .handling (reports.map (·.1)) }).Wf := by
      refine h.setLoop { ht with
        active := fun c hc => ?_
        distinct := hnodup
        batch := fun _ => ht.batch (by rw [hphase]; decide) }
      obtain ⟨x, hx, rfl⟩ := List.mem_map.mp hc
      have hw : ((s.loops ℓ).poller.epoll (s.conns x.1).channel_.fd_).map (·.1) = some x.1 := by
        simpa [watched] using hreports x hx
      obtain ⟨⟨c, ev⟩, he, rfl⟩ := Option.map_eq_some_iff.mp hw
      exact ⟨(ht.watch _ _ _ he).1, (ht.watch _ _ _ he).2.1⟩
    exact hset.setRevents reports
  | dispatch ℓ =>
    obtain ⟨c, rest, hphase, -, rfl⟩ := act_dispatch hs
    have hactive : (s.loops ℓ).activeChannels_ = c :: rest := by
      rw [Loop.activeChannels_, hphase]
    have hc := (h.tidy ℓ).active c (by rw [hactive]; exact List.mem_cons_self)
    have hset : (s.setLoop ℓ { s.loops ℓ with phase := .handling rest }).Wf := by
      refine h.setLoop ((h.tidy ℓ).of_le (fun _ hj => hj) ?_ rfl fun _ => ?_)
      · rw [hactive]
        exact List.sublist_cons_self c rest
      · exact (h.tidy ℓ).batch (by simp [hphase])
    exact hset.handleEvent hc.1 hc.2
  | release ℓ =>
    obtain ⟨-, rfl⟩ := act_release hs
    exact h.setLoop ((h.tidy ℓ).of_le (fun _ hj => hj) (List.Sublist.refl _) rfl (h.tidy ℓ).batch)
  | swap ℓ =>
    obtain ⟨hphase, -, rfl⟩ := act_swap hs
    have hwait := TaskQueue.waiting_swap ((h.tidy ℓ).batch (by simp [hphase]))
    refine h.setLoop ((h.tidy ℓ).of_le (fun j hj => ?_) (List.nil_sublist _) rfl fun hn =>
      absurd rfl hn)
    rw [Loop.agenda, hwait] at hj
    exact hj
  | start ℓ =>
    obtain ⟨hphase, hidle, job, queue, hstart, rfl⟩ := act_start hs
    obtain ⟨hwait, -⟩ := TaskQueue.waiting_of_start hstart
    refine h.setLoop ((h.tidy ℓ).of_le (fun j hj => ?_) (List.Sublist.refl _) rfl fun hn =>
      absurd hphase hn)
    rw [Loop.agenda, (Loop.idle_iff.mp hidle).1, hwait]
    exact hj
  | finish ℓ =>
    obtain ⟨-, -, htodo, rfl⟩ := act_finish hs
    exact h.setLoop ((h.tidy ℓ).of_le (fun _ hj => hj) (List.nil_sublist _) rfl fun _ => htodo)
  | run ℓ read write =>
    obtain ⟨job, rest, hwork, rfl⟩ := act_run hs
    have hj : job ∈ (s.loops ℓ).agenda := by
      rw [Loop.agenda, hwork]
      exact List.mem_cons_self
    obtain ⟨hborn, hhome, hown⟩ := (h.tidy ℓ).placed job hj
    have hhome' : ℓ = (s.popJob ℓ job rest).home job := by cases job <;> exact hhome
    exact (h.popJob hwork).runJob ⟨hborn, hhome', hown⟩ read write
  | newConnection ioLoop sockfd =>
    obtain ⟨-, hid, -, rfl⟩ := act_newConnection hs
    exact h.newConnection hid ioLoop sockfd
  | destroy =>
    simp only [TcpServer.act, Option.ite_none_right_eq_some, Option.some.injEq] at hs
    obtain ⟨-, rfl⟩ := hs
    exact h.congr rfl
  | destroyItem key c =>
    obtain ⟨-, -, hmem, rfl⟩ := act_destroyItem hs
    exact (h.setConnections List.erase_sublist).runInLoop ⟨(h.keys _ hmem).1, rfl, rfl⟩
  | destroyEnd =>
    simp only [TcpServer.act, Option.ite_none_right_eq_some, Option.some.injEq] at hs
    obtain ⟨-, rfl⟩ := hs
    exact h.congr rfl
  | send c data r => exact h.userCall (stable_kept.send (h.kept c _) data r) hs
  | shutdown c => exact h.userCall (stable_kept.shutdown (h.kept c _)) hs
  | setHighWaterMarkCallback c n =>
    exact h.userCall (stable_kept.setHighWaterMarkCallback (h.kept c _) n) hs
  | keep c =>
    obtain ⟨-, rfl⟩ := act_keep hs
    exact h.congr rfl
  | drop c =>
    obtain rfl := act_drop hs
    exact h.congr rfl
  | testSend | enqueueSend | testShutdown | storeDisconnecting | enqueueShutdown => cases ha

end Actions

end TcpServer

end Mymuduo

import Mymuduo.Server.Simulation
import Mymuduo.Server.Upkeep

/-!
# One loop per thread

What a loop keeps about a connection is kept by the connection's own loop: its
jobs, its place among the reported channels, its entry in the interest list. So
the thread of one loop never touches a connection of another, nor its poller or
the functor it is in; it may append to another loop's queue. This holds in every
run, with calls from any thread and through the server's destruction.
-/

namespace Mymuduo

open Mymuduo.Library

universe u v

/-! ## The interest list under one channel's operations -/

section Entries

variable {κ : Type u} {self c : κ} {channel : Channel} {p : EPollPoller κ} {fd : Int} {ev : Events}

/-- An entry of another channel was there before, whatever the kernel refuses. -/
theorem EPollPoller.epoll_update_of_ne {op : CtlOp} (hc : c ≠ self)
    (h : (p.update op self channel).epoll fd = some (c, ev)) : p.epoll fd = some (c, ev) := by
  simp only [EPollPoller.update] at h
  split at h
  · by_cases hfd : fd = channel.fd_
    · subst hfd
      cases op
      case EPOLL_CTL_DEL => simp [EPollPoller.ctlEffect] at h
      all_goals
        simp only [EPollPoller.ctlEffect, Function.update_self, Option.some.injEq,
          Prod.mk.injEq] at h
        exact absurd h.1.symm hc
    · cases op <;> simpa only [EPollPoller.ctlEffect, Function.update_of_ne hfd] using h
  · exact h

theorem EPollPoller.epoll_updateChannel_of_ne (hc : c ≠ self)
    (h : (p.updateChannel self channel).2.epoll fd = some (c, ev)) : p.epoll fd = some (c, ev) := by
  unfold EPollPoller.updateChannel at h
  split at h
  · have hbefore := epoll_update_of_ne hc h
    exact hbefore
  · exact epoll_update_of_ne hc h
  · split at h
    · exact epoll_update_of_ne hc h
    · exact epoll_update_of_ne hc h

theorem ChannelOp.epoll_run_of_ne {op : ChannelOp} (hc : c ≠ self)
    (h : (op.run self channel p).2.epoll fd = some (c, ev)) : p.epoll fd = some (c, ev) := by
  cases op
  case remove =>
    simp only [ChannelOp.run, EPollPoller.removeChannel] at h
    split at h
    · have hbefore := EPollPoller.epoll_update_of_ne hc h
      exact hbefore
    · exact h
  all_goals exact EPollPoller.epoll_updateChannel_of_ne hc h

/-- The other channels' entries are among those of `p`. -/
def Within (p : EPollPoller κ) (self : κ) (q : EPollPoller κ) : Prop :=
  ∀ fd c ev, c ≠ self → q.epoll fd = some (c, ev) → p.epoll fd = some (c, ev)

theorem stable_within (p : EPollPoller κ) (self : κ) :
    Site.Stable self fun _ q => Within p self q where
  op _ _ _ _ h fd c ev hc he := h fd c ev hc (ChannelOp.epoll_run_of_ne hc he)
  rest h _ _ _ _ := h

theorem Within.refl (p : EPollPoller κ) (self : κ) : Within p self p := fun _ _ _ _ h => h

end Entries

namespace TcpServer

variable {T : Type u} {L : Type v} {s s' : TcpServer T L} {c : ConnId}

/-! ## What a loop has of a connection -/

structure Seated (s : TcpServer T L) (ℓ : L) (l : Loop) : Prop where
  jobs : ∀ j ∈ l.agenda, s.Born j.conn ∧ ℓ = s.home j
  active : ∀ c ∈ l.activeChannels_, s.Born c ∧ s.loopOf c = ℓ
  watched : ∀ fd c ev, l.poller.epoll fd = some (c, ev) → s.Born c ∧ s.loopOf c = ℓ

structure Confined (s : TcpServer T L) : Prop where
  first : 1 ≤ s.nextConnId_
  entries : ∀ e ∈ s.connections_, s.Born e.2
  pointers : ∀ c, s.refs c ≠ 0 → s.Born c
  callers : ∀ t c, (s.caller t).conn = some c → s.Born c
  seated : ∀ ℓ, s.Seated ℓ (s.loops ℓ)

theorem confined_fresh (config : Config L) : (fresh config : TcpServer T L).Confined where
  first := Nat.le_refl 1
  entries := nofun
  pointers _ hc := absurd rfl hc
  callers _ _ := nofun
  seated _ := ⟨nofun, nofun, nofun⟩

/-- More connections may have been accepted, each keeping its loop. -/
theorem Seated.mono {ℓ : L} {l : Loop} (h : s.Seated ℓ l) (hconfig : s'.config = s.config)
    (hborn : ∀ c, s.Born c → s'.Born c ∧ s'.loopOf c = s.loopOf c) : s'.Seated ℓ l where
  jobs j hj := by
    obtain ⟨hb, hhome⟩ := h.jobs j hj
    obtain ⟨hb', hloop⟩ := hborn _ hb
    refine ⟨hb', hhome.trans ?_⟩
    cases j <;> first | exact hloop.symm | exact congrArg Config.loop_ hconfig.symm
  active c hc := by
    obtain ⟨hb, hloop⟩ := h.active c hc
    exact ⟨(hborn c hb).1, (hborn c hb).2.trans hloop⟩
  watched fd c ev he := by
    obtain ⟨hb, hloop⟩ := h.watched fd c ev he
    exact ⟨(hborn c hb).1, (hborn c hb).2.trans hloop⟩

/-- A loop with nothing that it did not have before. -/
theorem Seated.of_le {ℓ : L} {l l' : Loop} (h : s.Seated ℓ l)
    (hjobs : ∀ j ∈ l'.agenda, j ∈ l.agenda)
    (hactive : ∀ c ∈ l'.activeChannels_, c ∈ l.activeChannels_)
    (hpoller : l'.poller = l.poller) : s.Seated ℓ l' where
  jobs j hj := h.jobs j (hjobs j hj)
  active c hc := h.active c (hactive c hc)
  watched := hpoller ▸ h.watched

/-- Connections, histories and the server's end are of no matter. -/
theorem Confined.congr (h : s.Confined) (hs : s' = { s with
      status := s'.status, connections_ := s'.connections_, conns := s'.conns, refs := s'.refs,
      caller := s'.caller, invoked := s'.invoked, done := s'.done, dangling := s'.dangling,
      terminated := s'.terminated })
    (hentries : ∀ e ∈ s'.connections_, s.Born e.2) (hpointers : ∀ c, s'.refs c ≠ 0 → s.Born c)
    (hcallers : ∀ t c, (s'.caller t).conn = some c → s.Born c) : s'.Confined := by
  rw [hs]
  exact ⟨h.first, hentries, hpointers, hcallers, fun ℓ =>
    (h.seated ℓ).mono rfl fun c hc => ⟨hc, rfl⟩⟩

theorem Confined.acquire (h : s.Confined) (hb : s.Born c) : (s.acquire c).Confined := by
  refine h.congr rfl h.entries (fun c' hc' => ?_) h.callers
  by_cases hc : c' = c
  · exact hc ▸ hb
  · exact h.pointers c' (by simpa only [TcpServer.acquire, Function.update_of_ne hc] using hc')

theorem Confined.releasePtr (h : s.Confined) (c : ConnId) : (s.releasePtr c).Confined := by
  refine h.congr rfl h.entries (fun c' hc' => h.pointers c' fun hzero => hc' ?_) h.callers
  simp only [TcpServer.releasePtr, Function.update_apply]
  split
  · rename_i hc
    rw [← hc, hzero]
  · exact hzero

theorem Confined.setCaller [DecidableEq T] (h : s.Confined) {t : T} {x : Caller}
    (hx : ∀ c, x.conn = some c → s.Born c) : (s.setCaller t x).Confined := by
  refine h.congr rfl h.entries h.pointers fun t' c hc => ?_
  simp only [TcpServer.setCaller, Function.update_apply] at hc
  split at hc
  · exact hx c hc
  · exact h.callers t' c hc

section Steps

variable [DecidableEq L] {ℓ : L} {job : Job}

theorem Confined.setLoop (h : s.Confined) {l : Loop} (hl : s.Seated ℓ l) :
    (s.setLoop ℓ l).Confined where
  first := h.first
  entries := h.entries
  pointers := h.pointers
  callers := h.callers
  seated ℓ' := by
    by_cases hℓ : ℓ' = ℓ
    · subst hℓ
      simp only [TcpServer.setLoop, Function.update_self]
      exact hl.mono rfl fun c hc => ⟨hc, rfl⟩
    · simp only [TcpServer.setLoop, Function.update_of_ne hℓ]
      exact (h.seated ℓ').mono rfl fun c hc => ⟨hc, rfl⟩

theorem Confined.callNext (h : s.Confined) (hb : s.Born job.conn) (hhome : ℓ = s.home job) :
    (s.callNext ℓ job).Confined := by
  refine h.setLoop { h.seated ℓ with jobs := fun j hj => ?_ }
  rcases List.mem_cons.mp (show j ∈ job :: (s.loops ℓ).agenda from hj) with rfl | hj
  · exact ⟨hb, hhome⟩
  · exact (h.seated ℓ).jobs j hj

theorem Confined.queueInLoop (h : s.Confined) (hb : s.Born job.conn) (hhome : ℓ = s.home job) :
    (s.queueInLoop ℓ job).Confined := by
  refine h.setLoop { h.seated ℓ with jobs := fun j hj => ?_ }
  rw [Loop.agenda, TaskQueue.waiting_push, ← List.append_assoc] at hj
  rcases List.mem_append.mp hj with hj | hj
  · exact (h.seated ℓ).jobs j hj
  · obtain rfl := List.mem_singleton.mp hj
    exact ⟨hb, hhome⟩

theorem Confined.runInLoop (h : s.Confined) (ℓ : L) {target : L} (hb : s.Born job.conn)
    (hhome : target = s.home job) : (s.runInLoop ℓ target job).Confined := by
  unfold TcpServer.runInLoop
  split
  · rename_i he
    exact h.callNext hb (he.trans hhome)
  · exact h.queueInLoop hb hhome

theorem Confined.popJob (h : s.Confined) {rest : List Job}
    (hwork : (s.loops ℓ).work = job :: rest) : (s.popJob ℓ job rest).Confined := by
  have hset : (s.setLoop ℓ { s.loops ℓ with work := rest }).Confined := by
    refine h.setLoop ((h.seated ℓ).of_le (fun j hj => ?_) (fun _ => id) rfl)
    rw [Loop.agenda, hwork]
    exact List.mem_cons_of_mem _ hj
  exact hset.congr rfl h.entries h.pointers h.callers

theorem Confined.onConn (h : s.Confined) (hb : s.Born c) (hℓ : s.loopOf c = ℓ)
    {f : Site ConnId → Site ConnId} (hf : Within (s.loops ℓ).poller c
      (f { conn := s.conns c, poller := (s.loops ℓ).poller }).poller) :
    (s.onConn ℓ c f).Confined := by
  set w := f { conn := s.conns c, poller := (s.loops ℓ).poller }
  have hset : (s.setLoop ℓ { s.loops ℓ with
      work := (if w.closing then [.closeCallback c] else []) ++ (s.loops ℓ).work
      queue := (s.loops ℓ).queue.pushAll (w.queued.map (.notice · c))
      poller := w.poller }).Confined := by
    refine h.setLoop ⟨fun j hj => ?_, (h.seated ℓ).active, fun fd c' ev he => ?_⟩
    · -- new jobs are the close callback of `c` and its notices
      simp only [Loop.agenda, TaskQueue.waiting_pushAll, List.mem_append, List.mem_map] at hj
      have hold : j ∈ (s.loops ℓ).agenda ∨ j = .closeCallback c ∨ ∃ n, j = .notice n c := by
        simp only [Loop.agenda, List.mem_append]
        rcases hj with (hj | hj) | hj | ⟨n, -, rfl⟩
        · split at hj
          · exact .inr (.inl (List.mem_singleton.mp hj))
          · cases hj
        · exact .inl (.inl hj)
        · exact .inl (.inr hj)
        · exact .inr (.inr ⟨n, rfl⟩)
      rcases hold with hj | rfl | ⟨n, rfl⟩
      · exact (h.seated ℓ).jobs j hj
      · exact ⟨hb, hℓ.symm⟩
      · exact ⟨hb, hℓ.symm⟩
    · by_cases hc : c' = c
      · exact hc ▸ ⟨hb, hℓ⟩
      · exact (h.seated ℓ).watched fd c' ev (hf fd c' ev hc he)
  exact hset.congr rfl h.entries h.pointers h.callers

theorem Confined.runJob (h : s.Confined) (hb : s.Born job.conn) (hhome : ℓ = s.home job)
    (read : ReadvResult) (write : WriteResult) : (s.runJob ℓ read write job).Confined := by
  have hstable := fun c => stable_within (s.loops ℓ).poller c
  cases job with
  | connectEstablished c =>
    exact h.onConn hb hhome.symm ((hstable c).connectEstablished id (.refl _ c))
  | connectDestroyed c =>
    have hleave := h.onConn hb hhome.symm ((hstable c).leaveConnected (.refl _ c))
    exact hleave.callNext hb hhome
  | removeChannel c =>
    refine h.onConn hb hhome.symm fun fd c' ev hc he => ?_
    have hrun : (ChannelOp.remove.run c (s.conns c).channel_ (s.loops ℓ).poller).2.epoll fd =
        some (c', ev) := he
    exact ChannelOp.epoll_run_of_ne hc hrun
  | removeConnectionInLoop c =>
    have herase : ({ s with connections_ := s.connections_.eraseKey (s.conns c).name_ } :
        TcpServer T L).Confined :=
      h.congr rfl (fun e he => h.entries e (List.mem_of_mem_filter he)) h.pointers h.callers
    exact herase.queueInLoop hb rfl
  | closeCallback c => exact h.runInLoop ℓ hb rfl
  | handle cb c => exact h.onConn hb hhome.symm ((hstable c).callback (.refl _ c) read write cb)
  | notice n c => exact h
  | sendInLoop c data =>
    exact h.onConn hb hhome.symm ((hstable c).sendInLoop (.refl _ c) data write)
  | shutdownInLoop c => exact h.onConn hb hhome.symm ((hstable c).shutdownInLoop (.refl _ c))

theorem Confined.handleEvent [Fintype L] (h : s.Confined) (hb : s.Born c) (hℓ : s.loopOf c = ℓ) :
    (s.handleEvent ℓ c).Confined := by
  unfold TcpServer.handleEvent
  simp only
  split
  · exact h.congr rfl h.entries h.pointers h.callers
  · refine h.setLoop { h.seated ℓ with jobs := fun j hj => ?_ }
    rcases List.mem_append.mp hj with hj | hj
    · obtain ⟨cb, -, rfl⟩ := List.mem_map.mp hj
      exact ⟨hb, hℓ.symm⟩
    · exact (h.seated ℓ).jobs j (List.mem_append_right _ hj)

theorem Confined.newConnection (h : s.Confined) (ioLoop : L) (sockfd : Int) :
    (s.newConnection ioLoop sockfd).Confined := by
  have hfirst := h.first
  have hborn : ∀ c, s.Born c → (s.addConnection ioLoop sockfd).Born c ∧
      (s.addConnection ioLoop sockfd).loopOf c = s.loopOf c := fun c hc => by
    rw [addConnection_loopOf, if_neg (ne_next hc)]
    exact ⟨⟨hc.1, Nat.lt_succ_of_lt hc.2⟩, rfl⟩
  have hnew : (s.addConnection ioLoop sockfd).Born s.nextConnId_ := ⟨hfirst, Nat.lt_succ_self _⟩
  have hadd : (s.addConnection ioLoop sockfd).Confined := by
    refine ⟨Nat.le_succ_of_le hfirst, fun e he => ?_, fun c hc => (hborn c (h.pointers c hc)).1,
      fun t c hc => (hborn c (h.callers t c hc)).1, fun ℓ => (h.seated ℓ).mono rfl hborn⟩
    rcases List.mem_append.mp he with he | he
    · exact (hborn e.2 (h.entries e (List.mem_of_mem_filter he))).1
    · obtain rfl := List.mem_singleton.mp he
      exact hnew
  refine hadd.runInLoop _ hnew ?_
  show ioLoop = (s.addConnection ioLoop sockfd).loopOf s.nextConnId_
  rw [addConnection_loopOf, if_pos rfl]

variable [Fintype L]

theorem Confined.userCall (h : s.Confined) {f : Site ConnId → Site ConnId}
    (hf : Within (s.loops (s.loopOf c)).poller c
      (f { conn := s.conns c, poller := (s.loops (s.loopOf c)).poller }).poller)
    (hs : s.userCall c f = some s') : s'.Confined := by
  obtain ⟨hb, -, rfl⟩ := userCall_eq hs
  exact h.onConn hb rfl hf

/-- Every action of any thread keeps the invariant. -/
theorem Confined.act [DecidableEq T] (h : s.Confined) {a : Action T L} (hs : s.act a = some s') :
    s'.Confined := by
  have hstable := fun c => stable_within (s.loops (s.loopOf c)).poller c
  cases a with
  | poll ℓ reports =>
    obtain ⟨-, -, -, hreports, rfl⟩ := act_poll hs
    have hset : (s.setLoop ℓ
        { s.loops ℓ with phase := .handling (reports.map (·.1)) }).Confined := by
      refine h.setLoop { h.seated ℓ with active := fun c hc => ?_ }
      obtain ⟨x, hx, rfl⟩ := List.mem_map.mp hc
      have hw : ((s.loops ℓ).poller.epoll (s.conns x.1).channel_.fd_).map (·.1) = some x.1 := by
        simpa [watched] using hreports x hx
      obtain ⟨⟨c, ev⟩, he, rfl⟩ := Option.map_eq_some_iff.mp hw
      exact (h.seated ℓ).watched _ _ _ he
    exact hset.congr rfl h.entries h.pointers h.callers
  | dispatch ℓ =>
    obtain ⟨c, rest, hphase, -, rfl⟩ := act_dispatch hs
    have hactive : (s.loops ℓ).activeChannels_ = c :: rest := by rw [Loop.activeChannels_, hphase]
    obtain ⟨hb, hℓ⟩ := (h.seated ℓ).active c (by rw [hactive]; exact List.mem_cons_self)
    have hset : (s.setLoop ℓ { s.loops ℓ with phase := .handling rest }).Confined := by
      refine h.setLoop ((h.seated ℓ).of_le (fun _ => id) (fun c' hc' => ?_) rfl)
      rw [hactive]
      exact List.mem_cons_of_mem c hc'
    exact hset.handleEvent hb hℓ
  | release ℓ =>
    obtain ⟨-, rfl⟩ := act_release hs
    exact h.setLoop ((h.seated ℓ).of_le (fun _ => id) (fun _ => id) rfl)
  | swap ℓ =>
    obtain ⟨-, -, rfl⟩ := act_swap hs
    refine h.setLoop ((h.seated ℓ).of_le (fun j hj => ?_) (fun c hc => by cases hc) rfl)
    simp only [Loop.agenda, TaskQueue.waiting, TaskQueue.swap, List.append_nil,
      List.mem_append] at hj ⊢
    exact hj.imp_right .inr
  | start ℓ =>
    obtain ⟨hphase, hidle, job, queue, hstart, rfl⟩ := act_start hs
    obtain ⟨hwait, -⟩ := TaskQueue.waiting_of_start hstart
    refine h.setLoop ((h.seated ℓ).of_le (fun j hj => ?_) (fun _ => id) rfl)
    rw [Loop.agenda, (Loop.idle_iff.mp hidle).1, hwait]
    exact hj
  | finish ℓ =>
    obtain ⟨-, -, -, rfl⟩ := act_finish hs
    exact h.setLoop ((h.seated ℓ).of_le (fun _ => id) (fun c hc => by cases hc) rfl)
  | run ℓ read write =>
    obtain ⟨job, rest, hwork, rfl⟩ := act_run hs
    obtain ⟨hb, hhome⟩ := (h.seated ℓ).jobs job
      (by rw [Loop.agenda, hwork]; exact List.mem_cons_self)
    have hhome' : ℓ = (s.popJob ℓ job rest).home job := by cases job <;> exact hhome
    exact (h.popJob hwork).runJob hb hhome' read write
  | newConnection ioLoop sockfd =>
    obtain ⟨-, -, -, rfl⟩ := act_newConnection hs
    exact h.newConnection ioLoop sockfd
  | destroy =>
    simp only [TcpServer.act, Option.ite_none_right_eq_some, Option.some.injEq] at hs
    obtain ⟨-, rfl⟩ := hs
    exact h.congr rfl h.entries h.pointers h.callers
  | destroyItem key c =>
    obtain ⟨-, -, hmem, rfl⟩ := act_destroyItem hs
    have herase : ({ s with connections_ := s.connections_.erase (key, c) } :
        TcpServer T L).Confined :=
      h.congr rfl (fun e he => h.entries e (List.mem_of_mem_erase he)) h.pointers h.callers
    exact herase.runInLoop _ (h.entries _ hmem) rfl
  | destroyEnd =>
    simp only [TcpServer.act, Option.ite_none_right_eq_some, Option.some.injEq] at hs
    obtain ⟨-, rfl⟩ := hs
    exact h.congr rfl h.entries h.pointers h.callers
  | send c data r => exact h.userCall ((hstable c).send (.refl _ c) data r) hs
  | shutdown c => exact h.userCall ((hstable c).shutdown (.refl _ c)) hs
  | setHighWaterMarkCallback c n =>
    exact h.userCall ((hstable c).setHighWaterMarkCallback (.refl _ c) n) hs
  | keep c =>
    obtain ⟨hb, rfl⟩ := act_keep hs
    exact h.acquire hb
  | drop c =>
    obtain rfl := act_drop hs
    exact h.releasePtr c
  | testSend t c data =>
    obtain ⟨hrefs, rfl | rfl⟩ := act_testSend hs
    · exact h
    · exact (h.acquire (h.pointers c hrefs)).setCaller fun c' hc' =>
        Option.some.inj hc' ▸ h.pointers c hrefs
  | enqueueSend t =>
    obtain ⟨c, data, hc, rfl⟩ := act_enqueueSend hs
    have hb := h.callers t c (by rw [hc]; rfl)
    have hqueue : (s.queueInLoop (s.loopOf c) (.sendInLoop c data)).Confined := h.queueInLoop hb rfl
    exact (hqueue.releasePtr c).setCaller fun c' hc' => by cases hc'
  | testShutdown t c =>
    obtain ⟨hrefs, rfl | rfl⟩ := act_testShutdown hs
    · exact h
    · exact (h.acquire (h.pointers c hrefs)).setCaller fun c' hc' =>
        Option.some.inj hc' ▸ h.pointers c hrefs
  | storeDisconnecting t =>
    obtain ⟨c, hc, rfl⟩ := act_storeDisconnecting hs
    have hb := h.callers t c (by rw [hc]; rfl)
    have hleft : (s.setCaller t (.left c)).Confined := h.setCaller fun c' hc' =>
      Option.some.inj hc' ▸ hb
    exact hleft.congr rfl hleft.entries hleft.pointers hleft.callers
  | enqueueShutdown t =>
    obtain ⟨c, hc, rfl⟩ := act_enqueueShutdown hs
    have hb := h.callers t c (by rw [hc]; rfl)
    have hqueue : (s.queueInLoop (s.loopOf c) (.shutdownInLoop c)).Confined := h.queueInLoop hb rfl
    exact (hqueue.releasePtr c).setCaller fun c' hc' => by cases hc'

end Steps

/-! ## Who touches what -/

/-- The loop on whose thread an action is taken; `none` where any thread may take it. -/
def thread (s : TcpServer T L) : Action T L → Option L
  | .poll ℓ _ | .dispatch ℓ | .release ℓ | .swap ℓ | .start ℓ | .finish ℓ | .run ℓ _ _ => some ℓ
  | .newConnection _ _ | .destroy | .destroyItem _ _ | .destroyEnd => some s.config.loop_
  | .send c _ _ | .shutdown c | .setHighWaterMarkCallback c _ => some (s.loopOf c)
  | .keep _ | .drop _ | .testSend _ _ _ | .enqueueSend _ | .testShutdown _ _
  | .storeDisconnecting _ | .enqueueShutdown _ => none

/-- What thread `x` may have changed, `none` being a thread that is no loop's. -/
structure Touches (x : Option L) (s s' : TcpServer T L) : Prop where
  config : s'.config = s.config
  born : ∀ c, s.Born c → s'.Born c ∧ s'.loopOf c = s.loopOf c
  conns : ∀ c, s.Born c → x = some (s.loopOf c) ∨ s'.conns c = s.conns c
  invoked : ∀ c, s.Born c → x = some (s.loopOf c) ∨ s'.invoked c = s.invoked c
  loops : ∀ ℓ, x = some ℓ ∨ ∃ jobs,
    s'.loops ℓ = { s.loops ℓ with queue := (s.loops ℓ).queue.pushAll jobs }
  map : x = some s.config.loop_ ∨
    s'.connections_ = s.connections_ ∧ s'.nextConnId_ = s.nextConnId_

section Touches

variable {x : Option L} {ℓ : L}

theorem pushAll_nil (l : Loop) : { l with queue := l.queue.pushAll [] } = l := by
  simp [TaskQueue.pushAll]

/-- Pointers, calls in progress and histories are of no matter. -/
theorem Touches.of_eq (hid : s'.nextConnId_ = s.nextConnId_) (hconfig : s'.config = s.config)
    (hloop : s'.loopOf = s.loopOf) (hconns : s'.conns = s.conns)
    (hinvoked : s'.invoked = s.invoked) (hloops : s'.loops = s.loops)
    (hmap : s'.connections_ = s.connections_) : Touches x s s' where
  config := hconfig
  born c hc := ⟨by rwa [Born, hid], by rw [hloop]⟩
  conns c _ := .inr (by rw [hconns])
  invoked c _ := .inr (by rw [hinvoked])
  loops ℓ := .inr ⟨[], by rw [hloops, pushAll_nil]⟩
  map := .inr ⟨hmap, hid⟩

theorem Touches.refl (s : TcpServer T L) : Touches x s s := .of_eq rfl rfl rfl rfl rfl rfl rfl

theorem Touches.trans {t : TcpServer T L} (h : Touches x s t) (h' : Touches x t s') :
    Touches x s s' where
  config := h'.config.trans h.config
  born c hc := by
    obtain ⟨hb, hloop⟩ := h.born c hc
    exact ⟨(h'.born c hb).1, (h'.born c hb).2.trans hloop⟩
  conns c hc := by
    obtain ⟨hb, hloop⟩ := h.born c hc
    rcases h.conns c hc with hx | he
    · exact .inl hx
    · exact (h'.conns c hb).imp (hloop ▸ ·) (·.trans he)
  invoked c hc := by
    obtain ⟨hb, hloop⟩ := h.born c hc
    rcases h.invoked c hc with hx | he
    · exact .inl hx
    · exact (h'.invoked c hb).imp (hloop ▸ ·) (·.trans he)
  loops ℓ := by
    rcases h.loops ℓ with hx | ⟨jobs, he⟩
    · exact .inl hx
    · rcases h'.loops ℓ with hx | ⟨jobs', he'⟩
      · exact .inl hx
      · exact .inr ⟨jobs ++ jobs', by rw [he', he]; simp [TaskQueue.pushAll]⟩
  map := by
    rcases h.map with hx | ⟨hmap, hid⟩
    · exact .inl hx
    · rcases h'.map with hx | ⟨hmap', hid'⟩
      · exact .inl (by rw [hx, h.config])
      · exact .inr ⟨hmap'.trans hmap, hid'.trans hid⟩

variable [DecidableEq L]

end Touches

variable [Fintype L] [DecidableEq L] [DecidableEq T]

theorem confined (config : Config L) (as : List (Action T L))
    (hr : Execution.exec step (fresh config) as = some s) : s.Confined :=
  Execution.exec_preserves Confined (fun _ _ _ h hs => h.act (step_eq hs).2.2)
    (confined_fresh config) hr

end TcpServer

end Mymuduo

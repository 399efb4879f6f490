import Mymuduo.Server.Deregistration
import Mymuduo.Server.Establishment

/-!
# The end of a server without threads

A server whose pool has no thread runs all its connections on the base loop. Once its destructor has
begun nothing of it may be used, though functors and callbacks are bound to its `this`. On one loop
they are not left behind: what a handler starts is done before the loop polls again, and
`~TcpServer` takes every connection that is left out of the poller before it returns.
-/

namespace Mymuduo

open Mymuduo.Library

universe u v

namespace Life

/-- What may still be done for a connection of the base loop once `~TcpServer` has begun. -/
structure Parting (l : Life) : Prop where
  onBase : l.onBase = true
  gone : l.status ≠ .alive
  active : l.active = false
  begun : l.state ≠ .kConnecting
  now : ∀ d ∈ l.now, d = .destroy ∨ d = .deregister ∨ ∃ n, d = .notice n
  later : ∀ d ∈ l.later, d = .destroy ∨ ∃ n, d = .notice n
  removals : l.removals = 0
  connected : l.state = .kConnected → l.mapped = true ∨ .destroy ∈ l.now
  held : l.registered = true → l.mapped = true ∨ .destroy ∈ l.duties ∨ .deregister ∈ l.now

variable {e : Event} {l l' : Life}

/-- `~TcpServer` begins between two handlers, with no channel still to be handled. -/
theorem Held.parting (h : Held l) (hbase : l.onBase = true) (hactive : l.active = false)
    (hnow : l.now = []) (hremovals : l.removals = 0) :
    Parting { l with status := .destroying } := by
  have hbegun : l.state ≠ .kConnecting := by
    intro hs
    obtain ⟨rest, -, -, hfront⟩ := h.order.connecting hs
    exact hfront hbase hnow
  have hnone : .establish ∉ l.later := by
    have hnot := h.order.begun hbegun
    rw [Life.duties, hnow] at hnot
    exact hnot
  refine ⟨hbase, by simp, hactive, hbegun, ?_, ?_, hremovals, fun hs => ?_, fun hr => ?_⟩
  · intro d hd
    rw [show ({ l with status := .destroying } : Life).now = [] from hnow] at hd
    cases hd
  · intro d hd
    rcases h.queued d hd with rfl | hd | hd
    · exact absurd hd hnone
    · exact .inl hd
    · exact .inr hd
  · have hopen : l.state ≠ .kDisconnected := by
      rw [show l.state = .kConnected from hs]
      decide
    exact .inl (h.mapped hopen)
  · rcases h.owned hr with hm | hm | hm | hm | hm
    · exact .inl hm
    · omega
    · exact .inr (.inl hm)
    · rw [Life.duties, hnow] at hm
      rcases h.queued _ hm with hd | hd | ⟨n, hd⟩ <;> cases hd
    · rw [Life.duties, hnow] at hm
      rcases h.queued _ hm with hd | hd | ⟨n, hd⟩ <;> cases hd

theorem Parting.step (h : Parting l) (hs : Step e l l') (hactive : l'.active = false) :
    Parting l' := by
  have hfirst : ∀ {d rest}, l.now = d :: rest → d = .destroy ∨ d = .deregister ∨
      ∃ n, d = .notice n := fun hn => h.now _ (hn ▸ List.mem_cons_self)
  have hrest : ∀ {d rest}, l.now = d :: rest → ∀ x ∈ rest, x = .destroy ∨ x = .deregister ∨
      ∃ n, x = .notice n := fun hn x hx => h.now x (hn ▸ List.mem_cons_of_mem _ hx)
  cases hs with
  | stay => exact h
  | terminate => exact { h with }
  | destroy ha => exact absurd ha h.gone
  | destroyEnd => exact { h with gone := by simp }
  | poll reported => exact { h with active := hactive }
  | dispatch cbs ha | dangle ha =>
    rw [h.active] at ha
    cases ha
  | release hn | swap ha hn | finish hn => exact { h with }
  | @start _ d rest hc hn hl =>
    have hd := h.later d (hl ▸ List.mem_cons_self)
    refine { h with now := ?_, later := ?_, connected := ?_, held := ?_ }
    · intro x hx
      obtain rfl := List.mem_singleton.mp hx
      rcases hd with hd | hd
      · exact .inl hd
      · exact .inr (.inr hd)
    · exact fun x hx => h.later x (hl ▸ List.mem_cons_of_mem _ hx)
    · intro hs
      refine (h.connected hs).imp_right fun hm => ?_
      rw [hn] at hm
      cases hm
    · intro hr
      rcases h.held hr with hm | hm | hm
      · exact .inl hm
      · rw [Life.duties, hn, hl] at hm
        exact .inr (.inl hm)
      · rw [hn] at hm
        cases hm
  | establish hn | close hn | deliver _ hn | handle _ _ hn | finishClose hn =>
    rcases hfirst hn with hd | hd | ⟨n, hd⟩ <;> cases hd
  | @leave _ rest hn hst =>
    refine { h with begun := by simp, now := ?_, connected := by simp
                    held := fun _ => .inr (.inr List.mem_cons_self) }
    intro x hx
    rcases List.mem_cons.mp hx with rfl | hx
    · exact .inr (.inl rfl)
    · exact hrest hn x hx
  | @leaveSilently _ rest hn hst =>
    refine { h with now := ?_, connected := fun hs => absurd hs hst
                    held := fun _ => .inr (.inr List.mem_cons_self) }
    intro x hx
    rcases List.mem_cons.mp hx with rfl | hx
    · exact .inr (.inl rfl)
    · exact hrest hn x hx
  | @deregister _ rest hn =>
    refine { h with now := hrest hn, connected := fun hs => ?_, held := by simp }
    refine (h.connected hs).imp_right fun hm => ?_
    rw [hn] at hm
    exact (List.mem_cons.mp hm).resolve_left (by simp)
  | @notice _ n rest hn =>
    refine { h with now := hrest hn, connected := fun hs => ?_, held := fun hr => ?_ }
    · refine (h.connected hs).imp_right fun hm => ?_
      rw [hn] at hm
      exact (List.mem_cons.mp hm).resolve_left (by simp)
    · rcases h.held hr with hm | hm | hm
      · exact .inl hm
      · rw [Life.duties, hn, List.cons_append] at hm
        exact .inr (.inl ((List.mem_cons.mp hm).resolve_left (by simp)))
      · rw [hn] at hm
        exact .inr (.inr ((List.mem_cons.mp hm).resolve_left (by simp)))
  | remove hn =>
    rw [h.removals] at hn
    cases hn
  | destroyItem hst hm hn =>
    rw [if_pos h.onBase, if_pos h.onBase]
    refine { h with now := ?_, later := h.later, connected := fun _ => .inr List.mem_cons_self
                    held := fun _ => .inr (.inl List.mem_cons_self) }
    intro x hx
    exact .inl (List.mem_singleton.mp hx)
  | user state registered notices hst hst' hr =>
    have hopen := h.connected hst
    refine { h with begun := ?_, later := ?_, connected := fun _ => hopen, held := fun _ => ?_ }
    · rcases hst' with rfl | rfl
      · simp
      · simp
    · intro x hx
      rcases List.mem_append.mp hx with hx | hx
      · exact h.later x hx
      · obtain ⟨n, -, rfl⟩ := List.mem_map.mp hx
        exact .inr ⟨n, rfl⟩
    · exact hopen.imp_right fun hm => .inl (List.mem_append_left _ hm)

/-- A connection that has left the map does not come back. -/
theorem unmapped_step (h : l.mapped = false) (hs : Step e l l') : l'.mapped = false := by
  cases hs <;> first | exact h | rfl

end Life

/-! ## What a handler starts is done before the next poll -/

/-- Jobs that a handler of the loop begins and ends, with nothing in between. -/
def Job.ofHandler : Job → Bool
  | handle _ _ | closeCallback _ | removeConnectionInLoop _ => true
  | _ => false

def Phase.isHandling : Phase → Bool
  | handling _ => true
  | polling | calling => false

namespace Loop

structure Prompt (l : Loop) : Prop where
  work : ∀ j ∈ l.work, j.ofHandler = true → l.phase.isHandling = true
  waiting : ∀ j ∈ l.queue.waiting, j.ofHandler = false
  pending : ∀ c, .connectDestroyed c ∈ l.queue.pending → l.phase.isHandling = true

variable {l : Loop}

theorem Prompt.setWork (h : l.Prompt) {work : List Job}
    (hw : ∀ j ∈ work, j ∈ l.work ∨ (j.ofHandler = true → l.phase.isHandling = true)) :
    Prompt { l with work := work } where
  work j hj ho := by
    rcases hw j hj with hj | hj
    · exact h.work j hj ho
    · exact hj ho
  waiting := h.waiting
  pending := h.pending

theorem Prompt.pushAll (h : l.Prompt) (jobs : List Job) (hjobs : ∀ j ∈ jobs, j.ofHandler = false ∧
    ∀ c, j = .connectDestroyed c → l.phase.isHandling = true) :
    Prompt { l with queue := l.queue.pushAll jobs } where
  work := h.work
  waiting j hj := by
    rw [TaskQueue.waiting_pushAll] at hj
    rcases List.mem_append.mp hj with hj | hj
    · exact h.waiting j hj
    · exact (hjobs j hj).1
  pending c hc := by
    rcases List.mem_append.mp (show _ ∈ l.queue.pending ++ jobs from hc) with hc | hc
    · exact h.pending c hc
    · exact (hjobs _ hc).2 c rfl

theorem Prompt.setPoller (h : l.Prompt) (p : EPollPoller ConnId) : Prompt { l with poller := p } :=
  ⟨h.work, h.waiting, h.pending⟩

theorem Prompt.setGuard (h : l.Prompt) (g : Option ConnId) : Prompt { l with guard := g } :=
  ⟨h.work, h.waiting, h.pending⟩

/-- A loop with nothing in hand goes over to its handlers. -/
theorem Prompt.handling (h : l.Prompt) (active : List ConnId) :
    Prompt { l with phase := .handling active } :=
  ⟨fun _ _ _ => rfl, h.waiting, fun _ _ => rfl⟩

theorem Prompt.swap (h : l.Prompt) (hwork : l.work = []) (htodo : l.queue.todo = []) :
    Prompt { l with phase := .calling, queue := l.queue.swap } where
  work j hj := by
    have hnone : j ∈ l.work := hj
    rw [hwork] at hnone
    cases hnone
  waiting j hj := h.waiting j (by rw [← TaskQueue.waiting_swap htodo]; exact hj)
  pending c hc := by cases hc

theorem Prompt.start (h : l.Prompt) {job : Job} {queue : TaskQueue Job}
    (hstart : l.queue.start = some (job, queue)) :
    Prompt { l with work := [job], queue := queue } := by
  obtain ⟨hwaiting, -, hpending, -⟩ := TaskQueue.waiting_of_start hstart
  refine ⟨fun j hj ho => ?_, fun j hj => ?_, fun c hc => ?_⟩
  · obtain rfl := List.mem_singleton.mp hj
    rw [h.waiting j (hwaiting ▸ List.mem_cons_self)] at ho
    cases ho
  · exact h.waiting j (hwaiting ▸ List.mem_cons_of_mem _ hj)
  · exact h.pending c (hpending ▸ hc)

theorem Prompt.finish (h : l.Prompt) (hphase : l.phase = .calling) (hwork : l.work = []) :
    Prompt { l with phase := .polling, queue := l.queue.finish } where
  work j hj := by
    have hnone : j ∈ l.work := hj
    rw [hwork] at hnone
    cases hnone
  waiting := h.waiting
  pending c hc := by
    have hhandling := h.pending c hc
    rw [hphase] at hhandling
    cases hhandling

end Loop

namespace TcpServer

variable {T : Type u} {L : Type v} {s s' : TcpServer T L} {ℓ : L} {c : ConnId}

/-- Handlers end what they begin, and once `~TcpServer` has begun there are none. -/
structure Calm (s : TcpServer T L) : Prop where
  prompt : ∀ ℓ, (s.loops ℓ).Prompt
  quiet : s.status ≠ .alive → ∀ ℓ, (s.loops ℓ).activeChannels_ = []

/-- Every connection is on the base loop. -/
def Alone (s : TcpServer T L) : Prop := ∀ c, s.Born c → s.loopOf c = s.config.loop_

theorem calm_fresh (config : Config L) : (fresh config : TcpServer T L).Calm where
  prompt _ := ⟨by simp [fresh], by simp [fresh, TaskQueue.waiting], by simp [fresh]⟩
  quiet h := absurd rfl h

theorem Calm.congr (h : s.Calm) (hloops : s'.loops = s.loops)
    (hstatus : s'.status = s.status) : s'.Calm := by
  refine ⟨fun ℓ => ?_, fun hs ℓ => ?_⟩
  · rw [hloops]
    exact h.prompt ℓ
  · rw [hloops]
    exact h.quiet (hstatus ▸ hs) ℓ

section Steps

variable [DecidableEq L]

theorem Calm.setLoop (h : s.Calm) {l : Loop} (hl : l.Prompt)
    (hquiet : s.status ≠ .alive → l.activeChannels_ = []) : (s.setLoop ℓ l).Calm := by
  have hloop : ∀ ℓ', (s.setLoop ℓ l).loops ℓ' = if ℓ' = ℓ then l else s.loops ℓ' := fun ℓ' =>
    Function.update_apply _ _ _ _
  refine ⟨fun ℓ' => ?_, fun hs ℓ' => ?_⟩
  · rw [hloop]
    split
    · exact hl
    · exact h.prompt ℓ'
  · rw [hloop]
    split
    · exact hquiet hs
    · exact h.quiet hs ℓ'

theorem Calm.callNext (h : s.Calm) {job : Job}
    (hjob : job.ofHandler = true → (s.loops ℓ).phase.isHandling = true) :
    (s.callNext ℓ job).Calm := by
  refine h.setLoop ((h.prompt ℓ).setWork fun j hj => ?_) fun hs => h.quiet hs ℓ
  rcases List.mem_cons.mp hj with rfl | hj
  · exact .inr hjob
  · exact .inl hj

theorem Calm.queueInLoop (h : s.Calm) {job : Job} (ho : job.ofHandler = false)
    (hjob : ∀ c, job = .connectDestroyed c → (s.loops ℓ).phase.isHandling = true) :
    (s.queueInLoop ℓ job).Calm := by
  refine h.setLoop ((h.prompt ℓ).pushAll [job] fun j hj => ?_) fun hs => h.quiet hs ℓ
  obtain rfl := List.mem_singleton.mp hj
  exact ⟨ho, hjob⟩

theorem Calm.onConn (h : s.Calm) {f : Site ConnId → Site ConnId}
    (hclosing : (f { conn := s.conns c, poller := (s.loops ℓ).poller }).closing = true →
      (s.loops ℓ).phase.isHandling = true) : (s.onConn ℓ c f).Calm := by
  set w := f { conn := s.conns c, poller := (s.loops ℓ).poller } with hw
  let l : Loop := { s.loops ℓ with
    work := (if w.closing then [.closeCallback c] else []) ++ (s.loops ℓ).work
    queue := (s.loops ℓ).queue.pushAll (w.queued.map (.notice · c))
    poller := w.poller }
  have hl : l.Prompt := by
    have hqueue := (h.prompt ℓ).pushAll (w.queued.map (.notice · c)) fun j hj => by
      obtain ⟨n, -, rfl⟩ := List.mem_map.mp hj
      exact ⟨rfl, by simp⟩
    refine (hqueue.setWork fun j hj => ?_).setPoller w.poller
    rcases List.mem_append.mp hj with hj | hj
    · split at hj
      · rename_i hc
        exact .inr fun _ => hclosing hc
      · cases hj
    · exact .inl hj
  exact (h.setLoop (ℓ := ℓ) hl fun hs => h.quiet hs ℓ).congr rfl rfl

/-- A job that is done on the loop where it belongs. -/
theorem Calm.runJob (h : s.Calm) (halone : s.Alone) {job : Job} (hfit : s.Fit ℓ job)
    (hjob : job.ofHandler = true → (s.loops ℓ).phase.isHandling = true) (read : ReadvResult)
    (write : WriteResult) : (s.runJob ℓ read write job).Calm := by
  have hbase : ℓ = s.config.loop_ := by
    rw [hfit.home]
    cases job <;> first | rfl | exact halone _ hfit.born
  cases job with
  | connectEstablished c =>
    refine h.onConn fun hc => ?_
    rw [(Site.connectEstablished_calls c _).closing] at hc
    cases hc
  | connectDestroyed c =>
    have hleft : (s.onConn ℓ c (Site.leaveConnected c)).Calm := by
      refine h.onConn fun hc => ?_
      by_cases hs : (s.conns c).state_ = .kConnected
      · rw [(Site.leaveConnected_calls c _ hs).closing] at hc
        cases hc
      · rw [Site.leaveConnected, if_neg hs] at hc
        cases hc
    exact hleft.callNext (by simp [Job.ofHandler])
  | removeChannel c => exact h.onConn (by simp [Site.channel])
  | removeConnectionInLoop c =>
    have hon : s.loopOf c = ℓ := (halone c hfit.born).trans hbase.symm
    rw [TcpServer.runJob, removeConnectionInLoop]
    refine (h.congr rfl rfl : Calm { s with
      connections_ := s.connections_.eraseKey (s.conns c).name_ }).queueInLoop rfl fun _ _ => ?_
    show (s.loops (s.loopOf c)).phase.isHandling = true
    rw [hon]
    exact hjob rfl
  | handle cb c => exact h.onConn fun _ => hjob rfl
  | closeCallback c =>
    rw [TcpServer.runJob, removeConnection, runInLoop, if_pos hbase]
    exact h.callNext fun _ => hjob rfl
  | notice n c => exact h
  | sendInLoop c data =>
    refine h.onConn fun hc => ?_
    rw [(Site.silent_sendInLoop c data write _).closing] at hc
    cases hc
  | shutdownInLoop c =>
    refine h.onConn fun hc => ?_
    rw [(Site.silent_shutdownInLoop _).closing] at hc
    cases hc

variable [Fintype L] [DecidableEq T] {a : Action T L}

/-- What a run asks of its actions: user code keeps to the loop, no connection goes to another loop,
and `~TcpServer` begins while no channel of the base loop is still to be handled. -/
def single (s : TcpServer T L) : Action T L → Bool
  | .newConnection ioLoop _ => decide (ioLoop = s.config.loop_)
  | .destroy => (s.loops s.config.loop_).activeChannels_.isEmpty
  | a => a.own

omit [Fintype L] [DecidableEq T] in
theorem own_of_single (h : s.single a = true) : a.own = true := by
  cases a <;> first | rfl | exact h

omit [DecidableEq L] [Fintype L] [DecidableEq T] in
/-- Nothing is active on a loop without connections. -/
theorem quiet_of_base (hwf : s.Wf) (halone : s.Alone)
    (hbase : (s.loops s.config.loop_).activeChannels_ = []) (ℓ : L) :
    (s.loops ℓ).activeChannels_ = [] := by
  refine List.eq_nil_iff_forall_not_mem.mpr fun c hc => ?_
  obtain ⟨hb, hon⟩ := (hwf.tidy ℓ).active c hc
  rw [← hon, halone c hb, hbase] at hc
  cases hc

theorem Calm.act (h : s.Calm) (hwf : s.Wf) (halone : s.Alone) (ha : s.single a = true)
    (hpoll : ∀ ℓ reports, a = .poll ℓ reports → s.status ≠ .alive → reports = [])
    (hs : s.act a = some s') : s'.Calm := by
  cases a with
  | poll ℓ reports =>
    obtain ⟨-, -, -, -, rfl⟩ := act_poll hs
    refine (h.setLoop (ℓ := ℓ) ((h.prompt ℓ).handling (reports.map (·.1))) fun hgone => ?_).congr
      rfl rfl
    rw [hpoll ℓ reports rfl hgone]
    rfl
  | dispatch ℓ =>
    obtain ⟨c, rest, hphase, -, hout⟩ := dispatch_cases hs
    have halive : ¬ s.status ≠ .alive := by
      intro hgone
      have hnone := h.quiet hgone ℓ
      rw [Loop.activeChannels_, hphase] at hnone
      cases hnone
    rcases hout with ⟨-, rfl⟩ | ⟨-, rfl⟩
    · have hnext := h.setLoop (ℓ := ℓ) ((h.prompt ℓ).handling rest) fun hg => absurd hg halive
      exact hnext.congr rfl rfl
    · refine h.setLoop (ℓ := ℓ) ?_ fun hg => absurd hg halive
      exact ⟨fun _ _ _ => rfl, (h.prompt ℓ).waiting, fun _ _ => rfl⟩
  | release ℓ =>
    obtain ⟨-, rfl⟩ := act_release hs
    exact h.setLoop ((h.prompt ℓ).setGuard none) fun hg => h.quiet hg ℓ
  | swap ℓ =>
    obtain ⟨hphase, hidle, rfl⟩ := act_swap hs
    have htodo := (hwf.tidy ℓ).batch (by rw [hphase]; simp)
    exact h.setLoop ((h.prompt ℓ).swap (Loop.idle_iff.mp hidle).1 htodo) fun _ => rfl
  | start ℓ =>
    obtain ⟨-, -, job, queue, hstart, rfl⟩ := act_start hs
    exact h.setLoop ((h.prompt ℓ).start hstart) fun hg => h.quiet hg ℓ
  | finish ℓ =>
    obtain ⟨hphase, hidle, -, rfl⟩ := act_finish hs
    exact h.setLoop ((h.prompt ℓ).finish hphase (Loop.idle_iff.mp hidle).1) fun _ => rfl
  | run ℓ read write =>
    obtain ⟨job, rest, hwork, rfl⟩ := act_run hs
    have hfit := hwf.fit_of_work hwork
    have hset : (s.setLoop ℓ { s.loops ℓ with work := rest }).Calm := by
      refine h.setLoop ((h.prompt ℓ).setWork fun j hj => .inl ?_) fun hg => h.quiet hg ℓ
      rw [hwork]
      exact List.mem_cons_of_mem _ hj
    have hpop : (s.popJob ℓ job rest).Calm := hset.congr rfl rfl
    have hfit' : (s.popJob ℓ job rest).Fit ℓ job :=
      ⟨hfit.born, by rw [hfit.home]; cases job <;> rfl, hfit.own⟩
    have hat : (s.popJob ℓ job rest).loops ℓ = { s.loops ℓ with work := rest } :=
      Function.update_self _ _ _
    refine hpop.runJob halone hfit' (fun ho => ?_) read write
    rw [hat]
    exact (h.prompt ℓ).work job (by rw [hwork]; exact List.mem_cons_self) ho
  | newConnection ioLoop sockfd =>
    obtain ⟨-, -, -, rfl⟩ := act_newConnection hs
    rw [newConnection, runInLoop, if_pos (of_decide_eq_true ha).symm]
    exact (h.congr rfl rfl : (s.addConnection ioLoop sockfd).Calm).callNext
      (by simp [Job.ofHandler])
  | destroy =>
    simp only [TcpServer.act, Option.ite_none_right_eq_some, Option.some.injEq] at hs
    obtain ⟨-, rfl⟩ := hs
    have hquiet := quiet_of_base hwf halone (List.isEmpty_iff.mp ha)
    exact ⟨h.prompt, fun _ => hquiet⟩
  | destroyItem key c =>
    obtain ⟨-, -, hmem, rfl⟩ := act_destroyItem hs
    rw [runInLoop, if_pos (halone c (hwf.keys _ hmem).1).symm]
    exact (h.congr rfl rfl : Calm { s with
      connections_ := s.connections_.erase (key, c) }).callNext (by simp [Job.ofHandler])
  | destroyEnd =>
    simp only [TcpServer.act, Option.ite_none_right_eq_some, Option.some.injEq] at hs
    obtain ⟨⟨hstatus, -⟩, rfl⟩ := hs
    exact ⟨h.prompt, fun _ => h.quiet (by rw [hstatus]; decide)⟩
  | send c data r =>
    obtain ⟨-, -, rfl⟩ := userCall_eq hs
    refine h.onConn fun hc => ?_
    rw [(Site.silent_send c data r _).closing] at hc
    cases hc
  | shutdown c =>
    obtain ⟨-, -, rfl⟩ := userCall_eq hs
    refine h.onConn fun hc => ?_
    rw [(Site.shutdown_silent _).2.1] at hc
    cases hc
  | setHighWaterMarkCallback c n =>
    obtain ⟨-, -, rfl⟩ := userCall_eq hs
    exact h.onConn (by simp [Site.setHighWaterMarkCallback])
  | keep c =>
    obtain ⟨-, rfl⟩ := act_keep hs
    exact h.congr rfl rfl
  | drop c =>
    obtain rfl := act_drop hs
    exact h.congr rfl rfl
  | testSend | enqueueSend | testShutdown | storeDisconnecting | enqueueShutdown => cases ha

theorem Alone.act (h : s.Alone) (hwf : s.Wf) (ha : s.single a = true) (hs : s.act a = some s') :
    s'.Alone := by
  intro c hc
  by_cases hnew : ∀ ioLoop sockfd, a ≠ .newConnection ioLoop sockfd
  · have hsame := sameConns_act hs hnew
    unfold Born at hc
    rw [hsame.nextConnId_] at hc
    rw [hsame.loopOf, hsame.config]
    exact h c hc
  · simp only [not_forall, not_not] at hnew
    obtain ⟨ioLoop, sockfd, rfl⟩ := hnew
    obtain ⟨-, -, -, rfl⟩ := act_newConnection hs
    obtain ⟨hid, hloop, hconfig⟩ := sameConns_runInLoop (s.addConnection ioLoop sockfd)
      s.config.loop_ ioLoop (.connectEstablished s.nextConnId_)
    have hb : (s.addConnection ioLoop sockfd).Born c := by
      unfold Born at hc ⊢
      rw [newConnection, hid] at hc
      exact hc
    show ((s.addConnection ioLoop sockfd).runInLoop s.config.loop_ ioLoop
      (.connectEstablished s.nextConnId_)).loopOf c = _
    rw [hloop, newConnection, hconfig, addConnection_loopOf]
    split
    · exact of_decide_eq_true ha
    · rename_i hne
      exact h c (((born_addConnection hwf.named ioLoop sockfd c).mp hb).resolve_right hne)

omit [Fintype L] [DecidableEq T] in
theorem frame_runJob (read : ReadvResult) (write : WriteResult) (job : Job) :
    (s.runJob ℓ read write job).status = s.status ∧
      (s.runJob ℓ read write job).dangling = s.dangling := by
  cases job with
  | closeCallback c =>
    obtain ⟨loops, hloops⟩ := runInLoop_eq s ℓ s.config.loop_ (.removeConnectionInLoop c)
    rw [TcpServer.runJob, removeConnection, hloops]
    exact ⟨rfl, rfl⟩
  | connectEstablished | connectDestroyed | removeChannel | removeConnectionInLoop | handle
  | notice | sendInLoop | shutdownInLoop => exact ⟨rfl, rfl⟩

/-- Only the destructor changes the status, and only `handleEvent` can meet a dead channel. -/
theorem frame_act (hs : s.act a = some s') :
    (s'.status = s.status ∨
      a = .destroy ∧ s.status = .alive ∧ (s.loops s.config.loop_).idle = true ∧
        s' = { s with status := .destroying } ∨
      a = .destroyEnd ∧ s.status = .destroying ∧ s.connections_ = [] ∧
        s' = { s with status := .destroyed }) ∧
    (s'.dangling = s.dangling ∨ ∃ ℓ, a = .dispatch ℓ) := by
  cases a with
  | dispatch ℓ =>
    obtain ⟨c, rest, -, -, ⟨-, rfl⟩ | ⟨-, rfl⟩⟩ := dispatch_cases hs
    · exact ⟨.inl rfl, .inr ⟨ℓ, rfl⟩⟩
    · exact ⟨.inl rfl, .inr ⟨ℓ, rfl⟩⟩
  | run ℓ read write =>
    obtain ⟨job, rest, -, rfl⟩ := act_run hs
    obtain ⟨hstatus, hdangling⟩ := frame_runJob (s := s.popJob ℓ job rest) (ℓ := ℓ) read write job
    exact ⟨.inl hstatus, .inl hdangling⟩
  | poll ℓ reports =>
    obtain ⟨-, -, -, -, rfl⟩ := act_poll hs
    exact ⟨.inl rfl, .inl rfl⟩
  | start ℓ =>
    obtain ⟨-, -, job, queue, -, rfl⟩ := act_start hs
    exact ⟨.inl rfl, .inl rfl⟩
  | newConnection ioLoop sockfd =>
    obtain ⟨-, -, -, rfl⟩ := act_newConnection hs
    obtain ⟨loops, hloops⟩ := runInLoop_eq (s.addConnection ioLoop sockfd) s.config.loop_ ioLoop
      (.connectEstablished s.nextConnId_)
    rw [newConnection, hloops]
    exact ⟨.inl rfl, .inl rfl⟩
  | destroy =>
    simp only [TcpServer.act, Option.ite_none_right_eq_some, Option.some.injEq] at hs
    obtain ⟨⟨halive, hidle⟩, rfl⟩ := hs
    exact ⟨.inr (.inl ⟨rfl, halive, hidle, rfl⟩), .inl rfl⟩
  | destroyItem key c =>
    obtain ⟨-, -, -, rfl⟩ := act_destroyItem hs
    obtain ⟨loops, hloops⟩ := runInLoop_eq
      { s with connections_ := s.connections_.erase (key, c) } s.config.loop_ (s.loopOf c)
      (.connectDestroyed c)
    rw [hloops]
    exact ⟨.inl rfl, .inl rfl⟩
  | destroyEnd =>
    simp only [TcpServer.act, Option.ite_none_right_eq_some, Option.some.injEq] at hs
    obtain ⟨⟨hstatus, -, hempty⟩, rfl⟩ := hs
    exact ⟨.inr (.inr ⟨rfl, hstatus, hempty, rfl⟩), .inl rfl⟩
  | send | shutdown | setHighWaterMarkCallback =>
    obtain ⟨-, -, rfl⟩ := userCall_eq hs
    exact ⟨.inl rfl, .inl rfl⟩
  | drop c =>
    obtain rfl := act_drop hs
    exact ⟨.inl rfl, .inl rfl⟩
  | testSend t c data =>
    obtain ⟨-, rfl | rfl⟩ := act_testSend hs <;> exact ⟨.inl rfl, .inl rfl⟩
  | testShutdown t c =>
    obtain ⟨-, rfl | rfl⟩ := act_testShutdown hs <;> exact ⟨.inl rfl, .inl rfl⟩
  | enqueueSend t =>
    obtain ⟨c, data, -, rfl⟩ := act_enqueueSend hs
    exact ⟨.inl rfl, .inl rfl⟩
  | storeDisconnecting t =>
    obtain ⟨c, -, rfl⟩ := act_storeDisconnecting hs
    exact ⟨.inl rfl, .inl rfl⟩
  | enqueueShutdown t =>
    obtain ⟨c, -, rfl⟩ := act_enqueueShutdown hs
    exact ⟨.inl rfl, .inl rfl⟩
  | release | swap | finish | keep =>
    simp only [TcpServer.act, Option.ite_none_right_eq_some, Option.some.injEq] at hs
    obtain ⟨-, rfl⟩ := hs
    exact ⟨.inl rfl, .inl rfl⟩

/-! ## Runs -/

/-- Before `~TcpServer` every connection is owned; afterwards it is parting. -/
structure Ending (s : TcpServer T L) : Prop where
  wf : s.Wf
  confined : s.Confined
  alone : s.Alone
  calm : s.Calm
  alive : s.status = .alive → s.Owned
  parting : s.status ≠ .alive → ∀ c, s.Born c → (s.view c).Parting
  cleared : s.status = .destroyed → ∀ c, s.Born c → (s.view c).mapped = false
  safe : s.dangling = false
  used : ∀ x ∈ s.done, x.1.ofHandler = true → x.2 = .alive

omit [Fintype L] [DecidableEq T] in
theorem ending_fresh (config : Config L) : (fresh config : TcpServer T L).Ending where
  wf := wf_fresh config
  confined := confined_fresh config
  alone _ hc := absurd hc.2 (Nat.not_lt.mpr hc.1)
  calm := calm_fresh config
  alive _ := owned_fresh config
  parting h := absurd rfl h
  cleared h := by cases h
  safe := rfl
  used := by simp [fresh]

omit [Fintype L] [DecidableEq T] in
/-- When the base loop polls, no connection of a destroyed server is registered. -/
theorem Ending.unregistered (h : s.Ending) (hstatus : s.status = .destroyed)
    (hphase : (s.loops s.config.loop_).phase = .polling)
    (hidle : (s.loops s.config.loop_).idle = true) (hc : s.Born c) :
    (s.view c).registered = false := by
  have hon := h.alone c hc
  have hnow : (s.view c).now = [] := now_of_idle (by rw [hon]; exact hidle)
  have hparting := h.parting (by rw [hstatus]; decide) c hc
  by_contra hr
  rcases hparting.held (by simpa using hr) with hm | hm | hm
  · rw [h.cleared hstatus c hc] at hm
    cases hm
  · obtain ⟨job, hjob, hd⟩ := job_of_duty hm
    obtain ⟨hconn, -⟩ := home_of_dutyOf (s := s) hd
    rw [Job.dutyOf, if_pos hconn] at hd
    cases job <;> cases hd
    rw [hon, Loop.agenda, (Loop.idle_iff.mp hidle).1, List.nil_append, TaskQueue.waiting,
      (h.wf.tidy _).batch (by rw [hphase]; decide), List.nil_append] at hjob
    have hhandling := (h.calm.prompt _).pending _ hjob
    rw [hphase] at hhandling
    cases hhandling
  · rw [hnow] at hm
    cases hm

/-- The poll has nothing to report any more. -/
theorem Ending.poll (h : s.Ending) (hgone : s.status ≠ .alive) {reports : List (ConnId × Events)}
    (hs : s.act (.poll ℓ reports) = some s') : reports = [] := by
  simp only [TcpServer.act, Option.ite_none_right_eq_some] at hs
  obtain ⟨⟨hlooping, hphase, hidle, -, hreports⟩, -⟩ := hs
  refine List.eq_nil_iff_forall_not_mem.mpr fun x hx => ?_
  have hw : ((s.loops ℓ).poller.epoll (s.conns x.1).channel_.fd_).map (·.1) = some x.1 := by
    simpa [watched] using hreports x hx
  obtain ⟨⟨c, ev⟩, he, hcx⟩ := Option.map_eq_some_iff.mp hw
  obtain ⟨hb, hon, -, hadded⟩ := (h.wf.tidy ℓ).watch _ _ _ he
  obtain rfl := hon.symm.trans (h.alone c hb)
  have hdestroyed : s.status = .destroyed := by
    cases hst : s.status with
    | alive => exact absurd hst hgone
    | destroying => simp [looping, hst] at hlooping
    | destroyed => rfl
  have hnot := h.unregistered hdestroyed hphase hidle hb
  simp only [view, hadded] at hnot
  cases hnot

omit [Fintype L] [DecidableEq T] in
/-- No handler is at work once `~TcpServer` has begun. -/
theorem Ending.not_ofHandler (h : s.Ending) {job : Job} {rest : List Job}
    (hwork : (s.loops ℓ).work = job :: rest) (hgone : s.status ≠ .alive) :
    job.ofHandler = false := by
  have hfit := h.wf.fit_of_work hwork
  have hparting := h.parting hgone job.conn hfit.born
  obtain ⟨now, removals, hnow, hremovals, -⟩ :=
    view_popJob (c := job.conn) s hwork fun _ => hfit.home
  cases job with
  | handle cb c =>
    rw [Job.dutyOf, if_pos rfl] at hnow
    have hmem : Duty.callback cb ∈ (s.view c).now := hnow ▸ List.mem_cons_self
    rcases hparting.now _ hmem with hd | hd | ⟨n, hd⟩ <;> cases hd
  | closeCallback c =>
    rw [Job.dutyOf, if_pos rfl] at hnow
    have hmem : Duty.finishClose ∈ (s.view c).now := hnow ▸ List.mem_cons_self
    rcases hparting.now _ hmem with hd | hd | ⟨n, hd⟩ <;> cases hd
  | removeConnectionInLoop _ =>
    have hnone := hparting.removals
    rw [hremovals] at hnone
    simp [Job.conn] at hnone
  | connectEstablished | connectDestroyed | removeChannel | notice | sendInLoop
  | shutdownInLoop => rfl

omit [Fintype L] [DecidableEq T] in
/-- The step from a server that lives to one in its destructor. -/
theorem Ending.begin (h : s.Ending) (halive : s.status = .alive)
    (hidle : (s.loops s.config.loop_).idle = true)
    (hquiet : (s.loops s.config.loop_).activeChannels_ = []) (hc : s.Born c) :
    Life.Parting { s.view c with status := .destroying } := by
  have hon := h.alone c hc
  refine ((h.alive halive).held c hc).parting (decide_eq_true hon.symm) ?_ ?_ ?_
  · refine decide_eq_false fun hm => ?_
    rw [hon, hquiet] at hm
    cases hm
  · exact now_of_idle (by rw [hon]; exact hidle)
  · refine List.count_eq_zero.mpr fun hm => ?_
    rw [Loop.agenda, (Loop.idle_iff.mp hidle).1, List.nil_append] at hm
    have hnot := (h.calm.prompt _).waiting _ hm
    cases hnot

theorem Ending.act (h : s.Ending) (ht : s.terminated = false) (ha : s.single a = true)
    (hs : s.act a = some s') : s'.Ending := by
  have hown := own_of_single ha
  have hwf := h.wf.act hown hs
  have halone := h.alone.act h.wf ha hs
  have hcalm := h.calm.act h.wf h.alone ha
    (fun ℓ reports he hgone => h.poll hgone (he ▸ hs)) hs
  obtain ⟨hstatus, hdangling⟩ := frame_act hs
  have hspared : s.status = .alive → a ≠ .destroy → s'.Owned := fun halive hne =>
    owned_act (h.alive halive) ht (by cases a <;> first | exact hown | exact absurd rfl hne) hs
  -- after the destructor has begun nobody is accepted
  have hborn : s.status ≠ .alive → ∀ c, s'.Born c → s.Born c := by
    intro hgone c hc
    by_contra hn
    obtain ⟨-, -, -, -, halive, -⟩ := newborn h.wf hs hc hn
    exact hgone halive
  refine ⟨hwf, h.confined.act hs, halone, hcalm, fun halive => ?_, fun hgone c hc => ?_,
    fun hdestroyed c hc => ?_, ?_, ?_⟩
  · rcases hstatus with hsame | ⟨-, -, -, rfl⟩ | ⟨-, -, -, rfl⟩
    · refine hspared (hsame ▸ halive) ?_
      rintro rfl
      simp only [TcpServer.act, Option.ite_none_right_eq_some, Option.some.injEq] at hs
      obtain ⟨-, rfl⟩ := hs
      cases halive
    · cases halive
    · cases halive
  · by_cases halive : s.status = .alive
    · rcases hstatus with hsame | ⟨rfl, -, hidle, rfl⟩ | ⟨-, hst, -, -⟩
      · exact absurd (hsame.trans halive) hgone
      · exact h.begin halive hidle (List.isEmpty_iff.mp ha) hc
      · rw [hst] at halive
        cases halive
    · have hb := hborn halive c hc
      refine (h.parting halive c hb).step (sim_act h.wf ht hown hs hb) (decide_eq_false ?_)
      rw [hcalm.quiet hgone]
      exact List.not_mem_nil
  · rcases hstatus with hsame | ⟨-, -, -, rfl⟩ | ⟨-, -, hempty, rfl⟩
    · have hst := hsame.symm.trans hdestroyed
      have hb := hborn (by rw [hst]; decide) c hc
      exact Life.unmapped_step (h.cleared hst c hb) (sim_act h.wf ht hown hs hb)
    · cases hdestroyed
    · refine decide_eq_false fun hm => ?_
      have hmem : c ∈ s.connections_.map (·.2) := hm
      rw [hempty] at hmem
      cases hmem
  · rcases hdangling with hsame | ⟨ℓ, rfl⟩
    · exact hsame.trans h.safe
    · by_cases halive : s.status = .alive
      · exact (hspared halive (by simp)).safe
      · obtain ⟨c, rest, hphase, -⟩ := act_dispatch hs
        have hnone := h.calm.quiet halive ℓ
        rw [Loop.activeChannels_, hphase] at hnone
        cases hnone
  · rcases (history_act h.confined hs).2 with hdone | ⟨ℓ, read, write, job, rest, rfl, hwork, hdone⟩
    · rw [hdone]
      exact h.used
    · rw [hdone]
      intro x hx ho
      rcases List.mem_append.mp hx with hx | hx
      · exact h.used x hx ho
      · obtain rfl := List.mem_singleton.mp hx
        by_contra hgone
        rw [h.not_ofHandler hwork hgone] at ho
        cases ho

/-- The destructor of a server without threads, called while no reported channel is still to be
handled: whatever happens before and afterwards, no handler of a connection and no method of the
server that its callbacks and functors are bound to runs once the destructor has begun, and no event
reaches a dead channel; and when the loop polls again after its end, no connection of the server is
connecting or connected, in the map, registered or watched. -/
theorem destroyed_cleanly (config : Config L) (as : List (Action T L))
    (hg : Execution.Guarded step (fun s a => s.single a = true) (fresh config) as)
    (hr : Execution.exec step (fresh config) as = some s) :
    (∀ x ∈ s.done, x.1.ofHandler = true → x.2 = .alive) ∧ s.dangling = false ∧
    (s.status = .destroyed → (s.loops s.config.loop_).phase = .polling →
      (s.loops s.config.loop_).idle = true → ∀ c, s.Born c →
        ((s.conns c).state_ = .kDisconnected ∨ (s.conns c).state_ = .kDisconnecting) ∧
        c ∉ s.connections_.map (·.2) ∧ (s.conns c).channel_.index_ = .kNew ∧
        ∀ ℓ, c ∉ (s.loops ℓ).activeChannels_ ∧
          ∀ fd ev, (s.loops ℓ).poller.epoll fd ≠ some (c, ev)) := by
  have h : s.Ending := Execution.exec_invariant Ending
    (fun s a s' hi ha hs => hi.act (step_eq hs).1 ha (step_eq hs).2.2) (ending_fresh config) hg hr
  refine ⟨h.used, h.safe, fun hstatus hphase hidle c hc => ?_⟩
  have hgone : s.status ≠ .alive := by rw [hstatus]; decide
  have hparting := h.parting hgone c hc
  have hunmapped := h.cleared hstatus c hc
  have hindex : (s.conns c).channel_.index_ = .kNew := by
    simpa [view] using h.unregistered hstatus hphase hidle hc
  refine ⟨?_, of_decide_eq_false hunmapped, hindex, fun ℓ => ⟨?_, fun fd ev he => ?_⟩⟩
  · have hnow : (s.view c).now = [] := now_of_idle (by rw [h.alone c hc]; exact hidle)
    cases hst : (s.conns c).state_ with
    | kConnecting => exact absurd hst hparting.begun
    | kConnected =>
      rcases hparting.connected hst with hm | hm
      · rw [hunmapped] at hm
        cases hm
      · rw [hnow] at hm
        cases hm
    | kDisconnecting => exact .inr rfl
    | kDisconnected => exact .inl rfl
  · rw [h.calm.quiet hgone]
    exact List.not_mem_nil
  · have hadded := ((h.wf.tidy ℓ).watch _ _ _ he).2.2.2
    rw [hindex] at hadded
    cases hadded

/-- One connection closes and another is open when a functor destroys the server. -/
theorem destroyed_cleanly_closing : ∃ s : TcpServer Unit Bool, s.status = .destroyed ∧
    (∀ x ∈ s.done, x.1.ofHandler = true → x.2 = .alive) ∧
      (s.conns 1).channel_.index_ = .kNew ∧ (s.conns 2).channel_.index_ = .kNew := by
  let run : Action Unit Bool := .run false (.delivered []) (.took 0)
  let as : List (Action Unit Bool) := [.poll false [], .newConnection false 7, run,
    .newConnection false 8, run, .swap false, .finish false, .poll false [(1, POLLHUP)],
    .dispatch false, run, run, run, .release false, .swap false, .destroy,
    .destroyItem (pair.nameOf 2) 2, run, run, .destroyEnd, .start false, run, run, .finish false]
  have hrun : (Execution.exec step pair as).map (fun s =>
      decide (s.Born 1 ∧ s.Born 2 ∧ s.status = .destroyed ∧ s.config.loop_ = false ∧
        (s.loops false).phase = .polling ∧ (s.loops false).idle = true)) = some true := by
    decide +kernel
  obtain ⟨s, hs, hres⟩ := Option.map_eq_some_iff.mp hrun
  obtain ⟨hborn, hborn', hstatus, hbase, hphase, hidle⟩ := of_decide_eq_true hres
  obtain ⟨hused, -, hgone⟩ := destroyed_cleanly _ as (by decide +kernel) hs
  rw [hbase] at hgone
  have hleft := hgone hstatus hphase hidle
  exact ⟨s, hstatus, hused, (hleft 1 hborn).2.2.1, (hleft 2 hborn').2.2.1⟩

end Steps

end TcpServer

end Mymuduo

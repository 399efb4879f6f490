import Mymuduo.Library.Potential
import Mymuduo.Server.Simulation

/-!
# How much work there is to do

Each job leads to a bounded number of steps of the loops' threads: those that swap it out and start
it, and those of the jobs that it calls or queues in turn. Counted so, every step of a loop uses up
some of the work, and only a poll, an accepted connection and calls from outside bring new work.
-/

namespace Mymuduo

open Mymuduo.Library

universe u v

/-- The steps that a job takes where it has been called, with all that comes of it. -/
def Job.effort : Job → Nat
  | .connectEstablished _ | .removeChannel _ | .notice _ _ | .shutdownInLoop _ => 1
  | .connectDestroyed _ => 2
  | .sendInLoop _ _ => 5
  | .removeConnectionInLoop _ => 6
  | .closeCallback _ => 10
  | .handle _ _ => 11

/-- The efforts of jobs each of which takes `extra` steps more. -/
def Job.efforts (extra : Nat) : List Job → Nat
  | [] => 0
  | job :: jobs => job.effort + extra + efforts extra jobs

theorem Job.efforts_append (extra : Nat) (jobs jobs' : List Job) :
    Job.efforts extra (jobs ++ jobs') = Job.efforts extra jobs + Job.efforts extra jobs' := by
  induction jobs with
  | nil => exact (Nat.zero_add _).symm
  | cons job jobs ih =>
    rw [List.cons_append, efforts, efforts, ih, ← Nat.add_assoc]

/-- Jobs that all take the same effort. -/
theorem Job.efforts_map {α : Type} (f : α → Job) {n extra : Nat} (hf : ∀ x, (f x).effort = n)
    (xs : List α) : Job.efforts extra (xs.map f) = (n + extra) * xs.length := by
  induction xs with
  | nil => rfl
  | cons x xs ih =>
    rw [List.map_cons, efforts, hf, ih, List.length_cons, Nat.mul_succ, Nat.add_comm]

theorem Job.efforts_add (extra more : Nat) (jobs : List Job) :
    Job.efforts (extra + more) jobs = Job.efforts extra jobs + more * jobs.length := by
  induction jobs with
  | nil => rfl
  | cons job jobs ih =>
    rw [efforts, efforts, ih, List.length_cons, Nat.mul_succ]
    omega

/-- A started loop has its channels to dispatch, its batch to swap out and to finish. -/
def Phase.workload : Phase → Nat
  | .polling => 0
  | .handling active => 2 + 46 * active.length
  | .calling => 1

namespace Loop

def guardload (guard : Option ConnId) : Nat := if guard.isSome then 1 else 0

/-- The jobs in hand, those of the batch, which are to be started, and those in
`pendingFunctors_`, for which the loop also has to leave its poll. -/
def workload (l : Loop) : Nat :=
  l.phase.workload + guardload l.guard + Job.efforts 0 l.work + Job.efforts 1 l.queue.todo +
    Job.efforts 3 l.queue.pending

end Loop

namespace Site

variable {κ : Type u}

/-- The work that a method leaves behind it. -/
def workload (w : Site κ) : Nat := (if w.closing then 10 else 0) + 4 * w.queued.length

section Methods

variable (self : κ) (w : Site κ)

theorem length_queueIf (b : Bool) (n : Notice) :
    (w.queueIf b n).queued.length ≤ w.queued.length + 1 := by
  unfold queueIf
  split
  · rw [List.length_append]
    exact Nat.le_refl _
  · exact Nat.le_succ _

theorem length_shutdownInLoop : w.shutdownInLoop.queued = w.queued := by
  unfold shutdownInLoop
  split <;> rfl

theorem length_bufferRest (rest : List Byte) :
    (w.bufferRest self rest).queued.length ≤ w.queued.length + 1 := by
  simp only [bufferRest]
  split
  · exact length_queueIf _ _ _
  · exact length_queueIf _ _ _

/-- `sendInLoop` queues for a message that is written or for one that lifts the buffer to its mark,
not for both. -/
theorem length_sendInLoop (data : List Byte) (r : WriteResult) :
    (w.sendInLoop self data r).queued.length ≤ w.queued.length + 1 := by
  by_cases hs : w.conn.state_ = .kDisconnected
  · rw [sendInLoop, if_pos hs]
    exact Nat.le_succ _
  simp only [sendInLoop, if_neg hs]
  have hdirect : (w.directWrite data r).2.2.queued.length ≤ w.queued.length + 1 ∧
      (0 < data.length - (w.directWrite data r).1 →
        (w.directWrite data r).2.2.queued = w.queued) := by
    unfold directWrite
    split
    · dsimp only
      split
      · refine ⟨length_queueIf _ _ _, fun hrest => ?_⟩
        have hmore : data.length - (r.count data).toNat ≠ 0 := Nat.pos_iff_ne_zero.mp hrest
        simp only [queueIf, hmore, decide_false, Bool.false_and]
        rfl
      · exact ⟨Nat.le_succ _, fun _ => rfl⟩
    · exact ⟨Nat.le_succ _, fun _ => rfl⟩
  split
  · rename_i hrest
    rw [Bool.and_eq_true, decide_eq_true_eq] at hrest
    have hbuffer := length_bufferRest self (w.directWrite data r).2.2
      (data.drop (w.directWrite data r).1)
    rw [hdirect.2 hrest.2] at hbuffer
    exact hbuffer
  · exact hdirect.1

theorem length_drained : (w.drained self).queued.length ≤ w.queued.length + 1 := by
  simp only [drained]
  split
  · rw [length_shutdownInLoop]
    exact length_queueIf _ _ _
  · exact length_queueIf _ _ _

theorem length_handleWrite (r : WriteResult) :
    (w.handleWrite self r).queued.length ≤ w.queued.length + 1 := by
  simp only [handleWrite]
  split
  · split
    · split
      · exact length_drained self _
      · exact Nat.le_succ _
    · exact Nat.le_succ _
  · exact Nat.le_succ _

theorem length_callback (read : ReadvResult) (write : WriteResult) (cb : ChannelCallback) :
    (w.callback self read write cb).queued.length ≤ w.queued.length + 1 := by
  have hclose : ∀ v : Site κ, v.queued = w.queued →
      (v.handleClose self).queued.length ≤ w.queued.length + 1 := fun v hv => by
    rw [(handleClose_calls self v).1, hv]
    exact Nat.le_succ _
  cases cb with
  | closeCallback => exact hclose w rfl
  | errorCallback => exact Nat.le_succ _
  | writeCallback => exact length_handleWrite self w write
  | readCallback =>
    simp only [callback, handleRead]
    split
    · rw [(calls_invoke _ _ _).queued]
      exact Nat.le_succ _
    · split
      · exact hclose _ rfl
      · exact Nat.le_succ _

/-! ## Methods that start with nothing left behind -/

variable (conn : TcpConnection) (poller : EPollPoller κ)

theorem Silent.workload_le {w w' : Site κ} (h : Silent w w') (hclosing : w.closing = false)
    (hqueued : w'.queued.length ≤ w.queued.length + 1) (hnone : w.queued = []) :
    w'.workload ≤ 4 := by
  rw [workload, h.closing, hclosing]
  rw [hnone] at hqueued
  show 0 + 4 * w'.queued.length ≤ 4
  have hone : w'.queued.length ≤ 1 := hqueued
  omega

theorem Calls.workload_eq {w w' : Site κ} {target : Bool} {i : Invocation}
    (h : Calls w w' target i) (hclosing : w.closing = false) (hnone : w.queued = []) :
    w'.workload = 0 := by
  rw [workload, h.closing, h.queued, hclosing, hnone]
  rfl

theorem workload_send_le (data : List Byte) (r : WriteResult) :
    (send self data r { conn := conn, poller := poller }).workload ≤ 4 := by
  refine (silent_send self data r _).workload_le rfl ?_ rfl
  rw [send]
  split
  · exact length_sendInLoop self _ data r
  · exact Nat.zero_le _

theorem workload_sendInLoop_le (data : List Byte) (r : WriteResult) :
    (sendInLoop self data r { conn := conn, poller := poller }).workload ≤ 4 :=
  (silent_sendInLoop self data r _).workload_le rfl (length_sendInLoop self _ data r) rfl

theorem workload_shutdownInLoop :
    (shutdownInLoop { conn := conn, poller := poller : Site κ }).workload = 0 := by
  rw [workload, (silent_shutdownInLoop _).closing, length_shutdownInLoop]
  rfl

theorem workload_shutdown :
    (shutdown { conn := conn, poller := poller : Site κ }).workload = 0 := by
  rw [shutdown]
  split
  · exact workload_shutdownInLoop _ _
  · rfl

theorem workload_leaveConnected :
    (leaveConnected self { conn := conn, poller := poller }).workload = 0 := by
  by_cases hs : conn.state_ = .kConnected
  · exact (leaveConnected_calls self _ hs).workload_eq rfl rfl
  · rw [leaveConnected, if_neg hs]
    rfl

/-- Only `handleClose` calls the close callback, and it queues nothing. -/
theorem workload_callback_le (read : ReadvResult) (write : WriteResult) (cb : ChannelCallback) :
    (callback self read write cb { conn := conn, poller := poller }).workload ≤ 10 := by
  obtain ⟨-, b, hclose⟩ | ⟨-, -, -, -, hcalls⟩ | ⟨-, -, hsilent⟩ :=
    callback_cases self (w := { conn := conn, poller := poller }) read write cb
  · obtain ⟨hqueued, -⟩ := handleClose_calls self
      (w := { conn := { conn with inputBuffer_ := b }, poller := poller })
    rw [hclose, workload, hqueued]
    split
    · exact Nat.le_refl _
    · exact Nat.zero_le _
  · rw [hcalls.workload_eq rfl rfl]
    exact Nat.zero_le _
  · have hlength := length_callback self { conn := conn, poller := poller } read write cb
    exact Nat.le_trans (hsilent.workload_le rfl hlength rfl) (by decide)

end Methods

end Site

namespace TcpServer

variable {T : Type u} {L : Type v} [Fintype L]

def workload (s : TcpServer T L) : Nat := ∑ ℓ, (s.loops ℓ).workload

/-- The steps that the loops' threads take on their own accord, once they have left their polls. -/
def Action.internal : Action T L → Bool
  | .dispatch _ | .release _ | .swap _ | .start _ | .finish _ | .run _ _ _ => true
  | _ => false

/-- The work that any other action brings. -/
def Action.price : Action T L → Nat
  | .poll _ reports => 2 + 46 * reports.length
  | .newConnection _ _ => 4
  | .destroyItem _ _ => 5
  | .send _ _ _ => 4
  | .enqueueSend _ => 8
  | .enqueueShutdown _ => 4
  | _ => 0

variable [DecidableEq L] {s s' : TcpServer T L} {ℓ : L}

/-- A number that is told of each loop, where one loop changes. -/
theorem sum_setLoop (f : Loop → Nat) (s : TcpServer T L) (ℓ : L) (l : Loop) :
    (∑ ℓ', f ((s.setLoop ℓ l).loops ℓ')) + f (s.loops ℓ) = (∑ ℓ', f (s.loops ℓ')) + f l := by
  have hnew : (∑ ℓ', f ((s.setLoop ℓ l).loops ℓ')) =
      f l + ∑ ℓ' ∈ Finset.univ.erase ℓ, f (s.loops ℓ') := by
    rw [← Finset.add_sum_erase _ _ (Finset.mem_univ ℓ)]
    congr 1
    · simp only [setLoop, Function.update_self]
    · refine Finset.sum_congr rfl fun ℓ' hℓ' => ?_
      simp only [setLoop, Function.update_of_ne (Finset.ne_of_mem_erase hℓ')]
  have hold : (∑ ℓ', f (s.loops ℓ')) =
      f (s.loops ℓ) + ∑ ℓ' ∈ Finset.univ.erase ℓ, f (s.loops ℓ') :=
    (Finset.add_sum_erase _ _ (Finset.mem_univ ℓ)).symm
  omega

theorem workload_setLoop (s : TcpServer T L) (ℓ : L) (l : Loop) :
    (s.setLoop ℓ l).workload + (s.loops ℓ).workload = s.workload + l.workload :=
  sum_setLoop Loop.workload s ℓ l

theorem workload_setLoop_lt {l : Loop} (h : l.workload < (s.loops ℓ).workload) :
    (s.setLoop ℓ l).workload < s.workload := by
  have hset := s.workload_setLoop ℓ l
  omega

theorem workload_queueInLoop (s : TcpServer T L) (ℓ : L) (job : Job) :
    (s.queueInLoop ℓ job).workload = s.workload + job.effort + 3 := by
  have hset := s.workload_setLoop ℓ { s.loops ℓ with queue := (s.loops ℓ).queue.push job }
  have hqueue : Loop.workload { s.loops ℓ with queue := (s.loops ℓ).queue.push job } =
      (s.loops ℓ).workload + job.effort + 3 := by
    simp only [Loop.workload, TaskQueue.push, Job.efforts_append, Job.efforts]
    omega
  rw [queueInLoop]
  omega

theorem workload_callNext (s : TcpServer T L) (ℓ : L) (job : Job) :
    (s.callNext ℓ job).workload = s.workload + job.effort := by
  have hset := s.workload_setLoop ℓ { s.loops ℓ with work := job :: (s.loops ℓ).work }
  have hwork : Loop.workload { s.loops ℓ with work := job :: (s.loops ℓ).work } =
      (s.loops ℓ).workload + job.effort := by
    simp only [Loop.workload, Job.efforts]
    omega
  rw [callNext]
  omega

theorem workload_runInLoop_le (s : TcpServer T L) (ℓ target : L) (job : Job) :
    (s.runInLoop ℓ target job).workload ≤ s.workload + job.effort + 3 := by
  rw [runInLoop]
  split
  · rw [workload_callNext]
    omega
  · rw [workload_queueInLoop]

theorem workload_onConn (s : TcpServer T L) (ℓ : L) (c : ConnId) (f : Site ConnId → Site ConnId) :
    (s.onConn ℓ c f).workload = s.workload +
      (f { conn := s.conns c, poller := (s.loops ℓ).poller }).workload := by
  set w := f { conn := s.conns c, poller := (s.loops ℓ).poller } with hw
  let l : Loop := { s.loops ℓ with
    work := (if w.closing then [.closeCallback c] else []) ++ (s.loops ℓ).work
    queue := (s.loops ℓ).queue.pushAll (w.queued.map (.notice · c))
    poller := w.poller }
  have hset := s.workload_setLoop ℓ l
  have honConn : (s.onConn ℓ c f).workload = (s.setLoop ℓ l).workload := rfl
  have hclosing : Job.efforts 0 (if w.closing then [Job.closeCallback c] else []) =
      if w.closing then 10 else 0 := by
    split <;> rfl
  have hnotices : Job.efforts 3 (w.queued.map (Job.notice · c)) = 4 * w.queued.length :=
    Job.efforts_map (Job.notice · c) (fun _ => rfl) _
  have hl : l.workload = (s.loops ℓ).workload + w.workload := by
    simp only [l, Loop.workload, TaskQueue.pushAll, Job.efforts_append, hclosing, hnotices,
      Site.workload]
    omega
  omega

theorem workload_popJob (s : TcpServer T L) {job : Job} {rest : List Job}
    (hwork : (s.loops ℓ).work = job :: rest) :
    (s.popJob ℓ job rest).workload + job.effort = s.workload := by
  have hset := s.workload_setLoop ℓ { s.loops ℓ with work := rest }
  have hpop : (s.popJob ℓ job rest).workload =
      (s.setLoop ℓ { s.loops ℓ with work := rest }).workload := rfl
  have hrest : (s.loops ℓ).workload =
      Loop.workload { s.loops ℓ with work := rest } + job.effort := by
    simp only [Loop.workload, hwork, Job.efforts]
    omega
  omega

/-- A job brings less work than it was counted for. -/
theorem workload_runJob_lt (s : TcpServer T L) (ℓ : L) (read : ReadvResult) (write : WriteResult)
    (job : Job) : (s.runJob ℓ read write job).workload < s.workload + job.effort := by
  cases job with
  | connectEstablished c =>
    rw [runJob, workload_onConn, (Site.connectEstablished_calls c _).workload_eq rfl rfl]
    exact Nat.lt_succ_self _
  | connectDestroyed c =>
    rw [runJob, workload_callNext, workload_onConn, Site.workload_leaveConnected]
    exact Nat.lt_succ_self _
  | removeChannel c =>
    rw [runJob, workload_onConn]
    exact Nat.lt_succ_self _
  | removeConnectionInLoop c =>
    rw [runJob, removeConnectionInLoop, workload_queueInLoop]
    exact Nat.lt_succ_self _
  | closeCallback c =>
    have hrun := s.workload_runInLoop_le ℓ s.config.loop_ (.removeConnectionInLoop c)
    rw [runJob, removeConnection]
    exact Nat.lt_succ_of_le hrun
  | handle cb c =>
    have hcallback := Site.workload_callback_le c (s.conns c) (s.loops ℓ).poller read
      write cb
    rw [runJob, workload_onConn, Job.effort]
    omega
  | notice n c => exact Nat.lt_succ_self _
  | sendInLoop c data =>
    have hsend := Site.workload_sendInLoop_le c (s.conns c) (s.loops ℓ).poller data write
    rw [runJob, workload_onConn, Job.effort]
    omega
  | shutdownInLoop c =>
    rw [runJob, workload_onConn, Site.workload_shutdownInLoop]
    exact Nat.lt_succ_self _

/-! ## Actions -/

theorem length_handleEventWithGuard (channel : Channel) :
    channel.handleEventWithGuard.length ≤ 4 := by
  have hone : ∀ (b : Bool) (cb : ChannelCallback), (if b then [cb] else []).length ≤ 1 := by
    intro b cb
    cases b
    · exact Nat.zero_le _
    · exact Nat.le_refl _
  simp only [Channel.handleEventWithGuard, List.length_append]
  exact Nat.add_le_add (Nat.add_le_add (Nat.add_le_add (hone _ _) (hone _ _)) (hone _ _)) (hone _ _)

/-- A channel is dispatched by a loop with nothing in hand. -/
theorem workload_handleEvent_le (s : TcpServer T L) (ℓ : L) (c : ConnId)
    (hidle : (s.loops ℓ).idle = true) : (s.handleEvent ℓ c).workload ≤ s.workload + 45 := by
  obtain ⟨hwork, hguard⟩ := Loop.idle_iff.mp hidle
  rw [handleEvent]
  dsimp only
  split
  · exact Nat.le_add_right _ _
  · set channel := (s.conns c).channel_
    have hset := s.workload_setLoop ℓ { s.loops ℓ with
      guard := if channel.tied_ then some c else none
      work := channel.handleEventWithGuard.map (Job.handle · c) }
    have hjobs : Job.efforts 0 (channel.handleEventWithGuard.map (Job.handle · c)) =
        11 * channel.handleEventWithGuard.length :=
      Job.efforts_map (Job.handle · c) (fun _ => rfl) _
    have hlength := length_handleEventWithGuard channel
    have hone : Loop.guardload (if channel.tied_ then some c else none) ≤ 1 := by
      unfold Loop.guardload
      split
      · exact Nat.le_refl _
      · exact Nat.zero_le _
    simp only [Loop.workload, hwork, hguard, hjobs, Job.efforts] at hset
    omega

theorem workload_act_lt [DecidableEq T] {a : Action T L} (hs : s.act a = some s')
    (ha : a.internal = true) : s'.workload < s.workload := by
  cases a with
  | dispatch ℓ =>
    obtain ⟨c, rest, hphase, hidle, rfl⟩ := act_dispatch hs
    set t := s.setLoop ℓ { s.loops ℓ with phase := .handling rest }
    have hset : t.workload + _ = s.workload + _ :=
      s.workload_setLoop ℓ { s.loops ℓ with phase := .handling rest }
    have hloop : t.loops ℓ = { s.loops ℓ with phase := .handling rest } :=
      Function.update_self _ _ _
    have hhandle := t.workload_handleEvent_le ℓ c (by rw [hloop]; exact hidle)
    simp only [Loop.workload, hphase, Phase.workload, List.length_cons] at hset
    omega
  | release ℓ =>
    simp only [act, Option.ite_none_right_eq_some, Option.some.injEq] at hs
    obtain ⟨⟨-, hguard⟩, rfl⟩ := hs
    refine workload_setLoop_lt ?_
    have hone : Loop.guardload (s.loops ℓ).guard = 1 := if_pos hguard
    have hzero : Loop.guardload none = 0 := rfl
    simp only [Loop.workload, hone, hzero]
    omega
  | swap ℓ =>
    obtain ⟨hphase, hidle, rfl⟩ := act_swap hs
    refine workload_setLoop_lt ?_
    have hbatch : Job.efforts 3 (s.loops ℓ).queue.pending = _ :=
      Job.efforts_add 1 2 (s.loops ℓ).queue.pending
    simp only [Loop.workload, TaskQueue.swap, hphase, Phase.workload, List.length_nil, Job.efforts]
    omega
  | start ℓ =>
    obtain ⟨hphase, hidle, job, queue, hstart, rfl⟩ := act_start hs
    obtain ⟨hwork, -⟩ := Loop.idle_iff.mp hidle
    obtain ⟨-, -, hpending, htodo⟩ := TaskQueue.waiting_of_start hstart
    refine workload_setLoop_lt ?_
    simp only [Loop.workload, hwork, hpending, htodo, Job.efforts]
    omega
  | finish ℓ =>
    obtain ⟨hphase, hidle, htodo, rfl⟩ := act_finish hs
    refine workload_setLoop_lt ?_
    simp only [Loop.workload, TaskQueue.finish, hphase, Phase.workload]
    omega
  | run ℓ read write =>
    obtain ⟨job, rest, hwork, rfl⟩ := act_run hs
    have hpop := s.workload_popJob hwork
    have hrun := (s.popJob ℓ job rest).workload_runJob_lt ℓ read write job
    omega
  | _ => cases ha

theorem workload_act_le [DecidableEq T] {a : Action T L} (hs : s.act a = some s')
    (ha : a.internal = false) : s'.workload ≤ s.workload + a.price := by
  have huser : ∀ {c : ConnId} {f : Site ConnId → Site ConnId} {n : Nat},
      s.userCall c f = some s' →
      (∀ conn poller, (f { conn := conn, poller := poller }).workload ≤ n) →
      s'.workload ≤ s.workload + n := by
    intro c f n hcall hf
    simp only [userCall, Option.ite_none_right_eq_some, Option.some.injEq] at hcall
    obtain ⟨-, rfl⟩ := hcall
    rw [workload_onConn]
    exact Nat.add_le_add_left (hf _ _) _
  cases a with
  | dispatch | release | swap | start | finish | run => cases ha
  | poll ℓ reports =>
    obtain ⟨hphase, -, -, -, rfl⟩ := act_poll hs
    have hset := s.workload_setLoop ℓ { s.loops ℓ with phase := .handling (reports.map (·.1)) }
    have hpoll : Loop.workload { s.loops ℓ with phase := .handling (reports.map (·.1)) } =
        (s.loops ℓ).workload + (2 + 46 * reports.length) := by
      simp only [Loop.workload, hphase, Phase.workload, List.length_map]
      omega
    show (s.setLoop ℓ { s.loops ℓ with phase := .handling (reports.map (·.1)) }).workload ≤ _
    rw [Action.price]
    omega
  | newConnection ioLoop sockfd =>
    obtain ⟨-, -, -, rfl⟩ := act_newConnection hs
    exact workload_runInLoop_le _ _ _ _
  | destroyItem key c =>
    obtain ⟨-, -, -, rfl⟩ := act_destroyItem hs
    exact workload_runInLoop_le _ _ _ _
  | send c data r => exact huser hs fun conn poller => Site.workload_send_le c conn poller data r
  | shutdown c =>
    exact huser hs fun conn poller => Nat.le_of_eq (Site.workload_shutdown conn poller)
  | setHighWaterMarkCallback c n => exact huser hs fun conn poller => Nat.le_refl _
  | enqueueSend t =>
    obtain ⟨c, data, -, rfl⟩ := act_enqueueSend hs
    exact Nat.le_of_eq (workload_queueInLoop _ _ _)
  | enqueueShutdown t =>
    obtain ⟨c, -, rfl⟩ := act_enqueueShutdown hs
    exact Nat.le_of_eq (workload_queueInLoop _ _ _)
  | keep c =>
    obtain ⟨-, rfl⟩ := act_keep hs
    exact Nat.le_refl _
  | drop c =>
    obtain rfl := act_drop hs
    exact Nat.le_refl _
  | testSend t c data =>
    obtain ⟨-, rfl | rfl⟩ := act_testSend hs
    · exact Nat.le_refl _
    · exact Nat.le_refl _
  | testShutdown t c =>
    obtain ⟨-, rfl | rfl⟩ := act_testShutdown hs
    · exact Nat.le_refl _
    · exact Nat.le_refl _
  | storeDisconnecting t =>
    obtain ⟨c, -, rfl⟩ := act_storeDisconnecting hs
    exact Nat.le_refl _
  | destroy | destroyEnd =>
    simp only [act, Option.ite_none_right_eq_some, Option.some.injEq] at hs
    obtain ⟨-, rfl⟩ := hs
    exact Nat.le_refl _

/-- Only a poll and what comes from outside bring work. -/
theorem pays [DecidableEq T] : Potential.Pays (step (T := T) (L := L)) (fun _ => True)
    Action.internal Action.price workload where
  keeps _ _ := trivial
  spends _ hs ha := workload_act_lt (step_eq hs).2.2 ha
  raises _ hs ha := workload_act_le (step_eq hs).2.2 ha

/-- In every run, with whatever reports, answers of the kernel and calls from any thread: the
steps that the loops' threads take, each handler, functor and callback included, are no more than
what the polls, the accepted connections and the calls have brought in. -/
theorem work_bounded [DecidableEq T] (config : Config L) (as : List (Action T L))
    (hr : Execution.exec step (fresh config) as = some s) :
    as.countP Action.internal ≤ Potential.cost Action.internal Action.price as := by
  have hcount := pays.count_add_le trivial hr
  have hnothing : (fresh config : TcpServer T L).workload = 0 :=
    Finset.sum_eq_zero fun ℓ _ => rfl
  omega

/-- A connection is accepted for the other loop, which establishes it. -/
def accepting : List (Action Unit Bool) :=
  [.poll false [], .newConnection true 7, .poll true [], .swap true, .start true,
    .run true (.delivered []) (.took 0)]

theorem work_bounded_accepting : ∃ s, Execution.exec step pair accepting = some s ∧
    (s.conns 1).state_ = .kConnected ∧ accepting.countP Action.internal ≤
      Potential.cost Action.internal Action.price accepting := by
  have hrun : (Execution.exec step pair accepting).map (fun s => decide
      ((s.conns 1).state_ = .kConnected)) = some true := by decide +kernel
  obtain ⟨s, hs, hconnected⟩ := Option.map_eq_some_iff.mp hrun
  exact ⟨s, hs, of_decide_eq_true hconnected, work_bounded _ accepting hs⟩

end TcpServer

end Mymuduo

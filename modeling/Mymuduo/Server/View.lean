import Mymuduo.Connection.Methods
import Mymuduo.Server.TcpServer

/-!
# One connection's view of the server

`view s c` is the life of connection `c` as it stands in `s`, and `event s a c`
what an action means to it. The lemmas say how the server's primitives change a
view: a job changes it only if it is a job of `c`, on the loop where it belongs.
-/

namespace Mymuduo

open Mymuduo.Library

universe u v

/-- The duty a job is for its connection. -/
def Job.duty : Job → Option Duty
  | connectEstablished _ => some .establish
  | connectDestroyed _ => some .destroy
  | removeChannel _ => some .deregister
  | closeCallback _ => some .finishClose
  | handle callback _ => some (.callback callback)
  | notice n _ => some (.notice n)
  | removeConnectionInLoop _ | sendInLoop _ _ | shutdownInLoop _ => none

/-- The duty a job is for connection `c`. -/
def Job.dutyOf (c : ConnId) (job : Job) : Option Duty :=
  if job.conn = c then job.duty else none

namespace TcpServer

variable {T : Type u} {L : Type v}

/-- The loop on which a job may stand. -/
def home (s : TcpServer T L) : Job → L
  | .removeConnectionInLoop _ => s.config.loop_
  | job => s.loopOf job.conn

def view [DecidableEq L] (s : TcpServer T L) (c : ConnId) : Life where
  state := (s.conns c).state_
  registered := (s.conns c).channel_.index_ != .kNew
  tied := (s.conns c).channel_.tied_
  onBase := decide (s.config.loop_ = s.loopOf c)
  mapped := decide (c ∈ s.connections_.map (·.2))
  active := decide (c ∈ (s.loops (s.loopOf c)).activeChannels_)
  guarded := decide ((s.loops (s.loopOf c)).guard = some c)
  calling := decide ((s.loops (s.loopOf c)).phase = .calling)
  now := (s.loops (s.loopOf c)).work.filterMap (Job.dutyOf c)
  later := (s.loops (s.loopOf c)).queue.waiting.filterMap (Job.dutyOf c)
  removals := (s.loops s.config.loop_).agenda.count (.removeConnectionInLoop c)
  status := s.status
  heard := (s.conns c).connectionCallback_
  invoked := s.invoked c
  destroys := (s.done.map (·.1)).count (.connectDestroyed c)
  deregisters := (s.done.map (·.1)).count (.removeChannel c)
  lateRemovals := s.done.countP fun x => x.1 == .removeConnectionInLoop c && x.2 != .alive
  thrown := s.terminated

/-- What a job that runs means to the connection it is for. -/
def jobEvent (s : TcpServer T L) (read : ReadvResult) : Job → Event
  | .handle cb c =>
    if Site.closes read (s.conns c) cb then .close
    else if Site.delivers read (s.conns c) cb then .deliver
    else .quiet
  | .connectDestroyed _ => .leave
  | _ => .quiet

/-- What an action means to connection `c`. -/
def event [Fintype L] (s : TcpServer T L) (a : Action T L) (c : ConnId) : Event :=
  match a with
  | .run ℓ read _ =>
    match (s.loops ℓ).work with
    | job :: _ => if job.conn = c then s.jobEvent read job else .quiet
    | [] => .quiet
  | .dispatch ℓ =>
    match (s.loops ℓ).phase with
    | .handling (c' :: _) => if c' = c ∧ s.useCount c = 0 then .dangle else .quiet
    | _ => .quiet
  | .destroy => .destroy
  | _ => .quiet

variable [DecidableEq L] {s : TcpServer T L} {c : ConnId} {ℓ : L}

theorem view_setLoop (s : TcpServer T L) (ℓ : L) (l : Loop) (c : ConnId) :
    (s.setLoop ℓ l).view c =
      let v := { s.view c with
        removals := if s.config.loop_ = ℓ then l.agenda.count (.removeConnectionInLoop c)
          else (s.view c).removals }
      if s.loopOf c = ℓ then
        { v with
          active := decide (c ∈ l.activeChannels_)
          guarded := decide (l.guard = some c)
          calling := decide (l.phase = .calling)
          now := l.work.filterMap (Job.dutyOf c)
          later := l.queue.waiting.filterMap (Job.dutyOf c) }
      else v := by
  by_cases hb : s.config.loop_ = ℓ <;> by_cases hc : s.loopOf c = ℓ <;>
    simp only [view, setLoop, Function.update_apply, hb, hc, if_true, if_false] <;> rfl

/-- When the agenda of a loop changes and nothing else. -/
theorem view_setAgenda (s : TcpServer T L) {l : Loop} {now later : List Duty} {removals : Nat}
    (hphase : l.phase = (s.loops ℓ).phase) (hguard : l.guard = (s.loops ℓ).guard)
    (hown : s.loopOf c = ℓ → l.work.filterMap (Job.dutyOf c) = now ∧
      l.queue.waiting.filterMap (Job.dutyOf c) = later)
    (hother : s.loopOf c ≠ ℓ → (s.view c).now = now ∧ (s.view c).later = later)
    (hbase : s.config.loop_ = ℓ → l.agenda.count (.removeConnectionInLoop c) = removals)
    (hio : s.config.loop_ ≠ ℓ → (s.view c).removals = removals) :
    (s.setLoop ℓ l).view c = { s.view c with now := now, later := later, removals := removals } := by
  have hcount : (if s.config.loop_ = ℓ then l.agenda.count (.removeConnectionInLoop c)
      else (s.view c).removals) = removals := by
    split
    · exact hbase ‹_›
    · exact hio ‹_›
  rw [view_setLoop, hcount]
  by_cases hc : s.loopOf c = ℓ
  · obtain ⟨rfl, rfl⟩ := hown hc
    simp only [hc, if_true, view, Loop.activeChannels_, hphase, hguard]
  · obtain ⟨rfl, rfl⟩ := hother hc
    simp only [hc, if_false]

section Jobs

variable {job : Job}

omit [DecidableEq L] in
theorem home_of_dutyOf {d : Duty} (h : job.dutyOf c = some d) :
    job.conn = c ∧ s.home job = s.loopOf c := by
  by_cases hj : job.conn = c
  · refine ⟨hj, ?_⟩
    rw [Job.dutyOf, if_pos hj] at h
    cases job <;> first | exact congrArg s.loopOf hj | cases h
  · rw [Job.dutyOf, if_neg hj] at h
    cases h

/-- A duty stands on the agenda of the loop as a job. -/
theorem job_of_duty {d : Duty} (h : d ∈ (s.view c).duties) :
    ∃ job ∈ (s.loops (s.loopOf c)).agenda, job.dutyOf c = some d := by
  have hmem : d ∈ (s.loops (s.loopOf c)).agenda.filterMap (Job.dutyOf c) := by
    rw [Loop.agenda, List.filterMap_append]
    exact h
  exact List.mem_filterMap.mp hmem

omit [DecidableEq L] in
/-- A job on another loop than that of `c` is no duty of `c`. -/
theorem dutyOf_of_ne (hhome : job.conn = c → ℓ = s.home job) (hc : s.loopOf c ≠ ℓ) :
    job.dutyOf c = none := by
  cases hd : job.dutyOf c with
  | none => rfl
  | some d =>
    obtain ⟨hj, hd⟩ := home_of_dutyOf (s := s) hd
    exact absurd (hd.symm.trans (hhome hj).symm) hc

omit [DecidableEq L] in
theorem ne_removal_of_ne (hhome : job.conn = c → ℓ = s.home job) (hb : s.config.loop_ ≠ ℓ) :
    job ≠ .removeConnectionInLoop c := by
  rintro rfl
  exact hb (hhome rfl).symm

/-- A job that is put first is a duty of `c` for now, or a removal. -/
theorem view_callNext (s : TcpServer T L) (hhome : job.conn = c → ℓ = s.home job) :
    (s.callNext ℓ job).view c =
      { s.view c with
        now := (job.dutyOf c).toList ++ (s.view c).now
        removals := (s.view c).removals + if job = .removeConnectionInLoop c then 1 else 0 } := by
  refine s.view_setAgenda rfl rfl (fun hc => ?_) (fun hc => ?_) (fun hb => ?_) (fun hb => ?_)
  · subst hc
    refine ⟨?_, rfl⟩
    rw [List.filterMap_cons]
    cases job.dutyOf c <;> rfl
  · rw [dutyOf_of_ne hhome hc]
    exact ⟨rfl, rfl⟩
  · subst hb
    simp [view, Loop.agenda, List.count_cons]
  · simp [ne_removal_of_ne hhome hb]

/-- A job that is queued is a duty of `c` for later, or a removal. -/
theorem view_queueInLoop (s : TcpServer T L) (hhome : job.conn = c → ℓ = s.home job) :
    (s.queueInLoop ℓ job).view c =
      { s.view c with
        later := (s.view c).later ++ (job.dutyOf c).toList
        removals := (s.view c).removals + if job = .removeConnectionInLoop c then 1 else 0 } := by
  refine s.view_setAgenda rfl rfl (fun hc => ?_) (fun hc => ?_) (fun hb => ?_) (fun hb => ?_)
  · subst hc
    refine ⟨rfl, ?_⟩
    rw [TaskQueue.waiting_push, List.filterMap_append, List.filterMap_cons, List.filterMap_nil]
    cases job.dutyOf c <;> rfl
  · rw [dutyOf_of_ne hhome hc]
    exact ⟨rfl, (List.append_nil _).symm⟩
  · subst hb
    simp [view, Loop.agenda, List.count_singleton, Nat.add_assoc]
  · simp [ne_removal_of_ne hhome hb]

/-- A job that is taken up leaves the agenda and is recorded. -/
theorem view_popJob (s : TcpServer T L) {rest : List Job} (hwork : (s.loops ℓ).work = job :: rest)
    (hhome : job.conn = c → ℓ = s.home job) : ∃ now removals,
    (s.view c).now = (job.dutyOf c).toList ++ now ∧
    (s.view c).removals = removals + (if job = .removeConnectionInLoop c then 1 else 0) ∧
    (s.popJob ℓ job rest).view c = { s.view c with
      now := now
      removals := removals
      destroys := (s.view c).destroys + if job = .connectDestroyed c then 1 else 0
      deregisters := (s.view c).deregisters + if job = .removeChannel c then 1 else 0
      lateRemovals := (s.view c).lateRemovals +
        if job = .removeConnectionInLoop c ∧ s.status ≠ .alive then 1 else 0 } := by
  let s' : TcpServer T L := { s with done := s.done ++ [(job, s.status)] }
  have hs' : s'.view c = { s.view c with
      destroys := (s.view c).destroys + if job = .connectDestroyed c then 1 else 0
      deregisters := (s.view c).deregisters + if job = .removeChannel c then 1 else 0
      lateRemovals := (s.view c).lateRemovals +
        if job = .removeConnectionInLoop c ∧ s.status ≠ .alive then 1 else 0 } := by
    simp [s', view, List.count_singleton, List.countP_append, List.countP_cons]
  let now := if s.loopOf c = ℓ then rest.filterMap (Job.dutyOf c) else (s.view c).now
  let removals := if s.config.loop_ = ℓ then
    (rest ++ (s.loops ℓ).queue.waiting).count (.removeConnectionInLoop c) else (s.view c).removals
  refine ⟨now, removals, ?_, ?_, ?_⟩
  · by_cases hc : s.loopOf c = ℓ
    · simp only [now, if_pos hc]
      subst hc
      rw [view, hwork, List.filterMap_cons]
      cases job.dutyOf c <;> rfl
    · simp only [now, if_neg hc, dutyOf_of_ne hhome hc, Option.toList_none, List.nil_append]
  · by_cases hb : s.config.loop_ = ℓ
    · simp only [removals, if_pos hb]
      subst hb
      simp only [view, Loop.agenda, hwork, List.cons_append, List.count_cons, beq_iff_eq]
    · simp only [removals, if_neg hb, ne_removal_of_ne hhome hb, if_false, Nat.add_zero]
  · have hset : (s'.setLoop ℓ { s.loops ℓ with work := rest }).view c =
        { s'.view c with now := now, later := (s'.view c).later, removals := removals } :=
      s'.view_setAgenda rfl rfl (fun hc => ⟨(if_pos hc).symm, by rw [← hc]; rfl⟩)
        (fun hc => ⟨(if_neg hc).symm, rfl⟩) (fun hb => (if_pos hb).symm)
        fun hb => (if_neg hb).symm
    rw [hs'] at hset
    exact hset

end Jobs

section Methods

variable {c' : ConnId}

theorem filterMap_closing (closing : Bool) :
    (if closing then [Job.closeCallback c'] else []).filterMap (Job.dutyOf c) =
      if c' = c then (if closing then [.finishClose] else []) else [] := by
  by_cases h : c' = c <;> cases closing <;> simp [Job.dutyOf, Job.conn, Job.duty, h]

theorem filterMap_notices (ns : List Notice) :
    (ns.map (Job.notice · c')).filterMap (Job.dutyOf c) =
      if c' = c then ns.map .notice else [] := by
  induction ns with
  | nil => simp
  | cons n ns ih =>
    by_cases h : c' = c <;> simp_all [Job.dutyOf, Job.conn, Job.duty]

/-- A method queues and calls no removal. -/
theorem count_method (closing : Bool) (ns : List Notice) (l : Loop) :
    ((if closing then [Job.closeCallback c'] else []) ++ l.work ++
      (l.queue.waiting ++ ns.map (Job.notice · c'))).count (.removeConnectionInLoop c) =
    (l.work ++ l.queue.waiting).count (.removeConnectionInLoop c) := by
  have hnotices : (ns.map (Job.notice · c')).count (.removeConnectionInLoop c) = 0 := by
    simp [List.count_eq_zero]
  have hclosing : (if closing then [Job.closeCallback c'] else []).count
      (.removeConnectionInLoop c) = 0 := by
    cases closing <;> simp
  simp only [List.count_append, hclosing, hnotices]
  omega

variable (s : TcpServer T L) (f : Site ConnId → Site ConnId)

/-- What a method of `c` does to the view of `c`. -/
theorem view_onConn (h : s.loopOf c = ℓ) :
    let w := f { conn := s.conns c, poller := (s.loops ℓ).poller }
    (s.onConn ℓ c f).view c =
      { s.view c with
        state := w.conn.state_
        registered := w.conn.channel_.index_ != .kNew
        tied := w.conn.channel_.tied_
        heard := w.conn.connectionCallback_
        now := (if w.closing then [.finishClose] else []) ++ (s.view c).now
        later := (s.view c).later ++ w.queued.map .notice
        invoked := s.invoked c ++ w.invoked
        thrown := s.terminated || w.thrown } := by
  intro w
  subst h
  by_cases hb : s.config.loop_ = s.loopOf c
  · simp only [view, onConn, Function.update_apply, hb, if_true, List.filterMap_append,
      filterMap_closing, TaskQueue.waiting_pushAll, filterMap_notices, Loop.agenda, w, count_method]
    rfl
  · simp only [view, onConn, Function.update_apply, hb, if_true, if_false, List.filterMap_append,
      filterMap_closing, TaskQueue.waiting_pushAll, filterMap_notices]
    rfl

/-- A method of another connection can do no more than end the process. -/
theorem view_onConn_of_ne (h : c ≠ c') :
    (s.onConn ℓ c' f).view c = { s.view c with
      thrown := s.terminated || (f { conn := s.conns c', poller := (s.loops ℓ).poller }).thrown } := by
  have hc' : c' ≠ c := h.symm
  by_cases hb : s.config.loop_ = ℓ <;> by_cases hc : s.loopOf c = ℓ <;>
    simp only [view, onConn, Function.update_apply, h, hb, hc, hc', if_true, if_false,
      List.filterMap_append, filterMap_closing, List.nil_append, TaskQueue.waiting_pushAll,
      filterMap_notices, List.append_nil, Loop.agenda, count_method] <;> rfl

end Methods

end TcpServer

end Mymuduo

import Mymuduo.Library.Execution
import Mymuduo.Server.JobSimulation
import Mymuduo.Server.LoopSimulation

/-!
# Every action is a step of each life

Each action of the server is, for each accepted connection, one step of its
life, named by `event`; and the connection that an action accepts begins a new
life.
-/

namespace Mymuduo

open Mymuduo.Library

universe u v

namespace TcpServer

variable {T : Type u} {L : Type v} [DecidableEq L]
variable {s s' : TcpServer T L} {ℓ : L} {c c' : ConnId}

/-! ## The server's own actions -/

section Server

variable [Fintype L] [DecidableEq T]

omit [DecidableEq L] [Fintype L] [DecidableEq T] in
/-- The new name is no other connection's. -/
theorem mem_insert (h : s.Wf) (ioLoop : L) (sockfd : Int) (hc : s.Born c) :
    c ∈ (s.addConnection ioLoop sockfd).connections_.map (·.2) ↔
      c ∈ s.connections_.map (·.2) := by
  rw [h.named.connections_addConnection, List.map_append, List.mem_append]
  exact or_iff_left fun hm => ne_next hc (List.mem_singleton.mp hm)

omit [Fintype L] [DecidableEq T] in
theorem view_newConnection (h : s.Wf) (hc : s.Born c) {ioLoop : L} {sockfd : Int} :
    (s.newConnection ioLoop sockfd).view c = s.view c := by
  have hne := ne_next hc
  have hadd : (s.addConnection ioLoop sockfd).view c = s.view c := by
    simp only [view, mem_insert h ioLoop sockfd hc, addConnection_conns, addConnection_loopOf,
      if_neg hne]
    rfl
  exact (view_runInLoop_of_ne _ _ _ (Ne.symm hne)).trans hadd

omit [Fintype L] [DecidableEq T] in
/-- The connection that is accepted begins a new life. -/
theorem new_newConnection (h : s.Wf) {ioLoop : L} {sockfd : Int} (ha : s.status = .alive) :
    Life.New ((s.newConnection ioLoop sockfd).view s.nextConnId_) := by
  have hfree : ∀ ℓ, ∀ j ∈ (s.loops ℓ).agenda, j.conn ≠ s.nextConnId_ := fun ℓ j hj =>
    ne_next ((h.tidy ℓ).placed j hj).1
  have hduty : ∀ ℓ, ∀ j ∈ (s.loops ℓ).agenda, j.dutyOf s.nextConnId_ = none := fun ℓ j hj =>
    if_neg (hfree ℓ j hj)
  have hconn := s.addConnection_conns ioLoop sockfd s.nextConnId_
  have hloop := s.addConnection_loopOf ioLoop sockfd s.nextConnId_
  rw [if_pos rfl] at hconn hloop
  let v := (s.addConnection ioLoop sockfd).view s.nextConnId_
  have hnow : v.now = [] := List.filterMap_eq_nil_iff.mpr fun j hj =>
    hduty _ j (List.mem_append_left _ hj)
  have hlater : v.later = [] := List.filterMap_eq_nil_iff.mpr fun j hj =>
    hduty _ j (List.mem_append_right _ hj)
  have hremovals : v.removals = 0 := List.count_eq_zero.mpr fun hj => hfree _ _ hj rfl
  have hdone : ∀ job : Job, job.conn = s.nextConnId_ → job ∉ s.done.map (·.1) := fun job hj hm => by
    obtain ⟨x, hx, rfl⟩ := List.mem_map.mp hm
    exact ne_next (h.recorded x hx) hj
  have hactive : v.active = false := decide_eq_false fun hm => ne_next ((h.tidy _).active _ hm).1 rfl
  have hunborn : ¬ s.Born s.nextConnId_ := fun hb => ne_next hb rfl
  have hview : (s.newConnection ioLoop sockfd).view s.nextConnId_ = _ :=
    (s.addConnection ioLoop sockfd).view_runInLoop_duty hloop.symm (if_pos rfl)
  rw [hview]
  refine ⟨?_, ?_, ?_, hactive, ?_, ?_, hremovals, ha, h.unborn _ hunborn, ?_, ?_, ?_⟩
  · exact congrArg TcpConnection.state_ hconn
  · exact congrArg (fun x : TcpConnection => x.channel_.index_ != .kNew) hconn
  · refine decide_eq_true (List.mem_map.mpr ⟨(s.nameOf s.nextConnId_, s.nextConnId_), ?_, rfl⟩)
    exact List.mem_append_right _ List.mem_cons_self
  · simp only [Life.duties]
    show (if _ then _ :: v.now else v.now) ++ (if _ then v.later else v.later ++ _) = _
    rw [hnow, hlater]
    split <;> rfl
  · intro hb
    have hon : s.config.loop_ = ioLoop := (of_decide_eq_true hb).trans hloop
    show (if s.config.loop_ = ioLoop then _ :: v.now else v.now) = _
    rw [if_pos hon, hnow]
  · exact List.count_eq_zero.mpr (hdone _ rfl)
  · exact List.count_eq_zero.mpr (hdone _ rfl)
  · refine List.countP_eq_zero.mpr fun x hx hn => ?_
    simp only [Bool.and_eq_true, beq_iff_eq] at hn
    exact hdone x.1 (congrArg Job.conn hn.1) (List.mem_map_of_mem hx)

theorem sim_destroyItem (h : s.Wf) (hc : s.Born c) {key : List Char}
    (hs : s.act (.destroyItem key c') = some s') : Life.Step .quiet (s.view c) (s'.view c) := by
  obtain ⟨hstatus, hidle, hmem, rfl⟩ := act_destroyItem hs
  have hin : c' ∈ s.connections_.map (·.2) := List.mem_map_of_mem hmem
  have hkey := (h.keys _ hmem).2
  have herase : c ∈ (s.connections_.erase (key, c')).map (·.2) ↔
      c ∈ s.connections_.map (·.2) ∧ c ≠ c' := by
    constructor
    · intro hm
      obtain ⟨e, he, rfl⟩ := List.mem_map.mp hm
      obtain ⟨hne, he⟩ := h.once.mem_erase_iff.mp he
      refine ⟨List.mem_map_of_mem he, fun hcc => hne (Prod.ext ?_ hcc)⟩
      rw [(h.keys e he).2, hcc]
      exact hkey.symm
    · rintro ⟨hm, hne⟩
      obtain ⟨e, he, rfl⟩ := List.mem_map.mp hm
      refine List.mem_map_of_mem (h.once.mem_erase_iff.mpr ⟨?_, he⟩)
      rintro rfl
      exact hne rfl
  have hmap : ({ s with connections_ := s.connections_.erase (key, c') } : TcpServer T L).view c =
      { s.view c with mapped := (s.view c).mapped && decide (c ≠ c') } := by
    simp only [view, herase, Bool.decide_and]
  by_cases hcc : c' = c
  · subst hcc
    have hmapped : (s.view c').mapped = true := decide_eq_true hin
    have hview : (({ s with connections_ := s.connections_.erase (key, c') } :
        TcpServer T L).runInLoop s.config.loop_ (s.loopOf c') (.connectDestroyed c')).view c' = _ :=
      view_runInLoop_duty _ rfl (if_pos rfl)
    have hgone : ((s.view c').mapped && decide (c' ≠ c')) = false := by simp
    rw [hview, hmap, hgone]
    have hnow : (s.view c').onBase = true → (s.view c').now = [] := fun hb =>
      now_of_idle (of_decide_eq_true hb ▸ hidle)
    have hstep := Life.Step.destroyItem hstatus hmapped hnow
    by_cases hb : s.config.loop_ = s.loopOf c'
    · have hbase : (s.view c').onBase = true := decide_eq_true hb
      rw [if_pos hbase, if_pos hbase] at hstep
      rw [if_pos hb, if_pos hb, hnow hbase]
      exact hstep
    · have hio : ¬ (s.view c').onBase = true := fun hbase => hb (of_decide_eq_true hbase)
      rw [if_neg hio, if_neg hio] at hstep
      rw [if_neg hb, if_neg hb]
      exact hstep
  · rw [decide_eq_true (Ne.symm hcc), Bool.and_true] at hmap
    have hview : (({ s with connections_ := s.connections_.erase (key, c') } :
        TcpServer T L).runInLoop s.config.loop_ (s.loopOf c') (.connectDestroyed c')).view c = _ :=
      view_runInLoop_of_ne _ _ _ hcc
    exact hview.trans hmap ▸ .stay

end Server

/-! ## The simulation -/

section Act

variable [Fintype L] [DecidableEq T] {a : Action T L}

/-- What only `newConnection` changes. -/
structure SameConns (s s' : TcpServer T L) : Prop where
  nextConnId_ : s'.nextConnId_ = s.nextConnId_
  loopOf : s'.loopOf = s.loopOf
  config : s'.config = s.config

omit [Fintype L] [DecidableEq T] in
theorem sameConns_runInLoop (s : TcpServer T L) (ℓ ℓ' : L) (job : Job) :
    SameConns s (s.runInLoop ℓ ℓ' job) := by
  unfold runInLoop
  split <;> exact ⟨rfl, rfl, rfl⟩

omit [Fintype L] [DecidableEq T] in
theorem sameConns_runJob (s : TcpServer T L) (ℓ : L) (read : ReadvResult) (write : WriteResult)
    (job : Job) : SameConns s (s.runJob ℓ read write job) := by
  cases job
  case closeCallback c => exact sameConns_runInLoop _ _ _ _
  all_goals exact ⟨rfl, rfl, rfl⟩

theorem sameConns_act (hs : s.act a = some s') (ha : ∀ ioLoop sockfd, a ≠ .newConnection ioLoop sockfd) :
    SameConns s s' := by
  cases a with
  | newConnection ioLoop sockfd => exact absurd rfl (ha ioLoop sockfd)
  | dispatch ℓ =>
    obtain ⟨c, rest, -, -, ⟨-, rfl⟩ | ⟨-, rfl⟩⟩ := dispatch_cases hs
    · exact ⟨rfl, rfl, rfl⟩
    · exact ⟨rfl, rfl, rfl⟩
  | run ℓ read write =>
    obtain ⟨job, rest, -, rfl⟩ := act_run hs
    obtain ⟨hid, hloop, hconfig⟩ := sameConns_runJob (s.popJob ℓ job rest) ℓ read write job
    exact ⟨hid, hloop, hconfig⟩
  | start ℓ =>
    obtain ⟨-, -, _, _, -, rfl⟩ := act_start hs
    exact ⟨rfl, rfl, rfl⟩
  | destroyItem key c =>
    obtain ⟨-, -, -, rfl⟩ := act_destroyItem hs
    obtain ⟨hid, hloop, hconfig⟩ := sameConns_runInLoop
      { s with connections_ := s.connections_.erase (key, c) } s.config.loop_ (s.loopOf c)
      (.connectDestroyed c)
    exact ⟨hid, hloop, hconfig⟩
  | send | shutdown | setHighWaterMarkCallback =>
    obtain ⟨-, -, rfl⟩ := userCall_eq hs
    exact ⟨rfl, rfl, rfl⟩
  | drop c =>
    obtain rfl := act_drop hs
    exact ⟨rfl, rfl, rfl⟩
  | testSend t c data =>
    obtain ⟨-, rfl | rfl⟩ := act_testSend hs <;> exact ⟨rfl, rfl, rfl⟩
  | enqueueSend t =>
    obtain ⟨_, _, -, rfl⟩ := act_enqueueSend hs
    exact ⟨rfl, rfl, rfl⟩
  | testShutdown t c =>
    obtain ⟨-, rfl | rfl⟩ := act_testShutdown hs <;> exact ⟨rfl, rfl, rfl⟩
  | storeDisconnecting t =>
    obtain ⟨_, -, rfl⟩ := act_storeDisconnecting hs
    exact ⟨rfl, rfl, rfl⟩
  | enqueueShutdown t =>
    obtain ⟨_, -, rfl⟩ := act_enqueueShutdown hs
    exact ⟨rfl, rfl, rfl⟩
  | _ =>
    simp only [act, Option.ite_none_right_eq_some, Option.some.injEq] at hs
    obtain ⟨-, rfl⟩ := hs
    exact ⟨rfl, rfl, rfl⟩

/-- One action is one step in the life of every accepted connection. -/
theorem sim_act (h : s.Wf) (ht : s.terminated = false) (ha : a.own = true)
    (hs : s.act a = some s') (hc : s.Born c) :
    Life.Step (s.event a c) (s.view c) (s'.view c) := by
  cases a with
  | poll => exact sim_poll h hs
  | dispatch => exact sim_dispatch h hs
  | release => exact sim_release hs
  | swap => exact sim_swap h hs
  | start => exact sim_start hs
  | finish => exact sim_finish hs
  | run => exact sim_run h ht hc hs
  | newConnection ioLoop sockfd =>
    obtain ⟨-, -, -, rfl⟩ := act_newConnection hs
    rw [view_newConnection h hc]
    exact .stay
  | destroy =>
    simp only [act, Option.ite_none_right_eq_some, Option.some.injEq] at hs
    obtain ⟨⟨halive, -⟩, rfl⟩ := hs
    exact .destroy halive
  | destroyItem => exact sim_destroyItem h hc hs
  | destroyEnd =>
    simp only [act, Option.ite_none_right_eq_some, Option.some.injEq] at hs
    obtain ⟨⟨hstatus, -⟩, rfl⟩ := hs
    exact .destroyEnd hstatus
  | send => exact sim_send ht hs
  | shutdown => exact sim_shutdown ht hs
  | setHighWaterMarkCallback => exact sim_setHighWaterMarkCallback ht hs
  | keep c' =>
    obtain ⟨-, rfl⟩ := act_keep hs
    exact .stay
  | drop c' =>
    obtain rfl := act_drop hs
    exact .stay
  | testSend | enqueueSend | testShutdown | storeDisconnecting | enqueueShutdown => cases ha

/-- Only `newConnection` accepts a connection, on a descriptor that is free. -/
theorem newborn (h : s.Wf) (hs : s.act a = some s') (hc : s'.Born c) (hn : ¬ s.Born c) :
    ∃ ioLoop sockfd, s' = s.newConnection ioLoop sockfd ∧ c = s.nextConnId_ ∧
      s.status = .alive ∧ s.freeFd sockfd = true := by
  by_cases ha : ∀ ioLoop sockfd, a ≠ .newConnection ioLoop sockfd
  · have hsame := (sameConns_act hs ha).nextConnId_
    unfold Born at hc
    rw [hsame] at hc
    exact absurd hc hn
  · simp only [not_forall, not_not] at ha
    obtain ⟨ioLoop, sockfd, rfl⟩ := ha
    obtain ⟨halive, -, hfree, rfl⟩ := act_newConnection hs
    have hborn : (s.addConnection ioLoop sockfd).Born c := by
      unfold Born at hc
      rw [newConnection, (sameConns_runInLoop _ _ _ _).nextConnId_] at hc
      exact hc
    have hnext := ((born_addConnection h.named ioLoop sockfd c).mp hborn).resolve_left hn
    exact ⟨ioLoop, sockfd, rfl, hnext, halive, hfree⟩

/-- A connection that was not there before the action begins a new life. -/
theorem new_act (h : s.Wf) (hs : s.act a = some s') (hc : s'.Born c) (hn : ¬ s.Born c) :
    Life.New (s'.view c) := by
  obtain ⟨ioLoop, sockfd, rfl, rfl, halive, -⟩ := newborn h hs hc hn
  exact new_newConnection h halive

theorem step_eq (hs : s.step a = some s') :
    s.terminated = false ∧ s.dangling = false ∧ s.act a = some s' := by
  simp only [step, Option.ite_none_left_eq_some, Bool.or_eq_true, not_or, Bool.not_eq_true] at hs
  exact ⟨hs.1.1, hs.1.2, hs.2⟩

/-- What is asked of all accepted connections can be checked. -/
instance decidableForallBorn (s : TcpServer T L) (P : Nat → Prop) [DecidablePred P] :
    Decidable (∀ c, s.Born c → P c) :=
  decidable_of_iff (∀ c < s.nextConnId_, 1 ≤ c → P c)
    ⟨fun h c hc => h c hc.2 hc.1, fun h c hlt hle => h c ⟨hle, hlt⟩⟩

/-- A server with one io loop besides the base loop. -/
def pair : TcpServer Unit Bool :=
  fresh { loop_ := false, listenAddr := ⟨(127, 0, 0, 1), 8000⟩, name_ := ['s'],
          connectionCallback_ := true, messageCallback_ := true, writeCompleteCallback_ := false }

/-- The rule for lives: what a new life has and every fitting step keeps, every
accepted connection has in every state of a fitting run. -/
theorem lives {P : Life → Prop} {fit : Event → Life → Prop}
    {ok : TcpServer T L → Action T L → Prop}
    (hok : ∀ s a, ok s a → a.own = true ∧ ∀ c, s.Born c → fit (s.event a c) (s.view c))
    (hnew : ∀ l, Life.New l → P l)
    (hstep : ∀ e l l', l.thrown = false → P l → fit e l → Life.Step e l l' → P l')
    {config : Config L} {as : List (Action T L)} (hg : Execution.Guarded step ok (fresh config) as)
    (hr : Execution.exec step (fresh config) as = some s) :
    s.Wf ∧ ∀ c, s.Born c → P (s.view c) := by
  have hfresh : (fresh config : TcpServer T L).Wf ∧
      ∀ c, (fresh config : TcpServer T L).Born c → P ((fresh config : TcpServer T L).view c) :=
    ⟨wf_fresh config, fun c hc => absurd hc.2 (Nat.not_lt.mpr hc.1)⟩
  refine Execution.exec_invariant (fun s => s.Wf ∧ ∀ c, s.Born c → P (s.view c)) ?_ hfresh hg hr
  rintro s a s' ⟨hwf, hP⟩ hguard hs
  obtain ⟨hown, hfit⟩ := hok s a hguard
  obtain ⟨hterm, -, hact⟩ := step_eq hs
  refine ⟨hwf.act hown hact, fun c hc => ?_⟩
  by_cases hb : s.Born c
  · exact hstep _ _ _ hterm (hP c hb) (hfit c hb) (sim_act hwf hterm hown hact hb)
  · exact hnew _ (new_act hwf hact hc hb)

end Act

end TcpServer

end Mymuduo

import Mymuduo.Server.Simulation

/-!
# Removal of a connection

`TcpConnection.h` asks that `connectDestroyed` be called only once. It is posted
by `removeConnectionInLoop` and by `~TcpServer`. A token counts the ways in
which a connection is on its way to `connectDestroyed`: there is at most one as
long as `handleClose` closes an open connection of a living server, and
`~TcpServer` begins while no removal is on its way.
-/

namespace Mymuduo

open Mymuduo.Library

universe u v

namespace Life

/-- On the way to `connectDestroyed`, or past it. -/
def tokens (l : Life) : Nat :=
  l.duties.count .destroy + l.duties.count .finishClose + l.removals + l.destroys

/-- What a step must keep to. -/
structure Careful (e : Event) (l : Life) : Prop where
  close : e = .close → l.state ≠ .kDisconnected ∧ l.status = .alive
  destroy : e = .destroy → l.removals = 0 ∧ .finishClose ∉ l.duties

structure Removal (l : Life) : Prop where
  order : Begun l
  tokens : l.tokens ≤ 1
  closed : l.status = .alive → 0 < l.tokens → l.state = .kDisconnected
  settled : l.status ≠ .alive → l.removals = 0 ∧ l.duties.count .finishClose = 0
  mapped : l.mapped = true → l.duties.count .destroy = 0 ∧ l.destroys = 0
  late : l.lateRemovals = 0

variable {e : Event} {l l' : Life}

theorem Removal.of_new (h : New l) : Removal l := by
  have htokens : l.tokens = 0 := by
    simp [Life.tokens, h.duties, h.removals, h.destroys]
  exact ⟨.of_new h, by omega, fun _ ht => by omega, fun hs => absurd h.status hs,
    fun _ => ⟨by simp [h.duties], h.destroys⟩, h.lateRemovals⟩

/-- A step that passes tokens on. -/
theorem Removal.of_tokens (h : Removal l) (horder : Begun l') (htokens : l'.tokens = l.tokens)
    (hstate : l.state = .kDisconnected → l'.state = .kDisconnected)
    (hstatus : l'.status = l.status)
    (hsettled : l.status ≠ .alive → l'.removals = 0 ∧ l'.duties.count .finishClose = 0)
    (hmapped : l'.mapped = true → l'.duties.count .destroy = 0 ∧ l'.destroys = 0)
    (hlate : l'.lateRemovals = l.lateRemovals) : Removal l' :=
  ⟨horder, htokens ▸ h.tokens, fun hs ht => hstate (h.closed (hstatus ▸ hs) (htokens ▸ ht)),
    fun hs => hsettled (hstatus ▸ hs), hmapped, hlate.trans h.late⟩

/-- A step that moves no token. -/
theorem Removal.of_same (h : Removal l) (horder : Begun l') (hstate : l.state = .kDisconnected →
    l'.state = .kDisconnected) (hstatus : l'.status = l.status) (hmapped : l'.mapped = l.mapped)
    (hdestroy : l'.duties.count .destroy = l.duties.count .destroy)
    (hclose : l'.duties.count .finishClose = l.duties.count .finishClose)
    (hremovals : l'.removals = l.removals) (hdestroys : l'.destroys = l.destroys)
    (hlate : l'.lateRemovals = l.lateRemovals) : Removal l' := by
  refine h.of_tokens horder ?_ hstate hstatus (fun hs => ?_) (fun hm => ?_) hlate
  · rw [Life.tokens, Life.tokens, hdestroy, hclose, hremovals, hdestroys]
  · rw [hremovals, hclose]
    exact h.settled hs
  · rw [hdestroy, hdestroys]
    exact h.mapped (hmapped ▸ hm)

/-- `connectDestroyed` is entered: its token is spent. -/
theorem Removal.of_leave (h : Removal l) {rest : List Duty} (hn : l.now = .destroy :: rest)
    (horder : Begun l') (hstate : l.state = .kDisconnected → l'.state = .kDisconnected)
    (hstatus : l'.status = l.status) (hmapped : l'.mapped = l.mapped)
    (hduties : l'.duties = .deregister :: rest ++ l.later) (hremovals : l'.removals = l.removals)
    (hdestroys : l'.destroys = l.destroys + 1) (hlate : l'.lateRemovals = l.lateRemovals) :
    Removal l' := by
  have hdestroy : l.duties.count .destroy = l'.duties.count .destroy + 1 := by
    rw [hduties, Life.duties, hn]
    simp
  have hclose : l'.duties.count .finishClose = l.duties.count .finishClose := by
    rw [hduties, Life.duties, hn]
    simp
  refine h.of_tokens horder ?_ hstate hstatus (fun hs => ?_) (fun hm => ?_) hlate
  · simp only [Life.tokens]
    omega
  · rw [hremovals, hclose]
    exact h.settled hs
  · have hnone := (h.mapped (hmapped ▸ hm)).1
    omega

theorem Removal.step (h : Removal l) (hc : Careful e l) (hs : Step e l l') : Removal l' := by
  have horder := h.order.step hs
  cases hs with
  | stay => exact h
  | terminate | poll | dangle | release | swap | finish =>
    exact h.of_same horder id rfl rfl rfl rfl rfl rfl rfl
  | destroy ha =>
    obtain ⟨hremovals, hclose⟩ := hc.destroy rfl
    exact ⟨horder, h.tokens, by simp, fun _ => ⟨hremovals, List.count_eq_zero.mpr hclose⟩, h.mapped,
      h.late⟩
  | destroyEnd hd =>
    exact ⟨horder, h.tokens, by simp, fun _ => h.settled (by rw [hd]; decide), h.mapped, h.late⟩
  | dispatch cbs ha hcall hn =>
    refine h.of_same horder id rfl rfl ?_ ?_ rfl rfl rfl <;>
      simp [Life.duties, hn, List.count_eq_zero]
  | start hcall hn hl =>
    refine h.of_same horder id rfl rfl ?_ ?_ rfl rfl rfl <;> simp [Life.duties, hn, hl]
  | establish hn =>
    refine h.of_same horder (fun hd => ?_) rfl rfl ?_ ?_ rfl rfl rfl
    · exact absurd (List.mem_append_left _ (hn ▸ List.mem_cons_self))
        (h.order.begun (by rw [hd]; decide))
    · simp [Life.duties, hn]
    · simp [Life.duties, hn]
  | leave hn hst => exact h.of_leave hn horder (fun _ => rfl) rfl rfl rfl rfl rfl rfl
  | leaveSilently hn hst => exact h.of_leave hn horder id rfl rfl rfl rfl rfl rfl
  | deregister hn =>
    refine h.of_same horder id rfl rfl ?_ ?_ rfl rfl rfl <;> simp [Life.duties, hn]
  | @close _ cb rest hn =>
    obtain ⟨hopen, halive⟩ := hc.close rfl
    have hnone : ¬ 0 < l.tokens := fun ht => hopen (h.closed halive ht)
    have hdestroy : (Duty.finishClose :: rest ++ l.later).count .destroy =
        l.duties.count .destroy := by simp [Life.duties, hn]
    have hclose : (Duty.finishClose :: rest ++ l.later).count .finishClose =
        l.duties.count .finishClose + 1 := by
      simp [Life.duties, hn]
    refine ⟨horder, ?_, fun _ _ => rfl, fun hs => absurd halive hs, fun hm => ?_, h.late⟩
    · simp only [Life.tokens] at hnone ⊢
      show (Duty.finishClose :: rest ++ l.later).count .destroy +
        (Duty.finishClose :: rest ++ l.later).count .finishClose + _ + _ ≤ 1
      omega
    · exact hdestroy ▸ h.mapped hm
  | deliver told hn =>
    refine h.of_same horder id rfl rfl ?_ ?_ rfl rfl rfl <;> simp [Life.duties, hn]
  | handle registered notices hn hr =>
    refine h.of_same horder id rfl rfl ?_ ?_ rfl rfl rfl <;>
      simp [Life.duties, hn, List.count_eq_zero]
  | @finishClose _ rest hn =>
    have hdestroy : (rest ++ l.later).count .destroy = l.duties.count .destroy := by
      simp [Life.duties, hn]
    have hclose : l.duties.count .finishClose = (rest ++ l.later).count .finishClose + 1 := by
      simp [Life.duties, hn]
    refine h.of_tokens horder ?_ id rfl (fun hs => ?_) (fun hm => hdestroy ▸ h.mapped hm) rfl
    · simp only [Life.tokens]
      show (rest ++ l.later).count .destroy + (rest ++ l.later).count .finishClose + _ + _ = _
      omega
    · have hnone := (h.settled hs).2
      omega
  | notice hn =>
    refine h.of_same horder id rfl rfl ?_ ?_ rfl rfl rfl <;> simp [Life.duties, hn]
  | @remove _ n hn =>
    have halive : l.status = .alive := by
      by_contra hs
      have hnone := (h.settled hs).1
      omega
    have hdestroy : (l.now ++ (l.later ++ [Duty.destroy])).count .destroy =
        l.duties.count .destroy + 1 := by simp [Life.duties, Nat.add_assoc]
    have hclose : (l.now ++ (l.later ++ [Duty.destroy])).count .finishClose =
        l.duties.count .finishClose := by simp [Life.duties]
    refine h.of_tokens horder ?_ id rfl (fun hs => absurd halive hs) (by simp) ?_
    · simp only [Life.tokens]
      show (l.now ++ (l.later ++ [Duty.destroy])).count .destroy +
        (l.now ++ (l.later ++ [Duty.destroy])).count .finishClose + _ + _ = _
      omega
    · simp [halive]
  | destroyItem hst hm hn =>
    have hgone : l.status ≠ .alive := by rw [hst]; decide
    obtain ⟨hremovals, hclose⟩ := h.settled hgone
    obtain ⟨hdestroy, hdestroys⟩ := h.mapped hm
    simp only [Life.duties, List.count_append] at hclose hdestroy
    refine ⟨horder, ?_, fun hs => absurd hs hgone, fun _ => ⟨hremovals, ?_⟩, by simp, h.late⟩
    · simp only [Life.tokens, Life.duties, List.count_append]
      cases l.onBase <;> simp <;> omega
    · simp only [Life.duties, List.count_append]
      cases l.onBase <;> simp <;> omega
  | user state registered notices hst hst' hr =>
    refine h.of_same horder (fun hd => ?_) rfl rfl ?_ ?_ rfl rfl rfl
    · rw [hst] at hd
      cases hd
    · simp [Life.duties, List.count_eq_zero]
    · simp [Life.duties, List.count_eq_zero]

end Life

namespace TcpServer

variable {T : Type u} {L : Type v} [Fintype L] [DecidableEq T] [DecidableEq L]

/-- `handleClose` is run on open connections of a living server only, and
`~TcpServer` begins while no removal is queued or about to be. -/
def Careful (s : TcpServer T L) (a : Action T L) : Prop :=
  a.own = true ∧ ∀ c, s.Born c →
    (s.event a c = .close → (s.conns c).state_ ≠ .kDisconnected ∧ s.status = .alive) ∧
    (s.event a c = .destroy → .removeConnectionInLoop c ∉ (s.loops s.config.loop_).agenda ∧
      .closeCallback c ∉ (s.loops (s.loopOf c)).agenda)

instance (s : TcpServer T L) (a : Action T L) : Decidable (s.Careful a) :=
  inferInstanceAs (Decidable (_ ∧ _))

omit [Fintype L] [DecidableEq T] in
theorem mem_agenda_of_finishClose {s : TcpServer T L} {c : ConnId}
    (h : .finishClose ∈ (s.view c).duties) :
    .closeCallback c ∈ (s.loops (s.loopOf c)).agenda := by
  obtain ⟨job, hjob, hd⟩ := job_of_duty h
  obtain ⟨hconn, -⟩ := home_of_dutyOf (s := s) hd
  rw [Job.dutyOf, if_pos hconn] at hd
  cases job <;> cases hd
  cases hconn
  exact hjob

/-- In a run whose steps are all careful `connectDestroyed` is entered at most
once for every connection, and no removal is executed after `~TcpServer` has
begun. -/
theorem removed_once (config : Config L) (as : List (Action T L)) {s : TcpServer T L}
    (hg : Execution.Guarded step Careful (fresh config) as)
    (hr : Execution.exec step (fresh config) as = some s) (c : ConnId) (hc : s.Born c) :
    (s.done.map (·.1)).count (.connectDestroyed c) ≤ 1 ∧
    ∀ x ∈ s.done, x.1 = .removeConnectionInLoop c → x.2 = .alive := by
  have hfit : ∀ (s : TcpServer T L) a, s.Careful a →
      a.own = true ∧ ∀ c, s.Born c → Life.Careful (s.event a c) (s.view c) := fun s a ho =>
    ⟨ho.1, fun c hc => ⟨(ho.2 c hc).1, fun he =>
      ⟨List.count_eq_zero.mpr ((ho.2 c hc).2 he).1, fun hm =>
        ((ho.2 c hc).2 he).2 (mem_agenda_of_finishClose hm)⟩⟩⟩
  obtain ⟨-, hlives⟩ := lives hfit (fun _ => Life.Removal.of_new)
    (fun _ _ _ _ h hc hs => h.step hc hs) hg hr
  have h := hlives c hc
  refine ⟨?_, fun x hx hj => ?_⟩
  · have htokens := h.tokens
    have hdestroys : (s.view c).destroys ≤ (s.view c).tokens := Nat.le_add_left _ _
    exact Nat.le_trans hdestroys htokens
  · by_contra hlate
    have hnone := List.countP_eq_zero.mp h.late x hx
    simp [hj, hlate] at hnone

/-- A connection closes and is removed; then the server is destroyed. -/
theorem removed_once_close :
    let as : List (Action Unit Bool) := [.poll false [], .newConnection true 7,
      .poll true [], .swap true, .start true, .run true (.delivered []) (.took 0), .finish true,
      .poll true [(1, POLLIN)], .dispatch true, .run true (.delivered []) (.took 0),
      .run true (.delivered []) (.took 0), .release true, .swap true, .finish true,
      .swap false, .start false, .run false (.delivered []) (.took 0), .finish false,
      .destroy, .destroyEnd, .poll true [], .swap true, .start true,
      .run true (.delivered []) (.took 0), .run true (.delivered []) (.took 0)]
    ∃ s, Execution.exec step pair as = some s ∧
      (s.done.map (·.1)).count (.connectDestroyed 1) ≤ 1 := by
  intro as
  have hborn : (Execution.exec step pair as).map (fun s => decide (s.Born 1)) = some true := by
    decide +kernel
  obtain ⟨s, hs, hb⟩ := Option.map_eq_some_iff.mp hborn
  exact ⟨s, hs, (removed_once _ as (by decide +kernel) hs 1 (of_decide_eq_true hb)).1⟩

/-- `~TcpServer` begins while a removal waits in the base loop's queue: the
removal is executed afterwards, on a server that is gone. An event word with
`POLLHUP` and `POLLPRI` has `connectDestroyed` entered twice, without
`~TcpServer`. -/
theorem removed_once_fails :
    let run (ℓ : Bool) : Action Unit Bool := .run ℓ (.delivered []) (.took 0)
    let up : List (Action Unit Bool) := [.poll false [], .newConnection true 7, .swap false,
      .finish false, .poll true [], .swap true, .start true, run true, .finish true]
    let late := up ++ [.poll true [(1, POLLHUP)], .dispatch true, run true, run true,
      .release true, .swap true, .finish true, .destroy, .destroyItem (pair.nameOf 1) 1,
      .destroyEnd, .poll false [], .swap false, .start false, run false]
    let hangup := up ++ [.poll true [(1, POLLHUP ||| POLLPRI)], .dispatch true, run true,
      run true, run true, run true, .release true, .swap true, .finish true,
      .poll false [], .swap false, .start false, run false, .start false, run false,
      .poll true [], .swap true, .start true, run true, run true, .start true, run true]
    (∀ a ∈ late ++ hangup, a.own = true) ∧
    (Execution.exec step pair late).map (fun s =>
      s.done.contains (.removeConnectionInLoop 1, .destroyed)) = some true ∧
    (Execution.exec step pair hangup).map (fun s =>
      (s.done.map (·.1)).count (.connectDestroyed 1)) = some 2 := by
  decide +kernel

end TcpServer

end Mymuduo

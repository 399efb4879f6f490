import Mymuduo.Server.Wellformed

/-!
# A loop's own actions

Polling, handing out the reported channels and the batches of functors are, for
each connection, one step of its life.
-/

namespace Mymuduo

open Mymuduo.Library

universe u v

/-- What is left of a loop that has taken the next channel. -/
def Loop.next (l : Loop) (rest : List ConnId) : Loop := { l with phase := .handling rest }

/-- A loop that handles the next channel, with its guard and its callbacks. -/
def Loop.handling (l : Loop) (rest : List ConnId) (c : ConnId) (channel : Channel) : Loop :=
  { l with
    phase := .handling rest
    guard := if channel.tied_ then some c else none
    work := channel.handleEventWithGuard.map (Job.handle · c) }

namespace TcpServer

variable {T : Type u} {L : Type v} [DecidableEq L]
variable {s s' : TcpServer T L} {ℓ : L} {c c' : ConnId}

/-- When a loop's agenda is as it was. -/
theorem view_setPhase (s : TcpServer T L) (l : Loop) (c : ConnId)
    (hwork : l.work = (s.loops ℓ).work) (hwait : l.queue.waiting = (s.loops ℓ).queue.waiting) :
    (s.setLoop ℓ l).view c =
      if s.loopOf c = ℓ then
        { s.view c with
          active := decide (c ∈ l.activeChannels_)
          guarded := decide (l.guard = some c)
          calling := decide (l.phase = .calling) }
      else s.view c := by
  have hremovals : (if s.config.loop_ = ℓ then l.agenda.count (.removeConnectionInLoop c)
      else (s.view c).removals) = (s.view c).removals := by
    split
    · rename_i hb
      subst hb
      rw [Loop.agenda, hwork, hwait]
      rfl
    · rfl
  rw [view_setLoop, hremovals]
  by_cases hc : s.loopOf c = ℓ
  · subst hc
    simp only [if_true, hwork, hwait]
    rfl
  · simp only [if_neg hc]

theorem view_setRevents (s : TcpServer T L) (reports : List (ConnId × Events)) (c : ConnId) :
    ({ s with conns := setRevents reports s.conns } : TcpServer T L).view c = s.view c := by
  obtain ⟨v, hv⟩ := setRevents_eq reports s.conns c
  simp only [view, hv]

/-- A loop with the same owners does not change a count. -/
theorem useCount_setLoop [Fintype L] {l : Loop} (h : l.owners = (s.loops ℓ).owners) :
    (s.setLoop ℓ l).useCount c = s.useCount c := by
  have howners : ∀ ℓ', ((s.setLoop ℓ l).loops ℓ').owners = (s.loops ℓ').owners := fun ℓ' => by
    simp only [setLoop, Function.update_apply]
    split
    · rename_i he
      rw [he, h]
    · rfl
  simp only [useCount, howners]
  rfl

theorem now_of_idle (h : (s.loops (s.loopOf c)).idle = true) : (s.view c).now = [] := by
  simp only [view, (Loop.idle_iff.mp h).1, List.filterMap_nil]

section Loops

variable [Fintype L] [DecidableEq T]

theorem sim_poll (h : s.Wf) {reports : List (ConnId × Events)}
    (hs : s.act (.poll ℓ reports) = some s') : Life.Step .quiet (s.view c) (s'.view c) := by
  obtain ⟨hphase, hidle, -, hreports, hs⟩ := act_poll hs
  let l : Loop := { s.loops ℓ with phase := .handling (reports.map (·.1)) }
  have hview : s'.view c = (s.setLoop ℓ l).view c := hs ▸ view_setRevents (s.setLoop ℓ l) reports c
  rw [hview, view_setPhase s l c rfl rfl]
  split
  · rename_i hc
    subst hc
    have hcalling : decide (l.phase = .calling) = (s.view c).calling := by simp [l, view, hphase]
    have hreported : decide (c ∈ reports.map (·.1)) = true → (s.view c).registered = true := by
      intro hr
      obtain ⟨x, hx, hxc⟩ := List.mem_map.mp (of_decide_eq_true hr)
      subst hxc
      have hw : ((s.loops (s.loopOf x.1)).poller.epoll (s.conns x.1).channel_.fd_).map (·.1) =
          some x.1 := by
        simpa [watched] using hreports x hx
      obtain ⟨⟨c, ev⟩, he, rfl⟩ := Option.map_eq_some_iff.mp hw
      have hadded := ((h.tidy _).watch _ _ _ he).2.2.2
      simp only [view, hadded]
      rfl
    rw [hcalling]
    exact .poll _ hreported hcalling.symm (now_of_idle hidle)
  · exact .stay

omit [Fintype L] [DecidableEq T] in
theorem setLoop_setLoop (s : TcpServer T L) (l l' : Loop) :
    (s.setLoop ℓ l).setLoop ℓ l' = s.setLoop ℓ l' := by
  simp only [setLoop, Function.update_idem]

omit [DecidableEq L] [Fintype L] [DecidableEq T] in
theorem filterMap_handle (cbs : List ChannelCallback) :
    (cbs.map (Job.handle · c')).filterMap (Job.dutyOf c) =
      if c' = c then cbs.map .callback else [] := by
  induction cbs with
  | nil => simp
  | cons cb cbs ih => by_cases h : c' = c <;> simp_all [Job.dutyOf, Job.conn, Job.duty]

/-- Either the channel is dead, or its callbacks are lined up. -/
theorem dispatch_cases (hs : s.act (.dispatch ℓ) = some s') : ∃ c rest,
    (s.loops ℓ).phase = .handling (c :: rest) ∧ (s.loops ℓ).idle = true ∧
    ((s.useCount c = 0 ∧ s' = { s.setLoop ℓ ((s.loops ℓ).next rest) with dangling := true }) ∨
     (s.useCount c ≠ 0 ∧
      s' = s.setLoop ℓ ((s.loops ℓ).handling rest c (s.conns c).channel_))) := by
  obtain ⟨c, rest, hphase, hidle, rfl⟩ := act_dispatch hs
  refine ⟨c, rest, hphase, hidle, ?_⟩
  have hcount : (s.setLoop ℓ ((s.loops ℓ).next rest)).useCount c = s.useCount c :=
    useCount_setLoop rfl
  rw [← hcount]
  by_cases hu : (s.setLoop ℓ ((s.loops ℓ).next rest)).useCount c = 0
  · exact .inl ⟨hu, if_pos hu⟩
  · refine .inr ⟨hu, (if_neg hu).trans ?_⟩
    rw [setLoop_setLoop]
    simp only [setLoop, Function.update_self]
    rfl

section Dispatch

omit [Fintype L] [DecidableEq T]

variable {rest : List ConnId}

/-- What a connection of the loop sees before the first channel is taken. -/
theorem view_of_handling (hphase : (s.loops ℓ).phase = .handling (c' :: rest))
    (hc : s.loopOf c = ℓ) :
    (s.view c).active = decide (c = c' ∨ c ∈ rest) ∧ (s.view c).calling = false := by
  subst hc
  simp [view, Loop.activeChannels_, hphase]

/-- A channel that is not the first stays where it is. -/
theorem active_of_ne (hphase : (s.loops ℓ).phase = .handling (c' :: rest)) (hc : s.loopOf c = ℓ)
    (hne : c ≠ c') : decide (c ∈ rest) = (s.view c).active := by
  rw [(view_of_handling hphase hc).1]
  simp [hne]

theorem view_next (hphase : (s.loops ℓ).phase = .handling (c' :: rest)) (c : ConnId) :
    ({ s.setLoop ℓ ((s.loops ℓ).next rest) with dangling := true } : TcpServer T L).view c =
      if s.loopOf c = ℓ then { s.view c with active := decide (c ∈ rest) } else s.view c := by
  refine (view_setPhase s ((s.loops ℓ).next rest) c rfl rfl).trans ?_
  split
  · rename_i hc
    have hcalling : decide (((s.loops ℓ).next rest).phase = .calling) = (s.view c).calling :=
      (view_of_handling hphase hc).2.symm
    rw [hcalling]
    subst hc
    rfl
  · rfl

theorem view_handling (hphase : (s.loops ℓ).phase = .handling (c' :: rest))
    (hwork : (s.loops ℓ).work = []) (channel : Channel) (c : ConnId) :
    (s.setLoop ℓ ((s.loops ℓ).handling rest c' channel)).view c =
      if s.loopOf c = ℓ then
        { s.view c with
          active := decide (c ∈ rest)
          guarded := decide ((if channel.tied_ then some c' else none) = some c)
          now := if c' = c then channel.handleEventWithGuard.map .callback else [] }
      else s.view c := by
  let l := (s.loops ℓ).handling rest c' channel
  have hremovals : (if s.config.loop_ = ℓ then l.agenda.count (.removeConnectionInLoop c)
      else (s.view c).removals) = (s.view c).removals := by
    split
    · rename_i hb
      simp [view, hb, l, Loop.handling, Loop.agenda, hwork, List.count_eq_zero]
    · rfl
  rw [view_setLoop, hremovals, ← filterMap_handle channel.handleEventWithGuard]
  by_cases hc : s.loopOf c = ℓ
  · have hcalling : decide (l.phase = .calling) = (s.view c).calling :=
      (view_of_handling hphase hc).2.symm
    rw [if_pos hc, if_pos hc, hcalling]
    subst hc
    rfl
  · rw [if_neg hc, if_neg hc]

/-- An event is dispatched to a dead channel. -/
theorem sim_dangle (hphase : (s.loops ℓ).phase = .handling (c' :: rest)) (hnotin : c' ∉ rest)
    (hon : s.loopOf c' = ℓ) : Life.Step (if c' = c then .dangle else .quiet) (s.view c)
      (({ s.setLoop ℓ ((s.loops ℓ).next rest) with dangling := true } : TcpServer T L).view c) := by
  rw [view_next hphase]
  by_cases hcc : c' = c
  · subst hcc
    rw [if_pos rfl, if_pos hon, decide_eq_false hnotin]
    exact .dangle (by rw [(view_of_handling hphase hon).1]; simp)
  · rw [if_neg hcc]
    split
    · rename_i hc
      rw [active_of_ne hphase hc (Ne.symm hcc)]
      exact .stay
    · exact .stay

/-- The callbacks of a channel are lined up. -/
theorem sim_handling (hphase : (s.loops ℓ).phase = .handling (c' :: rest))
    (hidle : (s.loops ℓ).idle = true) (hnotin : c' ∉ rest) (hon : s.loopOf c' = ℓ) :
    Life.Step .quiet (s.view c)
      ((s.setLoop ℓ ((s.loops ℓ).handling rest c' (s.conns c').channel_)).view c) := by
  obtain ⟨hwork, hguard⟩ := Loop.idle_iff.mp hidle
  rw [view_handling hphase hwork]
  by_cases hcc : c' = c
  · subst hcc
    have htied : decide ((if (s.conns c').channel_.tied_ then some c' else none) = some c') =
        (s.view c').tied := by
      simp only [view]
      cases (s.conns c').channel_.tied_ <;> simp
    obtain ⟨hactive, hcalling⟩ := view_of_handling hphase hon
    rw [if_pos hon, if_pos rfl, decide_eq_false hnotin, htied]
    refine .dispatch _ (by rw [hactive]; simp) hcalling ?_
    subst hon
    exact now_of_idle hidle
  · rw [if_neg hcc]
    split
    · rename_i hc
      have hguarded : decide ((if (s.conns c').channel_.tied_ then some c' else none) = some c) =
          (s.view c).guarded := by
        simp only [view, hc, hguard]
        cases (s.conns c').channel_.tied_ <;> simp [hcc]
      have hnow : [] = (s.view c).now := by
        subst hc
        exact (now_of_idle hidle).symm
      rw [active_of_ne hphase hc (Ne.symm hcc), hguarded, hnow]
      exact .stay
    · exact .stay

end Dispatch

theorem sim_dispatch (h : s.Wf) (hs : s.act (.dispatch ℓ) = some s') :
    Life.Step (s.event (.dispatch ℓ) c) (s.view c) (s'.view c) := by
  obtain ⟨c', rest, hphase, hidle, hs⟩ := dispatch_cases hs
  have hactive : (s.loops ℓ).activeChannels_ = c' :: rest := by rw [Loop.activeChannels_, hphase]
  have hnotin : c' ∉ rest := (List.nodup_cons.mp (hactive ▸ (h.tidy ℓ).distinct)).1
  obtain ⟨-, hon⟩ := (h.tidy ℓ).active c' (by rw [hactive]; exact List.mem_cons_self)
  simp only [event, hphase]
  obtain ⟨hu, rfl⟩ | ⟨hu, rfl⟩ := hs
  · have hdead : (c' = c ∧ s.useCount c = 0) ↔ c' = c :=
      ⟨And.left, fun hcc => ⟨hcc, hcc ▸ hu⟩⟩
    simp only [hdead]
    exact sim_dangle hphase hnotin hon
  · have halive : ¬ (c' = c ∧ s.useCount c = 0) := by
      rintro ⟨rfl, hzero⟩
      exact hu hzero
    rw [if_neg halive]
    exact sim_handling hphase hidle hnotin hon

theorem sim_release (hs : s.act (.release ℓ) = some s') :
    Life.Step .quiet (s.view c) (s'.view c) := by
  obtain ⟨hwork, rfl⟩ := act_release hs
  rw [view_setPhase s { s.loops ℓ with guard := none } c rfl rfl]
  split
  · rename_i hc
    subst hc
    exact .release (by simp only [view, hwork, List.filterMap_nil])
  · exact .stay

theorem sim_swap (h : s.Wf) (hs : s.act (.swap ℓ) = some s') :
    Life.Step .quiet (s.view c) (s'.view c) := by
  obtain ⟨hphase, hidle, rfl⟩ := act_swap hs
  let l : Loop := { s.loops ℓ with phase := .calling, queue := (s.loops ℓ).queue.swap }
  have hwait := TaskQueue.waiting_swap ((h.tidy ℓ).batch (by simp [hphase]))
  rw [view_setPhase s l c rfl hwait]
  split
  · rename_i hc
    subst hc
    have hactive : decide (c ∈ l.activeChannels_) = (s.view c).active := by
      simp [l, view, Loop.activeChannels_, hphase]
    rw [hactive]
    exact .swap hactive.symm (now_of_idle hidle)
  · exact .stay

theorem sim_start (hs : s.act (.start ℓ) = some s') :
    Life.Step .quiet (s.view c) (s'.view c) := by
  obtain ⟨hphase, hidle, job, queue, hstart, rfl⟩ := act_start hs
  obtain ⟨hwait, -⟩ := TaskQueue.waiting_of_start hstart
  let l : Loop := { s.loops ℓ with work := [job], queue := queue }
  have hagenda : l.agenda = (s.loops ℓ).agenda := by
    simp only [Loop.agenda, l, (Loop.idle_iff.mp hidle).1, hwait]
    rfl
  cases hd : job.dutyOf c with
  | none =>
    have hsame : (s.setLoop ℓ l).view c = s.view c := by
      refine s.view_setAgenda rfl rfl (fun hc => ?_) (fun _ => ⟨rfl, rfl⟩) (fun hb => ?_) fun _ => rfl
      · subst hc
        simp [l, hd, hwait, (Loop.idle_iff.mp hidle).1]
      · rw [hagenda, ← hb]
    exact hsame ▸ .stay
  | some d =>
    by_cases hc : s.loopOf c = ℓ
    · subst hc
      have hnext : (s.setLoop (s.loopOf c) l).view c =
          { s.view c with now := [d], later := queue.waiting.filterMap (Job.dutyOf c) } := by
        refine s.view_setAgenda rfl rfl (fun _ => ⟨?_, rfl⟩) (fun hc => absurd rfl hc) (fun hb => ?_)
          fun _ => rfl
        · simp [l, hd]
        · rw [hagenda, ← hb]
          rfl
      rw [hnext]
      refine .start (by simp [view, hphase]) (now_of_idle hidle) ?_
      simp [view, hwait, hd]
    · have hsame : (s.setLoop ℓ l).view c = s.view c := by
        refine s.view_setAgenda rfl rfl (fun hc' => absurd hc' hc) (fun _ => ⟨rfl, rfl⟩) (fun hb => ?_)
          fun _ => rfl
        rw [hagenda, ← hb]
      exact hsame ▸ .stay

theorem sim_finish (hs : s.act (.finish ℓ) = some s') :
    Life.Step .quiet (s.view c) (s'.view c) := by
  obtain ⟨hphase, hidle, -, rfl⟩ := act_finish hs
  let l : Loop := { s.loops ℓ with phase := .polling, queue := (s.loops ℓ).queue.finish }
  rw [view_setPhase s l c rfl rfl]
  split
  · rename_i hc
    subst hc
    have hactive : decide (c ∈ l.activeChannels_) = (s.view c).active := by
      simp [l, view, Loop.activeChannels_, hphase]
    rw [hactive]
    exact .finish (now_of_idle hidle)
  · exact .stay

end Loops

end TcpServer

end Mymuduo

import Mymuduo.Server.Simulation

/-!
# Who keeps a connection alive

While its channel is registered a connection is owned: by the map, or by a
functor or handler on its way to `connectDestroyed`. Its channel is in
`activeChannels_`, and its callbacks run, only while it is registered and
outside `doPendingFunctors`. A connection without owner is inert: nothing is
left to be done for it.
-/

namespace Mymuduo

open Mymuduo.Library

universe u v

namespace Life

/-- On the way from `handleClose` to the end of `connectDestroyed`. -/
def Departing (l : Life) : Prop :=
  0 < l.removals ∨ .destroy ∈ l.duties ∨ .deregister ∈ l.duties ∨ .finishClose ∈ l.duties

structure Held (l : Life) : Prop where
  order : Begun l
  alive : l.status = .alive
  tied : l.state ≠ .kConnecting → l.tied = true
  active : l.active = true → l.registered = true ∧ l.calling = false
  handling : ∀ cb, .callback cb ∈ l.now →
    l.registered = true ∧ l.calling = false ∧ l.guarded = true
  queued : ∀ d ∈ l.later, d = .establish ∨ d = .destroy ∨ ∃ n, d = .notice n
  mapped : l.state ≠ .kDisconnected → l.mapped = true
  closed : Departing l → l.state = .kDisconnected
  calling : .destroy ∈ l.now ∨ .deregister ∈ l.now → l.calling = true
  owned : l.registered = true → l.mapped = true ∨ Departing l

/-- Nothing is left to be done. -/
structure Inert (l : Life) : Prop where
  mapped : l.mapped = false
  duties : l.duties = []
  removals : l.removals = 0
  registered : l.registered = false
  active : l.active = false

variable {e : Event} {l l' : Life}

theorem Held.of_new (h : New l) : Held l where
  order := .of_new h
  alive := h.status
  tied hs := absurd h.state hs
  active ha := by rw [h.active] at ha; cases ha
  handling cb hcb := by
    have hmem : .callback cb ∈ l.duties := List.mem_append_left _ hcb
    rw [h.duties] at hmem
    cases List.mem_singleton.mp hmem
  queued d hd := by
    have hmem : d ∈ l.duties := List.mem_append_right _ hd
    rw [h.duties] at hmem
    exact .inl (List.mem_singleton.mp hmem)
  mapped _ := h.mapped
  closed hd := by simp [Departing, h.duties, h.removals] at hd
  calling hd := by
    have hmem : .destroy ∈ l.duties ∨ .deregister ∈ l.duties :=
      hd.imp (List.mem_append_left _) (List.mem_append_left _)
    simp [h.duties] at hmem
  owned hr := by rw [h.registered] at hr; cases hr

theorem Held.inert_step (h : Held l) (hi : Inert l) (hs : Step e l l') : Inert l' := by
  obtain ⟨hmapped, hduties, hremovals, hregistered, hactive⟩ := hi
  obtain ⟨hnow, hlater⟩ := List.append_eq_nil_iff.mp hduties
  cases hs with
  | stay | terminate | destroy | destroyEnd | release | swap | finish =>
    exact ⟨hmapped, hduties, hremovals, hregistered, hactive⟩
  | poll reported hr hc hn =>
    refine ⟨hmapped, hduties, hremovals, hregistered, ?_⟩
    cases reported
    · rfl
    · rw [hr rfl] at hregistered
      cases hregistered
  | dispatch cbs ha | dangle ha =>
    rw [hactive] at ha
    cases ha
  | start hc hn hl =>
    rw [hlater] at hl
    cases hl
  | remove hn =>
    rw [hremovals] at hn
    cases hn
  | destroyItem hst hm =>
    rw [hmapped] at hm
    cases hm
  | user state registered notices hst =>
    have hm := h.mapped (by rw [hst]; decide)
    rw [hmapped] at hm
    cases hm
  | establish hn | leave hn | leaveSilently hn | deregister hn | close hn | deliver told hn
  | handle registered notices hn | finishClose hn | notice hn =>
    rw [hnow] at hn
    cases hn

theorem Held.not_departing (h : Held l) (hs : l.state ≠ .kDisconnected) : ¬ Departing l :=
  fun hd => hs (h.closed hd)

/-- A handler or functor moves on to its next duty. -/
theorem Held.rest (h : Held l) {d : Duty} {rest : List Duty} (hn : l.now = d :: rest) :
    (∀ cb, .callback cb ∈ rest →
      l.registered = true ∧ l.calling = false ∧ l.guarded = true) ∧
    (.destroy ∈ rest ∨ .deregister ∈ rest → l.calling = true) := by
  have hmem : ∀ {x}, x ∈ rest → x ∈ l.now := fun hx => hn ▸ List.mem_cons_of_mem _ hx
  exact ⟨fun cb hcb => h.handling cb (hmem hcb), fun hd => h.calling (hd.imp hmem hmem)⟩

/-- A connection may queue notices on its loop. -/
theorem Held.queued_notices (h : Held l) (notices : List Notice) :
    ∀ d ∈ l.later ++ notices.map Duty.notice, d = .establish ∨ d = .destroy ∨ ∃ n, d = .notice n := by
  intro d hd
  obtain hd | hd := List.mem_append.mp hd
  · exact h.queued d hd
  · obtain ⟨n, -, rfl⟩ := List.mem_map.mp hd
    exact .inr (.inr ⟨n, rfl⟩)

theorem Held.step (h : Held l) (he : e ≠ .destroy) (hs : Step e l l') : Held l' := by
  have horder := h.order.step hs
  cases hs with
  | stay => exact h
  | destroy => exact absurd rfl he
  | destroyEnd hd | destroyItem hd =>
    rw [h.alive] at hd
    cases hd
  | terminate =>
    exact { h with order := horder }
  | poll reported hr hc hn =>
    exact { h with order := horder, active := fun ha => ⟨hr ha, hc⟩ }
  | dispatch cbs ha hc hn =>
    have hdep : Departing { l with active := false, guarded := l.tied, now := cbs.map .callback } ↔
        Departing l := by simp [Departing, Life.duties, hn]
    exact { h with
      order := horder
      active := by simp
      handling := fun _ _ => ⟨(h.active ha).1, hc, h.tied (h.order.of_active ha)⟩
      closed := fun hd => h.closed (hdep.mp hd)
      calling := by simp
      owned := fun hr => (h.owned hr).imp_right hdep.mpr }
  | dangle ha =>
    exact { h with order := horder, active := by simp }
  | release hn =>
    exact { h with
      order := horder
      handling := fun cb hcb => absurd (hn ▸ hcb) List.not_mem_nil }
  | swap ha hn =>
    exact { h with
      order := horder
      active := fun ht => absurd (ha.symm.trans ht) Bool.false_ne_true
      handling := fun cb hcb => absurd (hn ▸ hcb) List.not_mem_nil
      calling := fun _ => rfl }
  | @start _ d rest hc hn hl =>
    have hd : d ∈ l.later := hl ▸ List.mem_cons_self
    have hdep : Departing { l with now := [d], later := rest } ↔ Departing l := by
      simp [Departing, Life.duties, hn, hl]
    exact { h with
      order := horder
      handling := fun cb hcb => by
        obtain rfl := List.mem_singleton.mp hcb
        obtain hq | hq | ⟨n, hq⟩ := h.queued _ hd <;> cases hq
      queued := fun x hx => h.queued x (hl ▸ List.mem_cons_of_mem _ hx)
      closed := fun hd => h.closed (hdep.mp hd)
      calling := fun _ => hc
      owned := fun hr => (h.owned hr).imp_right hdep.mpr }
  | finish hn =>
    exact { h with
      order := horder
      active := fun ha => ⟨(h.active ha).1, rfl⟩
      handling := fun cb hcb => absurd (hn ▸ hcb) List.not_mem_nil
      calling := fun hd => by simp [hn] at hd }
  | @establish _ rest hn =>
    have hst : l.state = .kConnecting := by
      by_contra hne
      exact h.order.begun hne (List.mem_append_left _ (hn ▸ List.mem_cons_self))
    have hopen : l.state ≠ .kDisconnected := by rw [hst]; decide
    obtain ⟨hhandling, hcalling⟩ := h.rest hn
    refine { h with
      order := horder
      tied := fun _ => rfl
      active := fun ha => ⟨rfl, (h.active ha).2⟩
      handling := fun cb hcb => ⟨rfl, (hhandling cb hcb).2⟩
      mapped := fun _ => h.mapped hopen
      closed := fun hd => absurd ?_ (h.not_departing hopen)
      calling := hcalling
      owned := fun _ => .inl (h.mapped hopen) }
    simpa [Departing, Life.duties, hn] using hd
  | leave hn hst =>
    have hd : Departing l := .inr (.inl (List.mem_append_left _ (hn ▸ List.mem_cons_self)))
    exact absurd hd (h.not_departing (by rw [hst]; decide))
  | leaveSilently hn hst =>
    have hdestroy : .destroy ∈ l.now := hn ▸ List.mem_cons_self
    have hclosed := h.closed (.inr (.inl (List.mem_append_left _ hdestroy)))
    obtain ⟨hhandling, -⟩ := h.rest hn
    exact { h with
      order := horder
      handling := fun cb hcb => hhandling cb ((List.mem_cons.mp hcb).resolve_left (by simp))
      closed := fun _ => hclosed
      calling := fun _ => h.calling (.inl hdestroy)
      owned := fun _ => .inr (.inr (.inr (.inl List.mem_cons_self))) }
  | deregister hn =>
    have hderegister : .deregister ∈ l.now := hn ▸ List.mem_cons_self
    have hclosed := h.closed (.inr (.inr (.inl (List.mem_append_left _ hderegister))))
    have hcalling := h.calling (.inr hderegister)
    obtain ⟨hhandling, -⟩ := h.rest hn
    -- no event is being handled, so that nothing still relies on the registration
    have hbusy : l.calling ≠ false := by rw [hcalling]; decide
    exact { h with
      order := horder
      active := fun ha => absurd (h.active ha).2 hbusy
      handling := fun cb hcb => absurd (hhandling cb hcb).2.1 hbusy
      closed := fun _ => hclosed
      calling := fun _ => hcalling
      owned := by simp }
  | close hn =>
    obtain ⟨hhandling, hcalling⟩ := h.rest hn
    exact { h with
      order := horder
      tied := fun _ => h.tied (h.order.head hn (by simp))
      active := fun ha => ⟨rfl, (h.active ha).2⟩
      handling := fun cb hcb =>
        ⟨rfl, (hhandling cb ((List.mem_cons.mp hcb).resolve_left (by simp))).2⟩
      mapped := fun hs => absurd rfl hs
      closed := fun _ => rfl
      calling := fun hd => hcalling (by simpa using hd)
      owned := fun _ => .inr (.inr (.inr (.inr List.mem_cons_self))) }
  | @deliver _ _ rest told hn =>
    obtain ⟨hhandling, hcalling⟩ := h.rest hn
    have hdep : Departing { l with now := rest } ↔ Departing l := by
      simp [Departing, Life.duties, hn]
    exact { h with
      order := horder
      handling := hhandling
      closed := fun hd => h.closed (hdep.mp hd)
      calling := hcalling
      owned := fun hr => (h.owned hr).imp_right hdep.mpr }
  | @handle _ _ rest registered notices hn hr =>
    obtain ⟨hhandling, hcalling⟩ := h.rest hn
    obtain ⟨hregistered, -, -⟩ := h.handling _ (hn ▸ List.mem_cons_self)
    have hdep : Departing { l with now := rest, later := l.later ++ notices.map .notice } ↔
        Departing l := by simp [Departing, Life.duties, hn]
    exact { h with
      order := horder
      active := fun ha => ⟨hr (h.active ha).1, (h.active ha).2⟩
      handling := fun cb hcb => ⟨hr hregistered, (hhandling cb hcb).2⟩
      queued := h.queued_notices notices
      closed := fun hd => h.closed (hdep.mp hd)
      calling := hcalling
      owned := fun _ => (h.owned hregistered).imp_right hdep.mpr }
  | finishClose hn =>
    have hclosed := h.closed (.inr (.inr (.inr (List.mem_append_left _ (hn ▸ List.mem_cons_self)))))
    obtain ⟨hhandling, hcalling⟩ := h.rest hn
    exact { h with
      order := horder
      handling := hhandling
      closed := fun _ => hclosed
      calling := hcalling
      owned := fun _ => .inr (.inl (Nat.succ_pos _)) }
  | @notice _ _ rest hn =>
    obtain ⟨hhandling, hcalling⟩ := h.rest hn
    have hdep : Departing { l with now := rest } ↔ Departing l := by
      simp [Departing, Life.duties, hn]
    exact { h with
      order := horder
      handling := hhandling
      closed := fun hd => h.closed (hdep.mp hd)
      calling := hcalling
      owned := fun hr => (h.owned hr).imp_right hdep.mpr }
  | remove hn =>
    have hclosed := h.closed (.inl (hn ▸ Nat.succ_pos _))
    have hdestroy : .destroy ∈ l.now ++ (l.later ++ [.destroy]) := by simp
    refine { h with
      order := horder
      queued := fun d hd => ?_
      mapped := fun hs => absurd hclosed hs
      closed := fun _ => hclosed
      owned := fun _ => .inr (.inr (.inl hdestroy)) }
    obtain hd | hd := List.mem_append.mp hd
    · exact h.queued d hd
    · exact .inr (.inl (List.mem_singleton.mp hd))
  | user state registered notices hst hst' hr =>
    have hopen : l.state ≠ .kDisconnected := by rw [hst]; decide
    have hmapped := h.mapped hopen
    refine { h with
      order := horder
      tied := fun _ => h.tied (by rw [hst]; decide)
      active := fun ha => ⟨hr (h.active ha).1, (h.active ha).2⟩
      handling := fun cb hcb => ⟨hr (h.handling cb hcb).1, (h.handling cb hcb).2⟩
      queued := h.queued_notices notices
      mapped := fun _ => hmapped
      closed := fun hd => absurd ?_ (h.not_departing hopen)
      owned := fun _ => .inl hmapped }
    simpa [Departing, Life.duties] using hd

end Life

/-! ## Owners -/

namespace TcpServer

variable {T : Type u} {L : Type v} [Fintype L] [DecidableEq L]
variable {s : TcpServer T L} {c : ConnId}

omit [DecidableEq L] in
theorem useCount_eq_zero : s.useCount c = 0 ↔
    c ∉ s.connections_.map (·.2) ∧ s.refs c = 0 ∧ ∀ ℓ, c ∉ (s.loops ℓ).owners := by
  have hmap : s.connections_.countP (·.2 = c) = 0 ↔ c ∉ s.connections_.map (·.2) := by
    simp only [List.countP_eq_zero, decide_eq_true_eq, List.mem_map, not_exists, not_and]
  have howners : ∑ ℓ, (s.loops ℓ).owners.count c = 0 ↔ ∀ ℓ, c ∉ (s.loops ℓ).owners := by
    simp [Finset.sum_eq_zero_iff, List.count_eq_zero]
  rw [useCount, Nat.add_eq_zero_iff, Nat.add_eq_zero_iff, hmap, howners, and_assoc]

omit [DecidableEq L] in
/-- Where nobody holds a connection. -/
theorem unowned (hzero : s.useCount c = 0) :
    c ∉ s.connections_.map (·.2) ∧ ∀ ℓ, (s.loops ℓ).guard ≠ some c ∧
      ∀ job ∈ (s.loops ℓ).agenda, job.owner ≠ some c := by
  obtain ⟨hmap, -, howners⟩ := useCount_eq_zero.mp hzero
  refine ⟨hmap, fun ℓ => ?_⟩
  have hnone := howners ℓ
  rw [Loop.owners, List.mem_append, not_or] at hnone
  refine ⟨fun hg => hnone.1 (by simp [hg]), fun job hjob ho => hnone.2 ?_⟩
  refine List.mem_filterMap.mpr ⟨job, ?_, ho⟩
  obtain hjob | hjob := List.mem_append.mp hjob
  · exact List.mem_append_left _ hjob
  · exact List.mem_append_right _ (TaskQueue.mem_held_of_waiting hjob)

omit [Fintype L] [DecidableEq L] in
/-- A duty is owned, unless it is a callback, which its guard owns. -/
theorem owner_of_duty {job : Job} {d : Duty} (hd : job.dutyOf c = some d) :
    job.owner = some c ∨ ∃ cb, d = .callback cb := by
  by_cases hj : job.conn = c
  · rw [Job.dutyOf, if_pos hj] at hd
    cases job <;> cases hd <;> cases hj <;> first | exact .inl rfl | exact .inr ⟨_, rfl⟩
  · rw [Job.dutyOf, if_neg hj] at hd
    cases hd

theorem inert_of_useCount (h : (s.view c).Held) (hzero : s.useCount c = 0) :
    (s.view c).Inert := by
  obtain ⟨hmap, hloop⟩ := unowned hzero
  have hguarded : (s.view c).guarded = false := decide_eq_false (hloop _).1
  have hmapped : (s.view c).mapped = false := decide_eq_false hmap
  have hduties : (s.view c).duties = [] := by
    refine List.eq_nil_iff_forall_not_mem.mpr fun d hd => ?_
    obtain ⟨job, hjob, hdj⟩ := job_of_duty hd
    obtain ho | ⟨cb, rfl⟩ := owner_of_duty hdj
    · exact (hloop _).2 job hjob ho
    · obtain hnow | hlater := List.mem_append.mp hd
      · have hheld := (h.handling cb hnow).2.2
        rw [hguarded] at hheld
        cases hheld
      · obtain hq | hq | ⟨n, hq⟩ := h.queued _ hlater <;> cases hq
  have hremovals : (s.view c).removals = 0 := List.count_eq_zero.mpr fun hm => (hloop _).2 _ hm rfl
  have hregistered : (s.view c).registered = false := by
    by_contra hr
    obtain hm | hm | hm := h.owned (Bool.not_eq_false _ ▸ hr)
    · rw [hmapped] at hm
      cases hm
    · omega
    · simp [hduties] at hm
  refine ⟨hmapped, hduties, hremovals, hregistered, ?_⟩
  by_contra ha
  have hr := (h.active (Bool.not_eq_false _ ▸ ha)).1
  rw [hregistered] at hr
  cases hr

end TcpServer

end Mymuduo

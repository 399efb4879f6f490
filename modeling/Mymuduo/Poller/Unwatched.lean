import Mymuduo.Library.Execution
import Mymuduo.Poller.Bookkeeping

/-!
# Channels without interest

`updateChannel` looks at the interest mask only where the index is `kAdded`;
elsewhere it adds the descriptor whatever the mask says. So a descriptor stays
out of the interest list while its mask is empty exactly if every operation that
empties a mask finds its channel added.
-/

namespace Mymuduo

open Mymuduo.Library.Execution

universe u

variable {κ : Type u}

/-- The index after an operation other than `remove`. -/
theorem ChannelOp.index_run {op : ChannelOp} (hop : op ≠ .remove) (self : κ) (channel : Channel)
    (p : EPollPoller κ) : (op.run self channel p).1.index_ =
      if channel.index_ = .kAdded ∧ op.mask channel.events_ = 0 then .kDeleted else .kAdded := by
  have hupdate : ∀ e : Events, (p.updateChannel self { channel with events_ := e }).1.index_ =
      if channel.index_ = .kAdded ∧ e = 0 then .kDeleted else .kAdded := by
    intro e
    unfold EPollPoller.updateChannel
    cases hi : channel.index_ with
    | kNew => simp
    | kDeleted => simp
    | kAdded =>
      have hnone : Channel.isNoneEvent { channel with events_ := e } = true ↔ e = 0 := beq_iff_eq
      simp only [hi] at hnone ⊢
      split <;> simp_all
  cases op
  case remove => exact absurd rfl hop
  all_goals exact hupdate _

namespace Registry

/-- The descriptor of the channel is in the kernel's interest list. -/
def Watched (r : Registry κ) (c : κ) : Prop := (r.poller.epoll (r.channel c).fd_).isSome = true

variable [DecidableEq κ]

/-- An operation that leaves the mask of its channel empty finds it added. -/
def Wanted (r : Registry κ) (x : κ × ChannelOp) : Prop :=
  x.2 ≠ .remove → x.2.mask (r.channel x.1).events_ = 0 → (r.channel x.1).index_ = .kAdded

instance (r : Registry κ) (x : κ × ChannelOp) : Decidable (r.Wanted x) :=
  inferInstanceAs (Decidable (_ → _ → _))

/-- The registry after an operation and before it, `before` being the operations
so far: only channels with an interest are watched; after `disableAll` the
channel is not; and a second `disableAll` changes neither the interest list nor
the index. -/
structure Lawful (before : List (κ × ChannelOp)) (x : κ × ChannelOp) (r r' : Registry κ) : Prop where
  interest : ∀ c, r'.Watched c → (r'.channel c).events_ ≠ 0
  disabled : x.2 = .disableAll → ¬ r'.Watched x.1
  again : x.2 = .disableAll → before.getLast? = some x →
    r'.poller.epoll = r.poller.epoll ∧ (r'.channel x.1).index_ = (r.channel x.1).index_

variable {fd : κ → Int}

omit [DecidableEq κ] in
theorem Inv.watched_iff (hfd : Function.Injective fd) {r : Registry κ} (h : r.Inv fd) (c : κ) :
    r.Watched c ↔ (r.channel c).index_ = .kAdded := by
  rw [Watched, h.agrees.epoll_at trivial (h.alone hfd c)]
  split <;> simp_all

/-- The channel on which an operation works, after it. -/
theorem index_apply (r : Registry κ) {x : κ × ChannelOp} (hop : x.2 ≠ .remove) :
    ((r.apply x).channel x.1).index_ = if (r.channel x.1).index_ = .kAdded ∧
      x.2.mask (r.channel x.1).events_ = 0 then .kDeleted else .kAdded := by
  simp only [apply, Function.update_self]
  exact ChannelOp.index_run hop _ _ _

theorem events_apply (r : Registry κ) (x : κ × ChannelOp) :
    ((r.apply x).channel x.1).events_ = x.2.mask (r.channel x.1).events_ := by
  simp only [apply, Function.update_self]
  exact ChannelOp.run_events _ _ _ _

theorem index_remove (r : Registry κ) (c : κ) :
    ((r.apply (c, .remove)).channel c).index_ = .kNew := by
  simp only [apply, Function.update_self]
  rfl

theorem channel_apply_of_ne (r : Registry κ) {x : κ × ChannelOp} {c : κ} (hc : c ≠ x.1) :
    (r.apply x).channel c = r.channel c :=
  Function.update_of_ne hc _ _

/-- Added channels have an interest; a wanted operation leaves it so. -/
theorem interest_apply {r : Registry κ} {x : κ × ChannelOp} (hw : r.Wanted x)
    (h : ∀ c, (r.channel c).index_ = .kAdded → (r.channel c).events_ ≠ 0) (c : κ)
    (hc : ((r.apply x).channel c).index_ = .kAdded) : ((r.apply x).channel c).events_ ≠ 0 := by
  by_cases hcx : c = x.1
  · subst hcx
    by_cases hop : x.2 = .remove
    · obtain ⟨c, op⟩ := x
      cases hop
      rw [index_remove] at hc
      cases hc
    · rw [index_apply r hop] at hc
      rw [events_apply]
      intro hempty
      rw [if_pos ⟨hw hop hempty, hempty⟩] at hc
      cases hc
  · rw [channel_apply_of_ne r hcx] at hc ⊢
    exact h c hc

/-- An operation that is not wanted adds a channel without interest. -/
theorem watched_of_not_wanted (hfd : Function.Injective fd) {r : Registry κ} (h : r.Inv fd)
    {x : κ × ChannelOp} (hw : ¬ r.Wanted x) :
    (r.apply x).Watched x.1 ∧ ((r.apply x).channel x.1).events_ = 0 := by
  simp only [Wanted, not_forall] at hw
  obtain ⟨hop, hempty, hindex⟩ := hw
  rw [Inv.watched_iff hfd (inv_apply hfd h x), index_apply r hop, if_neg fun hx => hindex hx.1,
    events_apply]
  exact ⟨rfl, hempty⟩

/-- A `disableAll` on an added channel takes it out of the interest list. -/
theorem not_watched_disableAll (hfd : Function.Injective fd) {r : Registry κ} (h : r.Inv fd)
    {c : κ} (hw : r.Wanted (c, .disableAll)) : ¬ (r.apply (c, .disableAll)).Watched c := by
  have hindex : (r.channel c).index_ = .kAdded := hw (by simp) rfl
  have hafter : ((r.apply (c, .disableAll)).channel c).index_ = .kDeleted :=
    (index_apply r (by simp)).trans (if_pos ⟨hindex, rfl⟩)
  rw [Inv.watched_iff hfd (inv_apply hfd h _), hafter]
  decide

theorem interest_foldl {ops : List (κ × ChannelOp)} {r : Registry κ}
    (hg : Guarded (fun r x => some (r.apply x)) Wanted r ops)
    (h : ∀ c, (r.channel c).index_ = .kAdded → (r.channel c).events_ ≠ 0) (c : κ)
    (hc : ((ops.foldl apply r).channel c).index_ = .kAdded) :
    ((ops.foldl apply r).channel c).events_ ≠ 0 := by
  induction ops generalizing r with
  | nil => exact h c hc
  | cons x ops ih => exact ih (hg.2 _ rfl) (interest_apply hg.1 h) hc

/-- Along a sequence of operations on fresh channels with distinct descriptors
the law holds after every operation if and only if every operation that leaves a
mask empty finds its channel with index `kAdded`. -/
theorem lawful_iff_wanted (hfd : Function.Injective fd) (ops : List (κ × ChannelOp)) :
    (∀ (before : List (κ × ChannelOp)) x after, ops = before ++ x :: after →
      Lawful before x (before.foldl apply (fresh fd)) ((before ++ [x]).foldl apply (fresh fd))) ↔
    Guarded (fun r x => some (r.apply x)) Wanted (fresh fd) ops := by
  have hinv : ∀ before : List (κ × ChannelOp), (before.foldl apply (fresh fd)).Inv fd := fun before =>
    inv_foldl hfd before (inv_fresh fd)
  have hlast : ∀ (before : List (κ × ChannelOp)) x, (before ++ [x]).foldl apply (fresh fd) =
      (before.foldl apply (fresh fd)).apply x := fun before x => by
    rw [List.foldl_append, List.foldl_cons, List.foldl_nil]
  rw [guarded_total]
  constructor
  · intro hlaw before x after heq
    by_contra hw
    obtain ⟨hwatched, hempty⟩ := watched_of_not_wanted hfd (hinv before) hw
    rw [← hlast] at hwatched hempty
    exact (hlaw before x after heq).interest x.1 hwatched hempty
  · intro hwanted before x after heq
    have hw := hwanted before x after heq
    rw [hlast]
    refine ⟨fun c hc => ?_, ?_, ?_⟩
    · -- what was added before has an interest, since the operations so far were wanted
      have hbefore : Guarded (fun r x => some (r.apply x)) Wanted (fresh fd) before :=
        guarded_total.mpr fun before' x' after' heq' => hwanted before' x' (after' ++ x :: after)
          (by rw [heq, heq', List.append_assoc, List.cons_append])
      have hfresh : ∀ c, ((fresh fd).channel c).index_ = .kAdded →
          ((fresh fd).channel c).events_ ≠ 0 := nofun
      rw [Inv.watched_iff hfd (inv_apply hfd (hinv before) x)] at hc
      exact interest_apply hw (interest_foldl hbefore hfresh) c hc
    · intro hx
      obtain ⟨c, op⟩ := x
      obtain rfl : op = .disableAll := hx
      exact not_watched_disableAll hfd (hinv before) hw
    · -- a second `disableAll` finds its channel deleted, so it was not wanted
      intro hx hprevious
      obtain ⟨c, op⟩ := x
      obtain rfl : op = .disableAll := hx
      obtain ⟨before', rfl⟩ := List.getLast?_eq_some_iff.mp hprevious
      have hw' := hwanted before' (c, .disableAll) ((c, .disableAll) :: after)
        (by rw [heq, List.append_assoc]; rfl)
      have hnot := not_watched_disableAll hfd (hinv before') hw'
      rw [← hlast, Inv.watched_iff hfd (hinv _)] at hnot
      exact absurd (hw (by simp) rfl) hnot

/-- A channel that is read from, muted and removed. -/
theorem lawful_iff_wanted_reading :
    let ops := [((0 : Fin 2), ChannelOp.enableReading), (1, .enableWriting), (0, .disableAll),
      (0, .remove)]
    ∀ (before : List (Fin 2 × ChannelOp)) x after, ops = before ++ x :: after →
      Lawful before x (before.foldl apply (fresh fun c : Fin 2 => (c.val : Int) + 5))
        ((before ++ [x]).foldl apply (fresh fun c : Fin 2 => (c.val : Int) + 5)) := by
  have hfd : Function.Injective fun c : Fin 2 => (c.val : Int) + 5 := by
    intro a b h
    simp only at h
    omega
  exact (lawful_iff_wanted hfd [((0 : Fin 2), ChannelOp.enableReading), (1, .enableWriting),
    (0, .disableAll), (0, .remove)]).mpr (by decide)

/-- `disableAll` on a fresh channel, and a second `disableAll`: each time the
descriptor is watched with an empty mask, and the second one has changed the
interest list and the index. -/
theorem unlawful_disableAll :
    let start := fresh fun _ : Unit => (5 : Int)
    let first := start.apply ((), .disableAll)
    let used := (start.apply ((), .enableReading)).apply ((), .disableAll)
    let again := used.apply ((), .disableAll)
    (first.Watched () ∧ (first.channel ()).events_ = 0) ∧ ¬ used.Watched () ∧
      (again.Watched () ∧ (again.channel ()).events_ = 0) ∧
      (used.channel ()).index_ = .kDeleted ∧ (again.channel ()).index_ = .kAdded := by
  simp only [Watched]
  decide

end Registry

end Mymuduo

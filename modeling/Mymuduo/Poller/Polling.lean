import Mathlib.Algebra.Group.Nat.Defs
import Mymuduo.Library.Execution
import Mymuduo.Poller.Bookkeeping

/-!
# What a poll reports

`epoll_wait` writes into `events_` as many entries as that has room for, and
`fillActiveChannels` takes each entry's pointer for a channel without looking
at `channels_`. That is sound because the interest list holds only channels on
record. A poll that fills the vector may have left channels out; the vector
then doubles, so that this happens a logarithmic number of times at most.
-/

namespace Mymuduo

open Mymuduo.Library

universe u

def kInitEventListSize : Nat := 16

/-- What `epoll_wait` finds ready, in the order in which it reports; or its `errno`. -/
inductive EpollWait (κ : Type u)
  | ready (rdllist : List (κ × Events))
  | failed (errno : Nat)

/-- The channels and the poller of a loop, and the list that it handles. -/
structure Polling (κ : Type u) where
  registry : Registry κ
  /-- the length of the vector -/
  events_ : Nat := kInitEventListSize
  activeChannels_ : List κ := []

namespace Polling

variable {κ : Type u} [DecidableEq κ]

def fillActiveChannels (events : List (κ × Events)) (x : Polling κ) : Polling κ :=
  events.foldl (fun x event => { x with
    registry.channel := Function.update x.registry.channel event.1
      { x.registry.channel event.1 with revents_ := event.2 }
    activeChannels_ := x.activeChannels_ ++ [event.1] }) x

/-- An error is logged, unless it is `EINTR`, and nothing is reported. -/
def poll (answer : EpollWait κ) (x : Polling κ) : Polling κ :=
  match answer with
  | .failed _ => x
  | .ready rdllist =>
    let events := rdllist.take x.events_
    if 0 < events.length then
      let x := x.fillActiveChannels events
      if events.length = x.events_ then { x with events_ := x.events_ * 2 } else x
    else x

inductive Action (κ : Type u)
  | operate (c : κ) (op : ChannelOp)
  /-- `loop` polls; `ready` is the state of the descriptors -/
  | poll (ready : Int → Events) (answer : EpollWait κ)

def act (x : Polling κ) : Action κ → Polling κ
  | .operate c op => { x with registry := x.registry.apply (c, op) }
  | .poll _ answer => ({ x with activeChannels_ := [] } : Polling κ).poll answer

def fresh (fd : κ → Int) : Polling κ where
  registry := .fresh fd

/-- The kernel's list has each descriptor of the interest list that is ready for something
that is asked for, or has an error or a hang-up. -/
structure Lists (r : Registry κ) (ready : Int → Events) (rdllist : List (κ × Events)) : Prop where
  distinct : (rdllist.map (·.1)).Nodup
  exact : ∀ c revents, (c, revents) ∈ rdllist ↔ ∃ fd ev, r.poller.epoll fd = some (c, ev) ∧
    revents = ready fd &&& (ev ||| POLLERR ||| POLLHUP) ∧ revents ≠ 0

def Faithful (x : Polling κ) : Action κ → Prop
  | .poll ready (.ready rdllist) => Lists x.registry ready rdllist
  | _ => True

/-- The run that takes the actions in order. -/
abbrev Obeys (x : Polling κ) (as : List (Action κ)) : Prop :=
  Execution.Guarded (fun x a => some (act x a)) Faithful x as

/-! ## Filling the list -/

theorem fillActiveChannels_spec (events : List (κ × Events)) (x : Polling κ)
    (hnodup : (events.map (·.1)).Nodup) :
    (x.fillActiveChannels events).activeChannels_ = x.activeChannels_ ++ events.map (·.1) ∧
    (x.fillActiveChannels events).events_ = x.events_ ∧
    (x.fillActiveChannels events).registry.poller = x.registry.poller ∧
    (∀ c revents, (c, revents) ∈ events → (x.fillActiveChannels events).registry.channel c =
      { x.registry.channel c with revents_ := revents }) ∧
    ∀ c, c ∉ events.map (·.1) →
      (x.fillActiveChannels events).registry.channel c = x.registry.channel c := by
  induction events generalizing x with
  | nil => exact ⟨(List.append_nil _).symm, rfl, rfl, nofun, fun _ _ => rfl⟩
  | cons event events ih =>
    obtain ⟨hnot, hrest⟩ := List.nodup_cons.mp hnodup
    let y : Polling κ := { x with
      registry.channel := Function.update x.registry.channel event.1
        { x.registry.channel event.1 with revents_ := event.2 }
      activeChannels_ := x.activeChannels_ ++ [event.1] }
    obtain ⟨hactive, hevents, hpoller, hin, hout⟩ := ih y hrest
    have hfill : x.fillActiveChannels (event :: events) = y.fillActiveChannels events := rfl
    rw [hfill]
    refine ⟨?_, hevents, hpoller, fun c revents hmem => ?_, fun c hc => ?_⟩
    · rw [hactive, List.map_cons, ← List.singleton_append, ← List.append_assoc]
    · rcases List.mem_cons.mp hmem with rfl | hmem
      · rw [hout c hnot]
        exact Function.update_self _ _ _
      · have hne : c ≠ event.1 := by
          rintro rfl
          exact hnot (List.mem_map.mpr ⟨_, hmem, rfl⟩)
        rw [hin c revents hmem]
        show { Function.update x.registry.channel event.1 _ c with revents_ := revents } = _
        rw [Function.update_of_ne hne]
    · rw [List.map_cons, List.mem_cons, not_or] at hc
      rw [hout c hc.2]
      exact Function.update_of_ne hc.1 _ _

/-! ## One poll -/

variable {x : Polling κ} {ready : Int → Events} {rdllist : List (κ × Events)}

/-- What a poll that does not fail has done. -/
structure Polled (x : Polling κ) (events : List (κ × Events)) (y : Polling κ) : Prop where
  active : y.activeChannels_ = events.map (·.1)
  poller : y.registry.poller = x.registry.poller
  reported : ∀ c revents, (c, revents) ∈ events →
    y.registry.channel c = { x.registry.channel c with revents_ := revents }
  kept : ∀ c, ∃ v, y.registry.channel c = { x.registry.channel c with revents_ := v }
  size : y.events_ = if events.length = x.events_ ∧ events ≠ [] then x.events_ * 2 else x.events_

theorem polled (x : Polling κ) (ready : Int → Events) (hdistinct : (rdllist.map (·.1)).Nodup) :
    Polled x (rdllist.take x.events_) (x.act (.poll ready (.ready rdllist))) := by
  set events := rdllist.take x.events_ with hevents
  have hnodup : (events.map (·.1)).Nodup :=
    hdistinct.sublist ((List.take_sublist _ _).map _)
  let z : Polling κ := { x with activeChannels_ := [] }
  obtain ⟨hactive, hsize, hpoller, hin, hout⟩ := z.fillActiveChannels_spec events hnodup
  have hfilled : ∀ y : Polling κ, y.registry = (z.fillActiveChannels events).registry →
      y.activeChannels_ = (z.fillActiveChannels events).activeChannels_ →
      y.events_ = (if events.length = x.events_ ∧ events ≠ [] then x.events_ * 2 else x.events_) →
      Polled x events y := by
    intro y hregistry hlist hy
    refine ⟨hlist.trans hactive, by rw [hregistry, hpoller], fun c revents hmem => ?_, fun c => ?_,
      hy⟩
    · rw [hregistry]
      exact hin c revents hmem
    · rw [hregistry]
      by_cases hc : c ∈ events.map (·.1)
      · obtain ⟨⟨c', revents⟩, hmem, rfl⟩ := List.mem_map.mp hc
        exact ⟨revents, hin c' revents hmem⟩
      · exact ⟨(x.registry.channel c).revents_, hout c hc⟩
  have hpoll : x.act (.poll ready (.ready rdllist)) = if 0 < events.length then
      if events.length = (z.fillActiveChannels events).events_ then
        { z.fillActiveChannels events with events_ := (z.fillActiveChannels events).events_ * 2 }
      else z.fillActiveChannels events
      else z := rfl
  rw [hpoll, hsize]
  split
  · rename_i hpos
    have hne : events ≠ [] := List.length_pos_iff.mp hpos
    split
    · rename_i hfull
      refine hfilled _ rfl rfl ?_
      exact (if_pos ⟨hfull, hne⟩).symm
    · rename_i hfull
      refine hfilled _ rfl rfl ?_
      rw [if_neg fun h => hfull h.1]
      exact hsize
  · rename_i hzero
    have hnil : events = [] := List.length_eq_zero_iff.mp (Nat.eq_zero_of_not_pos hzero)
    rw [hnil]
    exact ⟨rfl, rfl, nofun, fun c => ⟨_, rfl⟩, by simp [z]⟩

/-- A poll that leaves something out doubles the vector. -/
theorem events_doubled (x : Polling κ) (ready : Int → Events)
    (hdistinct : (rdllist.map (·.1)).Nodup) (hpos : 0 < x.events_)
    (hmore : x.events_ < rdllist.length) :
    (x.act (.poll ready (.ready rdllist))).events_ = 2 * x.events_ := by
  have hlength : (rdllist.take x.events_).length = x.events_ := by
    rw [List.length_take, Nat.min_eq_left (Nat.le_of_lt hmore)]
  have hne : rdllist.take x.events_ ≠ [] := fun hnil => by
    rw [hnil, List.length_nil] at hlength
    omega
  rw [(polled x ready hdistinct).size, if_pos ⟨hlength, hne⟩, Nat.mul_comm]

/-! ## Runs -/

theorem inv_act {fd : κ → Int} (hfd : Function.Injective fd) (h : x.registry.Inv fd)
    {a : Action κ} (ha : x.Faithful a) : (x.act a).registry.Inv fd := by
  cases a with
  | operate c op => exact Registry.inv_apply hfd h (c, op)
  | poll ready answer =>
    cases answer with
    | failed errno => exact h
    | ready rdllist =>
      obtain ⟨-, hpoller, -, hkept, -⟩ := polled x ready ha.distinct
      refine ⟨fun c => ?_, ?_, hpoller ▸ h.quiet⟩
      · obtain ⟨v, hv⟩ := hkept c
        rw [hv]
        exact h.fds c
      · refine h.agrees.congr (fun c _ => ⟨trivial, ?_⟩) (fun c _ hn => absurd trivial hn)
          (by rw [hpoller]) (by rw [hpoller])
        obtain ⟨v, hv⟩ := hkept c
        rw [hv]
        exact ⟨rfl, rfl, rfl⟩

theorem inv_foldl {fd : κ → Int} (hfd : Function.Injective fd) {as : List (Action κ)}
    (hg : x.Obeys as) (h : x.registry.Inv fd) : (as.foldl act x).registry.Inv fd := by
  induction as generalizing x with
  | nil => exact h
  | cons a as ih => exact ih (hg.2 _ rfl) (inv_act hfd h hg.1)

theorem events_le_act {a : Action κ} (ha : x.Faithful a) : x.events_ ≤ (x.act a).events_ := by
  cases a with
  | operate c op => exact Nat.le_refl _
  | poll ready answer =>
    cases answer with
    | failed errno => exact Nat.le_refl _
    | ready rdllist =>
      rw [(polled x ready ha.distinct).size]
      split <;> omega

theorem events_le_foldl {as : List (Action κ)} (hg : x.Obeys as) :
    x.events_ ≤ (as.foldl act x).events_ := by
  induction as generalizing x with
  | nil => exact Nat.le_refl _
  | cons a as ih => exact Nat.le_trans (events_le_act hg.1) (ih (hg.2 _ rfl))

/-- What is ready on a channel, of what it asks for and of what it cannot refuse. -/
def wanted (ready : Int → Events) (channel : Channel) : Events :=
  ready channel.fd_ &&& (channel.events_ ||| POLLERR ||| POLLHUP)

/-- After any run of polls and of operations on channels with distinct descriptors, a poll hands
`loop` only channels on record, each once and with just what is ready of what it asks for; and
every channel in the interest list for which something is ready, unless the vector is full. -/
theorem poll_reports {fd : κ → Int} (hfd : Function.Injective fd) (as : List (Action κ))
    (hg : (fresh fd).Obeys as) (ready : Int → Events) (rdllist : List (κ × Events))
    (hlist : Lists (as.foldl act (fresh fd)).registry ready rdllist) :
    let x := as.foldl act (fresh fd)
    let y := x.act (.poll ready (.ready rdllist))
    y.activeChannels_.Nodup ∧
    (∀ c ∈ y.activeChannels_, y.registry.poller.hasChannel c (y.registry.channel c) = true ∧
      (y.registry.channel c).index_ = .kAdded ∧
      (y.registry.channel c).revents_ = wanted ready (y.registry.channel c) ∧
      (y.registry.channel c).revents_ ≠ 0) ∧
    (rdllist.length ≤ x.events_ → ∀ c, (y.registry.channel c).index_ = .kAdded →
      wanted ready (y.registry.channel c) ≠ 0 → c ∈ y.activeChannels_) ∧
    (x.events_ < rdllist.length → y.events_ = 2 * x.events_) := by
  intro x y
  have hinv : x.registry.Inv fd := inv_foldl hfd hg (Registry.inv_fresh fd)
  have hinv' : y.registry.Inv fd := inv_act hfd hinv hlist
  obtain ⟨hactive, hpoller, hreported, hkept, -⟩ := polled x ready hlist.distinct
  have hmem : ∀ c revents, (c, revents) ∈ rdllist.take x.events_ →
      ∃ fd ev, x.registry.poller.epoll fd = some (c, ev) ∧
        revents = ready fd &&& (ev ||| POLLERR ||| POLLHUP) ∧ revents ≠ 0 := fun c revents hc =>
    (hlist.exact c revents).mp (List.mem_of_mem_take hc)
  refine ⟨?_, fun c hc => ?_, fun hroom c hadded hwanted => ?_, fun hmore => ?_⟩
  · rw [hactive]
    exact hlist.distinct.sublist ((List.take_sublist _ _).map _)
  · rw [hactive] at hc
    obtain ⟨⟨c', revents⟩, hin, rfl⟩ := List.mem_map.mp hc
    obtain ⟨fd', ev, hentry, hrevents, hsome⟩ := hmem c' revents hin
    obtain ⟨-, hfd', hadded, rfl⟩ := (hinv.agrees.epoll_iff fd' c' ev).mp hentry
    have hchannel := hreported c' revents hin
    have hindex : (y.registry.channel c').index_ = .kAdded := by
      rw [hchannel]
      exact hadded
    refine ⟨?_, hindex, ?_, ?_⟩
    · have hmap := (hinv'.agrees.map_iff (y.registry.channel c').fd_ c').mpr
        ⟨trivial, rfl, by rw [hindex]; decide⟩
      rw [EPollPoller.hasChannel, hmap]
      exact beq_self_eq_true _
    · rw [hchannel, wanted, hrevents, ← hfd']
    · rw [hchannel]
      exact hsome
  · obtain ⟨v, hv⟩ := hkept c
    have hadded' : (x.registry.channel c).index_ = .kAdded := by rwa [hv] at hadded
    have hentry := (hinv.agrees.epoll_iff (x.registry.channel c).fd_ c _).mpr
      ⟨trivial, rfl, hadded', rfl⟩
    have hin := (hlist.exact c _).mpr ⟨_, _, hentry, rfl, by rwa [hv] at hwanted⟩
    rw [hactive, List.take_of_length_le hroom]
    exact List.mem_map.mpr ⟨_, hin, rfl⟩
  · have hpos : 0 < x.events_ :=
      Nat.lt_of_lt_of_le (Nat.succ_pos 15) (events_le_foldl (x := fresh fd) hg)
    exact events_doubled x ready hlist.distinct hpos hmore

/-- Two channels on descriptors 5 and 6, the first of them enabled and ready. -/
def twoFds (c : Fin 2) : Int := (c.val : Int) + 5

def onlyFirst (fd : Int) : Events := if fd = 5 then POLLIN else 0

theorem injective_twoFds : Function.Injective twoFds := by
  intro a b h
  simp only [twoFds] at h
  omega

theorem lists_first : Lists ((fresh twoFds).act (.operate 0 .enableReading)).registry onlyFirst
    [(0, POLLIN)] := by
  have hepoll : ((fresh twoFds).act (.operate 0 .enableReading)).registry.poller.epoll =
      fun fd => if fd = 5 then some (0, Channel.kReadEvent) else none := by
    funext fd
    exact Function.update_apply _ _ _ _
  refine ⟨List.pairwise_singleton _ _, fun c revents => ?_⟩
  rw [hepoll]
  simp only [List.mem_singleton, Prod.mk.injEq]
  constructor
  · rintro ⟨rfl, rfl⟩
    exact ⟨5, Channel.kReadEvent, rfl, by decide, by decide⟩
  · rintro ⟨fd, ev, hentry, rfl, -⟩
    split at hentry
    · rename_i hfd
      obtain ⟨rfl, rfl⟩ := Prod.mk.inj (Option.some.inj hentry)
      subst hfd
      exact ⟨rfl, by decide⟩
    · cases hentry

theorem poll_reports_first : 0 ∈ (((fresh twoFds).act (.operate 0 .enableReading)).act
    (.poll onlyFirst (.ready [(0, POLLIN)]))).activeChannels_ := by
  have hg : (fresh twoFds).Obeys [.operate 0 .enableReading] := ⟨trivial, fun _ _ => trivial⟩
  obtain ⟨-, -, hready, -⟩ := poll_reports injective_twoFds _ hg onlyFirst _ lists_first
  exact hready (by decide) 0 (by decide) (by decide)

/-! ## How often a channel is left out -/

/-- The vector has no room for all that is ready. -/
def misses (x : Polling κ) : Action κ → Nat
  | .poll _ (.ready rdllist) => if x.events_ < rdllist.length then 1 else 0
  | _ => 0

/-- The polls of a run that leave a ready channel out. -/
def missed (x : Polling κ) : List (Action κ) → Nat
  | [] => 0
  | a :: as => x.misses a + missed (x.act a) as

/-- The most that is found ready by a poll of the run. -/
def AtMost (n : Nat) (as : List (Action κ)) : Prop :=
  ∀ ready rdllist, Action.poll ready (.ready rdllist) ∈ as → rdllist.length ≤ n

/-- With room for a `2 ^ m`-th of what may be ready, at most `m` polls leave something out. -/
theorem missed_le {as : List (Action κ)} (hg : x.Obeys as) (hpos : 0 < x.events_) {m : Nat}
    (hmost : AtMost (x.events_ * 2 ^ m) as) : x.missed as ≤ m := by
  induction as generalizing x m with
  | nil => exact Nat.zero_le m
  | cons a as ih =>
    have hgrow := events_le_act hg.1
    have hpos' : 0 < (x.act a).events_ := Nat.lt_of_lt_of_le hpos hgrow
    by_cases hmiss : x.misses a = 0
    · rw [missed, hmiss, Nat.zero_add]
      refine ih (hg.2 _ rfl) hpos' fun ready rdllist hin => ?_
      exact Nat.le_trans (hmost ready rdllist (List.mem_cons_of_mem _ hin))
        (Nat.mul_le_mul_right _ hgrow)
    · cases a with
      | operate c op => exact absurd rfl hmiss
      | poll ready answer =>
        cases answer with
        | failed errno => exact absurd rfl hmiss
        | ready rdllist =>
          have hmore : x.events_ < rdllist.length := by
            by_contra hroom
            exact hmiss (if_neg hroom)
          -- the vector doubles, and there was a doubling to come
          cases m with
          | zero =>
            have hroom := hmost ready rdllist List.mem_cons_self
            omega
          | succ m =>
            have hdouble := events_doubled x ready hg.1.distinct hpos hmore
            have hrest := ih (hg.2 _ rfl) hpos' (m := m) fun ready' rdllist' hin => by
              rw [hdouble, Nat.mul_comm 2, Nat.mul_assoc, ← Nat.pow_succ']
              exact hmost ready' rdllist' (List.mem_cons_of_mem _ hin)
            rw [missed, misses, if_pos hmore]
            omega

/-- The vector has at most twice the room that was ever needed. -/
theorem events_bounded {as : List (Action κ)} (hg : x.Obeys as) {n : Nat}
    (hsize : x.events_ ≤ 2 * n) (hmost : AtMost n as) : (as.foldl act x).events_ ≤ 2 * n := by
  induction as generalizing x with
  | nil => exact hsize
  | cons a as ih =>
    refine ih (hg.2 _ rfl) ?_ fun ready rdllist hin =>
      hmost ready rdllist (List.mem_cons_of_mem _ hin)
    cases a with
    | operate c op => exact hsize
    | poll ready answer =>
      cases answer with
      | failed errno => exact hsize
      | ready rdllist =>
        rw [(polled x ready hg.1.distinct).size]
        split
        · rename_i hfull
          have hroom := hmost ready rdllist List.mem_cons_self
          have hlength := hfull.1
          rw [List.length_take] at hlength
          omega
        · exact hsize

/-- In a run in which no poll finds more than `16 * 2 ^ k` channels ready, at most `k` polls
leave one of them out, and `events_` never has room for more than twice as many. -/
theorem polls_miss {fd : κ → Int} (as : List (Action κ)) (hg : (fresh fd).Obeys as) (k : Nat)
    (hmost : AtMost (kInitEventListSize * 2 ^ k) as) :
    (fresh fd).missed as ≤ k ∧
      (as.foldl act (fresh fd)).events_ ≤ 2 * (kInitEventListSize * 2 ^ k) := by
  refine ⟨missed_le hg (Nat.succ_pos 15) hmost, events_bounded hg ?_ hmost⟩
  have hpow : 1 ≤ 2 ^ k := Nat.one_le_two_pow
  have hfirst : (fresh fd).events_ = kInitEventListSize := rfl
  rw [hfirst, kInitEventListSize]
  omega

/-- One channel more than `events_` has room for at first, each of them enabled. -/
def seventeen (c : Fin 17) : Int := (c.val : Int) + 5

def allReady : EpollWait (Fin 17) := .ready ((List.finRange 17).map fun c => (c, POLLIN))

def enabled : List (Action (Fin 17)) := (List.finRange 17).map fun c => .operate c .enableReading

theorem lists_allReady {x : Polling (Fin 17)} (h : x.registry.Inv seventeen)
    (hall : ∀ c, (x.registry.channel c).index_ = .kAdded ∧
      (x.registry.channel c).events_ = Channel.kReadEvent) :
    Lists x.registry (fun _ => POLLIN) ((List.finRange 17).map fun c => (c, POLLIN)) := by
  refine ⟨by decide, fun c revents => ?_⟩
  have hin : (c, revents) ∈ (List.finRange 17).map (fun c => (c, POLLIN)) ↔ revents = POLLIN := by
    simp [eq_comm]
  rw [hin]
  constructor
  · rintro rfl
    obtain ⟨hadded, hreads⟩ := hall c
    have hentry := (h.agrees.epoll_iff _ c Channel.kReadEvent).mpr ⟨trivial, rfl, hadded, hreads⟩
    exact ⟨_, Channel.kReadEvent, hentry, by decide, by decide⟩
  · rintro ⟨fd, ev, hentry, rfl, -⟩
    obtain ⟨-, -, -, rfl⟩ := (h.agrees.epoll_iff fd c ev).mp hentry
    rw [(hall c).2]
    decide

theorem Obeys.append {as bs : List (Action κ)} (h : x.Obeys as)
    (h' : (as.foldl act x).Obeys bs) : x.Obeys (as ++ bs) := by
  induction as generalizing x with
  | nil => exact h'
  | cons a as ih =>
    refine ⟨h.1, fun y hy => ?_⟩
    obtain rfl := Option.some.inj hy
    exact ih (h.2 _ rfl) h'

/-- The first poll leaves one channel out, the second none. -/
def crowded : List (Action (Fin 17)) :=
  enabled ++ [.poll (fun _ => POLLIN) allReady, .poll (fun _ => POLLIN) allReady]

theorem polls_miss_one : (fresh seventeen).missed crowded = 1 ∧
    (crowded.foldl act (fresh seventeen)).events_ ≤ 2 * (kInitEventListSize * 2 ^ 1) := by
  have hfd : Function.Injective seventeen := by
    intro a b h
    simp only [seventeen] at h
    omega
  have henabled : (fresh seventeen).Obeys enabled := by
    have hoperate : ∀ a ∈ enabled, ∃ c op, a = Action.operate c op := by
      intro a ha
      obtain ⟨c, -, rfl⟩ := List.mem_map.mp ha
      exact ⟨c, .enableReading, rfl⟩
    refine (Execution.guarded_of_forall hoperate _).mono ?_
    rintro x _ ⟨c, op, rfl⟩
    trivial
  let x : Polling (Fin 17) := enabled.foldl act (fresh seventeen)
  have hinv : x.registry.Inv seventeen := inv_foldl hfd henabled (Registry.inv_fresh seventeen)
  have hlist := lists_allReady hinv (by decide +kernel)
  have hinv' : (x.act (.poll (fun _ => POLLIN) allReady)).registry.Inv seventeen :=
    inv_act hfd hinv hlist
  have hlist' := lists_allReady hinv' (by decide +kernel)
  have hg : (fresh seventeen).Obeys crowded := by
    refine Obeys.append henabled ⟨hlist, fun y hy => ?_⟩
    obtain rfl := Option.some.inj hy
    exact ⟨hlist', fun _ _ => trivial⟩
  have hmost : AtMost (kInitEventListSize * 2 ^ 1) crowded := by
    intro ready rdllist hin
    have hready : rdllist = (List.finRange 17).map fun c => (c, POLLIN) := by
      simp [crowded, enabled, allReady] at hin
      exact hin.2
    rw [hready]
    decide
  obtain ⟨hmissed, hroom⟩ := polls_miss _ hg 1 hmost
  exact ⟨Nat.le_antisymm hmissed (by decide +kernel), hroom⟩

end Polling

end Mymuduo

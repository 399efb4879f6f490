import Mymuduo.Poller.EPollPoller

/-!
# The poller's records agree

`Agrees` reads both maps off the channels: a channel stands in `channels_`
under its descriptor exactly while its index is not `kNew`, and in the kernel's
interest list, with its own pointer and mask, exactly while its index is
`kAdded`. It is stated for the channels of one loop, given by a predicate, so
that it also serves a loop whose channels come and go. Each operation keeps it
and issues legal calls only, provided no other registered channel has the same
descriptor.
-/

namespace Mymuduo

universe u

variable {κ : Type u} [DecidableEq κ]

structure Agrees (on : κ → Prop) (ch : κ → Channel) (p : EPollPoller κ) : Prop where
  map_iff : ∀ fd c, p.channels_ fd = some c ↔
    on c ∧ (ch c).fd_ = fd ∧ (ch c).index_ ≠ .kNew
  epoll_iff : ∀ fd c ev, p.epoll fd = some (c, ev) ↔
    on c ∧ (ch c).fd_ = fd ∧ (ch c).index_ = .kAdded ∧ (ch c).events_ = ev

/-- The kernel turns no legal call down, and no illegal one has been made. -/
structure Quiet (p : EPollPoller κ) : Prop where
  refuse : ∀ op fd, p.refuse op fd = false
  fatal : p.fatal = false
  legal : ∀ x ∈ p.issued, x.1.legal x.2 = true

/-- No other registered channel of the loop has the descriptor of `c`. -/
def Alone (on : κ → Prop) (ch : κ → Channel) (c : κ) : Prop :=
  ∀ c', on c' → (ch c').index_ ≠ .kNew → (ch c').fd_ = (ch c).fd_ → c' = c

section Records

omit [DecidableEq κ]

variable {on : κ → Prop} {ch : κ → Channel} {p : EPollPoller κ} {c : κ}

/-- The records of a channel depend on its descriptor, index and mask. Channels
that are not registered may join. -/
theorem Agrees.congr (h : Agrees on ch p) {on' : κ → Prop} {ch' : κ → Channel}
    {p' : EPollPoller κ} (hon : ∀ c, on c → on' c ∧ (ch' c).fd_ = (ch c).fd_ ∧
      (ch' c).index_ = (ch c).index_ ∧ (ch' c).events_ = (ch c).events_)
    (hnew : ∀ c, on' c → ¬ on c → (ch' c).index_ = .kNew)
    (hmap : p'.channels_ = p.channels_) (hepoll : p'.epoll = p.epoll) : Agrees on' ch' p' := by
  constructor
  · intro fd c
    rw [hmap, h.map_iff]
    by_cases hc : on c
    · obtain ⟨hc', hfd, hindex, -⟩ := hon c hc
      rw [hfd, hindex]
      exact and_congr_left fun _ => iff_of_true hc hc'
    · exact ⟨fun hx => absurd hx.1 hc, fun hx => absurd (hnew c hx.1 hc) hx.2.2⟩
  · intro fd c ev
    rw [hepoll, h.epoll_iff]
    by_cases hc : on c
    · obtain ⟨hc', hfd, hindex, hevents⟩ := hon c hc
      rw [hfd, hindex, hevents]
      exact and_congr_left fun _ => iff_of_true hc hc'
    · refine ⟨fun hx => absurd hx.1 hc, fun hx => ?_⟩
      have hadded := hx.2.2.1
      rw [hnew c hx.1 hc] at hadded
      cases hadded

theorem Agrees.map_at (h : Agrees on ch p) (hc : on c) (ha : Alone on ch c) :
    p.channels_ (ch c).fd_ = if (ch c).index_ = .kNew then none else some c := by
  split
  · rename_i hi
    cases hm : p.channels_ (ch c).fd_ with
    | none => rfl
    | some c' =>
      obtain ⟨hon, hfd, hne⟩ := (h.map_iff _ _).mp hm
      obtain rfl := ha c' hon hne hfd
      exact absurd hi hne
  · rename_i hi
    exact (h.map_iff _ _).mpr ⟨hc, rfl, hi⟩

theorem Agrees.epoll_at (h : Agrees on ch p) (hc : on c) (ha : Alone on ch c) :
    p.epoll (ch c).fd_ = if (ch c).index_ = .kAdded then some (c, (ch c).events_) else none := by
  split
  · rename_i hi
    exact (h.epoll_iff _ _ _).mpr ⟨hc, rfl, hi, rfl⟩
  · rename_i hi
    cases hm : p.epoll (ch c).fd_ with
    | none => rfl
    | some e =>
      obtain ⟨hon, hfd, hadd, -⟩ := (h.epoll_iff _ e.1 e.2).mp hm
      obtain rfl := ha e.1 hon (by rw [hadd]; decide) hfd
      exact absurd hadd hi

theorem update_legal {op : CtlOp} (channel : Channel) (hq : Quiet p)
    (hl : op.legal (p.epoll channel.fd_).isSome = true) :
    p.update op c channel =
      { p with
        issued := p.issued ++ [(op, (p.epoll channel.fd_).isSome)]
        epoll := EPollPoller.ctlEffect op channel.fd_ (c, channel.events_) p.epoll } := by
  simp [EPollPoller.update, hl, hq.refuse]

theorem epoll_update {op : CtlOp} (channel : Channel) (hq : Quiet p)
    (hl : op.legal (p.epoll channel.fd_).isSome = true) :
    (p.update op c channel).epoll =
      EPollPoller.ctlEffect op channel.fd_ (c, channel.events_) p.epoll := by
  rw [update_legal channel hq hl]

theorem Quiet.update {op : CtlOp} (channel : Channel) (hq : Quiet p)
    (hl : op.legal (p.epoll channel.fd_).isSome = true) : Quiet (p.update op c channel) := by
  rw [update_legal channel hq hl]
  refine ⟨hq.refuse, hq.fatal, fun x hx => ?_⟩
  rcases List.mem_append.mp hx with hx | hx
  · exact hq.legal x hx
  · obtain rfl := List.mem_singleton.mp hx
    exact hl

end Records

variable {on : κ → Prop} {ch : κ → Channel} {p p' : EPollPoller κ} {c : κ}

/-- A table filled from the channels, by what each has to put at its descriptor,
is filled from them again when the place of `c` is set to what `c` now puts. -/
theorem filled_update {β : Type u} {table : Int → Option β} (entry : κ → Channel → Option β)
    (hnew : ∀ c x, x.index_ = .kNew → entry c x = none)
    (h : ∀ fd b, table fd = some b ↔ ∃ c, on c ∧ (ch c).fd_ = fd ∧ entry c (ch c) = some b)
    (hc : on c) (ha : Alone on ch c) (x : Channel) (hfd : x.fd_ = (ch c).fd_) (fd : Int) (b : β) :
    Function.update table x.fd_ (entry c x) fd = some b ↔ ∃ c', on c' ∧
      (Function.update ch c x c').fd_ = fd ∧ entry c' (Function.update ch c x c') = some b := by
  by_cases hf : fd = x.fd_
  · subst hf
    rw [Function.update_self]
    constructor
    · intro hb
      exact ⟨c, hc, by simp, by simpa using hb⟩
    · rintro ⟨c', hon, hx, hb⟩
      by_cases hcc : c' = c
      · subst hcc
        simpa using hb
      · rw [Function.update_of_ne hcc] at hx hb
        refine absurd (ha c' hon (fun hi => ?_) (hx.trans hfd)) hcc
        rw [hnew c' _ hi] at hb
        cases hb
  · rw [Function.update_of_ne hf, h]
    refine exists_congr fun c' => and_congr_right fun _ => ?_
    by_cases hcc : c' = c
    · subst hcc
      rw [Function.update_self]
      exact iff_of_false (fun hx => hf (hx.1.symm.trans hfd.symm)) fun hx => hf hx.1.symm
    · rw [Function.update_of_ne hcc]

/-- What a channel puts into `channels_`. -/
def mapEntry (c : κ) (x : Channel) : Option κ := if x.index_ = .kNew then none else some c

/-- What a channel puts into the interest list. -/
def epollEntry (c : κ) (x : Channel) : Option (κ × Events) :=
  if x.index_ = .kAdded then some (c, x.events_) else none

omit [DecidableEq κ] in
theorem exists_mapEntry {fd : Int} :
    (∃ c', on c' ∧ (ch c').fd_ = fd ∧ mapEntry c' (ch c') = some c) ↔
      on c ∧ (ch c).fd_ = fd ∧ (ch c).index_ ≠ .kNew := by
  constructor
  · rintro ⟨c', hon, hfd, he⟩
    obtain ⟨hi, rfl⟩ : (ch c').index_ ≠ .kNew ∧ c' = c := by simpa [mapEntry] using he
    exact ⟨hon, hfd, hi⟩
  · rintro ⟨hon, hfd, hi⟩
    exact ⟨c, hon, hfd, if_neg hi⟩

omit [DecidableEq κ] in
theorem exists_epollEntry {fd : Int} {ev : Events} :
    (∃ c', on c' ∧ (ch c').fd_ = fd ∧ epollEntry c' (ch c') = some (c, ev)) ↔
      on c ∧ (ch c).fd_ = fd ∧ (ch c).index_ = .kAdded ∧ (ch c).events_ = ev := by
  constructor
  · rintro ⟨c', hon, hfd, he⟩
    obtain ⟨hi, rfl, rfl⟩ : (ch c').index_ = .kAdded ∧ c' = c ∧ (ch c').events_ = ev := by
      simpa [epollEntry] using he
    exact ⟨hon, hfd, hi, rfl⟩
  · rintro ⟨hon, hfd, hi, rfl⟩
    exact ⟨c, hon, hfd, if_pos hi⟩

/-- The records agree again when both maps are set, at the descriptor of `c`,
to what the new index of `c` asks for. -/
theorem Agrees.set (h : Agrees on ch p) (hc : on c) (ha : Alone on ch c) (x : Channel)
    (hfd : x.fd_ = (ch c).fd_)
    (hmap : p'.channels_ = Function.update p.channels_ x.fd_ (mapEntry c x))
    (hepoll : p'.epoll = Function.update p.epoll x.fd_ (epollEntry c x)) :
    Agrees on (Function.update ch c x) p' := by
  have hnone : ∀ (c : κ) (x : Channel), x.index_ = .kNew → epollEntry c x = none := fun c x hi =>
    if_neg (by rw [hi]; decide)
  constructor
  · intro fd c'
    rw [hmap, ← exists_mapEntry]
    exact filled_update mapEntry (fun _ _ hi => if_pos hi)
      (fun fd c => (h.map_iff fd c).trans exists_mapEntry.symm) hc ha x hfd fd c'
  · intro fd c' ev
    rw [hepoll, ← exists_epollEntry]
    exact filled_update epollEntry hnone
      (fun fd e => (h.epoll_iff fd e.1 e.2).trans exists_epollEntry.symm) hc ha x hfd fd (c', ev)

/-- `updateChannel` with any new mask. -/
theorem Agrees.updateChannel (h : Agrees on ch p) (hq : Quiet p) (hc : on c)
    (ha : Alone on ch c) (e : Events) :
    let r := p.updateChannel c { ch c with events_ := e }
    Agrees on (Function.update ch c r.1) r.2 ∧ Quiet r.2 := by
  have hmap := h.map_at hc ha
  have hep := h.epoll_at hc ha
  cases hi : (ch c).index_ with
  | kNew =>
    simp only [hi, if_true, reduceCtorEq, if_false] at hmap hep
    let x : Channel := { ch c with events_ := e, index_ := .kAdded }
    let p₁ : EPollPoller κ := { p with channels_ := Function.update p.channels_ x.fd_ (some c) }
    have hq₁ : Quiet p₁ := ⟨hq.refuse, hq.fatal, hq.legal⟩
    have hl : CtlOp.EPOLL_CTL_ADD.legal (p₁.epoll x.fd_).isSome = true := by
      simp [p₁, x, hep, CtlOp.legal]
    simp only [EPollPoller.updateChannel, hi]
    exact ⟨h.set hc ha x rfl (EPollPoller.update_channels c x p₁ _)
      (epoll_update x hq₁ hl), hq₁.update x hl⟩
  | kDeleted =>
    simp only [hi, reduceCtorEq, if_false] at hmap hep
    let x : Channel := { ch c with events_ := e, index_ := .kAdded }
    have hl : CtlOp.EPOLL_CTL_ADD.legal (p.epoll x.fd_).isSome = true := by
      simp [x, hep, CtlOp.legal]
    simp only [EPollPoller.updateChannel, hi]
    refine ⟨h.set hc ha x rfl ?_ (epoll_update x hq hl),
      hq.update x hl⟩
    exact (EPollPoller.update_channels c x p _).trans (Function.update_eq_self_iff.mpr hmap.symm).symm
  | kAdded =>
    simp only [hi, if_true, reduceCtorEq, if_false] at hmap hep
    let x : Channel := { ch c with events_ := e, index_ := .kAdded }
    have hpresent : (p.epoll x.fd_).isSome = true := by simp [x, hep]
    have hchannels : ∀ op, (p.update op c x).channels_ = Function.update p.channels_ x.fd_ (some c) :=
      fun op => (EPollPoller.update_channels c x p op).trans
        (Function.update_eq_self_iff.mpr hmap.symm).symm
    simp only [EPollPoller.updateChannel, hi]
    split
    · -- an empty mask: the kernel forgets the descriptor before the index changes
      let y : Channel := { x with index_ := .kDeleted }
      have hl : CtlOp.EPOLL_CTL_DEL.legal (p.epoll x.fd_).isSome = true := hpresent
      exact ⟨h.set hc ha y rfl (hchannels _) (epoll_update x hq hl), hq.update x hl⟩
    · have hl : CtlOp.EPOLL_CTL_MOD.legal (p.epoll x.fd_).isSome = true := hpresent
      exact ⟨h.set hc ha x rfl (hchannels _) (epoll_update x hq hl), hq.update x hl⟩

theorem Agrees.removeChannel (h : Agrees on ch p) (hq : Quiet p) (hc : on c)
    (ha : Alone on ch c) :
    let r := p.removeChannel c (ch c)
    Agrees on (Function.update ch c r.1) r.2 ∧ Quiet r.2 := by
  have hep := h.epoll_at hc ha
  let x : Channel := { ch c with index_ := .kNew }
  let p₁ : EPollPoller κ := { p with channels_ := Function.update p.channels_ x.fd_ none }
  have hq₁ : Quiet p₁ := ⟨hq.refuse, hq.fatal, hq.legal⟩
  simp only [EPollPoller.removeChannel]
  split
  · rename_i hi
    rw [if_pos hi] at hep
    have hl : CtlOp.EPOLL_CTL_DEL.legal (p₁.epoll (ch c).fd_).isSome = true := by
      simp [p₁, hep, CtlOp.legal]
    exact ⟨h.set hc ha x rfl (EPollPoller.update_channels c (ch c) p₁ _)
      (epoll_update (ch c) hq₁ hl), hq₁.update (ch c) hl⟩
  · rename_i hi
    rw [if_neg hi] at hep
    exact ⟨h.set hc ha x rfl rfl (Function.update_eq_self_iff.mpr hep.symm).symm, hq₁⟩

/-- Any channel operation keeps the records in agreement. -/
theorem Agrees.run (h : Agrees on ch p) (hq : Quiet p) (hc : on c) (ha : Alone on ch c)
    (op : ChannelOp) :
    let r := op.run c (ch c) p
    Agrees on (Function.update ch c r.1) r.2 ∧ Quiet r.2 := by
  cases op
  case remove => exact h.removeChannel hq hc ha
  all_goals exact h.updateChannel hq hc ha _

/-! ## Runs over the channels of one loop -/

structure Registry (κ : Type u) where
  channel : κ → Channel
  poller : EPollPoller κ

def Registry.apply (r : Registry κ) (x : κ × ChannelOp) : Registry κ :=
  let (channel, poller) := x.2.run x.1 (r.channel x.1) r.poller
  { channel := Function.update r.channel x.1 channel, poller := poller }

/-- Fresh channels on the given descriptors, and a fresh poller. -/
def Registry.fresh (fd : κ → Int) : Registry κ where
  channel c := { fd_ := fd c }
  poller := {}

structure Registry.Inv (fd : κ → Int) (r : Registry κ) : Prop where
  fds : ∀ c, (r.channel c).fd_ = fd c
  agrees : Agrees (fun _ => True) r.channel r.poller
  quiet : Quiet r.poller

omit [DecidableEq κ] in
theorem Registry.inv_fresh (fd : κ → Int) : (Registry.fresh fd).Inv fd where
  fds := fun _ => rfl
  agrees := ⟨by simp [Registry.fresh], by simp [Registry.fresh]⟩
  quiet := ⟨fun _ _ => rfl, rfl, by simp [Registry.fresh]⟩

omit [DecidableEq κ] in
theorem Registry.Inv.alone {fd : κ → Int} (hfd : Function.Injective fd) {r : Registry κ}
    (h : r.Inv fd) (c : κ) : Alone (fun _ => True) r.channel c := by
  intro c' _ _ heq
  rw [h.fds, h.fds] at heq
  exact hfd heq

theorem Registry.inv_apply {fd : κ → Int} (hfd : Function.Injective fd) {r : Registry κ}
    (h : r.Inv fd) (x : κ × ChannelOp) : (r.apply x).Inv fd := by
  obtain ⟨hagree, hquiet⟩ := h.agrees.run h.quiet trivial (h.alone hfd x.1) x.2
  refine ⟨fun c => ?_, hagree, hquiet⟩
  by_cases hc : c = x.1
  · subst hc
    simp [Registry.apply, h.fds]
  · simp [Registry.apply, Function.update_of_ne hc, h.fds]

theorem Registry.inv_foldl {fd : κ → Int} (hfd : Function.Injective fd)
    (ops : List (κ × ChannelOp)) {r : Registry κ} (h : r.Inv fd) :
    (ops.foldl Registry.apply r).Inv fd := by
  induction ops generalizing r with
  | nil => exact h
  | cons x ops ih => exact ih (Registry.inv_apply hfd h x)

/-- After any operations on channels with distinct descriptors the index of a
channel tells where it is registered, and with what mask. Every `epoll_ctl`
issued was legal, and no `LOG_FATAL` of `update` was reached. -/
theorem Registry.bookkeeping {fd : κ → Int} (hfd : Function.Injective fd)
    (ops : List (κ × ChannelOp)) :
    let r := ops.foldl Registry.apply (Registry.fresh fd)
    (∀ c, ((r.channel c).index_ = .kNew →
        (∀ n, r.poller.channels_ n ≠ some c) ∧ r.poller.channels_ (fd c) = none ∧
        (∀ n e, r.poller.epoll n ≠ some (c, e)) ∧ r.poller.epoll (fd c) = none) ∧
      ((r.channel c).index_ = .kAdded → r.poller.channels_ (fd c) = some c ∧
        r.poller.epoll (fd c) = some (c, (r.channel c).events_)) ∧
      ((r.channel c).index_ = .kDeleted → r.poller.channels_ (fd c) = some c ∧
        (∀ n e, r.poller.epoll n ≠ some (c, e)) ∧ r.poller.epoll (fd c) = none) ∧
      (r.poller.hasChannel c (r.channel c) = true ↔ (r.channel c).index_ ≠ .kNew)) ∧
    (∀ x ∈ r.poller.issued, x.1.legal x.2 = true) ∧ r.poller.fatal = false := by
  intro r
  have hi : r.Inv fd := Registry.inv_foldl hfd ops (Registry.inv_fresh fd)
  refine ⟨fun c => ?_, hi.quiet.legal, hi.quiet.fatal⟩
  have hmap := hi.agrees.map_at trivial (hi.alone hfd c)
  have hep := hi.agrees.epoll_at trivial (hi.alone hfd c)
  have hnomap : (r.channel c).index_ = .kNew → ∀ n, r.poller.channels_ n ≠ some c :=
    fun hidx n hn => ((hi.agrees.map_iff n c).mp hn).2.2 hidx
  have hnoep : (r.channel c).index_ ≠ .kAdded → ∀ n e, r.poller.epoll n ≠ some (c, e) :=
    fun hidx n e hn => hidx ((hi.agrees.epoll_iff n c e).mp hn).2.2.1
  rw [hi.fds] at hmap hep
  refine ⟨fun hidx => ?_, fun hidx => ?_, fun hidx => ?_, ?_⟩
  · exact ⟨hnomap hidx, by rw [hmap, if_pos hidx], hnoep (by rw [hidx]; decide),
      by rw [hep, if_neg (by rw [hidx]; decide)]⟩
  · exact ⟨by rw [hmap, if_neg (by rw [hidx]; decide)], by rw [hep, if_pos hidx]⟩
  · exact ⟨by rw [hmap, if_neg (by rw [hidx]; decide)], hnoep (by rw [hidx]; decide),
      by rw [hep, if_neg (by rw [hidx]; decide)]⟩
  · rw [EPollPoller.hasChannel, hi.fds, hmap]
    split <;> simp_all

/-- Two channels; one is registered, muted, removed and enabled again. -/
theorem Registry.bookkeeping_two :
    let r := [((0 : Fin 2), ChannelOp.enableReading), (1, .disableAll), (0, .disableAll),
      (0, .remove), (0, .enableWriting)].foldl Registry.apply
        (Registry.fresh fun c : Fin 2 => (c.val : Int) + 5)
    r.poller.fatal = false ∧ r.poller.hasChannel 0 (r.channel 0) = true := by
  have hfd : Function.Injective fun c : Fin 2 => (c.val : Int) + 5 := by
    intro a b h
    simp only at h
    omega
  obtain ⟨hc, -, hfatal⟩ := Registry.bookkeeping hfd [((0 : Fin 2), ChannelOp.enableReading),
    (1, .disableAll), (0, .disableAll), (0, .remove), (0, .enableWriting)]
  exact ⟨hfatal, (hc 0).2.2.2.mpr (by decide)⟩

end Mymuduo

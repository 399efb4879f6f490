import Mathlib.Logic.Function.Basic

/-!
# Channels and the epoll poller

A registration is recorded three times: in the channel's `index_`, in the
poller's map `channels_` and in the kernel's interest list. `updateChannel`
and `removeChannel` change the records one after the other; `update` issues
the `epoll_ctl`. A channel is named by its pointer, of an arbitrary type `κ`.
-/

namespace Mymuduo

universe u

abbrev Events := BitVec 32

def POLLIN : Events := 0x001
def POLLPRI : Events := 0x002
def POLLOUT : Events := 0x004
def POLLERR : Events := 0x008
def POLLHUP : Events := 0x010

/-- The values of `index_`: `kNew = -1`, `kAdded = 1`, `kDeleted = 2`. -/
inductive Index
  | kNew
  | kAdded
  | kDeleted
  deriving DecidableEq, Repr

structure Channel where
  fd_ : Int
  events_ : Events := 0
  revents_ : Events := 0
  index_ : Index := .kNew
  tied_ : Bool := false
  deriving DecidableEq, Repr

namespace Channel

def kNoneEvent : Events := 0
def kReadEvent : Events := POLLIN ||| POLLPRI
def kWriteEvent : Events := POLLOUT

def isNoneEvent (ch : Channel) : Bool := ch.events_ == kNoneEvent
def isWriting (ch : Channel) : Bool := (ch.events_ &&& kWriteEvent) != 0
def isReading (ch : Channel) : Bool := (ch.events_ &&& kReadEvent) != 0

end Channel

inductive CtlOp
  | EPOLL_CTL_ADD
  | EPOLL_CTL_MOD
  | EPOLL_CTL_DEL
  deriving DecidableEq, Repr

/-- An `epoll_ctl` is legal when it adds an absent descriptor, or modifies or
deletes a present one. -/
def CtlOp.legal : CtlOp → (present : Bool) → Bool
  | .EPOLL_CTL_ADD, present => !present
  | .EPOLL_CTL_MOD, present => present
  | .EPOLL_CTL_DEL, present => present

/-- The kernel's side: for each watched descriptor its `data.ptr` and mask. -/
abbrev InterestList (κ : Type u) := Int → Option (κ × Events)

structure EPollPoller (κ : Type u) where
  channels_ : Int → Option κ := fun _ => none
  epoll : InterestList κ := fun _ => none
  /-- calls the kernel turns down although they are legal (`ENOMEM`, `ENOSPC`) -/
  refuse : CtlOp → Int → Bool := fun _ _ => false
  /-- a `LOG_FATAL` of `update` has been reached -/
  fatal : Bool := false
  /-- history: each `epoll_ctl` with whether its descriptor was present -/
  issued : List (CtlOp × Bool) := []

namespace EPollPoller

variable {κ : Type u}

/-- The effect of a legal `epoll_ctl`. -/
def ctlEffect (op : CtlOp) (fd : Int) (event : κ × Events) (set : InterestList κ) :
    InterestList κ :=
  match op with
  | .EPOLL_CTL_ADD | .EPOLL_CTL_MOD => Function.update set fd (some event)
  | .EPOLL_CTL_DEL => Function.update set fd none

def update (operation : CtlOp) (self : κ) (channel : Channel) (p : EPollPoller κ) :
    EPollPoller κ :=
  let present := (p.epoll channel.fd_).isSome
  let p := { p with issued := p.issued ++ [(operation, present)] }
  if operation.legal present && !p.refuse operation channel.fd_ then
    { p with epoll := ctlEffect operation channel.fd_ (self, channel.events_) p.epoll }
  else { p with fatal := true }

def updateChannel (self : κ) (channel : Channel) (p : EPollPoller κ) : Channel × EPollPoller κ :=
  match channel.index_ with
  | .kNew =>
    let p := { p with channels_ := Function.update p.channels_ channel.fd_ (some self) }
    let channel := { channel with index_ := .kAdded }
    (channel, p.update .EPOLL_CTL_ADD self channel)
  | .kDeleted =>
    let channel := { channel with index_ := .kAdded }
    (channel, p.update .EPOLL_CTL_ADD self channel)
  | .kAdded =>
    if channel.isNoneEvent then
      let p := p.update .EPOLL_CTL_DEL self channel
      ({ channel with index_ := .kDeleted }, p)
    else (channel, p.update .EPOLL_CTL_MOD self channel)

def removeChannel (self : κ) (channel : Channel) (p : EPollPoller κ) : Channel × EPollPoller κ :=
  let p := { p with channels_ := Function.update p.channels_ channel.fd_ none }
  let p := if channel.index_ = .kAdded then p.update .EPOLL_CTL_DEL self channel else p
  ({ channel with index_ := .kNew }, p)

def hasChannel [DecidableEq κ] (self : κ) (channel : Channel) (p : EPollPoller κ) : Bool :=
  p.channels_ channel.fd_ == some self

end EPollPoller

/-- The operations a channel offers, each followed by its call of the poller. -/
inductive ChannelOp
  | enableReading
  | disableReading
  | enableWriting
  | disableWriting
  | disableAll
  | remove
  deriving DecidableEq, Repr

namespace ChannelOp

/-- The new `events_`; `remove` leaves it alone. -/
def mask : ChannelOp → Events → Events
  | .enableReading, e => e ||| Channel.kReadEvent
  | .disableReading, e => e &&& ~~~Channel.kReadEvent
  | .enableWriting, e => e ||| Channel.kWriteEvent
  | .disableWriting, e => e &&& ~~~Channel.kWriteEvent
  | .disableAll, _ => Channel.kNoneEvent
  | .remove, e => e

def run {κ : Type u} (op : ChannelOp) (self : κ) (channel : Channel) (p : EPollPoller κ) :
    Channel × EPollPoller κ :=
  let channel := { channel with events_ := op.mask channel.events_ }
  match op with
  | .remove => p.removeChannel self channel
  | _ => p.updateChannel self channel

end ChannelOp

/-! ## What an operation leaves alone -/

section Frame

variable {κ : Type u} (self : κ) (channel : Channel) (p : EPollPoller κ)

@[simp] theorem EPollPoller.update_channels (op : CtlOp) :
    (p.update op self channel).channels_ = p.channels_ := by
  simp only [EPollPoller.update]; split <;> rfl

@[simp] theorem EPollPoller.update_refuse (op : CtlOp) :
    (p.update op self channel).refuse = p.refuse := by
  simp only [EPollPoller.update]; split <;> rfl

theorem EPollPoller.updateChannel_channel :
    ∃ i, (p.updateChannel self channel).1 = { channel with index_ := i } := by
  unfold EPollPoller.updateChannel
  split
  · exact ⟨_, rfl⟩
  · exact ⟨_, rfl⟩
  · split
    · exact ⟨_, rfl⟩
    · exact ⟨channel.index_, rfl⟩

/-- An operation sets the mask and possibly the index, and nothing else. -/
theorem ChannelOp.run_channel (op : ChannelOp) : ∃ i,
    (op.run self channel p).1 = { channel with events_ := op.mask channel.events_, index_ := i } := by
  cases op
  case remove => exact ⟨.kNew, rfl⟩
  all_goals exact EPollPoller.updateChannel_channel self { channel with events_ := _ } p

@[simp] theorem ChannelOp.run_fd (op : ChannelOp) : (op.run self channel p).1.fd_ = channel.fd_ := by
  obtain ⟨i, h⟩ := ChannelOp.run_channel self channel p op
  rw [h]

@[simp] theorem ChannelOp.run_events (op : ChannelOp) :
    (op.run self channel p).1.events_ = op.mask channel.events_ := by
  obtain ⟨i, h⟩ := ChannelOp.run_channel self channel p op
  rw [h]

theorem EPollPoller.updateChannel_index :
    (p.updateChannel self channel).1.index_ ≠ .kNew := by
  unfold EPollPoller.updateChannel
  split
  · simp
  · simp
  · rename_i hi
    split <;> simp [hi]

/-- Every operation but `remove` leaves the channel registered. -/
theorem ChannelOp.run_index {op : ChannelOp} (hop : op ≠ .remove) :
    (op.run self channel p).1.index_ ≠ .kNew := by
  cases op
  case remove => exact absurd rfl hop
  all_goals exact EPollPoller.updateChannel_index self { channel with events_ := _ } p

end Frame

/-! ## Whose entries the interest list holds -/

section Entries

variable {κ : Type u} {self : κ} {channel : Channel} {p : EPollPoller κ}

/-- Every entry with the channel's pointer is at its descriptor, and there only
while its index is `kAdded`. -/
def EPollPoller.Holds (self : κ) (channel : Channel) (p : EPollPoller κ) : Prop :=
  ∀ fd ev, p.epoll fd = some (self, ev) → channel.fd_ = fd ∧ channel.index_ = .kAdded

/-- An entry is the channel's own, or one that was there before. -/
theorem EPollPoller.update_epoll {op : CtlOp} {fd : Int} {c : κ} {ev : Events}
    (hr : p.refuse op channel.fd_ = false)
    (h : (p.update op self channel).epoll fd = some (c, ev)) :
    (op ≠ .EPOLL_CTL_DEL ∧ c = self ∧ fd = channel.fd_) ∨
    (p.epoll fd = some (c, ev) ∧ (op = .EPOLL_CTL_DEL → fd ≠ channel.fd_)) := by
  simp only [EPollPoller.update] at h
  split at h
  · cases op
    case EPOLL_CTL_DEL =>
      by_cases hfd : fd = channel.fd_
      · subst hfd
        simp [EPollPoller.ctlEffect] at h
      · simp only [EPollPoller.ctlEffect, Function.update_of_ne hfd] at h
        exact .inr ⟨h, fun _ => hfd⟩
    all_goals
      by_cases hfd : fd = channel.fd_
      · subst hfd
        simp only [EPollPoller.ctlEffect, Function.update_self, Option.some.injEq,
          Prod.mk.injEq] at h
        exact .inl ⟨by decide, h.1.symm, rfl⟩
      · simp only [EPollPoller.ctlEffect, Function.update_of_ne hfd] at h
        exact .inr ⟨h, nofun⟩
  · rename_i hl
    refine .inr ⟨h, ?_⟩
    rintro rfl rfl
    simp only [CtlOp.legal, hr, Bool.not_false, Bool.and_true] at hl
    exact hl (by rw [h]; rfl)

/-- The entries after an `EPOLL_CTL_ADD` or `EPOLL_CTL_MOD`. -/
theorem EPollPoller.epoll_set (self : κ) (channel : Channel) (p : EPollPoller κ) (op : CtlOp)
    (hr : ∀ op fd, p.refuse op fd = false)
    (hold : ∀ fd ev, p.epoll fd = some (self, ev) → channel.fd_ = fd) :
    (∀ fd ev, (p.update op self channel).epoll fd = some (self, ev) → channel.fd_ = fd) ∧
    ∀ c fd ev, c ≠ self → (p.update op self channel).epoll fd = some (c, ev) →
      p.epoll fd = some (c, ev) := by
  constructor
  · intro fd ev h
    obtain ⟨-, -, hfd⟩ | ⟨h, -⟩ := update_epoll (hr _ _) h
    · exact hfd.symm
    · exact hold fd ev h
  · intro c fd ev hc h
    obtain ⟨-, hself, -⟩ | ⟨h, -⟩ := update_epoll (hr _ _) h
    · exact absurd hself hc
    · exact h

/-- An `EPOLL_CTL_DEL` leaves no entry of the channel. -/
theorem EPollPoller.epoll_del (self : κ) (channel : Channel) (p : EPollPoller κ)
    (hr : ∀ op fd, p.refuse op fd = false)
    (hold : ∀ fd ev, p.epoll fd = some (self, ev) → channel.fd_ = fd) (fd : Int) (ev : Events) :
    (p.update .EPOLL_CTL_DEL self channel).epoll fd ≠ some (self, ev) := by
  intro h
  obtain ⟨hne, -, -⟩ | ⟨h, hfd⟩ := update_epoll (hr _ _) h
  · exact hne rfl
  · exact hfd rfl (hold fd ev h).symm

theorem EPollPoller.updateChannel_epoll (channel : Channel)
    (hr : ∀ op fd, p.refuse op fd = false) (hh : p.Holds self channel) :
    let r := p.updateChannel self channel
    r.2.Holds self r.1 ∧ ∀ c fd ev, c ≠ self → r.2.epoll fd = some (c, ev) →
      p.epoll fd = some (c, ev) := by
  have hold : ∀ fd ev, p.epoll fd = some (self, ev) → channel.fd_ = fd := fun fd ev h =>
    (hh fd ev h).1
  unfold EPollPoller.updateChannel
  split
  · have hset := epoll_set self { channel with index_ := .kAdded }
      { p with channels_ := Function.update p.channels_ channel.fd_ (some self) }
      .EPOLL_CTL_ADD hr hold
    exact ⟨fun fd ev h => ⟨hset.1 fd ev h, rfl⟩, hset.2⟩
  · have hset := epoll_set self { channel with index_ := .kAdded } p .EPOLL_CTL_ADD hr hold
    exact ⟨fun fd ev h => ⟨hset.1 fd ev h, rfl⟩, hset.2⟩
  · rename_i hi
    split
    · exact ⟨fun fd ev h => absurd h (epoll_del self channel p hr hold fd ev),
        (epoll_set self channel p .EPOLL_CTL_DEL hr hold).2⟩
    · have hset := epoll_set self channel p .EPOLL_CTL_MOD hr hold
      exact ⟨fun fd ev h => ⟨hset.1 fd ev h, hi⟩, hset.2⟩

theorem EPollPoller.removeChannel_epoll (channel : Channel)
    (hr : ∀ op fd, p.refuse op fd = false) (hh : p.Holds self channel) :
    let r := p.removeChannel self channel
    r.2.Holds self r.1 ∧ ∀ c fd ev, c ≠ self → r.2.epoll fd = some (c, ev) →
      p.epoll fd = some (c, ev) := by
  have hold : ∀ fd ev, p.epoll fd = some (self, ev) → channel.fd_ = fd := fun fd ev h =>
    (hh fd ev h).1
  let p' : EPollPoller κ := { p with channels_ := Function.update p.channels_ channel.fd_ none }
  simp only [EPollPoller.removeChannel]
  split
  · exact ⟨fun fd ev h => absurd h (epoll_del self channel p' hr hold fd ev),
      (epoll_set self channel p' .EPOLL_CTL_DEL hr hold).2⟩
  · rename_i hi
    exact ⟨fun fd ev h => absurd (hh fd ev h).2 hi, fun _ _ _ _ h => h⟩

/-- After an operation the channel holds its entries again, and an entry of
another channel was there before. -/
theorem ChannelOp.run_epoll (op : ChannelOp) (hr : ∀ op fd, p.refuse op fd = false)
    (hh : p.Holds self channel) :
    let r := op.run self channel p
    r.2.Holds self r.1 ∧ ∀ c fd ev, c ≠ self → r.2.epoll fd = some (c, ev) →
      p.epoll fd = some (c, ev) := by
  cases op
  case remove => exact EPollPoller.removeChannel_epoll channel hr hh
  all_goals exact EPollPoller.updateChannel_epoll { channel with events_ := _ } hr hh

@[simp] theorem EPollPoller.updateChannel_refuse (channel : Channel) :
    (p.updateChannel self channel).2.refuse = p.refuse := by
  unfold EPollPoller.updateChannel
  split
  · exact update_refuse _ _ _ _
  · exact update_refuse _ _ _ _
  · split <;> exact update_refuse _ _ _ _

@[simp] theorem ChannelOp.run_refuse (op : ChannelOp) :
    (op.run self channel p).2.refuse = p.refuse := by
  cases op
  case remove =>
    simp only [ChannelOp.run, EPollPoller.removeChannel]
    split
    · exact EPollPoller.update_refuse _ _ _ _
    · rfl
  all_goals exact EPollPoller.updateChannel_refuse _

end Entries

/-! ## Write interest under the operations -/

theorem isWriting_enableWriting (e : Events) :
    ((ChannelOp.enableWriting.mask e) &&& Channel.kWriteEvent) ≠ 0 := by
  intro h
  have hbit := congrArg (fun v : Events => v.getLsbD 2) h
  simp [ChannelOp.mask, Channel.kWriteEvent, POLLOUT] at hbit

theorem isWriting_disableWriting (e : Events) :
    (ChannelOp.disableWriting.mask e) &&& Channel.kWriteEvent = 0 := by
  simp only [ChannelOp.mask]
  rw [BitVec.and_assoc, BitVec.and_comm (~~~Channel.kWriteEvent), BitVec.and_not_self]
  simp

theorem isWriting_enableReading (e : Events) :
    (ChannelOp.enableReading.mask e) &&& Channel.kWriteEvent = e &&& Channel.kWriteEvent := by
  simp only [ChannelOp.mask]
  rw [BitVec.and_or_distrib_right]
  have h0 : Channel.kReadEvent &&& Channel.kWriteEvent = 0 := by decide
  rw [h0]
  simp

end Mymuduo

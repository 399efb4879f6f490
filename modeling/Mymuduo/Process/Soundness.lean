import Mymuduo.Process.Setup

/-!
# Sound objects

What the code relies on after a check: the descriptor of a loop or an acceptor is one, and
a channel's index says what became of its last `EPOLL_CTL_ADD` or `EPOLL_CTL_DEL`. In a sound
process every function keeps this or stops the process, although `updateChannel` sets the
index before it adds the channel.
-/

namespace Mymuduo.Process

open Mymuduo.Library

/-! ## What the code relies on after a check -/

namespace Objects

/-- The channel's index agrees with what became of its last `EPOLL_CTL_ADD` or
`EPOLL_CTL_DEL`. -/
structure Registered (ch : ChannelId) (o : Objects) : Prop where
  added : (o.channels ch).index_ = .kAdded → o.lastCtl ch = some (.EPOLL_CTL_ADD, true)
  deleted : (o.channels ch).index_ = .kDeleted → o.lastCtl ch = some (.EPOLL_CTL_DEL, true)

/-- Everything but the channel `ch`, which is being changed, is as it should be. -/
structure SaneBut (ch : ChannelId) (o : Objects) : Prop where
  loops : ∀ ℓ l, o.loops ℓ = some l → 0 ≤ l.wakeupFd_
  acceptors : ∀ n a, o.acceptors n = some a → 0 ≤ a.acceptSocket_
  others : ∀ ch', ch' ≠ ch → o.Registered ch'

structure Sane (o : Objects) : Prop where
  loops : ∀ ℓ l, o.loops ℓ = some l → 0 ≤ l.wakeupFd_
  acceptors : ∀ n a, o.acceptors n = some a → 0 ≤ a.acceptSocket_
  registered : ∀ ch, o.Registered ch

variable {o : Objects} {ch : ChannelId}

theorem Sane.but (h : o.Sane) (ch : ChannelId) : o.SaneBut ch :=
  ⟨h.loops, h.acceptors, fun ch' _ => h.registered ch'⟩

theorem SaneBut.sane (h : o.SaneBut ch) (hch : o.Registered ch) : o.Sane := by
  refine ⟨h.loops, h.acceptors, ?_⟩
  intro ch'
  by_cases heq : ch' = ch
  · subst heq
    exact hch
  · exact h.others ch' heq

theorem Registered.congr {o' : Objects} (h : o.Registered ch)
    (hchannel : o'.channels ch = o.channels ch) (hctl : o'.lastCtl ch = o.lastCtl ch) :
    o'.Registered ch := by
  constructor
  · rw [hchannel, hctl]
    exact h.added
  · rw [hchannel, hctl]
    exact h.deleted

/-- Pollers, connections and threads may change. -/
theorem Sane.congr {o' : Objects} (h : o.Sane) (hloops : o'.loops = o.loops)
    (hacceptors : o'.acceptors = o.acceptors) (hchannels : o'.channels = o.channels)
    (hctl : o'.lastCtl = o.lastCtl) : o'.Sane := by
  refine ⟨?_, ?_, fun ch => (h.registered ch).congr (congrFun hchannels ch) (congrFun hctl ch)⟩
  · rw [hloops]
    exact h.loops
  · rw [hacceptors]
    exact h.acceptors

theorem Sane.setPoller (h : o.Sane) (loop : Nat) (f : Poller → Poller) :
    (o.setPoller loop f).Sane :=
  h.congr rfl rfl rfl rfl

theorem SaneBut.setChannel (h : o.SaneBut ch) (f : OwnedChannel → OwnedChannel) :
    (o.setChannel ch f).SaneBut ch := by
  refine ⟨h.loops, h.acceptors, ?_⟩
  intro ch' hne
  exact (h.others ch' hne).congr (Function.update_of_ne hne _ _) rfl

theorem SaneBut.recordCtl (h : o.SaneBut ch) (op : CtlOp) (succeeded : Bool) :
    (o.recordCtl op ch succeeded).SaneBut ch := by
  have hupdate : ∀ r, SaneBut ch { o with lastCtl := Function.update o.lastCtl ch r } := by
    intro r
    refine ⟨h.loops, h.acceptors, ?_⟩
    intro ch' hne
    exact (h.others ch' hne).congr rfl (Function.update_of_ne hne _ _)
  cases op
  · exact hupdate _
  · exact h
  · exact hupdate _

theorem registered_new (h : (o.channels ch).index_ = .kNew) : o.Registered ch := by
  constructor
  · intro hadded
    rw [h] at hadded
    cases hadded
  · intro hdeleted
    rw [h] at hdeleted
    cases hdeleted

/-- The index `kAdded` is right once the `EPOLL_CTL_ADD` has succeeded. -/
theorem registered_added (h : (o.channels ch).index_ = .kAdded) :
    (o.recordCtl .EPOLL_CTL_ADD ch true).Registered ch := by
  constructor
  · intro _
    exact Function.update_self ..
  · intro hdeleted
    have hkeep : (o.channels ch).index_ = .kDeleted := hdeleted
    rw [h] at hkeep
    cases hkeep

theorem registered_deleted :
    ((o.recordCtl .EPOLL_CTL_DEL ch true).set_index ch .kDeleted).Registered ch := by
  constructor
  · simp [set_index, setChannel]
  · intro _
    exact Function.update_self ..

theorem Sane.newChannel (h : o.Sane) (ch : ChannelId) (loop : Nat) (fd : Int) :
    (o.newChannel ch loop fd).Sane := by
  refine ⟨h.loops, h.acceptors, ?_⟩
  intro ch'
  by_cases heq : ch' = ch
  · subst heq
    exact registered_new (by simp [Objects.newChannel])
  · exact (h.registered ch').congr (Function.update_of_ne heq _ _) (Function.update_of_ne heq _ _)

theorem Sane.setLoop (h : o.Sane) {l : Option EventLoop}
    (hl : ∀ l', l = some l' → 0 ≤ l'.wakeupFd_) (loop : Nat) : (o.setLoop loop l).Sane := by
  refine ⟨?_, h.acceptors, fun ch => (h.registered ch).congr rfl rfl⟩
  intro ℓ l' hsome
  by_cases heq : ℓ = loop
  · subst heq
    exact hl l' (by simpa [Objects.setLoop] using hsome)
  · exact h.loops ℓ l' (by simpa [Objects.setLoop, Function.update_of_ne heq] using hsome)

theorem Sane.setAcceptor (h : o.Sane) {a : Option Acceptor}
    (ha : ∀ a', a = some a' → 0 ≤ a'.acceptSocket_) (acceptor : Nat) :
    (o.setAcceptor acceptor a).Sane := by
  refine ⟨h.loops, ?_, fun ch => (h.registered ch).congr rfl rfl⟩
  intro n a' hsome
  by_cases heq : n = acceptor
  · subst heq
    exact ha a' (by simpa [Objects.setAcceptor] using hsome)
  · exact h.acceptors n a' (by simpa [Objects.setAcceptor, Function.update_of_ne heq] using hsome)

end Objects

open Objects

/-! ## The poller's functions -/

theorem keeps_update (operation : CtlOp) (ch : ChannelId) {P : Objects → Prop} :
    Keeps P (update operation ch) fun _ o => ∃ o', P o' ∧ o = o'.recordCtl operation ch true := by
  unfold update
  refine Keeps.load ?_
  intro o ho
  refine Keeps.checked rfl ?_ ?_
  · intro fd
    refine Keeps.weaken (keeps_log _) ?_ fun _ _ h => h
    rintro _ ⟨o', rfl, rfl⟩
    exact ⟨o', ho, rfl⟩
  · simp only [Int.reduceNeg, Int.reduceLT, if_true]
    split
    · exact Halting.Triple.bind_ended (fatal_stops rfl (by simp [LogStream.shift]))
    · exact Halting.Triple.bind_ended (fatal_stops rfl (by simp [LogStream.shift]))

/-- The index is set before the `EPOLL_CTL_ADD`. -/
theorem keeps_add (ch : ChannelId) :
    Keeps (SaneBut ch) (store (Objects.set_index ch .kAdded) >>= fun _ => update .EPOLL_CTL_ADD ch)
      fun _ => Sane := by
  have hset : Keeps (SaneBut ch) (store (Objects.set_index ch .kAdded))
      fun _ o => o.SaneBut ch ∧ (o.channels ch).index_ = .kAdded := by
    refine Keeps.store ?_
    intro o ho
    refine ⟨ho.setChannel _, ?_⟩
    simp [set_index, setChannel]
  refine Keeps.bind hset ?_
  intro _
  refine Keeps.weaken (keeps_update _ ch) (fun _ h => h) ?_
  rintro _ _ ⟨o, ⟨ho, hadded⟩, rfl⟩
  exact (ho.recordCtl _ _).sane (registered_added hadded)

theorem keeps_updateChannel (ch : ChannelId) : Keeps Sane (updateChannel ch) fun _ => Sane := by
  unfold updateChannel
  refine Keeps.load ?_
  intro o ho
  refine Keeps.bind (keeps_log _) ?_
  intro _
  refine Keeps.ite ?_ ?_
  · intro _
    refine Keeps.ite ?_ ?_
    · intro _
      refine Keeps.bind (Q := fun _ => SaneBut ch) (Keeps.store ?_) fun _ => keeps_add ch
      rintro _ rfl
      exact (ho.setPoller _ _).but ch
    · intro _
      exact Keeps.again (keeps_add ch) (ho.but ch)
  · intro hindex
    have hadded : (o.channels ch).index_ = .kAdded := by
      cases h : (o.channels ch).index_ with
      | kNew => exact absurd (.inl h) hindex
      | kAdded => rfl
      | kDeleted => exact absurd (.inr h) hindex
    refine Keeps.ite ?_ ?_
    · intro _
      refine Keeps.bind (keeps_update _ ch) ?_
      intro _
      refine Keeps.store ?_
      rintro _ ⟨_, rfl, rfl⟩
      exact (((ho.but ch).recordCtl _ _).setChannel _).sane registered_deleted
    · intro _
      refine Keeps.weaken (keeps_update _ ch) (fun _ h => h) ?_
      rintro _ _ ⟨_, rfl, rfl⟩
      exact ho

theorem keeps_removeChannel (ch : ChannelId) : Keeps Sane (removeChannel ch) fun _ => Sane := by
  have hlast : Keeps (SaneBut ch) (store (Objects.set_index ch .kNew)) fun _ => Sane := by
    refine Keeps.store ?_
    intro o ho
    exact (ho.setChannel _).sane (registered_new (by simp [setChannel]))
  unfold removeChannel
  refine Keeps.load ?_
  intro o ho
  refine Keeps.bind (Q := fun _ => SaneBut ch) (Keeps.store ?_) ?_
  · rintro _ rfl
    exact (ho.setPoller _ _).but ch
  intro _
  refine Keeps.bind (keeps_log _) ?_
  intro _
  refine Keeps.ite ?_ ?_
  · intro _
    refine Keeps.bind (keeps_update _ ch) ?_
    intro _
    refine Keeps.weaken hlast ?_ fun _ _ h => h
    rintro _ ⟨o', ho', rfl⟩
    exact ho'.recordCtl _ _
  · intro _
    exact hlast

theorem keeps_channelOp (op : ChannelOp) (ch : ChannelId) :
    Keeps Sane (channelOp op ch) fun _ => Sane := by
  have hmask : Keeps Sane (store (Objects.setChannel ch fun channel =>
      { channel with events_ := op.mask channel.events_ })) fun _ => Sane := by
    refine Keeps.store ?_
    intro o ho
    refine ((ho.but ch).setChannel _).sane ⟨?_, ?_⟩
    · intro hadded
      exact (ho.registered ch).added (by simpa [Objects.setChannel] using hadded)
    · intro hdeleted
      exact (ho.registered ch).deleted (by simpa [Objects.setChannel] using hdeleted)
  cases op
  case remove => exact keeps_removeChannel ch
  all_goals exact Keeps.bind hmask fun _ => keeps_updateChannel ch

/-! ## Agreement with the poller's model

The model of `EPollPoller` has a kernel of its own and goes on after a `LOG_FATAL`. What it
says of the channel holds of a sound process, whatever its poller `q` is. -/

section Agreement

variable {ch : ChannelId} {c : Channel} (q : EPollPoller ChannelId)

/-- The channel at `ch`, without its loop. -/
def Has (ch : ChannelId) (c : Channel) (o : Objects) : Prop := (o.channels ch).toChannel = c

theorem Has.set_index {o : Objects} (h : Has ch c o) (i : Index) :
    Has ch { c with index_ := i } (o.set_index ch i) := by
  subst h
  simp [Has, Objects.set_index, setChannel]

theorem has_update (operation : CtlOp) :
    Keeps (Has ch c) (update operation ch) fun _ => Has ch c := by
  refine Keeps.weaken (keeps_update operation ch) (fun _ h => h) ?_
  rintro _ _ ⟨o, ho, rfl⟩
  cases operation <;> exact ho

theorem has_set_index (i : Index) :
    Keeps (Has ch c) (store (Objects.set_index ch i)) fun _ => Has ch { c with index_ := i } :=
  Keeps.store fun _ ho => ho.set_index i

theorem has_updateChannel :
    Keeps (Has ch c) (updateChannel ch) fun _ => Has ch (q.updateChannel ch c).1 := by
  unfold updateChannel
  refine Keeps.load ?_
  rintro o rfl
  have hnow : Has ch (o.channels ch).toChannel o := rfl
  refine Keeps.bind (Keeps.again (keeps_log _) hnow) fun _ => ?_
  cases hi : (o.channels ch).index_ with
  | kNew =>
    have hres : (q.updateChannel ch (o.channels ch).toChannel).1 =
        { (o.channels ch).toChannel with index_ := .kAdded } := by
      simp [EPollPoller.updateChannel, hi]
    rw [hres]
    refine Keeps.bind (Q := fun _ => Has ch (o.channels ch).toChannel) ?_ fun _ => ?_
    · exact Keeps.store fun _ ho => ho
    exact Keeps.bind (has_set_index _) fun _ => has_update _
  | kDeleted =>
    have hres : (q.updateChannel ch (o.channels ch).toChannel).1 =
        { (o.channels ch).toChannel with index_ := .kAdded } := by
      simp [EPollPoller.updateChannel, hi]
    rw [hres]
    exact Keeps.bind (has_set_index _) fun _ => has_update _
  | kAdded =>
    rw [if_neg (by decide)]
    refine Keeps.ite ?_ ?_
    · intro hnone
      have hres : (q.updateChannel ch (o.channels ch).toChannel).1 =
          { (o.channels ch).toChannel with index_ := .kDeleted } := by
        simp [EPollPoller.updateChannel, hi, hnone]
      rw [hres]
      exact Keeps.bind (has_update _) fun _ => has_set_index _
    · intro hsome
      have hres : (q.updateChannel ch (o.channels ch).toChannel).1 = (o.channels ch).toChannel := by
        simp [EPollPoller.updateChannel, hi, hsome]
      rw [hres]
      exact has_update _

theorem has_removeChannel :
    Keeps (Has ch c) (removeChannel ch) fun _ => Has ch (q.removeChannel ch c).1 := by
  have hlast : Keeps (Has ch c) (store (Objects.set_index ch .kNew))
      fun _ => Has ch (q.removeChannel ch c).1 := has_set_index _
  unfold removeChannel
  refine Keeps.load ?_
  intro o ho
  refine Keeps.bind (Q := fun _ => Has ch c) (Keeps.store ?_) fun _ => ?_
  · rintro _ rfl
    exact ho
  refine Keeps.bind (keeps_log _) fun _ => Keeps.ite ?_ ?_
  · exact fun _ => Keeps.bind (has_update _) fun _ => hlast
  · exact fun _ => hlast

/-- An operation on a channel does to it what the poller's model says. -/
theorem has_channelOp (op : ChannelOp) :
    Keeps (Has ch c) (channelOp op ch) fun _ => Has ch (op.run ch c q).1 := by
  have hmask : Keeps (Has ch c) (store (Objects.setChannel ch fun channel =>
      { channel with events_ := op.mask channel.events_ }))
      fun _ => Has ch { c with events_ := op.mask c.events_ } := by
    refine Keeps.store ?_
    rintro o rfl
    simp [Has, Objects.setChannel]
  cases op
  case remove => exact has_removeChannel q
  all_goals exact Keeps.bind hmask fun _ => has_updateChannel q

end Agreement

/-! ## Event loops -/

theorem keeps_newEPollPoller (loop : Nat) : Keeps Sane (newEPollPoller loop) fun _ => Sane := by
  unfold newEPollPoller
  refine Keeps.bind (keeps_call rfl) ?_
  intro epollfd
  refine Keeps.bind (Q := fun _ => Sane) (Keeps.store ?_) ?_
  · intro o ho
    exact ho.setPoller _ _
  intro _
  refine Keeps.ite ?_ ?_
  · intro _
    exact keeps_log _
  · intro _
    exact Keeps.pure fun _ h => h

/-- A call for a descriptor: what is returned is not -1. -/
theorem keeps_descriptor {f : SystemCall} (hf : f.fatal = true)
    (hvalue : ∀ fd, 0 ≤ f.value (.ok fd)) (hrecord : ∀ o : Objects, o.record f true = o)
    {l : Nat → LogStream} (hl : ∀ e, (l e).logLevel_ = .FATAL)
    (hss : ∀ e, (l e).ss_.isEmpty = false) {P : Objects → Prop} :
    Keeps P
      (do
        let fd ← call f
        if fd < 0 then
          log (l (← errno))
        return fd)
      fun fd o => 0 ≤ fd ∧ P o := by
  refine Keeps.checked hf ?_ ?_
  · intro fd
    rw [if_neg (Int.not_lt.mpr (hvalue fd))]
    refine Keeps.pure ?_
    rintro _ ⟨o, ho, rfl⟩
    rw [hrecord]
    exact ⟨hvalue fd, ho⟩
  · exact read_errno fun e => Halting.Triple.bind_ended (fatal_stops (hl e) (hss e))

/-- A call that returns zero. -/
theorem keeps_status {f : SystemCall} (hf : f.fatal = true) (hvalue : ∀ fd, f.value (.ok fd) = 0)
    (hrecord : ∀ o : Objects, o.record f true = o) {l : Nat → LogStream}
    (hl : ∀ e, (l e).logLevel_ = .FATAL) (hss : ∀ e, (l e).ss_.isEmpty = false)
    {P : Objects → Prop} :
    Keeps P
      (do
        let result ← call f
        if result ≠ 0 then
          log (l (← errno)))
      fun _ => P := by
  refine Keeps.checked hf ?_ ?_
  · intro fd
    rw [if_neg (not_not.mpr (hvalue fd))]
    refine Keeps.pure ?_
    rintro _ ⟨o, ho, rfl⟩
    rw [hrecord]
    exact ho
  · exact read_errno fun e => fatal_stops (hl e) (hss e)

theorem keeps_createEventfd {P : Objects → Prop} :
    Keeps P createEventfd fun evtfd o => 0 ≤ evtfd ∧ P o :=
  keeps_descriptor rfl (by simp [SystemCall.value]) (fun _ => rfl) (fun _ => rfl)
    (by simp [LogStream.shift])

theorem keeps_newEventLoop (loop tid : Nat) : Keeps Sane (newEventLoop loop tid) fun _ => Sane := by
  unfold newEventLoop
  refine Keeps.bind (keeps_newEPollPoller loop) fun _ => ?_
  refine Keeps.bind keeps_createEventfd fun wakeupFd => ?_
  refine Keeps.bind (Q := fun _ => Sane) (Keeps.store ?_) fun _ => ?_
  · rintro o ⟨hfd, ho⟩
    refine ho.setLoop ?_ loop
    rintro _ ⟨⟩
    exact hfd
  refine Keeps.bind (Q := fun _ => Sane) (Keeps.store ?_) fun _ => ?_
  · intro o ho
    exact ho.newChannel _ _ _
  refine Keeps.bind (keeps_log _) fun _ => ?_
  refine Keeps.load ?_
  intro o ho
  cases o.t_loopInThisThread tid with
  | some other =>
    refine Keeps.bind (keeps_log _) fun _ => ?_
    exact Keeps.again (keeps_channelOp _ _) ho
  | none =>
    refine Keeps.bind (Q := fun _ => Sane) (Keeps.store ?_) fun _ => keeps_channelOp _ _
    rintro _ rfl
    exact ho.congr rfl rfl rfl rfl

theorem keeps_deleteEventLoop (loop tid : Nat) :
    Keeps Sane (deleteEventLoop loop tid) fun _ => Sane := by
  unfold deleteEventLoop
  refine Keeps.load ?_
  intro o ho
  refine Keeps.bind (Q := fun _ => Sane) ?_ fun _ => ?_
  · exact Keeps.again (keeps_log _) ho
  refine Keeps.bind (keeps_channelOp _ _) fun _ => ?_
  refine Keeps.bind (keeps_channelOp _ _) fun _ => ?_
  refine Keeps.bind (keeps_call rfl) fun _ => ?_
  refine Keeps.bind (Q := fun _ => Sane) (Keeps.store ?_) fun _ => ?_
  · exact fun o ho => ho.congr rfl rfl rfl rfl
  refine Keeps.bind (keeps_call rfl) fun _ => ?_
  refine Keeps.store ?_
  intro o ho
  exact ho.setLoop (by simp) loop

/-! ## Acceptors -/

theorem keeps_createNonblocking {P : Objects → Prop} :
    Keeps P createNonblocking fun sockfd o => 0 ≤ sockfd ∧ P o :=
  keeps_descriptor rfl (by simp [SystemCall.value]) (fun _ => rfl) (fun _ => rfl)
    (by simp [LogStream.shift])

theorem keeps_bindAddress (sockfd : Int) {P : Objects → Prop} :
    Keeps P (bindAddress sockfd) fun _ => P :=
  keeps_status rfl (fun _ => rfl) (fun _ => rfl) (fun _ => rfl) (by simp [LogStream.shift])

theorem keeps_listen (sockfd : Int) {P : Objects → Prop} :
    Keeps P (listen sockfd) fun _ => P := by
  unfold listen
  refine Keeps.bind (keeps_log _) fun _ => ?_
  exact keeps_status rfl (fun _ => rfl) (fun _ => rfl) (fun _ => rfl) (by simp [LogStream.shift])

theorem keeps_setReusePort (sockfd : Int) (on : Bool) {P : Objects → Prop} :
    Keeps P (setReusePort sockfd on) fun _ => P := by
  unfold setReusePort
  refine Keeps.bind (keeps_call rfl) fun ret => ?_
  refine Keeps.ite ?_ ?_
  · intro _
    exact keeps_log _
  · intro _
    exact Keeps.pure fun _ h => h

theorem keeps_newAcceptor (acceptor loop : Nat) :
    Keeps Sane (newAcceptor acceptor loop) fun _ => Sane := by
  unfold newAcceptor
  refine Keeps.bind keeps_createNonblocking fun sockfd => ?_
  refine Keeps.bind (Q := fun _ => Sane) (Keeps.store ?_) fun _ => ?_
  · rintro o ⟨hfd, ho⟩
    refine ho.setAcceptor ?_ acceptor
    rintro _ ⟨⟩
    exact hfd
  refine Keeps.bind (Q := fun _ => Sane) (Keeps.store ?_) fun _ => ?_
  · intro o ho
    exact ho.newChannel _ _ _
  refine Keeps.bind (Q := fun _ => Sane) ?_ fun _ => ?_
  · exact Keeps.bind (keeps_call rfl) fun _ => Keeps.pure fun _ h => h
  refine Keeps.bind (keeps_setReusePort _ _) fun _ => ?_
  exact keeps_bindAddress _

theorem keeps_acceptorListen (acceptor : Nat) :
    Keeps Sane (acceptorListen acceptor) fun _ => Sane := by
  unfold acceptorListen
  refine Keeps.bind (keeps_log _) fun _ => ?_
  refine Keeps.load ?_
  intro o ho
  cases ha : o.acceptors acceptor with
  | none =>
    exact Keeps.again (Keeps.pure fun _ h => h) ho
  | some a =>
    refine Keeps.bind (Q := fun _ => Sane) (Keeps.store ?_) fun _ => ?_
    · rintro _ rfl
      refine ho.setAcceptor ?_ acceptor
      rintro _ ⟨⟩
      exact ho.acceptors acceptor a ha
    refine Keeps.bind (keeps_listen _) fun _ => ?_
    exact keeps_channelOp _ _

theorem keeps_deleteAcceptor (acceptor : Nat) :
    Keeps Sane (deleteAcceptor acceptor) fun _ => Sane := by
  unfold deleteAcceptor
  refine Keeps.load ?_
  intro o ho
  refine Keeps.bind (Q := fun _ => Sane) ?_ fun _ => ?_
  · exact Keeps.again (keeps_channelOp _ _) ho
  refine Keeps.bind (keeps_channelOp _ _) fun _ => ?_
  refine Keeps.bind (keeps_call rfl) fun _ => ?_
  refine Keeps.store ?_
  intro o ho
  exact ho.setAcceptor (by simp) acceptor

end Mymuduo.Process

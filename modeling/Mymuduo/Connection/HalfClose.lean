import Mathlib.Data.Fintype.Basic
import Mymuduo.Connection.CrossSend

/-!
# Half-close after the messages accepted before it

`shutdownInLoop` and the drain branch of `handleWrite` look at write interest
only; a send that is still on its way to the loop's thread they do not see.
Along a run in which `shutdownWrite` is called only while no send is on its
way, it comes after every message whose `send` has returned, and nothing is
written after it.
-/

namespace Mymuduo.Connection.SharedConn

open Mymuduo.Library Mymuduo.Library.Execution

universe u v

variable {T : Type u} {A : Type v}

/-- The message a functor carries. -/
def carries : Functor T A → Option (Message T)
  | .sendInLoop _ message => some message
  | _ => none

def isSending : Caller T A → Bool
  | .sending .. => true
  | _ => false

/-- The messages in the queue. -/
def inQueue (s : SharedConn T A) : List (Message T) := s.queue.waiting.filterMap carries

/-- No send is between its test of `state_` and the run of its functor. -/
def NoneOnItsWay (s : SharedConn T A) : Prop :=
  s.inQueue = [] ∧ ∀ t, isSending (s.caller t) = false

/-- The step calls `Socket::shutdownWrite`. -/
def callsShutdownWrite (s : SharedConn T A) : Action T A → Bool
  | .loopShutdown => s.site.conn.state_ == .kConnected && !s.site.conn.channel_.isWriting
  | .handleWrite r => s.site.conn.state_ == .kDisconnecting && drains s.site r
  | .start _ =>
    match s.queue.start with
    | some (.shutdownInLoop, _) => !s.site.conn.channel_.isWriting
    | _ => false
  | _ => false

/-- The peer neither resets nor closes, and the server keeps the connection. -/
def Survives (s : SharedConn T A) : Action T A → Prop
  | .handleClose | .queueDestroyed => False
  | .handleRead r => (s.site.conn.inputBuffer_.readFd r).1 ≠ 0
  | .loopSend _ r | .start r => Site.faultError r = false
  | _ => True

variable [DecidableEq T] [DecidableEq A]

/-- Captured strings stay, the connection survives, and `shutdownWrite` is
called only while no send is on its way. -/
structure Graceful (s : SharedConn T A) (a : Action T A) : Prop where
  intact : s.Intact a
  survives : s.Survives a
  unhurried : s.callsShutdownWrite a = true → s.NoneOnItsWay

instance (s : SharedConn T A) : ∀ a, Decidable (s.Survives a)
  | .handleClose | .queueDestroyed => .isFalse id
  | .handleRead _ => inferInstanceAs (Decidable (_ ≠ _))
  | .loopSend .. | .start _ => inferInstanceAs (Decidable (_ = _))
  | .send .. | .enqueueSend _ | .shutdown _ | .storeDisconnecting _ | .enqueueShutdown _
  | .overwrite .. | .loopShutdown | .handleWrite _ | .swap | .finish => .isTrue trivial

instance [Fintype T] (s : SharedConn T A) : Decidable s.NoneOnItsWay :=
  inferInstanceAs (Decidable (_ ∧ _))

instance [Fintype T] (s : SharedConn T A) (a : Action T A) : Decidable (s.Graceful a) :=
  decidable_of_iff
    (s.Intact a ∧ s.Survives a ∧ (s.callsShutdownWrite a = true → s.NoneOnItsWay))
    ⟨fun ⟨h1, h2, h3⟩ => ⟨h1, h2, h3⟩, fun h => ⟨h.intact, h.survives, h.unhurried⟩⟩

omit [DecidableEq T] [DecidableEq A] in
theorem start_carries {q q' : TaskQueue (Functor T A)} {f : Functor T A}
    (h : q.start = some (f, q')) :
    q.waiting.filterMap carries = (carries f).toList ++ q'.waiting.filterMap carries := by
  rw [(TaskQueue.waiting_of_start h).1]
  cases f <;> rfl

omit [DecidableEq T] [DecidableEq A] in
/-- Notices carry no message. -/
@[simp] theorem inQueue_act (f : Site Unit → Site Unit) (s : SharedConn T A) :
    (s.act f).inQueue = s.inQueue := by
  have hnil : ∀ ns : List Notice,
      (ns.map (Functor.notice : Notice → Functor T A)).filterMap carries = [] := fun ns => by
    simp [List.filterMap_map, carries, Function.comp_def]
  simp [inQueue, act, hnil]

/-- The messages handed over so far. -/
def messages (s : SharedConn T A) : List (Message T) := s.handed.map (·.message)

structure Tidy (s : SharedConn T A) : Prop where
  isOpen : Open s.site (s.messages.map (·.text))
  state : s.site.conn.state_ = .kConnected ∨ s.site.conn.state_ = .kDisconnecting
  plain : ∀ f ∈ s.queue.waiting, f ≠ .connectEstablished ∧ f ≠ .connectDestroyed
  leaving : .shutdownInLoop ∈ s.queue.waiting ∨ (∃ t, s.caller t = .left) →
    s.site.conn.state_ = .kDisconnecting
  between : s.calling = false → s.queue.todo = []
  settled : (s.messages ++ s.inQueue).Perm s.returned
  uncut : s.site.conn.socket_.writeShut = false → s.cut = none
  shut : s.site.conn.socket_.writeShut = true →
    s.site.conn.state_ = .kDisconnecting ∧ s.site.conn.outputBuffer_.contents = [] ∧
      s.NoneOnItsWay ∧
      s.cut = some (s.site.conn.socket_.accepted, s.returned)

section Step

variable {s s' : SharedConn T A}

omit [DecidableEq T] [DecidableEq A] in
/-- A method on the loop's thread that adds no message to the stream. -/
theorem tidy_act (h : s.Tidy) (f : Site Unit → Site Unit)
    (hopen : Open (f s.quiet) (s.messages.map (·.text)))
    (hstate : (f s.quiet).conn.state_ = s.site.conn.state_ ∨
      (f s.quiet).conn.state_ = .kDisconnecting)
    (hkeep : s.site.conn.socket_.writeShut = true →
      (f s.quiet).conn.socket_ = s.site.conn.socket_ ∧
      (f s.quiet).conn.outputBuffer_.contents =
        s.site.conn.outputBuffer_.contents)
    (hshut : s.site.conn.socket_.writeShut = false →
      (f s.quiet).conn.socket_.writeShut = true →
      (f s.quiet).conn.outputBuffer_.contents = [] ∧
      (f s.quiet).conn.state_ = .kDisconnecting ∧ s.NoneOnItsWay) :
    (s.act f).Tidy := by
  have hnone : s.NoneOnItsWay → (s.act f).NoneOnItsWay := fun ⟨hq, hc⟩ => ⟨by simpa using hq, hc⟩
  have hdisc : s.site.conn.state_ = .kDisconnecting →
      (f s.quiet).conn.state_ = .kDisconnecting := fun hd =>
    hstate.elim (fun he => he.trans hd) id
  refine ⟨hopen, hstate.elim (fun he => by rw [act_site, he]; exact h.state) .inr, fun g hg => ?_,
    fun hl => hdisc (h.leaving (hl.imp_left fun hg => ?_)), h.between,
    by simpa [messages] using h.settled, fun hu => ?_, fun hw => ?_⟩
  · obtain hg | ⟨n, rfl⟩ := mem_waiting_act f s hg
    · exact h.plain g hg
    · simp
  · obtain hg | ⟨n, hn⟩ := mem_waiting_act f s hg
    · exact hg
    · cases hn
  · have hold : s.site.conn.socket_.writeShut = false := by
      by_contra hne
      rw [Bool.not_eq_false] at hne
      rw [act_site, (hkeep hne).1, hne] at hu
      cases hu
    rw [act_site] at hu
    simp [act, hu, h.uncut hold]
  · cases hold : s.site.conn.socket_.writeShut with
    | true =>
      obtain ⟨hs, hc, hn, hcut⟩ := h.shut hold
      obtain ⟨hsock, hcont⟩ := hkeep hold
      exact ⟨hdisc hs, hcont.trans hc, hnone hn, by simp [act, hold, hcut, hsock]⟩
    | false =>
      rw [act_site] at hw
      obtain ⟨hc, hs, hn⟩ := hshut hold hw
      exact ⟨hs, hc, hnone hn, by simp [act, hold, hw]⟩

omit [DecidableEq T] [DecidableEq A] in
theorem Tidy.quiet (h : s.Tidy) : Open s.quiet (s.messages.map (·.text)) :=
  ⟨h.isOpen.live, h.isOpen.stream, h.isOpen.interest⟩

omit [DecidableEq T] [DecidableEq A] in
/-- A call of `sendInLoop` before `shutdownWrite`, which takes its message from
the caller or from the queue. -/
theorem tidy_hand (h : s.Tidy) {queue : TaskQueue (Functor T A)} {returned : List (Message T)}
    (message : Message T) {r : WriteResult} (hr : Site.faultError r = false)
    (hopen : s.site.conn.socket_.writeShut = false)
    (hw : ∀ g ∈ queue.waiting, g ∈ s.queue.waiting) (hb : s.calling = false → queue.todo = [])
    (hset : (s.messages ++ message :: queue.waiting.filterMap carries).Perm returned) :
    Tidy { ({ s with queue := queue } : SharedConn T A).hand message message.text r with
      returned := returned } := by
  have hreset : reset s.quiet r = false := by simp [reset, hr]
  have hsend := h.quiet.sendInLoop () message.text r
  rw [hreset, if_neg (by decide)] at hsend
  obtain ⟨k, -, -, -, hs, hshut, -⟩ := sendInLoop_spec () h.quiet.live message.text r
  have hq := inQueue_act (Site.sendInLoop () message.text r) { s with queue := queue }
  have hold : (Site.sendInLoop () message.text r s.quiet).conn.socket_.writeShut = false :=
    hshut.trans hopen
  refine ⟨?_, ?_, fun g hg => ?_, fun hl => ?_, hb, ?_, fun _ => ?_, fun ht => ?_⟩
  · simpa [hand, messages, quiet] using hsend
  · simp only [hand, act_site]
    exact hs ▸ h.state
  · obtain hg | ⟨n, rfl⟩ := mem_waiting_act _ _ hg
    · exact h.plain g (hw g hg)
    · simp
  · refine hs.trans (h.leaving (hl.imp_left fun hg => ?_))
    obtain hg | ⟨n, hn⟩ := mem_waiting_act _ _ hg
    · exact hw _ hg
    · cases hn
  · change ((s.handed ++ [_]).map _ ++ inQueue (act _ { s with queue := queue })).Perm returned
    rw [hq]
    simpa [messages, inQueue] using hset
  · simp only [hand, act, hopen, h.uncut hopen]
    exact if_neg fun hc => Bool.false_ne_true (hold.symm.trans hc)
  · exact absurd (ht.symm.trans hold) (by decide)

omit [DecidableEq T] [DecidableEq A] in
/-- Steps of other threads that queue no message. -/
theorem tidy_of_same (h : s.Tidy) (hs : s'.site = s.site)
    (hq : s'.queue.waiting.filterMap carries = s.queue.waiting.filterMap carries)
    (hw : ∀ g ∈ s'.queue.waiting, g ∈ s.queue.waiting ∨ g = .shutdownInLoop)
    (hl : .shutdownInLoop ∈ s'.queue.waiting ∨ (∃ t, s'.caller t = .left) →
      s.site.conn.state_ = .kDisconnecting)
    (hb : s'.calling = false → s'.queue.todo = [])
    (hc : (∀ t, isSending (s.caller t) = false) → ∀ t, isSending (s'.caller t) = false)
    (hm : s'.handed = s.handed) (hret : s'.returned = s.returned) (hcut : s'.cut = s.cut) :
    s'.Tidy := by
  refine ⟨by rw [hs, messages, hm]; exact h.isOpen, hs ▸ h.state, fun g hg => ?_, hs ▸ hl, hb,
    by rw [messages, hm, inQueue, hq, hret]; exact h.settled, by rw [hs, hcut]; exact h.uncut, ?_⟩
  · obtain hg | rfl := hw g hg
    · exact h.plain g hg
    · simp
  · rw [hs, hcut, hret]
    intro ht
    obtain ⟨h1, h2, ⟨h3, h4⟩, h5⟩ := h.shut ht
    exact ⟨h1, h2, ⟨by rw [inQueue, hq]; exact h3, hc h4⟩, h5⟩

omit [DecidableEq A] in
theorem isSending_setCaller {t : T} {x : Caller T A} (hx : isSending x = false)
    (h : ∀ u, isSending (s.caller u) = false) (u : T) :
    isSending ((s.setCaller t x).caller u) = false := by
  simp only [setCaller, Function.update_apply]
  split
  · exact hx
  · exact h u

omit [DecidableEq A] in
/-- A thread that moves to another point than `left` joins nobody there. -/
theorem left_of_setCaller {t : T} {x : Caller T A} (hx : x ≠ .left)
    (h : ∃ u, (s.setCaller t x).caller u = .left) : ∃ u, s.caller u = .left := by
  obtain ⟨u, hu⟩ := h
  simp only [setCaller, Function.update_apply] at hu
  split at hu
  · exact absurd hu hx
  · exact ⟨u, hu⟩

omit [DecidableEq T] [DecidableEq A] in
theorem Tidy.unshut (h : s.Tidy) (hc : s.site.conn.state_ = .kConnected) :
    s.site.conn.socket_.writeShut = false :=
  Bool.eq_false_iff.mpr fun hw => absurd ((h.shut hw).1.symm.trans hc) (by decide)

/-- Steps of the other threads. -/
theorem tidy_foreign {a : Action T A} (h : s.Tidy) (hok : s.Graceful a) (ha : a.onLoop = false)
    (hs : s.step a = some s') : s'.Tidy := by
  cases a with
  | send t c_str size =>
    obtain ⟨-, ⟨-, rfl⟩ | ⟨hc, rfl⟩⟩ := step_send hs
    · exact h
    exact ⟨h.isOpen, h.state, h.plain,
      fun hl => h.leaving (hl.imp_right (left_of_setCaller (by simp))), h.between, h.settled,
      h.uncut, fun ht => absurd (ht.symm.trans (h.unshut hc)) (by decide)⟩
  | enqueueSend t =>
    obtain ⟨captured, message, ht, rfl⟩ := step_enqueueSend hs
    have hopen : s.site.conn.socket_.writeShut = false := Bool.eq_false_iff.mpr fun hw => by
      have hn := (h.shut hw).2.2.1.2 t
      rw [ht] at hn
      cases hn
    refine ⟨h.isOpen, h.state, fun g hg => ?_, fun hl => ?_, ?_, ?_, h.uncut,
      fun ht => absurd (ht.symm.trans hopen) (by decide)⟩
    · simp only [TaskQueue.waiting_push, List.mem_append, List.mem_singleton] at hg
      obtain hg | rfl := hg
      · exact h.plain g hg
      · simp
    · exact h.leaving (hl.imp (fun hm => by simpa using hm) (left_of_setCaller (by simp)))
    · exact h.between
    · simpa [inQueue, messages, carries, setCaller] using h.settled.append_right [message]
  | shutdown t =>
    obtain ⟨-, ⟨-, rfl⟩ | ⟨hc, rfl⟩⟩ := step_shutdown hs
    · exact h
    exact tidy_of_same h rfl rfl (fun _ hg => .inl hg)
      (fun hl => h.leaving (hl.imp_right (left_of_setCaller (by simp)))) h.between
      (isSending_setCaller rfl) rfl rfl rfl
  | storeDisconnecting t =>
    obtain ⟨ht, rfl⟩ := step_storeDisconnecting hs
    refine ⟨h.isOpen.of_same (by simp) rfl rfl rfl, .inr rfl, h.plain, fun _ => rfl, h.between,
      h.settled, h.uncut, fun hw => ?_⟩
    obtain ⟨-, h2, ⟨h3, h4⟩, h5⟩ := h.shut hw
    exact ⟨rfl, h2, ⟨h3, isSending_setCaller rfl h4⟩, h5⟩
  | enqueueShutdown t =>
    obtain ⟨ht, rfl⟩ := step_enqueueShutdown hs
    refine tidy_of_same h rfl (by simp [carries]) (fun g hg => by simpa using hg)
      (fun _ => h.leaving (.inr ⟨t, ht⟩)) h.between (isSending_setCaller rfl) rfl rfl rfl
  | overwrite t a content =>
    obtain ⟨-, rfl⟩ := step_overwrite hs
    exact tidy_of_same h rfl rfl (fun _ hg => .inl hg) h.leaving h.between id rfl rfl rfl
  | queueDestroyed => exact absurd hok.survives id
  | _ => cases ha

omit [DecidableEq T] [DecidableEq A] in
/-- Write interest is off, so nothing waits in the buffer. -/
theorem Tidy.drained (h : s.Tidy) (hw : s.site.conn.channel_.isWriting = false) :
    s.site.conn.outputBuffer_.contents = [] := by
  have hi := h.isOpen.interest
  simpa [hw] using hi

omit [DecidableEq T] [DecidableEq A] in
theorem Tidy.mute (h : s.Tidy) (hw : s.site.conn.socket_.writeShut = true) :
    s.site.conn.channel_.isWriting = false := by
  have hi := h.isOpen.interest
  simpa [(h.shut hw).2.1] using hi

omit [DecidableEq T] [DecidableEq A] in
theorem tidy_shutdownInLoop (h : s.Tidy) (hd : s.site.conn.state_ = .kDisconnecting)
    (hn : s.site.conn.channel_.isWriting = false → s.NoneOnItsWay) :
    (s.act Site.shutdownInLoop).Tidy := by
  obtain ⟨b, hb⟩ := Site.shutdownInLoop_conn s.quiet
  refine tidy_act h _ (h.quiet.of_same (by rw [hb]; simp [hd]) (by rw [hb]) (by rw [hb]) (by rw [hb]))
    (.inl (by rw [hb]; rfl)) (fun hw => ⟨?_, by rw [hb]; rfl⟩) (fun hw hw' => ?_)
  · rw [Site.shutdownInLoop, if_neg (by simp [h.mute hw])]
    show ({ s.site.conn.socket_ with writeShut := true } : Socket) = s.site.conn.socket_
    rw [← hw]
  · have hm : s.site.conn.channel_.isWriting = false := by
      by_contra hne
      rw [Bool.not_eq_false] at hne
      rw [Site.shutdownInLoop, quiet_conn, if_pos hne] at hw'
      exact Bool.false_ne_true (hw.symm.trans hw')
    exact ⟨by rw [hb]; exact h.drained hm, by rw [hb]; exact hd, hn hm⟩

omit [DecidableEq T] [DecidableEq A] in
theorem tidy_shutdown (h : s.Tidy)
    (hn : s.site.conn.state_ = .kConnected → s.site.conn.channel_.isWriting = false →
      s.NoneOnItsWay) : (s.act Site.shutdown).Tidy := by
  by_cases hconn : s.site.conn.state_ = .kConnected
  · have he : Site.shutdown s.quiet = (s.quiet.setState .kDisconnecting).shutdownInLoop := by
      rw [Site.shutdown, quiet_conn, if_pos hconn]
    obtain ⟨b, hb⟩ := Site.shutdownInLoop_conn (s.quiet.setState .kDisconnecting)
    refine tidy_act h _ h.quiet.shutdown (.inr (by rw [he, hb]; rfl)) (fun hw => ?_) (fun hw hw' => ?_)
    · exact absurd ((h.shut hw).1.symm.trans hconn) (by decide)
    · rw [he] at hw' ⊢
      have hm : s.site.conn.channel_.isWriting = false := by
        by_contra hne
        rw [Bool.not_eq_false] at hne
        rw [Site.shutdownInLoop, if_pos (by simpa using hne)] at hw'
        exact Bool.false_ne_true (hw.symm.trans hw')
      exact ⟨by rw [hb]; exact h.drained hm, by rw [hb]; rfl, hn hconn hm⟩
  · have he : Site.shutdown s.quiet = s.quiet := by rw [Site.shutdown, quiet_conn, if_neg hconn]
    exact tidy_act h _ h.quiet.shutdown (.inl (by rw [he]; rfl)) (fun _ => by rw [he]; exact ⟨rfl, rfl⟩)
      (fun hw hw' => by rw [he] at hw'; exact absurd (hw.symm.trans hw') (by decide))

omit [DecidableEq T] [DecidableEq A] in
theorem tidy_handleWrite (h : s.Tidy) (r : WriteResult)
    (hn : s.site.conn.state_ = .kDisconnecting → drains s.site r = true → s.NoneOnItsWay) :
    (s.act (Site.handleWrite () r)).Tidy := by
  have hquiet := h.quiet.handleWrite () r
  obtain ⟨v, -, hs, hshut, -, ⟨-, he, -⟩ | ⟨hz, he, hempty⟩⟩ :=
    handleWrite_cases () (w := s.quiet) r
  · refine tidy_act h _ hquiet (.inl (by rw [he]; exact hs)) (fun hw => ?_) (fun hw hw' => ?_)
    · rw [Site.handleWrite, quiet_conn, h.mute hw]
      exact ⟨rfl, rfl⟩
    · rw [he] at hw'
      exact absurd (hw.symm.trans (hshut.symm.trans hw')) (by decide)
  · obtain ⟨hb, -, hs', -, hsock⟩ := drained_spec () (w := v)
    refine tidy_act h _ hquiet (.inl (by rw [he]; exact hs'.trans hs)) (fun hw => ?_) (fun hw hw' => ?_)
    · rw [Site.handleWrite, quiet_conn, h.mute hw]
      exact ⟨rfl, rfl⟩
    · rw [he] at hw' ⊢
      have hd : v.conn.state_ = .kDisconnecting := by
        by_contra hne
        rw [hsock hne] at hw'
        exact Bool.false_ne_true (hw.symm.trans (hshut.symm.trans hw'))
      exact ⟨by rw [hb]; exact hempty, hs'.trans hd, hn (hs.symm.trans hd) hz⟩

/-- A functor of the batch. -/
theorem tidy_call {r : WriteResult} {f : Functor T A} {queue : TaskQueue (Functor T A)}
    (hc : s.Carried) (h : s.Tidy) (hok : s.Graceful (.start r))
    (hq : s.queue.start = some (f, queue)) : (({ s with queue := queue }).call r f).Tidy := by
  have hmem : f ∈ s.queue.waiting := by
    rw [(TaskQueue.waiting_of_start hq).1]; exact List.mem_cons_self
  have hrest : ∀ g ∈ queue.waiting, g ∈ s.queue.waiting := fun g hg => by
    rw [(TaskQueue.waiting_of_start hq).1]; exact List.mem_cons_of_mem f hg
  have hbetween : s.calling = false → queue.todo = [] := fun hf => by
    have ht := (TaskQueue.waiting_of_start hq).2.2.2
    rw [h.between hf] at ht
    cases ht
  have hcarry := start_carries hq
  have hsilent : carries f = none → ({ s with queue := queue } : SharedConn T A).Tidy := by
    intro hf
    rw [hf] at hcarry
    exact tidy_of_same h rfl hcarry.symm (fun g hg => .inl (hrest g hg))
      (fun hl => h.leaving (hl.imp_left (hrest _))) hbetween id rfl rfl rfl
  cases f with
  | connectEstablished => exact absurd rfl (h.plain _ hmem).1
  | connectDestroyed => exact absurd rfl (h.plain _ hmem).2
  | notice n => exact hsilent rfl
  | shutdownInLoop =>
    refine tidy_shutdownInLoop (hsilent rfl) (h.leaving (.inl hmem)) fun hm => ?_
    obtain ⟨hi, hcall⟩ := hok.unhurried (by simpa [callsShutdownWrite, hq] using hm)
    exact ⟨hcarry.symm.trans hi, hcall⟩
  | sendInLoop captured message =>
    have hopen : s.site.conn.socket_.writeShut = false := Bool.eq_false_iff.mpr fun hw => by
      have hi := (h.shut hw).2.2.1.1
      rw [inQueue, hcarry] at hi
      cases hi
    have hset := h.settled
    rw [inQueue, hcarry] at hset
    simp only [call, hc.queued captured message hmem]
    exact tidy_hand h message hok.survives hopen hrest hbetween hset

/-- Steps of the loop's thread. -/
theorem tidy_onLoop {a : Action T A} (hc : s.Carried) (h : s.Tidy) (hok : s.Graceful a)
    (ha : a.onLoop = true) (hs : s.step a = some s') : s'.Tidy := by
  cases a with
  | loopSend text r =>
    simp only [step] at hs
    split at hs
    case isFalse => cases hs; exact h
    rename_i hconn
    cases hs
    refine tidy_hand h ⟨none, text⟩ hok.survives (h.unshut hconn) (fun g hg => hg) h.between ?_
    have hset := h.settled.append_right [⟨none, text⟩]
    rw [List.append_assoc] at hset
    refine List.Perm.trans (List.Perm.append_left _ ?_) hset
    exact (List.perm_append_singleton _ _).symm
  | loopShutdown =>
    cases hs
    exact tidy_shutdown h fun hconn hm => hok.unhurried (by simp [callsShutdownWrite, hconn, hm])
  | handleRead r =>
    simp only [step] at hs
    split at hs <;> cases hs
    obtain ⟨hz, -⟩ | ⟨-, he⟩ := handleRead_cases () (w := s.quiet) r
    · exact absurd hz hok.survives
    exact tidy_act h _ (h.quiet.of_same (by rw [he]; exact h.quiet.live) (by rw [he]) (by rw [he])
      (by rw [he])) (.inl (by rw [he]; rfl)) (fun _ => by rw [he]; exact ⟨rfl, rfl⟩)
      (fun hw hw' => by rw [he] at hw'; exact absurd (hw.symm.trans hw') (by decide))
  | handleWrite r =>
    simp only [step] at hs
    split at hs <;> cases hs
    exact tidy_handleWrite h r fun hd hz => hok.unhurried (by simp [callsShutdownWrite, hd, hz])
  | handleClose => exact absurd hok.survives id
  | swap =>
    simp only [step] at hs
    split at hs <;> cases hs
    rename_i hcall
    have hw := TaskQueue.waiting_swap (h.between (by simpa using hcall))
    exact tidy_of_same h rfl (by rw [hw]) (fun g hg => .inl (by rw [← hw]; exact hg))
      (fun hl => h.leaving (by rw [← hw]; exact hl)) (fun hf => by cases hf) id rfl rfl rfl
  | start r =>
    obtain ⟨-, f, queue, hq, rfl⟩ := step_start hs
    exact tidy_call hc h hok hq
  | finish =>
    simp only [step] at hs
    split at hs <;> cases hs
    rename_i hcall
    simp only [Bool.and_eq_true, List.isEmpty_iff] at hcall
    exact tidy_of_same h rfl rfl (fun g hg => .inl hg) h.leaving (fun _ => hcall.2) id rfl rfl rfl
  | _ => cases ha

theorem tidy_step (s : SharedConn T A) (a : Action T A) (s' : SharedConn T A)
    (h : s.Carried ∧ s.Tidy) (hok : s.Graceful a) (hs : s.step a = some s') :
    s'.Carried ∧ s'.Tidy := by
  refine ⟨carried_step s a s' h.1 hok.intact hs, ?_⟩
  cases ha : a.onLoop with
  | true => exact tidy_onLoop h.1 h.2 hok ha hs
  | false => exact tidy_foreign h.2 hok ha hs

end Step

omit [DecidableEq T] [DecidableEq A] in
theorem tidy_established (name : List Char) (sockfd : Int) (callbacks : Callbacks)
    (store : T → A → Nat → Byte) : (established name sockfd callbacks store).Tidy := by
  have ho := open_established () name sockfd callbacks {}
  have hstate : (established name sockfd callbacks store).site.conn.state_ = .kConnected := by
    simp [established, Site.connectEstablished]
  have hshut : (established name sockfd callbacks store).site.conn.socket_.writeShut = false := by
    simp [established, Site.connectEstablished, TcpConnection.new]
  refine ⟨⟨ho.live, ho.stream, ho.interest⟩, .inl hstate, by simp [established, TaskQueue.waiting],
    by simp [established, TaskQueue.waiting], fun _ => rfl, .nil, fun _ => rfl, fun ht => ?_⟩
  exact absurd (ht.symm.trans hshut) (by decide)

/-- Along a run that meets the condition: when `shutdownWrite` is first called,
the kernel has accepted exactly the messages whose `send` has returned by then,
each of them whole; and from then on nothing is written or buffered. -/
theorem half_close_after_messages (name : List Char) (sockfd : Int) (callbacks : Callbacks)
    (store : T → A → Nat → Byte) (as : List (Action T A)) {s : SharedConn T A}
    (hg : Guarded step Graceful (established name sockfd callbacks store) as)
    (hr : exec step (established name sockfd callbacks store) as = some s)
    {accepted : List Byte} {owed : List (Message T)} (hcut : s.cut = some (accepted, owed)) :
    (∃ sent : List (Message T), sent.Perm owed ∧ accepted = (sent.map (·.text)).flatten) ∧
      s.site.conn.socket_.accepted = accepted ∧ s.site.conn.outputBuffer_.contents = [] := by
  obtain ⟨-, h⟩ := exec_invariant (fun s => s.Carried ∧ s.Tidy) tidy_step
    ⟨carried_established name sockfd callbacks store, tidy_established name sockfd callbacks store⟩
    hg hr
  have hshut : s.site.conn.socket_.writeShut = true := by
    by_contra hne
    rw [h.uncut (by simpa using hne)] at hcut
    cases hcut
  obtain ⟨-, hempty, ⟨hnone, -⟩, he⟩ := h.shut hshut
  cases he.symm.trans hcut
  refine ⟨⟨s.messages, ?_, ?_⟩, rfl, hempty⟩
  · have hset := h.settled
    rwa [hnone, List.append_nil] at hset
  · have hst := h.isOpen.stream
    rwa [outputStream, hempty, List.append_nil] at hst

/-- A message is sent by another thread, drained, and the write side shut. -/
theorem half_close_after_messages_drained :
    let as : List (Action Unit Unit) := [.send () () 1, .enqueueSend (), .swap, .start (.took 0),
      .finish, .handleWrite (.took 1), .loopShutdown]
    ∃ s, exec step (established [] 5 {} fun _ _ _ => 65) as = some s ∧
      ∃ sent : List (Message Unit), sent.Perm [⟨some (), [65]⟩] ∧
        [65] = (sent.map (·.text)).flatten := by
  intro as
  have hcut : (exec step (established [] 5 {} fun _ _ _ => 65) as).map (·.cut) =
      some (some ([65], [⟨some (), [65]⟩])) := by decide +kernel
  obtain ⟨s, hs, hcut⟩ := Option.map_eq_some_iff.mp hcut
  exact ⟨s, hs, (half_close_after_messages [] 5 {} _ as (by decide +kernel) hs hcut).1⟩

/-- The loop's thread shuts down while a send of another thread, which has
returned, waits in the queue: the kernel has accepted nothing of it when
`shutdownWrite` is called, and its bytes are buffered afterwards. -/
theorem half_close_cuts_off_queued :
    (exec step (established [] 5 {} fun _ _ _ => 65)
      ([.send () () 1, .enqueueSend ()] : List (Action Unit Unit))).map
        (fun s => (s.returned, s.site.conn.state_)) =
      some ([⟨some (), [65]⟩], .kConnected) ∧
    (exec step (established [] 5 {} fun _ _ _ => 65)
      ([.send () () 1, .enqueueSend (), .loopShutdown, .swap, .start (.took 0)] :
        List (Action Unit Unit))).map (fun s => (s.cut, s.site.conn.outputBuffer_.contents)) =
      some (some ([], [⟨some (), [65]⟩]), [65]) := by decide +kernel

end Mymuduo.Connection.SharedConn

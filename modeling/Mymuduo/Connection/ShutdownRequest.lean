import Mymuduo.Connection.HalfClose
import Mymuduo.Connection.Lifetime

/-!
# A shutdown request is neither forgotten nor hurried

The request travels from the store of `kDisconnecting` over a queued
`shutdownInLoop` to the drain branch of `handleWrite`. Until the connection is
closed, a request that has been stored is always in one of these hands, and
`shutdownWrite` is called only while `outputBuffer_` is empty.
-/

namespace Mymuduo.Connection

open Mymuduo.Library Mymuduo.Library.Execution

universe u v

/-! ## Which method calls `shutdownWrite` -/

section Methods

variable {κ : Type u} (self : κ) (w : Site κ)

theorem writeShut_shutdownInLoop : w.shutdownInLoop.conn.socket_.writeShut =
    (w.conn.socket_.writeShut || !w.conn.channel_.isWriting) := by
  unfold Site.shutdownInLoop
  split <;> rename_i hw <;> simp [hw]

theorem writeShut_shutdown : w.shutdown.conn.socket_.writeShut =
    (w.conn.socket_.writeShut || w.conn.state_ == .kConnected && !w.conn.channel_.isWriting) := by
  unfold Site.shutdown
  split
  · rename_i hc
    simp [writeShut_shutdownInLoop, hc, Channel.isWriting]
  · rename_i hc
    simp [beq_eq_false_iff_ne.mpr hc]

theorem writeShut_sendInLoop (data : List Byte) (r : WriteResult) :
    (w.sendInLoop self data r).conn.socket_.writeShut = w.conn.socket_.writeShut := by
  by_cases hs : w.conn.state_ = .kDisconnected
  · rw [Site.sendInLoop, if_pos hs]
  · obtain ⟨k, -, -, -, -, hshut, -⟩ := sendInLoop_spec self hs data r
    exact hshut

theorem writeShut_drained : (w.drained self).conn.socket_.writeShut =
    (w.conn.socket_.writeShut || w.conn.state_ == .kDisconnecting) := by
  simp only [Site.drained, Site.queueIf_conn, Site.channel_state]
  split
  · rename_i hd
    simp [writeShut_shutdownInLoop, hd]
  · rename_i hd
    simp [beq_eq_false_iff_ne.mpr hd]

theorem writeShut_handleWrite (r : WriteResult) :
    (w.handleWrite self r).conn.socket_.writeShut =
      (w.conn.socket_.writeShut || w.conn.state_ == .kDisconnecting && drains w r) := by
  obtain ⟨v, -, hs, hshut, -, ⟨hd, he, -⟩ | ⟨hd, he, -⟩⟩ := handleWrite_cases self (w := w) r
  · rw [he, hshut, hd, Bool.and_false, Bool.or_false]
  · rw [he, writeShut_drained, hshut, hs, hd, Bool.and_true]

theorem writeShut_handleRead (r : ReadvResult) :
    (w.handleRead self r).conn.socket_.writeShut = w.conn.socket_.writeShut := by
  obtain ⟨-, hr⟩ | ⟨-, hr⟩ := handleRead_cases self (w := w) r
  · rw [hr]
    simp [Site.handleClose]
  · rw [hr]

theorem writeShut_connectDestroyed :
    (w.connectDestroyed self).conn.socket_.writeShut = w.conn.socket_.writeShut := by
  simp only [Site.connectDestroyed, Site.leaveConnected]
  split <;> split <;> simp

theorem writeShut_disconnect :
    (w.disconnect self).conn.socket_.writeShut = w.conn.socket_.writeShut := by
  simp only [Site.disconnect]
  split <;> simp

/-- Write interest says whether anything waits, whatever has been sent before. -/
def Interested (w : Site κ) : Prop :=
  w.conn.channel_.isWriting = true ↔ w.conn.outputBuffer_.contents ≠ []

variable {w}

theorem Interested.isOpen (h : Interested w) (hs : w.conn.state_ ≠ .kDisconnected) :
    Open w [outputStream w] := ⟨hs, by simp, h⟩

theorem Interested.sendInLoop (h : Interested w) (hs : w.conn.state_ ≠ .kDisconnected)
    (data : List Byte) (r : WriteResult) : Interested (w.sendInLoop self data r) :=
  ((h.isOpen hs).sendInLoop self data r).interest

theorem Interested.handleWrite (h : Interested w) (hs : w.conn.state_ ≠ .kDisconnected)
    (r : WriteResult) : Interested (w.handleWrite self r) :=
  ((h.isOpen hs).handleWrite self r).interest

end Methods

namespace Lifetime

variable {T : Type u} {A : Type v}

/-- The step calls `Socket::shutdownWrite`. -/
def callsShutdownWrite (s : Lifetime T A) : Action T A → Bool
  | .shared a => s.shared.callsShutdownWrite a
  | .shutdownInLoop => !s.shared.site.conn.channel_.isWriting
  | _ => false

/-- The step runs `handleClose` or a part of `connectDestroyed`. -/
def closes (s : Lifetime T A) : Action T A → Bool
  | .shared .handleClose | .testConnected | .storeDisconnected => true
  | .shared (.handleRead r) => (s.shared.site.conn.inputBuffer_.readFd r).1 == 0
  | .shared (.start _) =>
    match s.shared.queue.todo with
    | .connectDestroyed :: _ => true
    | _ => false
  | _ => false

/-- Who has the request in hand once `kDisconnecting` is stored. -/
inductive Requested (s : Lifetime T A) : Prop
  | shut (h : s.shared.site.conn.socket_.writeShut = true)
  | queued (h : .shutdownInLoop ∈ s.waiting)
  | between (t : T) (h : s.shared.caller t = .left)
  | own (h : s.own = .left)
  | buffered (h : s.shared.site.conn.channel_.isWriting = true)
      (hne : s.shared.site.conn.outputBuffer_.contents ≠ [])

structure Served (s : Lifetime T A) : Prop where
  between : s.shared.calling = false → s.shared.queue.todo = []
  live : s.state ≠ .kDisconnected
  interest : Interested s.shared.site
  requested : s.state = .kDisconnecting → s.Requested

section Keeping

variable {s s' : Lifetime T A}

/-- Steps that leave the connection alone and drop no `shutdownInLoop`. -/
theorem Served.of_same (h : s.Served) (hsite : s'.shared.site = s.shared.site)
    (hb : s'.shared.calling = false → s'.shared.queue.todo = [])
    (hw : .shutdownInLoop ∈ s.waiting → .shutdownInLoop ∈ s'.waiting)
    (hc : ∀ t, s.shared.caller t = .left → s'.shared.caller t = .left ∨
      .shutdownInLoop ∈ s'.waiting)
    (ho : s.own = .left → s'.own = .left) : s'.Served := by
  have hstate : s'.state = s.state := by rw [state, hsite, state]
  refine ⟨hb, by rw [hstate]; exact h.live, hsite ▸ h.interest, fun hd => ?_⟩
  cases h.requested (hstate ▸ hd) with
  | shut hs => exact .shut (by rw [hsite]; exact hs)
  | queued hq => exact .queued (hw hq)
  | between t ht =>
    obtain ht | hq := hc t ht
    · exact .between t ht
    · exact .queued hq
  | own hown => exact .own (ho hown)
  | buffered hwr hne => exact .buffered (by rw [hsite]; exact hwr) (by rw [hsite]; exact hne)

theorem mem_waiting_of_act {c : SharedConn T A} {g : Functor T A} (f : Site Unit → Site Unit)
    (h : g ∈ c.queue.waiting) : g ∈ (c.act f).queue.waiting := by
  simp only [SharedConn.act, TaskQueue.waiting_pushAll]
  exact List.mem_append_left _ h

/-- A method that drops nothing of the request. -/
theorem Served.act (h : s.Served) (hown : s.own = .idle) {f : Site Unit → Site Unit}
    (hstate : (f s.shared.quiet).conn.state_ = s.state)
    (hint : Interested (f s.shared.quiet))
    (hshut : s.shared.site.conn.socket_.writeShut = true →
      (f s.shared.quiet).conn.socket_.writeShut = true)
    (hwr : s.state = .kDisconnecting → s.shared.site.conn.channel_.isWriting = true →
      (f s.shared.quiet).conn.channel_.isWriting = true ∨
        (f s.shared.quiet).conn.socket_.writeShut = true) :
    Served { shared := s.shared.act f, own := .idle } := by
  refine ⟨h.between, fun hd => h.live (hstate.symm.trans hd), hint, fun hd => ?_⟩
  have hdisc : s.state = .kDisconnecting := hstate.symm.trans hd
  cases h.requested hdisc with
  | shut hs => exact .shut (hshut hs)
  | queued hq => exact .queued (mem_waiting_of_act f hq)
  | between t ht => exact .between t ht
  | own ho => exact absurd (hown.symm.trans ho) (by decide)
  | buffered hw _ =>
    obtain hw | hs := hwr hdisc hw
    · exact .buffered hw (hint.mp hw)
    · exact .shut hs

/-- `shutdownInLoop` serves the request, or leaves it to `handleWrite`. -/
theorem Served.shutdownInLoop (hb : s.shared.calling = false → s.shared.queue.todo = [])
    (hlive : s.state ≠ .kDisconnected) (hint : Interested s.shared.site) :
    Served { shared := s.shared.act Site.shutdownInLoop, own := .idle } := by
  obtain ⟨b, hconn⟩ := Site.shutdownInLoop_conn s.shared.quiet
  have hkeep : Interested s.shared.quiet.shutdownInLoop := by
    unfold Interested
    rw [hconn]
    exact hint
  refine ⟨hb, ?_, hkeep, fun _ => ?_⟩
  · show (Site.shutdownInLoop s.shared.quiet).conn.state_ ≠ .kDisconnected
    rw [hconn]
    exact hlive
  · cases hw : s.shared.site.conn.channel_.isWriting with
    | true =>
      have hw' : (Site.shutdownInLoop s.shared.quiet).conn.channel_.isWriting = true := by
        rw [hconn]
        exact hw
      exact .buffered hw' (hkeep.mp hw')
    | false =>
      refine .shut ((writeShut_shutdownInLoop s.shared.quiet).trans ?_)
      show (_ || !s.shared.site.conn.channel_.isWriting) = true
      rw [hw, Bool.not_false, Bool.or_true]

theorem Served.sendInLoop (h : s.Served) (hown : s.own = .idle) (message : Message T)
    (data : List Byte) (r : WriteResult) :
    Served { shared := s.shared.hand message data r, own := .idle } := by
  have hlive : s.shared.quiet.conn.state_ ≠ .kDisconnected := h.live
  have hquiet : Interested s.shared.quiet := h.interest
  have hint := hquiet.sendInLoop () hlive data r
  obtain ⟨k, -, -, -, -, -, hwr⟩ := sendInLoop_spec () hlive data r
  have hact := h.act hown (Site.silent_sendInLoop () data r s.shared.quiet).state hint
    (fun hs => (writeShut_sendInLoop () s.shared.quiet data r).trans hs)
    (fun _ hw => .inl (hwr.mpr (.inl hw)))
  exact hact.of_same rfl hact.between id (fun _ ht => .inl ht) id

theorem Served.handleWrite (h : s.Served) (hown : s.own = .idle) (r : WriteResult) :
    Served { shared := s.shared.act (Site.handleWrite () r), own := .idle } := by
  have hquiet : Interested s.shared.quiet := h.interest
  have hshut := writeShut_handleWrite () s.shared.quiet r
  refine h.act hown (Site.silent_handleWrite () r s.shared.quiet).state
    (hquiet.handleWrite () h.live r) (fun hs => ?_) (fun hd hw => ?_)
  · rw [hshut]
    exact Bool.or_eq_true_iff.mpr (.inl hs)
  · obtain ⟨v, -, -, -, hch, ⟨-, he, -⟩ | ⟨hz, -, -⟩⟩ :=
      handleWrite_cases () (w := s.shared.quiet) r
    · refine .inl ?_
      rw [he, hch]
      exact hw
    · refine .inr ?_
      have hd' : s.shared.quiet.conn.state_ = .kDisconnecting := hd
      rw [hshut, hd', hz]
      exact Bool.or_true _

end Keeping

/-! ## One step -/

section Step

variable [DecidableEq T] [DecidableEq A] {s s' : Lifetime T A}

omit [DecidableEq A] in
/-- A thread stays where it is while another one moves. -/
theorem left_setCaller {c : SharedConn T A} {t u : T} {x : Caller T A} (ht : c.caller t ≠ .left)
    (hu : c.caller u = .left) : (c.setCaller t x).caller u = .left := by
  have hne : u ≠ t := fun he => ht (he ▸ hu)
  simpa only [SharedConn.setCaller, Function.update_of_ne hne] using hu

theorem served_foreign (h : s.Served) {a : SharedConn.Action T A} (ha : a.onLoop = false)
    {shared : SharedConn T A} (hs : s.shared.step a = some shared) :
    Served { s with shared := shared } := by
  cases a with
  | send t c_str size =>
    obtain ⟨ht, ⟨-, rfl⟩ | ⟨-, rfl⟩⟩ := SharedConn.step_send hs
    · exact h
    · exact h.of_same rfl h.between id
        (fun u hu => .inl (left_setCaller (by simp [ht]) hu)) id
  | enqueueSend t =>
    obtain ⟨captured, message, ht, rfl⟩ := SharedConn.step_enqueueSend hs
    exact h.of_same rfl h.between
      (fun hm => by simpa [waiting] using hm)
      (fun u hu => .inl (left_setCaller (by simp [ht]) hu)) id
  | shutdown t =>
    obtain ⟨ht, ⟨-, rfl⟩ | ⟨-, rfl⟩⟩ := SharedConn.step_shutdown hs
    · exact h
    · exact h.of_same rfl h.between id
        (fun u hu => .inl (left_setCaller (by simp [ht]) hu)) id
  | storeDisconnecting t =>
    obtain ⟨-, rfl⟩ := SharedConn.step_storeDisconnecting hs
    refine ⟨h.between, by simp [state], h.interest, fun _ => .between t ?_⟩
    exact Function.update_self _ _ _
  | enqueueShutdown t =>
    obtain ⟨-, rfl⟩ := SharedConn.step_enqueueShutdown hs
    exact h.of_same rfl h.between (fun hm => by simp [waiting])
      (fun _ _ => .inr (by simp [waiting])) id
  | overwrite t a content =>
    obtain ⟨-, rfl⟩ := SharedConn.step_overwrite hs
    exact h.of_same rfl h.between id (fun _ hu => .inl hu) id
  | queueDestroyed =>
    cases hs
    exact h.of_same rfl h.between (fun hm => by simpa [waiting] using hm)
      (fun _ hu => .inl hu) id
  | _ => cases ha

omit [DecidableEq T] [DecidableEq A] in
theorem served_start (h : s.Served) (hown : s.own = .idle) {f : Functor T A}
    {queue : TaskQueue (Functor T A)} (hq : s.shared.queue.start = some (f, queue))
    (hf : f ≠ .connectDestroyed) (r : WriteResult) :
    Served { shared := SharedConn.call { s.shared with queue := queue } r f, own := .idle } := by
  obtain ⟨hwait, -, -, htodo⟩ := TaskQueue.waiting_of_start hq
  have hb : s.shared.calling = false → queue.todo = [] := fun hc =>
    absurd (htodo.symm.trans (h.between hc)) (by simp)
  -- any other functor takes nothing of the request with it
  have hpop : f ≠ .shutdownInLoop →
      Served { shared := { s.shared with queue := queue }, own := .idle } := fun hne => by
    refine h.of_same rfl hb (fun hm => ?_) (fun _ hu => .inl hu) (fun ho => ?_)
    · rw [waiting, hwait] at hm
      exact (List.mem_cons.mp hm).resolve_left fun he => hne he.symm
    · exact absurd (hown.symm.trans ho) (by decide)
  cases f with
  | connectEstablished =>
    have hp := hpop (by simp)
    have hstate : (Site.connectEstablished () s.shared.quiet).conn.state_ = .kConnected :=
      Site.state_connectEstablished () _
    refine ⟨hp.between, ?_, ?_, fun hd => ?_⟩
    · exact fun hd => absurd (hstate.symm.trans hd) (by decide)
    · have hw : (Site.connectEstablished () s.shared.quiet).conn.channel_.isWriting =
          s.shared.site.conn.channel_.isWriting := by
        simp only [Site.connectEstablished, Site.invoke_conn, Site.isWriting_enableReading]
        rfl
      have hbuf : (Site.connectEstablished () s.shared.quiet).conn.outputBuffer_ =
          s.shared.site.conn.outputBuffer_ := by
        simp [Site.connectEstablished]
      show Interested (Site.connectEstablished () s.shared.quiet)
      rw [Interested, hw, hbuf]
      exact h.interest
    · exact absurd (hstate.symm.trans hd) (by decide)
  | connectDestroyed => exact absurd rfl hf
  | sendInLoop captured message => exact (hpop (by simp)).sendInLoop rfl message _ r
  | shutdownInLoop =>
    exact Served.shutdownInLoop (s := { s with shared := { s.shared with queue := queue } })
      hb h.live h.interest
  | notice n => exact hpop (by simp)

theorem served_onLoop (h : s.Served) {a : SharedConn.Action T A} (ha : a.onLoop = true)
    (he : s.enabled a = true) (hok : s.closes (.shared a) = false) {shared : SharedConn T A}
    (hs : s.shared.step a = some shared) : Served { s with shared := shared } := by
  have hidle := idle_of_enabled ha he
  rw [hidle]
  cases a with
  | loopSend text r =>
    simp only [SharedConn.step] at hs
    split at hs <;> cases hs
    · have hsend := h.sendInLoop hidle ⟨none, text⟩ text r
      exact hsend.of_same rfl hsend.between id (fun _ ht => .inl ht) id
    · exact hidle ▸ h
  | handleRead r =>
    simp only [SharedConn.step] at hs
    split at hs <;> cases hs
    obtain ⟨hz, -⟩ | ⟨-, hr⟩ := handleRead_cases () (w := s.shared.quiet) r
    · have hne : (s.shared.site.conn.inputBuffer_.readFd r).1 ≠ 0 := by simpa [closes] using hok
      exact absurd hz hne
    · refine h.act hidle (by rw [hr]; rfl) ?_ (fun hw => ?_) (fun _ hw => .inl ?_)
      · unfold Interested
        rw [hr]
        exact h.interest
      · rw [hr]
        exact hw
      · rw [hr]
        exact hw
  | handleWrite r =>
    simp only [SharedConn.step] at hs
    split at hs <;> cases hs
    exact h.handleWrite hidle r
  | swap =>
    simp only [SharedConn.step] at hs
    split at hs <;> cases hs
    rename_i hcall
    have hwait := TaskQueue.waiting_swap (h.between (by simpa using hcall))
    exact h.of_same rfl (fun hc => by cases hc) (fun hm => by rw [waiting, hwait]; exact hm)
      (fun _ hu => .inl hu) (fun ho => absurd (hidle.symm.trans ho) (by decide))
  | start r =>
    obtain ⟨-, f, queue, hq, rfl⟩ := SharedConn.step_start hs
    refine served_start h hidle hq (fun hf => ?_) r
    have htodo := (TaskQueue.waiting_of_start hq).2.2.2
    simp [closes, htodo, hf] at hok
  | finish =>
    simp only [SharedConn.step] at hs
    split at hs <;> cases hs
    rename_i hcall
    simp only [Bool.and_eq_true, List.isEmpty_iff] at hcall
    exact h.of_same rfl (fun _ => hcall.2) id (fun _ hu => .inl hu)
      (fun ho => absurd (hidle.symm.trans ho) (by decide))
  | handleClose => cases hok
  | loopShutdown => cases he
  | _ => cases ha

/-- Every step that does not close the connection. -/
theorem served_step (h : s.Served) {a : Action T A} (hok : s.closes a = false)
    (hs : s.step a = some s') : s'.Served := by
  cases a with
  | shared a =>
    simp only [step, Option.ite_none_right_eq_some, Option.map_eq_some_iff] at hs
    obtain ⟨he, shared, hs, rfl⟩ := hs
    cases ha : a.onLoop with
    | true => exact served_onLoop h ha he hok hs
    | false => exact served_foreign h ha hs
  | testShutdown =>
    simp only [step] at hs
    split at hs
    · rename_i hidle
      split at hs <;> cases hs
      · exact h.of_same rfl h.between id (fun _ hu => .inl hu)
          (fun ho => absurd (hidle.symm.trans ho) (by decide))
      · exact h
    · cases hs
  | storeDisconnecting =>
    simp only [step, Option.ite_none_right_eq_some, Option.some.injEq] at hs
    obtain ⟨-, rfl⟩ := hs
    exact ⟨h.between, by simp [state], h.interest, fun _ => .own rfl⟩
  | shutdownInLoop =>
    simp only [step, Option.ite_none_right_eq_some, Option.some.injEq] at hs
    obtain ⟨-, rfl⟩ := hs
    exact Served.shutdownInLoop h.between h.live h.interest
  | testConnected | storeDisconnected => cases hok

/-! ## Every call of `shutdownWrite` -/

/-- `callsShutdownWrite` misses no call. -/
theorem writeShut_shared {c c' : SharedConn T A} {a : SharedConn.Action T A}
    (hs : c.step a = some c') : c'.site.conn.socket_.writeShut =
      (c.site.conn.socket_.writeShut || c.callsShutdownWrite a) := by
  cases a with
  | send t c_str size =>
    obtain ⟨-, ⟨-, rfl⟩ | ⟨-, rfl⟩⟩ := SharedConn.step_send hs <;> exact (Bool.or_false _).symm
  | enqueueSend t =>
    obtain ⟨captured, message, -, rfl⟩ := SharedConn.step_enqueueSend hs
    exact (Bool.or_false _).symm
  | shutdown t =>
    obtain ⟨-, ⟨-, rfl⟩ | ⟨-, rfl⟩⟩ := SharedConn.step_shutdown hs <;> exact (Bool.or_false _).symm
  | storeDisconnecting t =>
    obtain ⟨-, rfl⟩ := SharedConn.step_storeDisconnecting hs
    exact (Bool.or_false _).symm
  | enqueueShutdown t =>
    obtain ⟨-, rfl⟩ := SharedConn.step_enqueueShutdown hs
    exact (Bool.or_false _).symm
  | overwrite t a content =>
    obtain ⟨-, rfl⟩ := SharedConn.step_overwrite hs
    exact (Bool.or_false _).symm
  | queueDestroyed =>
    cases hs
    exact (Bool.or_false _).symm
  | loopSend text r =>
    simp only [SharedConn.step] at hs
    split at hs <;> cases hs
    · exact (writeShut_sendInLoop () c.quiet text r).trans (Bool.or_false _).symm
    · exact (Bool.or_false _).symm
  | loopShutdown =>
    cases hs
    exact writeShut_shutdown c.quiet
  | handleRead r =>
    simp only [SharedConn.step] at hs
    split at hs <;> cases hs
    exact (writeShut_handleRead () c.quiet r).trans (Bool.or_false _).symm
  | handleWrite r =>
    simp only [SharedConn.step] at hs
    split at hs <;> cases hs
    exact writeShut_handleWrite () c.quiet r
  | handleClose =>
    simp only [SharedConn.step] at hs
    split at hs <;> cases hs
    simp [Site.handleClose, SharedConn.callsShutdownWrite]
  | swap | finish =>
    simp only [SharedConn.step] at hs
    split at hs <;> cases hs
    exact (Bool.or_false _).symm
  | start r =>
    obtain ⟨-, f, queue, hq, rfl⟩ := SharedConn.step_start hs
    simp only [SharedConn.callsShutdownWrite, hq]
    cases f with
    | connectEstablished => simp [SharedConn.call, Site.connectEstablished]
    | connectDestroyed =>
      exact (writeShut_connectDestroyed () _).trans (Bool.or_false _).symm
    | sendInLoop captured message =>
      exact (writeShut_sendInLoop () _ _ r).trans (Bool.or_false _).symm
    | shutdownInLoop => exact writeShut_shutdownInLoop _
    | notice n => exact (Bool.or_false _).symm

theorem writeShut_step {a : Action T A} (hs : s.step a = some s') :
    s'.shared.site.conn.socket_.writeShut =
      (s.shared.site.conn.socket_.writeShut || s.callsShutdownWrite a) := by
  cases a with
  | shared a =>
    simp only [step, Option.ite_none_right_eq_some, Option.map_eq_some_iff] at hs
    obtain ⟨-, shared, hs, rfl⟩ := hs
    exact writeShut_shared hs
  | testShutdown =>
    simp only [step] at hs
    split at hs
    · split at hs <;> cases hs <;> exact (Bool.or_false _).symm
    · cases hs
  | storeDisconnecting =>
    simp only [step, Option.ite_none_right_eq_some, Option.some.injEq] at hs
    obtain ⟨-, rfl⟩ := hs
    exact (Bool.or_false _).symm
  | shutdownInLoop =>
    simp only [step, Option.ite_none_right_eq_some, Option.some.injEq] at hs
    obtain ⟨-, rfl⟩ := hs
    exact writeShut_shutdownInLoop _
  | testConnected =>
    simp only [step] at hs
    split at hs
    · split at hs <;> cases hs
      exact (Bool.or_false _).symm
    · cases hs
  | storeDisconnected =>
    simp only [step, Option.ite_none_right_eq_some, Option.some.injEq] at hs
    obtain ⟨-, rfl⟩ := hs
    exact (writeShut_disconnect () _).trans (Bool.or_false _).symm

omit [DecidableEq T] [DecidableEq A] in
/-- Without write interest nothing waits, and `shutdownInLoop` adds nothing. -/
theorem drained_shutdownInLoop {c : SharedConn T A} (h : Interested c.site)
    (hw : c.site.conn.channel_.isWriting = false) :
    (c.act Site.shutdownInLoop).site.conn.outputBuffer_.contents = [] := by
  obtain ⟨b, hconn⟩ := Site.shutdownInLoop_conn c.quiet
  rw [SharedConn.act_site, hconn]
  by_contra hne
  rw [h.mpr hne] at hw
  cases hw

theorem drained_of_calls (h : s.Served) {a : Action T A} (hs : s.step a = some s')
    (hc : s.callsShutdownWrite a = true) :
    s'.shared.site.conn.outputBuffer_.contents = [] := by
  cases a with
  | shutdownInLoop =>
    simp only [step, Option.ite_none_right_eq_some, Option.some.injEq] at hs
    obtain ⟨-, rfl⟩ := hs
    exact drained_shutdownInLoop h.interest (by simpa [callsShutdownWrite] using hc)
  | shared a =>
    simp only [step, Option.ite_none_right_eq_some, Option.map_eq_some_iff] at hs
    obtain ⟨he, shared, hs, rfl⟩ := hs
    cases a with
    | handleWrite r =>
      simp only [SharedConn.step] at hs
      split at hs <;> cases hs
      simp only [callsShutdownWrite, SharedConn.callsShutdownWrite, Bool.and_eq_true] at hc
      obtain ⟨v, -, -, -, -, ⟨hz, -⟩ | ⟨-, hw, hempty⟩⟩ :=
        handleWrite_cases () (w := s.shared.quiet) r
      · exact absurd (hc.2.symm.trans hz) (by decide)
      · obtain ⟨hb, -⟩ := drained_spec () (w := v)
        rw [SharedConn.act_site, hw, hb]
        exact hempty
    | start r =>
      obtain ⟨-, f, queue, hq, rfl⟩ := SharedConn.step_start hs
      simp only [callsShutdownWrite, SharedConn.callsShutdownWrite, hq] at hc
      cases f with
      | shutdownInLoop =>
        exact drained_shutdownInLoop (c := { s.shared with queue := queue }) h.interest
          (by simpa using hc)
      | _ => cases hc
    | loopShutdown => cases he
    | _ => cases hc
  | _ => cases hc

end Step

/-! ## Every run -/

section Runs

variable [DecidableEq T] [DecidableEq A] {s : Lifetime T A}

omit [DecidableEq T] [DecidableEq A] in
theorem served_accepted (name : List Char) (sockfd : Int) (callbacks : Callbacks)
    (store : T → A → Nat → Byte) : (accepted name sockfd callbacks store).Served where
  between _ := rfl
  live := by simp [accepted, state, TcpConnection.new]
  interest := by
    have hwriting : (accepted name sockfd callbacks store).shared.site.conn.channel_.isWriting =
        false := by simp [accepted, TcpConnection.new, Channel.isWriting]
    have hcontents :
        (accepted name sockfd callbacks store).shared.site.conn.outputBuffer_.contents = [] :=
      SoundBuffer.contents_new _
    simp [Interested, hwriting, hcontents]
  requested hd := by simp [accepted, state, TcpConnection.new] at hd

/-- In every state of a run in which the connection is not closed, a request that
has been stored is served, queued, on its way, or left to the `handleWrite` that
will drain the buffer; and whichever step calls `shutdownWrite` has nothing
buffered. -/
theorem shutdown_request_kept (name : List Char) (sockfd : Int) (callbacks : Callbacks)
    (store : T → A → Nat → Byte) (as : List (Action T A))
    (hg : Guarded step (fun s a => s.closes a = false) (accepted name sockfd callbacks store) as)
    (hr : exec step (accepted name sockfd callbacks store) as = some s) :
    (s.state = .kDisconnecting → s.Requested) ∧ ∀ a s', s.step a = some s' →
      (s'.shared.site.conn.socket_.writeShut =
        (s.shared.site.conn.socket_.writeShut || s.callsShutdownWrite a)) ∧
      (s.callsShutdownWrite a = true → s'.shared.site.conn.outputBuffer_.contents = []) := by
  have h : s.Served := exec_invariant Served (fun _ _ _ hi hok hs => served_step hi hok hs)
    (served_accepted name sockfd callbacks store) hg hr
  exact ⟨h.requested, fun a s' hs => ⟨writeShut_step hs, drained_of_calls h hs⟩⟩

/-- The request of another thread finds bytes in the buffer, which the next
`handleWrite` drains. -/
theorem shutdown_request_kept_drained :
    let as : List (Action Unit Unit) := [.shared .swap, .shared (.start (.took 0)),
      .shared .finish, .shared (.loopSend [65] (.took 0)), .shared (.shutdown ()),
      .shared (.storeDisconnecting ()), .shared (.enqueueShutdown ()), .shared .swap,
      .shared (.start (.took 0)), .shared .finish]
    ∃ s s', exec step (accepted [] 5 {} fun _ _ _ => 65) as = some s ∧
      s.step (.shared (.handleWrite (.took 1))) = some s' ∧ s.Requested ∧
      s'.shared.site.conn.socket_.writeShut = true ∧
      s'.shared.site.conn.outputBuffer_.contents = [] := by
  intro as
  have hrun : (exec step (accepted [] 5 {} fun _ _ _ => 65) as).map (fun s => (s.state,
      s.callsShutdownWrite (.shared (.handleWrite (.took 1))),
      (s.step (.shared (.handleWrite (.took 1)))).isSome)) =
      some (.kDisconnecting, true, true) := by decide +kernel
  obtain ⟨s, hs, hres⟩ := Option.map_eq_some_iff.mp hrun
  simp only [Prod.mk.injEq, Option.isSome_iff_exists] at hres
  obtain ⟨hstate, hcalls, s', hs'⟩ := hres
  obtain ⟨hreq, hstep⟩ := shutdown_request_kept [] 5 {} _ as (by decide +kernel) hs
  obtain ⟨hshut, hempty⟩ := hstep _ s' hs'
  refine ⟨s, s', hs, hs', hreq hstate, ?_, hempty hcalls⟩
  rw [hshut, hcalls, Bool.or_true]

end Runs

end Lifetime

end Mymuduo.Connection

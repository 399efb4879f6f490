import Mymuduo.Connection.Methods
import Mymuduo.Connection.SharedConn

/-!
# The states of a connection over its lifetime

A connection from its creation on, with the accesses to `state_` on the loop's
thread taken apart as well: between the test and the store of `shutdown`, and
of `connectDestroyed`, other threads may store. `state_` moves forward from
`kConnecting` to `kDisconnected` in every run in which no other thread's
`shutdown` stores `kDisconnecting` over `kDisconnected`.
-/

namespace Mymuduo

universe u v

/-- The order in which a connection goes through its states. -/
def StateE.stage : StateE → Nat
  | kConnecting => 0
  | kConnected => 1
  | kDisconnecting => 2
  | kDisconnected => 3

/-- `connectDestroyed` after it has found `kConnected`. -/
def Site.disconnect {κ : Type u} (self : κ) (w : Site κ) : Site κ :=
  let w := (w.setState .kDisconnected).channel .disableAll self
  let w := w.invoke w.conn.connectionCallback_ (.connectionCallback w.conn.state_)
  if w.thrown then w else w.channel .remove self

theorem Site.state_disconnect {κ : Type u} (self : κ) {w : Site κ} :
    (w.disconnect self).conn.state_ = .kDisconnected := by
  simp only [disconnect]
  split <;> simp

theorem Site.state_connectDestroyed {κ : Type u} (self : κ) {w : Site κ}
    (h : w.conn.state_ ≠ .kConnected) : (w.connectDestroyed self).conn.state_ = w.conn.state_ := by
  rw [connectDestroyed, leaveConnected, if_neg h]
  split <;> rfl

namespace Connection

open Mymuduo.Library Mymuduo.Library.Execution

/-- Where the loop's thread stands between two accesses to `state_`. -/
inductive Place
  | idle
  /-- `shutdown` has found `kConnected`; `setState(kDisconnecting)` comes next -/
  | leaving
  /-- the state is set; `runInLoop` comes next, which calls `shutdownInLoop` -/
  | left
  /-- `connectDestroyed` has found `kConnected`; `setState(kDisconnected)` comes next -/
  | destroying
  deriving DecidableEq

structure Lifetime (T : Type u) (A : Type v) where
  shared : SharedConn T A
  own : Place := .idle

namespace Lifetime

variable {T : Type u} {A : Type v}

def state (s : Lifetime T A) : StateE := s.shared.site.conn.state_

def waiting (s : Lifetime T A) : List (Functor T A) := s.shared.queue.waiting

inductive Action (T : Type u) (A : Type v)
  | shared (a : SharedConn.Action T A)
  -- `shutdown` on the loop's thread
  | testShutdown
  | storeDisconnecting
  | shutdownInLoop
  -- the functor `connectDestroyed`
  | testConnected
  | storeDisconnected

/-- The loop's thread is between two calls, and an event is dispatched only to a
channel that `connectEstablished` has registered. `shutdown` and a
`connectDestroyed` that finds `kConnected` are taken in parts. -/
def enabled (s : Lifetime T A) : SharedConn.Action T A → Bool
  | .handleRead _ | .handleWrite _ | .handleClose =>
    decide (s.own = .idle) && s.shared.site.conn.channel_.tied_
  | .loopSend .. | .swap | .finish => decide (s.own = .idle)
  | .start _ =>
    decide (s.own = .idle) && match s.shared.queue.todo with
      | .connectDestroyed :: _ => decide (s.state ≠ .kConnected)
      | _ => true
  | .loopShutdown => false
  | .send .. | .enqueueSend _ | .shutdown _ | .storeDisconnecting _ | .enqueueShutdown _
  | .overwrite .. | .queueDestroyed => true

variable [DecidableEq T] [DecidableEq A]

def step (s : Lifetime T A) : Action T A → Option (Lifetime T A)
  | .shared a => if s.enabled a then (s.shared.step a).map ({ s with shared := · }) else none
  | .testShutdown =>
    if s.own = .idle then
      if s.state = .kConnected then some { s with own := .leaving } else some s
    else none
  | .storeDisconnecting =>
    if s.own = .leaving then
      some { shared := { s.shared with site := s.shared.site.setState .kDisconnecting }
             own := .left }
    else none
  | .shutdownInLoop =>
    if s.own = .left then some { shared := s.shared.act Site.shutdownInLoop, own := .idle }
    else none
  | .testConnected =>
    if s.own = .idle ∧ s.shared.calling ∧ s.state = .kConnected then
      match s.shared.queue.start with
      | some (.connectDestroyed, queue) =>
        some { shared := { s.shared with queue := queue }, own := .destroying }
      | _ => none
    else none
  | .storeDisconnected =>
    if s.own = .destroying then
      some { shared := s.shared.act (Site.disconnect ()), own := .idle }
    else none

/-- A connection as `newConnection` leaves it. -/
def accepted (name : List Char) (sockfd : Int) (callbacks : Callbacks)
    (store : T → A → Nat → Byte) : Lifetime T A where
  shared :=
    { site := { conn := TcpConnection.new name sockfd callbacks }
      queue := { pending := [.connectEstablished] }
      store := store }

/-- No other thread stores `kDisconnecting` over `kDisconnected`. -/
def Timely (s : Lifetime T A) : Action T A → Prop
  | .shared (.storeDisconnecting _) => s.state ≠ .kDisconnected
  | _ => True

instance (s : Lifetime T A) : ∀ a, Decidable (s.Timely a)
  | .shared a => match a with
    | .storeDisconnecting _ => inferInstanceAs (Decidable (_ ≠ _))
    | .send .. | .enqueueSend _ | .shutdown _ | .enqueueShutdown _ | .overwrite ..
    | .queueDestroyed | .loopSend .. | .loopShutdown | .handleRead _ | .handleWrite _
    | .handleClose | .swap | .start _ | .finish => .isTrue trivial
  | .testShutdown | .storeDisconnecting | .shutdownInLoop | .testConnected
  | .storeDisconnected => .isTrue trivial

/-! ## One step -/

structure Staged (s : Lifetime T A) : Prop where
  between : s.shared.calling = false → s.shared.queue.todo = []
  fresh : s.state = .kConnecting → s.shared.site.conn.channel_.tied_ = false ∧
    ∃ rest, s.waiting = .connectEstablished :: rest ∧ .connectEstablished ∉ rest
  once : s.state ≠ .kConnecting → .connectEstablished ∉ s.waiting
  leaving : ∀ t, s.shared.caller t = .leaving → s.state ≠ .kConnecting
  own : s.own ≠ .idle → s.state = .kConnected ∨ s.state = .kDisconnecting

section Step

variable {s s' : Lifetime T A}

omit [DecidableEq T] [DecidableEq A] in
/-- Once the connection is established, the state decides. -/
theorem Staged.of_begun (h : s.Staged) (hs : s.state ≠ .kConnecting)
    (hs' : s'.state ≠ .kConnecting) (hb : s'.shared.calling = false → s'.shared.queue.todo = [])
    (hw : .connectEstablished ∈ s'.waiting → .connectEstablished ∈ s.waiting)
    (ho : s'.own ≠ .idle → s'.state = .kConnected ∨ s'.state = .kDisconnecting) : s'.Staged where
  between := hb
  fresh hc := absurd hc hs'
  once _ hm := h.once hs (hw hm)
  leaving _ _ := hs'
  own := ho

omit [DecidableEq T] [DecidableEq A] in
/-- Steps that leave the connection alone and at most queue something. -/
theorem Staged.of_same (h : s.Staged) (hsite : s'.shared.site = s.shared.site)
    (hb : s'.shared.calling = false → s'.shared.queue.todo = []) (new : List (Functor T A))
    (hw : s'.waiting = s.waiting ++ new) (hnew : .connectEstablished ∉ new)
    (hl : ∀ t, s'.shared.caller t = .leaving → s.shared.caller t = .leaving ∨ s.state = .kConnected)
    (ho : s'.own ≠ .idle → s.own ≠ .idle ∨ s.state = .kConnected) :
    s'.Staged ∧ s.state.stage ≤ s'.state.stage := by
  have hstate : s'.state = s.state := by rw [state, hsite, state]
  refine ⟨⟨hb, fun hc => ?_, fun hc hm => ?_, fun t ht hc => ?_, fun hn => ?_⟩, by rw [hstate]⟩
  · rw [hstate] at hc
    obtain ⟨htied, rest, hrest, honce⟩ := h.fresh hc
    refine ⟨by rw [hsite]; exact htied, rest ++ new, by rw [hw, hrest, List.cons_append], ?_⟩
    exact fun hm => (List.mem_append.mp hm).elim honce hnew
  · rw [hw] at hm
    exact (List.mem_append.mp hm).elim (h.once (hstate ▸ hc)) hnew
  · rw [hstate] at hc
    obtain ht | hconn := hl t ht
    · exact h.leaving t ht hc
    · exact absurd (hconn.symm.trans hc) (by decide)
  · rw [hstate]
    exact (ho hn).elim h.own .inl

omit [DecidableEq T] [DecidableEq A] in
/-- A method of an established connection that keeps the state or closes. -/
theorem Staged.act (h : s.Staged) (hs : s.state ≠ .kConnecting) {f : Site Unit → Site Unit}
    (hf : (f s.shared.quiet).conn.state_ = s.state ∨
      (f s.shared.quiet).conn.state_ = .kDisconnected) :
    Staged { shared := s.shared.act f, own := .idle } ∧
      s.state.stage ≤ (f s.shared.quiet).conn.state_.stage := by
  refine ⟨h.of_begun hs ?_ h.between (fun hm => ?_) (fun hn => absurd rfl hn), ?_⟩
  · show (f s.shared.quiet).conn.state_ ≠ .kConnecting
    obtain he | he := hf
    · rwa [he]
    · rw [he]
      decide
  · obtain hm | ⟨n, hn⟩ := SharedConn.mem_waiting_act f s.shared hm
    · exact hm
    · cases hn
  · obtain he | he := hf
    · rw [he]
    · rw [he]
      cases s.state <;> decide

omit [DecidableEq T] [DecidableEq A] in
/-- Popping a functor changes nothing else. -/
theorem Staged.pop (h : s.Staged) (hs : s.state ≠ .kConnecting) {f : Functor T A}
    {queue : TaskQueue (Functor T A)} (hq : s.shared.queue.start = some (f, queue)) {own : Place}
    (ho : own ≠ .idle → s.state = .kConnected ∨ s.state = .kDisconnecting) :
    Staged { shared := { s.shared with queue := queue }, own := own } := by
  obtain ⟨hwait, -, -, htodo⟩ := TaskQueue.waiting_of_start hq
  refine h.of_begun hs hs (fun hc => ?_) (fun hm => ?_) ho
  · exact absurd (htodo.symm.trans (h.between hc)) (by simp)
  · rw [waiting, hwait]
    exact List.mem_cons_of_mem f hm

omit [DecidableEq A] in
/-- A thread that moves to another point than `leaving` joins nobody there. -/
theorem leaving_of_setCaller {c : SharedConn T A} {t u : T} {x : Caller T A} (hx : x ≠ .leaving)
    (h : (c.setCaller t x).caller u = .leaving) : c.caller u = .leaving := by
  simp only [SharedConn.setCaller, Function.update_apply] at h
  split at h
  · exact absurd h hx
  · exact h

/-- The other threads. -/
theorem staged_foreign (h : s.Staged) {a : SharedConn.Action T A} (ha : a.onLoop = false)
    (hok : s.Timely (.shared a)) {shared : SharedConn T A} (hs : s.shared.step a = some shared) :
    Staged { s with shared := shared } ∧ s.state.stage ≤ shared.site.conn.state_.stage := by
  cases a with
  | send t c_str size =>
    obtain ⟨-, ⟨-, rfl⟩ | ⟨-, rfl⟩⟩ := SharedConn.step_send hs
    · exact ⟨h, Nat.le_refl _⟩
    · exact h.of_same rfl h.between [] (List.append_nil _).symm List.not_mem_nil
        (fun u hu => .inl (leaving_of_setCaller (by simp) hu)) .inl
  | enqueueSend t =>
    obtain ⟨captured, message, -, rfl⟩ := SharedConn.step_enqueueSend hs
    exact h.of_same rfl h.between [.sendInLoop captured message] (TaskQueue.waiting_push _ _)
      (by simp) (fun u hu => .inl (leaving_of_setCaller (by simp) hu)) .inl
  | shutdown t =>
    obtain ⟨-, ⟨-, rfl⟩ | ⟨hconn, rfl⟩⟩ := SharedConn.step_shutdown hs
    · exact ⟨h, Nat.le_refl _⟩
    · exact h.of_same rfl h.between [] (List.append_nil _).symm List.not_mem_nil
        (fun _ _ => .inr hconn) .inl
  | storeDisconnecting t =>
    obtain ⟨ht, rfl⟩ := SharedConn.step_storeDisconnecting hs
    have hbegun := h.leaving t ht
    have hopen : s.state ≠ .kDisconnected := hok
    refine ⟨h.of_begun hbegun (by simp [state]) h.between id (fun _ => .inr rfl), ?_⟩
    show s.state.stage ≤ 2
    cases hstate : s.state with
    | kDisconnected => exact absurd hstate hopen
    | _ => decide
  | enqueueShutdown t =>
    obtain ⟨-, rfl⟩ := SharedConn.step_enqueueShutdown hs
    exact h.of_same rfl h.between [.shutdownInLoop] (TaskQueue.waiting_push _ _) (by simp)
      (fun u hu => .inl (leaving_of_setCaller (by simp) hu)) .inl
  | overwrite t a content =>
    obtain ⟨-, rfl⟩ := SharedConn.step_overwrite hs
    exact h.of_same rfl h.between [] (List.append_nil _).symm List.not_mem_nil
      (fun _ hu => .inl hu) .inl
  | queueDestroyed =>
    cases hs
    exact h.of_same rfl h.between [.connectDestroyed] (TaskQueue.waiting_push _ _) (by simp)
      (fun _ hu => .inl hu) .inl
  | _ => cases ha

omit [DecidableEq T] [DecidableEq A] in
/-- The functor that is run on an established connection. -/
theorem staged_call (h : s.Staged) (hs : s.state ≠ .kConnecting) {f : Functor T A}
    (hf : f ≠ .connectEstablished) (hd : f = .connectDestroyed → s.state ≠ .kConnected)
    (r : WriteResult) : Staged { shared := s.shared.call r f, own := .idle } ∧
      s.state.stage ≤ (s.shared.call r f).site.conn.state_.stage := by
  cases f with
  | connectEstablished => exact absurd rfl hf
  | connectDestroyed => exact h.act hs (.inl (Site.state_connectDestroyed () (hd rfl)))
  | sendInLoop captured message =>
    have hact := h.act hs (f := Site.sendInLoop () (SharedConn.read s.shared.store captured) r)
      (.inl (Site.silent_sendInLoop () _ r _).state)
    exact ⟨⟨hact.1.between, hact.1.fresh, hact.1.once, hact.1.leaving, hact.1.own⟩, hact.2⟩
  | shutdownInLoop => exact h.act hs (.inl (Site.silent_shutdownInLoop _).state)
  | notice n =>
    exact ⟨⟨h.between, h.fresh, h.once, h.leaving, fun hn => absurd rfl hn⟩, Nat.le_refl _⟩

omit [DecidableEq T] [DecidableEq A] in
theorem staged_start (h : s.Staged) {f : Functor T A}
    {queue : TaskQueue (Functor T A)} (hq : s.shared.queue.start = some (f, queue))
    (hd : f = .connectDestroyed → s.state ≠ .kConnected) (r : WriteResult) :
    Staged { shared := SharedConn.call { s.shared with queue := queue } r f, own := .idle } ∧
      s.state.stage ≤
        (SharedConn.call { s.shared with queue := queue } r f).site.conn.state_.stage := by
  obtain ⟨hwait, -, -, htodo⟩ := TaskQueue.waiting_of_start hq
  by_cases hs : s.state = .kConnecting
  · -- `connectEstablished` is the first functor of all
    obtain ⟨-, rest, hrest, honce⟩ := h.fresh hs
    obtain ⟨rfl, rfl⟩ := List.cons.inj (hwait.symm.trans hrest)
    have hstate : (Site.connectEstablished () s.shared.quiet).conn.state_ = .kConnected :=
      Site.state_connectEstablished () _
    refine ⟨⟨fun hc => ?_, fun hc => ?_, fun _ hm => ?_, fun _ _ hc => ?_,
      fun hn => absurd rfl hn⟩, ?_⟩
    · exact absurd (htodo.symm.trans (h.between hc)) (by simp)
    · exact absurd (hstate.symm.trans hc) (by decide)
    · obtain hm | ⟨n, hn⟩ := SharedConn.mem_waiting_act _ _ hm
      · exact honce hm
      · cases hn
    · exact absurd (hstate.symm.trans hc) (by decide)
    · rw [hs]
      exact Nat.zero_le _
  · have hpop : Staged { shared := { s.shared with queue := queue }, own := .idle } :=
      h.pop hs hq fun hn => absurd rfl hn
    refine staged_call hpop hs (fun he => h.once hs ?_) hd r
    rw [waiting, hwait, he]
    exact List.mem_cons_self

omit [DecidableEq T] [DecidableEq A] in
/-- An event is handled only on an established connection. -/
theorem Staged.begun_of_tied (h : s.Staged) (ht : s.shared.site.conn.channel_.tied_ = true) :
    s.state ≠ .kConnecting := fun hs => by
  rw [(h.fresh hs).1] at ht
  cases ht

omit [DecidableEq T] [DecidableEq A] in
theorem idle_of_enabled {a : SharedConn.Action T A} (ha : a.onLoop = true)
    (he : s.enabled a = true) : s.own = .idle := by
  cases a <;> simp_all [enabled, SharedConn.Action.onLoop]

/-- The loop's thread, between two calls. -/
theorem staged_onLoop (h : s.Staged) {a : SharedConn.Action T A} (ha : a.onLoop = true)
    (he : s.enabled a = true) {shared : SharedConn T A} (hs : s.shared.step a = some shared) :
    Staged { s with shared := shared } ∧ s.state.stage ≤ shared.site.conn.state_.stage := by
  have hidle := idle_of_enabled ha he
  rw [hidle]
  cases a with
  | loopSend text r =>
    simp only [SharedConn.step] at hs
    split at hs <;> cases hs
    · rename_i hconn
      have hbegun : s.state ≠ .kConnecting := fun hc => absurd (hconn.symm.trans hc) (by decide)
      have hact := h.act hbegun (f := Site.sendInLoop () text r)
        (.inl (Site.silent_sendInLoop () _ r _).state)
      exact ⟨⟨hact.1.between, hact.1.fresh, hact.1.once, hact.1.leaving, hact.1.own⟩, hact.2⟩
    · exact ⟨hidle ▸ h, Nat.le_refl _⟩
  | handleRead r =>
    simp only [enabled, Bool.and_eq_true] at he
    simp only [SharedConn.step] at hs
    split at hs <;> cases hs
    refine h.act (h.begun_of_tied he.2) ?_
    obtain ⟨-, hr⟩ | ⟨-, hr⟩ := handleRead_cases () (w := s.shared.quiet) r
    · rw [hr]
      exact .inr (Site.state_handleClose () _)
    · rw [hr]
      exact .inl rfl
  | handleWrite r =>
    simp only [enabled, Bool.and_eq_true] at he
    simp only [SharedConn.step] at hs
    split at hs <;> cases hs
    exact h.act (h.begun_of_tied he.2) (.inl (Site.silent_handleWrite () r _).state)
  | handleClose =>
    simp only [enabled, Bool.and_eq_true] at he
    simp only [SharedConn.step] at hs
    split at hs <;> cases hs
    exact h.act (h.begun_of_tied he.2) (.inr (Site.state_handleClose () _))
  | swap =>
    simp only [SharedConn.step] at hs
    split at hs <;> cases hs
    rename_i hcall
    have hwait := TaskQueue.waiting_swap (h.between (by simpa using hcall))
    exact h.of_same rfl (fun hc => by cases hc) [] (by simpa [waiting] using hwait)
      List.not_mem_nil (fun _ hu => .inl hu) (fun hn => absurd rfl hn)
  | start r =>
    obtain ⟨-, f, queue, hq, rfl⟩ := SharedConn.step_start hs
    refine staged_start h hq (fun hf => ?_) r
    have htodo := (TaskQueue.waiting_of_start hq).2.2.2
    simpa [enabled, hidle, htodo, hf] using he
  | finish =>
    simp only [SharedConn.step] at hs
    split at hs <;> cases hs
    rename_i hcall
    simp only [Bool.and_eq_true, List.isEmpty_iff] at hcall
    exact h.of_same rfl (fun _ => hcall.2) [] (List.append_nil _).symm List.not_mem_nil
      (fun _ hu => .inl hu) (fun hn => absurd rfl hn)
  | loopShutdown => cases he
  | _ => cases ha

/-- Every step of a timely run moves forward. -/
theorem staged_step (h : s.Staged) {a : Action T A} (hok : s.Timely a)
    (hs : s.step a = some s') : s'.Staged ∧ s.state.stage ≤ s'.state.stage := by
  cases a with
  | shared a =>
    simp only [step, Option.ite_none_right_eq_some, Option.map_eq_some_iff] at hs
    obtain ⟨he, shared, hs, rfl⟩ := hs
    cases ha : a.onLoop with
    | true => exact staged_onLoop h ha he hs
    | false => exact staged_foreign h ha hok hs
  | testShutdown =>
    simp only [step] at hs
    split at hs
    · rename_i hidle
      split at hs <;> cases hs
      · rename_i hconn
        exact h.of_same rfl h.between [] (List.append_nil _).symm List.not_mem_nil
          (fun _ hu => .inl hu) (fun _ => .inr hconn)
      · exact ⟨h, Nat.le_refl _⟩
    · cases hs
  | storeDisconnecting =>
    simp only [step, Option.ite_none_right_eq_some, Option.some.injEq] at hs
    obtain ⟨hown, rfl⟩ := hs
    have hstate := h.own (by rw [hown]; decide)
    have hbegun : s.state ≠ .kConnecting := by
      obtain hc | hc := hstate <;> (rw [hc]; decide)
    refine ⟨h.of_begun hbegun (by simp [state]) h.between id (fun _ => .inr rfl), ?_⟩
    show s.state.stage ≤ 2
    obtain hc | hc := hstate <;> (rw [hc]; decide)
  | shutdownInLoop =>
    simp only [step, Option.ite_none_right_eq_some, Option.some.injEq] at hs
    obtain ⟨hown, rfl⟩ := hs
    have hbegun : s.state ≠ .kConnecting := by
      obtain hc | hc := h.own (by rw [hown]; decide) <;> (rw [hc]; decide)
    exact h.act hbegun (.inl (Site.silent_shutdownInLoop _).state)
  | testConnected =>
    simp only [step] at hs
    split at hs
    · rename_i hg
      split at hs <;> cases hs
      rename_i hq
      exact ⟨h.pop (by rw [hg.2.2]; decide) hq fun _ => .inl hg.2.2, Nat.le_refl _⟩
    · cases hs
  | storeDisconnected =>
    simp only [step, Option.ite_none_right_eq_some, Option.some.injEq] at hs
    obtain ⟨hown, rfl⟩ := hs
    have hbegun : s.state ≠ .kConnecting := by
      obtain hc | hc := h.own (by rw [hown]; decide) <;> (rw [hc]; decide)
    exact h.act hbegun (.inr (Site.state_disconnect ()))

end Step

/-! ## Every run -/

section Runs

variable {s s' : Lifetime T A}

omit [DecidableEq T] [DecidableEq A] in
theorem staged_accepted (name : List Char) (sockfd : Int) (callbacks : Callbacks)
    (store : T → A → Nat → Byte) : (accepted name sockfd callbacks store).Staged where
  between _ := rfl
  fresh _ := ⟨rfl, [], rfl, List.not_mem_nil⟩
  once hs := absurd rfl hs
  leaving t ht := by simp [accepted] at ht
  own hn := absurd rfl hn

/-- From any reachable state on, `state_` does not move backwards. In particular
`kDisconnected` is final, and a functor `sendInLoop` that runs later finds it:
nothing is appended and the channel is not registered again. -/
theorem state_moves_forward (name : List Char) (sockfd : Int) (callbacks : Callbacks)
    (store : T → A → Nat → Byte) (as bs : List (Action T A))
    (hg : Guarded step Timely (accepted name sockfd callbacks store) as)
    (hr : exec step (accepted name sockfd callbacks store) as = some s)
    (hg' : Guarded step Timely s bs) (hr' : exec step s bs = some s') :
    s.state.stage ≤ s'.state.stage ∧ (s.state = .kDisconnected → s'.state = .kDisconnected ∧
      ∀ captured message queue r s'',
        s'.shared.queue.start = some (.sendInLoop captured message, queue) →
        s'.step (.shared (.start r)) = some s'' →
        s''.shared.site.conn = s'.shared.site.conn ∧
          s''.shared.site.poller = s'.shared.site.poller) := by
  have h : s.Staged := exec_invariant Staged (fun _ _ _ hi hok hs => (staged_step hi hok hs).1)
    (staged_accepted name sockfd callbacks store) hg hr
  have hlater : s'.Staged ∧ s.state.stage ≤ s'.state.stage :=
    exec_invariant (fun v => v.Staged ∧ s.state.stage ≤ v.state.stage)
      (fun v a v' hv hok hs => ⟨(staged_step hv.1 hok hs).1,
        hv.2.trans (staged_step hv.1 hok hs).2⟩) ⟨h, Nat.le_refl _⟩ hg' hr'
  refine ⟨hlater.2, fun hs => ?_⟩
  have hclosed : s'.state = .kDisconnected := by
    have hstage := hlater.2
    rw [hs] at hstage
    cases hs' : s'.state with
    | kDisconnected => rfl
    | _ => rw [hs'] at hstage; simp [StateE.stage] at hstage
  refine ⟨hclosed, fun captured message queue r s'' hq hstep => ?_⟩
  simp only [step, Option.ite_none_right_eq_some, Option.map_eq_some_iff] at hstep
  obtain ⟨-, shared, hstart, rfl⟩ := hstep
  obtain ⟨-, f, queue', hq', rfl⟩ := SharedConn.step_start hstart
  cases hq.symm.trans hq'
  have hquiet : (s'.shared.quiet).conn.state_ = .kDisconnected := hclosed
  simp only [SharedConn.call, SharedConn.hand, SharedConn.act_site]
  show (Site.sendInLoop () _ r s'.shared.quiet).conn = _ ∧
    (Site.sendInLoop () _ r s'.shared.quiet).poller = _
  rw [Site.sendInLoop, if_pos hquiet]
  exact ⟨rfl, rfl⟩

/-- A `shutdown` of another thread that stores in time, then the end of the stream. -/
theorem state_moves_forward_closed :
    let as : List (Action Unit Unit) := [.shared .swap, .shared (.start (.took 0)),
      .shared .finish, .shared (.shutdown ()), .shared (.storeDisconnecting ())]
    let bs : List (Action Unit Unit) := [.shared (.handleRead (.delivered [])),
      .shared (.enqueueShutdown ())]
    ∃ s s', exec step (accepted [] 5 {} fun _ _ _ => 65) as = some s ∧ exec step s bs = some s' ∧
      s.state = .kDisconnecting ∧ s.state.stage ≤ s'.state.stage := by
  intro as bs
  have hrun : (exec step (accepted [] 5 {} fun _ _ _ => 65) as).map (fun s => (s.state,
      decide (Guarded step Timely s bs), (exec step s bs).isSome)) =
      some (.kDisconnecting, true, true) := by decide +kernel
  obtain ⟨s, hs, hres⟩ := Option.map_eq_some_iff.mp hrun
  simp only [Prod.mk.injEq, decide_eq_true_eq, Option.isSome_iff_exists] at hres
  obtain ⟨hstate, hg', s', hs'⟩ := hres
  exact ⟨s, s', hs, hs', hstate,
    (state_moves_forward [] 5 {} _ as bs (by decide +kernel) hs hg' hs').1⟩

/-- A `shutdown` that has found `kConnected` stores `kDisconnecting` after the
connection has been closed: a `sendInLoop` that comes later appends its bytes
and registers the closed connection's channel again. -/
theorem state_moves_backward :
    let closing : List (Action Bool Unit) := [.shared .swap, .shared (.start (.took 0)),
      .shared .finish, .shared (.send false () 1), .shared (.shutdown true),
      .shared (.handleRead (.delivered []))]
    let later : List (Action Bool Unit) := [.shared (.storeDisconnecting true),
      .shared (.enqueueSend false), .shared .swap, .shared (.start (.took 0))]
    let callbacks : Callbacks := { connectionCallback_ := true }
    (exec step (accepted [] 5 callbacks fun _ _ _ => 65) closing).map (fun s => (s.state,
      s.shared.site.conn.outputBuffer_.contents, s.shared.site.poller.epoll 5)) =
      some (.kDisconnected, [], none) ∧
    (exec step (accepted [] 5 callbacks fun _ _ _ => 65) (closing ++ later)).map (fun s => (s.state,
      s.shared.site.conn.outputBuffer_.contents, s.shared.site.poller.epoll 5)) =
      some (.kDisconnecting, [65], some ((), Channel.kWriteEvent)) := by decide +kernel

end Runs

end Lifetime

end Connection

end Mymuduo

import Mymuduo.Connection.SharedConn

/-!
# What a queued send transmits

A queued send reads the caller's string when it runs, not when it is queued.
As long as no string captured by a queued functor is changed, it transmits the
contents the string had when `send` was called.
-/

namespace Mymuduo.Connection.SharedConn

open Mymuduo.Library Mymuduo.Library.Execution

universe u v

variable {T : Type u} {A : Type v}

/-- The bytes a functor finds when it runs. -/
def found (store : T → A → Nat → Byte) : Functor T A → List Byte
  | .sendInLoop captured _ => read store captured
  | _ => []

variable [DecidableEq T] [DecidableEq A]

/-- The step leaves alone what queued functors have captured. -/
def Intact (s : SharedConn T A) : Action T A → Prop
  | .overwrite t a content =>
    ∀ f ∈ s.queue.waiting, found (overwritten s.store t a content) f = found s.store f
  | _ => True

instance (s : SharedConn T A) : ∀ a, Decidable (s.Intact a)
  | .overwrite t a content => inferInstanceAs (Decidable (∀ f ∈ s.queue.waiting,
      found (overwritten s.store t a content) f = found s.store f))
  | .send .. | .enqueueSend _ | .shutdown _ | .storeDisconnecting _ | .enqueueShutdown _
  | .queueDestroyed | .loopSend .. | .loopShutdown | .handleRead _ | .handleWrite _ | .handleClose
  | .swap | .start _ | .finish => .isTrue trivial

/-- Every send on its way still finds its message. -/
structure Carried (s : SharedConn T A) : Prop where
  queued : ∀ c m, Functor.sendInLoop c m ∈ s.queue.waiting → read s.store c = m.text
  sending : ∀ t c m, s.caller t = .sending c m → c.owner = t ∧ read s.store c = m.text

omit [DecidableEq T] [DecidableEq A] in
theorem Carried.of_same {s s' : SharedConn T A} (h : s.Carried) (hs : s'.store = s.store)
    (hq : ∀ c m, Functor.sendInLoop c m ∈ s'.queue.waiting → Functor.sendInLoop c m ∈ s.queue.waiting)
    (hc : ∀ t c m, s'.caller t = .sending c m → s.caller t = .sending c m) : s'.Carried :=
  ⟨fun c m hm => hs ▸ h.queued c m (hq c m hm), fun t c m ht => hs ▸ h.sending t c m (hc t c m ht)⟩

theorem carried_step (s : SharedConn T A) (a : Action T A) (s' : SharedConn T A)
    (h : s.Carried) (hok : s.Intact a) (hs : s.step a = some s') : s'.Carried := by
  by_cases ha : a.onLoop = true
  · obtain ⟨hst, hc, hw⟩ := step_onLoop hs ha
    refine h.of_same hst (fun c m hm => ?_) fun t c m ht => hc ▸ ht
    obtain hm | ⟨n, hn⟩ := hw _ hm
    · exact hm
    · cases hn
  cases a with
  | send t c_str size =>
    obtain ⟨-, ⟨-, rfl⟩ | ⟨-, rfl⟩⟩ := step_send hs
    · exact h
    refine ⟨h.queued, fun u c m hu => ?_⟩
    simp only [setCaller, Function.update_apply] at hu
    split at hu
    · rename_i heq
      cases hu
      exact ⟨heq.symm, rfl⟩
    · exact h.sending u c m hu
  | enqueueSend t =>
    obtain ⟨captured, message, ht, rfl⟩ := step_enqueueSend hs
    refine ⟨fun c m hm => ?_, fun u c m hu => h.sending u c m (sending_of_setCaller (by simp) hu)⟩
    simp only [TaskQueue.waiting_push, List.mem_append, List.mem_singleton] at hm
    obtain hm | hm := hm
    · exact h.queued c m hm
    · cases hm
      exact (h.sending t _ _ ht).2
  | shutdown t =>
    obtain ⟨-, ⟨-, rfl⟩ | ⟨-, rfl⟩⟩ := step_shutdown hs
    · exact h
    · exact h.of_same rfl (fun _ _ hm => hm) fun u c m hu => sending_of_setCaller (by simp) hu
  | storeDisconnecting t =>
    obtain ⟨-, rfl⟩ := step_storeDisconnecting hs
    exact h.of_same rfl (fun _ _ hm => hm) fun u c m hu => sending_of_setCaller (by simp) hu
  | enqueueShutdown t =>
    obtain ⟨-, rfl⟩ := step_enqueueShutdown hs
    exact h.of_same rfl (fun c m hm => by simpa using hm) fun u c m hu =>
      sending_of_setCaller (by simp) hu
  | overwrite t a content =>
    obtain ⟨ht, rfl⟩ := step_overwrite hs
    refine ⟨fun c m hm => (hok _ hm).trans (h.queued c m hm), fun u c m hu => ?_⟩
    obtain ⟨hown, hread⟩ := h.sending u c m hu
    have hne : c.owner ≠ t := by
      intro heq
      simp only at hu
      rw [← hown, heq, ht] at hu
      cases hu
    refine ⟨hown, ?_⟩
    simp only [read, overwritten, Function.update_of_ne hne]
    exact hread
  | queueDestroyed =>
    cases hs
    exact h.of_same rfl (fun c m hm => by simpa using hm) fun _ _ _ ht => ht
  | _ => exact absurd rfl ha

omit [DecidableEq T] [DecidableEq A] in
theorem carried_established (name : List Char) (sockfd : Int) (callbacks : Callbacks)
    (store : T → A → Nat → Byte) : (established name sockfd callbacks store).Carried :=
  ⟨by simp [established, TaskQueue.waiting], by simp [established]⟩

/-- Along a run that leaves captured strings alone, a queued send that runs
writes the first part of its message to the socket and appends the other part
to `outputBuffer_`; where it gives up, or meets a reset, it appends nothing. -/
theorem queued_send_transmits (name : List Char) (sockfd : Int) (callbacks : Callbacks)
    (store : T → A → Nat → Byte) (as : List (Action T A)) {s s' : SharedConn T A}
    (hg : Guarded step Intact (established name sockfd callbacks store) as)
    (hr : exec step (established name sockfd callbacks store) as = some s)
    {captured : Capture T A} {message : Message T} {queue : TaskQueue (Functor T A)}
    (hq : s.queue.start = some (.sendInLoop captured message, queue))
    {r : WriteResult} (hs : s.step (.start r) = some s') :
    ∃ k, s'.site.conn.socket_.accepted = s.site.conn.socket_.accepted ++ message.text.take k ∧
      s'.site.conn.outputBuffer_.contents = s.site.conn.outputBuffer_.contents ++
        (if s.entered r then message.text.drop k else []) := by
  have hc : s.Carried := exec_invariant Carried carried_step
    (carried_established name sockfd callbacks store) hg hr
  have hread : read s.store captured = message.text :=
    hc.queued captured message (by rw [(TaskQueue.waiting_of_start hq).1]; exact List.mem_cons_self)
  obtain ⟨-, f, q, hf, rfl⟩ := step_start hs
  cases hq.symm.trans hf
  by_cases hd : s.site.conn.state_ = .kDisconnected
  · refine ⟨0, ?_⟩
    simp [call, hand, act, Site.sendInLoop, hd, entered]
  · obtain ⟨k, ha, hb, -⟩ := sendInLoop_spec () (w := s.quiet) hd
      message.text r
    have hreset : reset s.quiet r = reset s.site r := rfl
    have hentered : s.entered r = !reset s.site r := by simp [entered, hd]
    simp only [call, hand, act, hread, hentered]
    rw [hreset] at hb
    refine ⟨k, ha, hb.trans ?_⟩
    cases reset s.site r <;> rfl

/-- One thread sends a string of one byte, and keeps it until the functor has run. -/
theorem queued_send_transmits_kept :
    let as : List (Action Unit Unit) := [.send () () 1, .enqueueSend (), .swap]
    ∃ s s', exec step (established [] 5 {} fun _ _ _ => 65) as = some s ∧
      s.step (.start (.took 0)) = some s' ∧
      ∃ k, s'.site.conn.outputBuffer_.contents =
        s.site.conn.outputBuffer_.contents ++ ([65] : List Byte).drop k := by
  intro as
  obtain ⟨s, hs⟩ := Option.isSome_iff_exists.mp
    (by decide +kernel : (exec step (established [] 5 {} fun _ _ _ => 65) as).isSome = true)
  have hstart : (exec step (established [] 5 {} fun _ _ _ => 65) as).bind (·.queue.start) =
      some (.sendInLoop ⟨(), (), 1⟩ ⟨some (), [65]⟩,
        { ran := [.sendInLoop ⟨(), (), 1⟩ ⟨some (), [65]⟩] }) := by decide +kernel
  have hstep : ((exec step (established [] 5 {} fun _ _ _ => 65) as).bind
      (·.step (.start (.took 0)))).isSome = true := by decide +kernel
  have hentered : (exec step (established [] 5 {} fun _ _ _ => 65) as).map (·.entered (.took 0)) =
      some true := by decide +kernel
  rw [hs] at hstart hstep hentered
  obtain ⟨s', hs'⟩ := Option.isSome_iff_exists.mp hstep
  obtain ⟨k, -, hk⟩ := queued_send_transmits [] 5 {} _ as (by decide +kernel) hs hstart hs'
  rw [if_pos (Option.some.inj hentered)] at hk
  exact ⟨s, s', hs, hs', k, hk⟩

/-- The string is overwritten between the return of `send` and the run of the
functor: the message is one byte 65, the functor buffers a byte 66. -/
theorem queued_send_overwritten :
    (exec step (established [] 5 {} fun _ _ _ => 65)
      ([.send () () 1, .enqueueSend (), .overwrite () () fun _ => 66, .swap, .start (.took 0)] :
        List (Action Unit Unit))).map
      (fun s => (s.handed, s.site.conn.socket_.accepted, s.site.conn.outputBuffer_.contents)) =
    some ([⟨⟨some (), [65]⟩, [66], true⟩], [], [66]) := by decide +kernel

end Mymuduo.Connection.SharedConn

import Mymuduo.Buffer.Bounded
import Mymuduo.Connection.HalfClose
import Mymuduo.Connection.Methods

/-!
# The order of the messages of each sender

The messages of other threads go through the queue, those of the loop's thread
do not. The vector of `outputBuffer_` never shrinks, so an empty buffer always
has room, `sendInLoop` never writes directly, and no message is lost to a reset.
While the connection is up nothing of a sender is dropped, and when it goes down
what is dropped is the end of each sender's sequence.
-/

namespace Mymuduo.Connection

open Mymuduo.Library Mymuduo.Library.Execution

universe u v

/-! ## Methods that keep the output in order -/

section Methods

variable {κ : Type u} (self : κ) {w w' : Site κ}

/-- What `sendInLoop` and `handleWrite` rely on. -/
structure Feeding (w : Site κ) : Prop where
  roomy : kCheapPrepend < w.conn.outputBuffer_.raw.buffer_.length
  interest : w.conn.state_ ≠ .kDisconnected →
    (w.conn.channel_.isWriting = true ↔ w.conn.outputBuffer_.contents ≠ [])
  mute : w.conn.state_ = .kDisconnected → w.conn.channel_.isWriting = false

/-- The ways in which a method of an established connection moves the state. -/
inductive Onward (before : StateE) : StateE → Prop
  | stay : Onward before before
  | leave (h : before = .kConnected) : Onward before .kDisconnecting
  | close : Onward before .kDisconnected

theorem Onward.connected {a b : StateE} (h : Onward a b) (hb : b = .kConnected) :
    a = .kConnected := by
  cases h with
  | stay => exact hb
  | leave => cases hb
  | close => cases hb

theorem Onward.live {a b : StateE} (h : Onward a b) (hb : b ≠ .kDisconnected) :
    a ≠ .kDisconnected := by
  cases h with
  | stay => exact hb
  | leave ha => rw [ha]; decide
  | close => exact absurd rfl hb

theorem Onward.begun {a b : StateE} (h : Onward a b) (ha : a ≠ .kConnecting) :
    b ≠ .kConnecting := by
  cases h with
  | stay => exact ha
  | leave => decide
  | close => decide

/-- A method that adds nothing to the output stream. -/
structure Adds (w w' : Site κ) : Prop where
  feeding : Feeding w'
  stream : outputStream w' = outputStream w
  onward : Onward w.conn.state_ w'.conn.state_

theorem roomy_append {b : SoundBuffer} (h : kCheapPrepend < b.raw.buffer_.length)
    (data : List Byte) : kCheapPrepend < (b.append data).raw.buffer_.length :=
  h.trans_le (Buffer.grows_append b.wf le_rfl (Option.some_get (b.append_isSome data)).symm).no_shrink

theorem roomy_retrieve {b : SoundBuffer} (h : kCheapPrepend < b.raw.buffer_.length) (len : Nat) :
    kCheapPrepend < (b.retrieve len).raw.buffer_.length :=
  h.trans_eq (Buffer.length_retrieve b.raw len).symm

/-- An empty buffer has room behind its indices. -/
theorem Feeding.writesDirectly (h : Feeding w) (hs : w.conn.state_ ≠ .kDisconnected) :
    w.writesDirectly = false := by
  simp only [Site.writesDirectly, Bool.and_eq_false_iff, Bool.not_eq_false', beq_eq_false_iff_ne]
  by_cases hw : w.conn.channel_.isWriting = true
  · exact .inl hw
  · have hempty : w.conn.outputBuffer_.readableBytes = 0 :=
      SoundBuffer.readableBytes_eq_zero.mpr (not_not.mp (mt (h.interest hs).mpr hw))
    have hwf := w.conn.outputBuffer_.wf
    have ho := hwf.ordered
    have hroom := h.roomy
    have hreset := hwf.reset
    right
    simp only [SoundBuffer.readableBytes, Buffer.readableBytes] at hempty
    simp only [SoundBuffer.writableBytes, Buffer.writableBytes]
    omega

/-- Every message goes through the buffer, so that none is lost to a reset. -/
theorem Feeding.reset (h : Feeding w) (r : WriteResult) : reset w r = false := by
  unfold Connection.reset
  by_cases hs : w.conn.state_ = .kDisconnected
  · simp [hs]
  · simp [h.writesDirectly hs]

theorem Feeding.isOpen (h : Feeding w) (hs : w.conn.state_ ≠ .kDisconnected) :
    Open w [outputStream w] := ⟨hs, by simp, h.interest hs⟩

/-- `sendInLoop` adds its bytes to the stream unless the connection is closed. -/
theorem Feeding.sendInLoop (h : Feeding w) (data : List Byte) (r : WriteResult) :
    Feeding (w.sendInLoop self data r) ∧
      (w.sendInLoop self data r).conn.state_ = w.conn.state_ ∧
      outputStream (w.sendInLoop self data r) =
        outputStream w ++ (if w.conn.state_ = .kDisconnected then [] else data) := by
  by_cases hs : w.conn.state_ = .kDisconnected
  · rw [Site.sendInLoop, if_pos hs, if_pos hs, List.append_nil]
    exact ⟨h, rfl, rfl⟩
  · have hopen := (h.isOpen hs).sendInLoop self data r
    have hstate := (Site.silent_sendInLoop self data r w).state
    rw [h.reset r, if_neg (by decide)] at hopen
    refine ⟨⟨?_, fun _ => hopen.interest, fun hd => absurd (hstate.symm.trans hd) hs⟩, hstate, ?_⟩
    · have hdirect : w.directWrite data r = (0, false, w) := by
        rw [Site.directWrite, h.writesDirectly hs]
        rfl
      simp only [Site.sendInLoop, if_neg hs, hdirect]
      split
      · simp only [Site.bufferRest]
        split <;> simpa using roomy_append h.roomy _
      · exact h.roomy
    · rw [hopen.stream, if_neg hs]
      simp

/-- What changes neither the buffer, nor the socket's bytes, nor write interest. -/
theorem Feeding.of_same (h : Feeding w) (hb : w'.conn.outputBuffer_ = w.conn.outputBuffer_)
    (ha : w'.conn.socket_.accepted = w.conn.socket_.accepted)
    (hw : w'.conn.channel_.isWriting = w.conn.channel_.isWriting)
    (hs : w'.conn.state_ = w.conn.state_ ∨
      w.conn.state_ = .kConnected ∧ w'.conn.state_ = .kDisconnecting) : Adds w w' := by
  refine ⟨⟨hb ▸ h.roomy, fun hl => ?_, fun hd => ?_⟩, by rw [outputStream, hb, ha, outputStream], ?_⟩
  · rw [hb, hw]
    refine h.interest fun hd => ?_
    obtain he | ⟨hc, -⟩ := hs
    · exact hl (he.trans hd)
    · exact absurd (hc.symm.trans hd) (by decide)
  · obtain he | ⟨-, he⟩ := hs
    · rw [hw]
      exact h.mute (he.symm.trans hd)
    · exact absurd (he.symm.trans hd) (by decide)
  · obtain he | ⟨hc, he⟩ := hs
    · rw [he]
      exact .stay
    · rw [he]
      exact .leave hc

theorem Feeding.shutdownInLoop (h : Feeding w) : Adds w w.shutdownInLoop := by
  obtain ⟨b, hconn⟩ := Site.shutdownInLoop_conn w
  exact h.of_same (by rw [hconn]) (by rw [hconn]) (by rw [hconn]) (.inl (by rw [hconn]))

theorem Feeding.shutdown (h : Feeding w) : Adds w w.shutdown := by
  unfold Site.shutdown
  split
  · rename_i hc
    obtain ⟨b, hconn⟩ := Site.shutdownInLoop_conn (w.setState .kDisconnecting)
    exact h.of_same (by rw [hconn]; rfl) (by rw [hconn]; rfl) (by rw [hconn]; rfl)
      (.inr ⟨hc, by rw [hconn]; rfl⟩)
  · exact h.of_same rfl rfl rfl (.inl rfl)

/-- Closing keeps the stream and ends all writing. -/
theorem adds_of_closed (hroom : kCheapPrepend < w.conn.outputBuffer_.raw.buffer_.length)
    (hb : w'.conn.outputBuffer_ = w.conn.outputBuffer_)
    (ha : w'.conn.socket_.accepted = w.conn.socket_.accepted)
    (hs : w'.conn.state_ = .kDisconnected) (hw : w'.conn.channel_.isWriting = false) :
    Adds w w' where
  feeding := ⟨hb ▸ hroom, fun hl => absurd hs hl, fun _ => hw⟩
  stream := by rw [outputStream, hb, ha, outputStream]
  onward := by
    rw [hs]
    exact .close

theorem Feeding.handleClose (h : Feeding w) : Adds w (w.handleClose self) := by
  simp only [Site.handleClose]
  exact adds_of_closed h.roomy (by simp) (by simp) (by simp) (by simp)

theorem Feeding.handleRead (h : Feeding w) (r : ReadvResult) : Adds w (w.handleRead self r) := by
  obtain ⟨-, hr⟩ | ⟨-, hr⟩ := handleRead_cases self (w := w) r
  · rw [hr]
    simp only [Site.handleClose]
    exact adds_of_closed h.roomy (by simp) (by simp) (by simp) (by simp)
  · exact h.of_same (by rw [hr]) (by rw [hr]) (by rw [hr]) (.inl (by rw [hr]))

theorem Feeding.connectDestroyed (h : Feeding w) : Adds w (w.connectDestroyed self) := by
  by_cases hs : w.conn.state_ = .kConnected
  · simp only [Site.connectDestroyed, Site.leaveConnected, if_pos hs]
    split <;> exact adds_of_closed h.roomy (by simp) (by simp) (by simp) (by simp)
  · simp only [Site.connectDestroyed, Site.leaveConnected, if_neg hs]
    split
    · exact h.of_same rfl rfl rfl (.inl rfl)
    · exact h.of_same rfl rfl (Site.isWriting_remove self w) (.inl rfl)

theorem roomy_handleWrite (h : kCheapPrepend < w.conn.outputBuffer_.raw.buffer_.length)
    (r : WriteResult) :
    kCheapPrepend < (w.handleWrite self r).conn.outputBuffer_.raw.buffer_.length := by
  simp only [Site.handleWrite]
  split
  · split
    · split
      · obtain ⟨hb, -⟩ := drained_spec self (w := (w.accept (w.conn.outputBuffer_.writeFd r).2)
          |>.setOutputBuffer (w.conn.outputBuffer_.retrieve
            (w.conn.outputBuffer_.writeFd r).1.toNat))
        exact (congrArg (fun b : SoundBuffer => b.raw.buffer_.length) hb).symm ▸
          roomy_retrieve h _
      · exact roomy_retrieve h _
    · exact h
  · exact h

theorem Feeding.handleWrite (h : Feeding w) (r : WriteResult) : Adds w (w.handleWrite self r) := by
  have hstate := (Site.silent_handleWrite self r w).state
  have honward : Onward w.conn.state_ (w.handleWrite self r).conn.state_ := by
    rw [hstate]
    exact .stay
  by_cases hs : w.conn.state_ = .kDisconnected
  · have hmute : w.handleWrite self r = w := by
      rw [Site.handleWrite, h.mute hs]
      rfl
    rw [hmute]
    exact h.of_same rfl rfl rfl (.inl rfl)
  · have hopen := (h.isOpen hs).handleWrite self r
    refine ⟨⟨roomy_handleWrite self h.roomy r, fun _ => hopen.interest,
      fun hd => absurd (hstate.symm.trans hd) hs⟩, ?_, honward⟩
    rw [hopen.stream]
    simp

end Methods

/-! ## The messages of each sender -/

section Senders

variable {T : Type u} {A : Type v} [DecidableEq T]

/-- The messages of one sender; `none` is the loop's thread. -/
def fromSender (who : Option T) (messages : List (Message T)) : List (Message T) :=
  messages.filter fun m => decide (m.sender = who)

@[simp] theorem fromSender_append (who : Option T) (ms ns : List (Message T)) :
    fromSender who (ms ++ ns) = fromSender who ms ++ fromSender who ns := List.filter_append ..

theorem fromSender_self {m : Message T} {who : Option T} (h : m.sender = who) :
    fromSender who [m] = [m] := by
  simp [fromSender, h]

theorem fromSender_other {m : Message T} {who : Option T} (h : m.sender ≠ who) :
    fromSender who [m] = [] := by
  simp [fromSender, h]

/-- The message of a `send` that stands between its test and its `emplace_back`. -/
def carriedBy : Caller T A → List (Message T)
  | .sending _ message => [message]
  | _ => []

def underway (c : SharedConn T A) : Option T → List (Message T)
  | none => []
  | some t => carriedBy (c.caller t)

theorem underway_setCaller (c : SharedConn T A) (t : T) (x : Caller T A) (who : Option T) :
    underway (c.setCaller t x) who = if who = some t then carriedBy x else underway c who := by
  cases who with
  | none => simp [underway]
  | some u =>
    simp only [underway, SharedConn.setCaller, Function.update_apply, Option.some.injEq]
    split <;> rfl

end Senders

/-- A connection with the calls of `send` so far. -/
structure Traffic (T : Type u) (A : Type v) where
  shared : SharedConn T A
  /-- history: the message of each call, whatever becomes of it -/
  called : List (Message T) := []

namespace Traffic

variable {T : Type u} {A : Type v}

/-- The message with which `send` is called. -/
def calls (c : SharedConn T A) : SharedConn.Action T A → List (Message T)
  | .send t c_str size => [⟨some t, SharedConn.read c.store ⟨t, c_str, size⟩⟩]
  | .loopSend text _ => [⟨none, text⟩]
  | _ => []

/-- The messages that have entered the output stream. -/
def sent (s : Traffic T A) : List (Message T) :=
  (s.shared.handed.filter (·.entered)).map (·.message)

/-- A part of `shutdown` on a thread that is not the loop's. -/
def shutsElsewhere : SharedConn.Action T A → Bool
  | .shutdown _ | .storeDisconnecting _ | .enqueueShutdown _ => true
  | _ => false

variable [DecidableEq T] [DecidableEq A]

def step (s : Traffic T A) (a : SharedConn.Action T A) : Option (Traffic T A) :=
  (s.shared.step a).map fun shared =>
    { shared := shared, called := s.called ++ calls s.shared a }

/-- Strings stay as they are until processed, and only the loop's thread shuts down. -/
structure Undisturbed (s : Traffic T A) (a : SharedConn.Action T A) : Prop where
  intact : s.shared.Intact a
  onLoop : shutsElsewhere a = false

instance (s : Traffic T A) (a : SharedConn.Action T A) : Decidable (s.Undisturbed a) :=
  decidable_of_iff (s.shared.Intact a ∧ shutsElsewhere a = false)
    ⟨fun ⟨h1, h2⟩ => ⟨h1, h2⟩, fun h => ⟨h.intact, h.onLoop⟩⟩

/-- The messages of a sender that have not been dropped, in the order in which
they come to `sendInLoop`. -/
def flow (s : Traffic T A) (who : Option T) : List (Message T) :=
  fromSender who (s.sent ++ s.shared.inQueue) ++ underway s.shared who

structure InOrder (s : Traffic T A) : Prop where
  feeding : Feeding s.shared.site
  begun : s.shared.site.conn.state_ ≠ .kConnecting
  between : s.shared.calling = false → s.shared.queue.todo = []
  plain : .connectEstablished ∉ s.shared.queue.waiting
  senders : ∀ m ∈ s.shared.inQueue, m.sender ≠ none
  callers : ∀ t c m, s.shared.caller t = .sending c m → m.sender = some t
  stream : outputStream s.shared.site = (s.sent.map (·.text)).flatten
  whole : s.shared.site.conn.state_ = .kConnected → ∀ who, s.flow who = fromSender who s.called
  flowing : s.shared.site.conn.state_ ≠ .kDisconnected →
    ∀ who, s.flow who <+: fromSender who s.called
  first : ∀ who, fromSender who s.sent <+: fromSender who s.called

section Keeping

variable {s s' : Traffic T A}

omit [DecidableEq A] in
/-- Steps that leave the connection, its messages and the senders alone. -/
theorem InOrder.of_same (h : s.InOrder) (hsite : s'.shared.site = s.shared.site)
    (hhanded : s'.shared.handed = s.shared.handed) (hcalled : s'.called = s.called)
    (hcaller : s'.shared.caller = s.shared.caller)
    (hqueue : s'.shared.inQueue = s.shared.inQueue)
    (hplain : .connectEstablished ∈ s'.shared.queue.waiting →
      .connectEstablished ∈ s.shared.queue.waiting)
    (hb : s'.shared.calling = false → s'.shared.queue.todo = []) : s'.InOrder := by
  have hsent : s'.sent = s.sent := by rw [sent, hhanded, sent]
  have hflow : ∀ who, s'.flow who = s.flow who := fun who => by
    cases who <;> simp only [flow, hsent, hqueue, underway, hcaller]
  refine ⟨hsite ▸ h.feeding, hsite ▸ h.begun, hb, fun hm => h.plain (hplain hm),
    by rw [hqueue]; exact h.senders, by rw [hcaller]; exact h.callers,
    by rw [hsite, hsent]; exact h.stream, fun hc who => ?_, fun hl who => ?_, fun who => ?_⟩
  · rw [hflow, hcalled]
    exact h.whole (hsite ▸ hc) who
  · rw [hflow, hcalled]
    exact h.flowing (hsite ▸ hl) who
  · rw [hsent, hcalled]
    exact h.first who

omit [DecidableEq T] [DecidableEq A] in
theorem quiet_feeding {c : SharedConn T A} (h : Feeding c.site) : Feeding c.quiet :=
  ⟨h.roomy, h.interest, h.mute⟩

omit [DecidableEq A] in
/-- A method of the loop's thread that adds no message. -/
theorem InOrder.act (h : s.InOrder) {f : Site Unit → Site Unit}
    (hf : Adds s.shared.quiet (f s.shared.quiet)) :
    InOrder { s with shared := s.shared.act f } := by
  have honward : Onward s.shared.site.conn.state_ (f s.shared.quiet).conn.state_ := hf.onward
  have hflow : ∀ who, flow { s with shared := s.shared.act f } who = s.flow who := fun who => by
    cases who <;> simp only [flow, SharedConn.inQueue_act, underway, SharedConn.act_caller] <;> rfl
  refine ⟨hf.feeding, honward.begun h.begun, h.between, fun hm => ?_, ?_, h.callers,
    hf.stream.trans h.stream, fun hc who => ?_, fun hl who => ?_, h.first⟩
  · obtain hm | ⟨n, hn⟩ := SharedConn.mem_waiting_act f s.shared hm
    · exact h.plain hm
    · cases hn
  · rw [SharedConn.inQueue_act]
    exact h.senders
  · rw [hflow]
    exact h.whole (honward.connected hc) who
  · rw [hflow]
    exact h.flowing (honward.live hl) who

omit [DecidableEq A] in
/-- `sendInLoop` with a message that was the sender's next one. -/
theorem InOrder.hand (h : s.InOrder) (message : Message T) (r : WriteResult)
    (hb : s'.shared.calling = false → s'.shared.queue.todo = [])
    (hplain : .connectEstablished ∉ s'.shared.queue.waiting)
    (hs : s'.shared.site = (s.shared.hand message message.text r).site)
    (hhanded : s'.shared.handed = (s.shared.hand message message.text r).handed)
    (hcaller : s'.shared.caller = s.shared.caller)
    (hsenders : ∀ m ∈ s'.shared.inQueue, m.sender ≠ none)
    (hwhole : s.shared.site.conn.state_ = .kConnected → ∀ who,
      fromSender who (s.sent ++ [message] ++ s'.shared.inQueue) ++ underway s.shared who =
        fromSender who s'.called)
    (hflowing : s.shared.site.conn.state_ ≠ .kDisconnected → ∀ who,
      fromSender who (s.sent ++ [message] ++ s'.shared.inQueue) ++ underway s.shared who <+:
        fromSender who s'.called)
    (hfirst : ∀ who, fromSender who s.sent <+: fromSender who s'.called) : s'.InOrder := by
  have hquiet := quiet_feeding h.feeding
  obtain ⟨hfeed, hstate, hstream⟩ := hquiet.sendInLoop () message.text r
  have hentered : s.shared.entered r = decide (s.shared.site.conn.state_ ≠ .kDisconnected) := by
    rw [SharedConn.entered, h.feeding.reset r, Bool.not_false, Bool.and_true]
  have hstate' : s'.shared.site.conn.state_ = s.shared.site.conn.state_ := by
    rw [hs]
    exact hstate
  have hsent : s'.sent = s.sent ++
      (if s.shared.site.conn.state_ = .kDisconnected then [] else [message]) := by
    simp only [sent, hhanded, SharedConn.hand, hentered, List.filter_append, List.map_append]
    congr 1
    by_cases hd : s.shared.site.conn.state_ = .kDisconnected <;> simp [hd]
  have hunder : ∀ who, underway s'.shared who = underway s.shared who := fun who => by
    cases who <;> simp only [underway, hcaller]
  have hlive : s.shared.site.conn.state_ ≠ .kDisconnected → s'.sent = s.sent ++ [message] :=
    fun hl => by rw [hsent, if_neg hl]
  refine ⟨hs ▸ hfeed, by rw [hstate']; exact h.begun, hb, hplain, hsenders,
    by rw [hcaller]; exact h.callers, ?_, fun hc who => ?_, fun hl who => ?_, fun who => ?_⟩
  · rw [hs, hsent, List.map_append, List.flatten_append, ← h.stream]
    refine hstream.trans (congrArg (outputStream s.shared.site ++ ·) ?_)
    have hstill : s.shared.quiet.conn.state_ = s.shared.site.conn.state_ := rfl
    by_cases hd : s.shared.site.conn.state_ = .kDisconnected
    · rw [if_pos (hstill.trans hd), if_pos hd]
      rfl
    · rw [if_neg fun he => hd (hstill.symm.trans he), if_neg hd]
      simp
  · rw [hstate'] at hc
    rw [flow, hlive (by rw [hc]; decide), hunder]
    exact hwhole hc who
  · rw [hstate'] at hl
    rw [flow, hlive hl, hunder]
    exact hflowing hl who
  · by_cases hd : s.shared.site.conn.state_ = .kDisconnected
    · rw [hsent, if_pos hd, List.append_nil]
      exact hfirst who
    · rw [hlive hd]
      refine List.IsPrefix.trans ?_ (hflowing hd who)
      rw [fromSender_append who (s.sent ++ [message]), List.append_assoc]
      exact List.prefix_append _ _

end Keeping

/-! ## One step -/

section Step

variable {s s' : Traffic T A}

omit [DecidableEq A] in
/-- A call of `send` that does not find `kConnected`. -/
theorem InOrder.call_dropped (h : s.InOrder) (hc : s.shared.site.conn.state_ ≠ .kConnected)
    (messages : List (Message T)) : InOrder { s with called := s.called ++ messages } :=
  { h with
    whole := fun hconn => absurd hconn hc
    flowing := fun hl who => (h.flowing hl who).trans (by simp)
    first := fun who => (h.first who).trans (by simp) }

omit [DecidableEq A] in
/-- One that does: its message is the sender's last so far. -/
theorem InOrder.call_taken (h : s.InOrder) {t : T} {c : Capture T A} {m : Message T}
    (ht : s.shared.caller t = .idle) (hm : m.sender = some t)
    (hc : s.shared.site.conn.state_ = .kConnected) :
    InOrder ⟨s.shared.setCaller t (.sending c m), s.called ++ [m]⟩ := by
  have hidle : underway s.shared (some t) = [] := by simp only [underway, ht]; rfl
  have hwhole : ∀ who, flow ⟨s.shared.setCaller t (.sending c m), s.called ++ [m]⟩ who =
      fromSender who (s.called ++ [m]) := fun who => by
    rw [fromSender_append, ← h.whole hc who, flow, flow, underway_setCaller, List.append_assoc]
    refine congrArg (fromSender who (s.sent ++ s.shared.inQueue) ++ ·) ?_
    split
    · rename_i hwho
      rw [hwho, hidle, fromSender_self hm]
      rfl
    · rename_i hwho
      rw [fromSender_other fun he => hwho (he.symm.trans hm), List.append_nil]
  refine { h with
    callers := fun u c' m' hu => ?_
    whole := fun _ => hwhole
    flowing := fun _ who => by rw [hwhole]
    first := fun who => (h.first who).trans (by simp) }
  simp only [SharedConn.setCaller, Function.update_apply] at hu
  split at hu
  · rename_i he
    cases hu
    rw [he]
    exact hm
  · exact h.callers u c' m' hu

omit [DecidableEq A] in
/-- The `emplace_back` moves a message on without overtaking one of its sender. -/
theorem InOrder.enqueue (h : s.InOrder) {t : T} {c : Capture T A} {m : Message T}
    (ht : s.shared.caller t = .sending c m) :
    InOrder ⟨{ s.shared.setCaller t .idle with
      queue := s.shared.queue.push (.sendInLoop c m)
      returned := s.shared.returned ++ [m] }, s.called⟩ := by
  set shared : SharedConn T A := { s.shared.setCaller t .idle with
    queue := s.shared.queue.push (.sendInLoop c m)
    returned := s.shared.returned ++ [m] }
  have hsender := h.callers t c m ht
  have hqueue : shared.inQueue = s.shared.inQueue ++ [m] := by
    simp [shared, SharedConn.inQueue, SharedConn.carries]
  have hflow : ∀ who, flow ⟨shared, s.called⟩ who = s.flow who := fun who => by
    have hunder : underway shared who = if who = some t then [] else underway s.shared who :=
      underway_setCaller s.shared t .idle who
    have hsent : sent ⟨shared, s.called⟩ = s.sent := rfl
    rw [flow, flow, hqueue, hunder, hsent, ← List.append_assoc,
      fromSender_append who (s.sent ++ s.shared.inQueue), List.append_assoc]
    refine congrArg (fromSender who (s.sent ++ s.shared.inQueue) ++ ·) ?_
    split
    · rename_i hwho
      rw [hwho, fromSender_self hsender]
      simp only [underway, ht]
      rfl
    · rename_i hwho
      rw [fromSender_other fun he => hwho (he.symm.trans hsender)]
      rfl
  refine { h with
    plain := fun hm => h.plain (by simpa [shared] using hm)
    senders := fun m' hm => ?_
    callers := fun u c' m' hu => h.callers u c' m' (SharedConn.sending_of_setCaller (by simp) hu)
    whole := fun hc who => (hflow who).trans (h.whole hc who)
    flowing := fun hl who => hflow who ▸ h.flowing hl who }
  rw [hqueue] at hm
  obtain hm | hm := List.mem_append.mp hm
  · exact h.senders m' hm
  · obtain rfl := List.mem_singleton.mp hm
    rw [hsender]
    simp

theorem inOrder_foreign {a : SharedConn.Action T A} {shared : SharedConn T A} (h : s.InOrder)
    (hok : s.Undisturbed a) (ha : a.onLoop = false) (hs : s.shared.step a = some shared) :
    InOrder ⟨shared, s.called ++ calls s.shared a⟩ := by
  cases a with
  | send t c_str size =>
    obtain ⟨ht, ⟨hc, rfl⟩ | ⟨hc, rfl⟩⟩ := SharedConn.step_send hs
    · exact h.call_dropped hc _
    · exact h.call_taken ht rfl hc
  | enqueueSend t =>
    obtain ⟨captured, message, ht, rfl⟩ := SharedConn.step_enqueueSend hs
    show InOrder ⟨_, s.called ++ []⟩
    rw [List.append_nil]
    exact h.enqueue ht
  | overwrite t a content =>
    obtain ⟨-, rfl⟩ := SharedConn.step_overwrite hs
    exact h.of_same rfl rfl (List.append_nil _) rfl rfl id h.between
  | queueDestroyed =>
    cases hs
    refine h.of_same rfl rfl (List.append_nil _) rfl ?_ (fun hm => by simpa using hm) h.between
    simp [SharedConn.inQueue, SharedConn.carries]
  | shutdown | storeDisconnecting | enqueueShutdown =>
    exact absurd hok.onLoop (by simp [shutsElsewhere])
  | _ => cases ha

omit [DecidableEq A] in
/-- A message of the loop's thread overtakes those in the queue, which are others'. -/
theorem InOrder.loopSend (h : s.InOrder) (hc : s.shared.site.conn.state_ = .kConnected)
    (text : List Byte) (r : WriteResult) (returned : List (Message T)) :
    InOrder ⟨{ s.shared.hand ⟨none, text⟩ text r with returned := returned },
      s.called ++ [⟨none, text⟩]⟩ := by
  have hin : SharedConn.inQueue { s.shared.hand ⟨none, text⟩ text r with returned := returned } =
      s.shared.inQueue := SharedConn.inQueue_act (Site.sendInLoop () text r) s.shared
  have hnone : fromSender none s.shared.inQueue = [] :=
    List.filter_eq_nil_iff.mpr fun m hm => by simpa using h.senders m hm
  have hflow : ∀ who, fromSender who (s.sent ++ [⟨none, text⟩] ++ s.shared.inQueue) ++
      underway s.shared who = fromSender who (s.called ++ [⟨none, text⟩]) := fun who => by
    have hwhole := h.whole hc who
    rw [fromSender_append who s.called, ← hwhole, flow]
    simp only [fromSender_append, List.append_assoc]
    refine congrArg (fromSender who s.sent ++ ·) ?_
    cases who with
    | none => simp [hnone, underway]
    | some t =>
      have hother : fromSender (some t) [(⟨none, text⟩ : Message T)] = [] :=
        fromSender_other (by simp)
      simp [hother]
  refine h.hand ⟨none, text⟩ r h.between (fun hm => ?_) rfl rfl rfl ?_ (fun _ who => ?_)
    (fun _ who => ?_) fun who => (h.first who).trans (by simp)
  · obtain hm | ⟨n, hn⟩ := SharedConn.mem_waiting_act _ s.shared hm
    · exact h.plain hm
    · cases hn
  · rw [hin]
    exact h.senders
  · rw [hin]
    exact hflow who
  · rw [hin, hflow]

omit [DecidableEq A] in
theorem inOrder_start (hcar : s.shared.Carried) (h : s.InOrder) {f : Functor T A}
    {queue : TaskQueue (Functor T A)} (hq : s.shared.queue.start = some (f, queue))
    (r : WriteResult) :
    InOrder ⟨SharedConn.call { s.shared with queue := queue } r f, s.called⟩ := by
  obtain ⟨hwait, -, -, htodo⟩ := TaskQueue.waiting_of_start hq
  have hmem : f ∈ s.shared.queue.waiting := by
    rw [hwait]
    exact List.mem_cons_self
  have hplain : .connectEstablished ∉ queue.waiting := fun hm => h.plain <| by
    rw [hwait]
    exact List.mem_cons_of_mem f hm
  have hb : s.shared.calling = false → queue.todo = [] := fun hc =>
    absurd (htodo.symm.trans (h.between hc)) (by simp)
  have hcarry := SharedConn.start_carries hq
  -- a functor that carries no message is popped without effect on the messages
  have hpop : SharedConn.carries f = none → InOrder ⟨{ s.shared with queue := queue }, s.called⟩ :=
    fun hf => by
      rw [hf] at hcarry
      exact h.of_same rfl rfl rfl rfl hcarry.symm (fun hm => absurd hm hplain) hb
  cases f with
  | connectEstablished => exact absurd hmem h.plain
  | connectDestroyed =>
    exact (hpop rfl).act ((quiet_feeding (hpop rfl).feeding).connectDestroyed ())
  | shutdownInLoop => exact (hpop rfl).act (quiet_feeding (hpop rfl).feeding).shutdownInLoop
  | notice n => exact hpop rfl
  | sendInLoop captured message =>
    have hread := hcar.queued captured message hmem
    simp only [SharedConn.call, hread]
    have hin : s.shared.inQueue = message :: SharedConn.inQueue { s.shared with queue := queue } :=
      hcarry
    have hin' : SharedConn.inQueue
        (SharedConn.hand message message.text r { s.shared with queue := queue }) =
        SharedConn.inQueue { s.shared with queue := queue } :=
      SharedConn.inQueue_act (Site.sendInLoop () message.text r) { s.shared with queue := queue }
    have hflow : ∀ who, fromSender who (s.sent ++ [message] ++
        SharedConn.inQueue { s.shared with queue := queue }) ++ underway s.shared who =
        s.flow who := fun who => by
      rw [flow, hin, List.append_assoc s.sent]
      rfl
    refine h.hand message r hb (fun hm => ?_) rfl rfl rfl (fun m hm => ?_) (fun hc who => ?_)
      (fun hl who => ?_) h.first
    · obtain hm | ⟨n, hn⟩ := SharedConn.mem_waiting_act _ { s.shared with queue := queue } hm
      · exact hplain hm
      · cases hn
    · refine h.senders m ?_
      rw [hin]
      exact List.mem_cons_of_mem _ (hin' ▸ hm)
    · rw [hin', hflow]
      exact h.whole hc who
    · rw [hin', hflow]
      exact h.flowing hl who

theorem inOrder_onLoop {a : SharedConn.Action T A} {shared : SharedConn T A}
    (hcar : s.shared.Carried) (h : s.InOrder) (ha : a.onLoop = true)
    (hs : s.shared.step a = some shared) : InOrder ⟨shared, s.called ++ calls s.shared a⟩ := by
  have hquiet := quiet_feeding h.feeding
  have hsilent : ∀ c : SharedConn T A, InOrder ⟨c, s.called⟩ → InOrder ⟨c, s.called ++ []⟩ :=
    fun c hc => by rwa [List.append_nil]
  cases a with
  | loopSend text r =>
    simp only [SharedConn.step] at hs
    split at hs <;> cases hs
    · rename_i hc
      exact h.loopSend hc text r _
    · rename_i hc
      exact h.call_dropped hc _
  | loopShutdown =>
    cases hs
    exact hsilent _ (h.act hquiet.shutdown)
  | handleRead r =>
    simp only [SharedConn.step] at hs
    split at hs <;> cases hs
    exact hsilent _ (h.act (hquiet.handleRead () r))
  | handleWrite r =>
    simp only [SharedConn.step] at hs
    split at hs <;> cases hs
    exact hsilent _ (h.act (hquiet.handleWrite () r))
  | handleClose =>
    simp only [SharedConn.step] at hs
    split at hs <;> cases hs
    exact hsilent _ (h.act (hquiet.handleClose ()))
  | swap =>
    simp only [SharedConn.step] at hs
    split at hs <;> cases hs
    rename_i hcall
    have hwait := TaskQueue.waiting_swap (h.between (by simpa using hcall))
    exact h.of_same rfl rfl (List.append_nil _) rfl (by simp only [SharedConn.inQueue, hwait])
      (fun hm => hwait ▸ hm) (fun hc => by cases hc)
  | start r =>
    obtain ⟨-, f, queue, hq, rfl⟩ := SharedConn.step_start hs
    exact hsilent _ (inOrder_start hcar h hq r)
  | finish =>
    simp only [SharedConn.step] at hs
    split at hs <;> cases hs
    rename_i hcall
    simp only [Bool.and_eq_true, List.isEmpty_iff] at hcall
    exact h.of_same rfl rfl (List.append_nil _) rfl rfl id fun _ => hcall.2
  | _ => cases ha

theorem inOrder_step {a : SharedConn.Action T A} (h : s.shared.Carried ∧ s.InOrder)
    (hok : s.Undisturbed a) (hs : s.step a = some s') : s'.shared.Carried ∧ s'.InOrder := by
  obtain ⟨shared, hstep, rfl⟩ := Option.map_eq_some_iff.mp hs
  refine ⟨SharedConn.carried_step s.shared a shared h.1 hok.intact hstep, ?_⟩
  cases ha : a.onLoop with
  | true => exact inOrder_onLoop h.1 h.2 ha hstep
  | false => exact inOrder_foreign h.2 hok ha hstep

end Step

/-! ## Every run -/

section Runs

variable {s : Traffic T A}

omit [DecidableEq A] in
theorem inOrder_established (name : List Char) (sockfd : Int) (callbacks : Callbacks)
    (store : T → A → Nat → Byte) :
    InOrder ⟨SharedConn.established name sockfd callbacks store, []⟩ := by
  have hopen := (SharedConn.tidy_established name sockfd callbacks store).isOpen
  have hstate : (SharedConn.established name sockfd callbacks store).site.conn.state_ =
      .kConnected := by
    simp [SharedConn.established, Site.connectEstablished]
  have hbuffer : (SharedConn.established name sockfd callbacks store).site.conn.outputBuffer_ =
      .new kInitialSize := by
    simp [SharedConn.established, Site.connectEstablished, TcpConnection.new]
  have hflow : ∀ who, flow ⟨SharedConn.established name sockfd callbacks store, []⟩ who = [] :=
    fun who => by cases who <;> rfl
  have hroom : kCheapPrepend < (SoundBuffer.new kInitialSize).raw.buffer_.length := by
    simp [SoundBuffer.new, Buffer.new, kInitialSize]
  exact {
    feeding := ⟨hbuffer ▸ hroom, fun _ => hopen.interest,
      fun hd => absurd (hstate.symm.trans hd) (by decide)⟩
    begun := by rw [hstate]; decide
    between := fun _ => rfl
    plain := List.not_mem_nil
    senders := by simp [SharedConn.established, SharedConn.inQueue, TaskQueue.waiting]
    callers := by simp [SharedConn.established]
    stream := hopen.stream
    whole := fun _ who => hflow who
    flowing := fun _ who => by rw [hflow]; exact List.nil_prefix
    first := fun _ => List.nil_prefix }

/-- However the calls of `send` on any threads are interleaved with the steps of
the loop: what the kernel has accepted and what still waits in `outputBuffer_`
are whole messages one after the other, and of each sender they are the first
ones it sent, in its order. -/
theorem sends_in_order (name : List Char) (sockfd : Int) (callbacks : Callbacks)
    (store : T → A → Nat → Byte) (as : List (SharedConn.Action T A))
    (hg : Guarded step Undisturbed ⟨SharedConn.established name sockfd callbacks store, []⟩ as)
    (hr : exec step ⟨SharedConn.established name sockfd callbacks store, []⟩ as = some s) :
    ∃ sent : List (Message T),
      s.shared.site.conn.socket_.accepted ++ s.shared.site.conn.outputBuffer_.contents =
        (sent.map (·.text)).flatten ∧
      ∀ who, sent.filter (·.sender = who) <+: s.called.filter (·.sender = who) := by
  obtain ⟨-, h⟩ := exec_invariant (fun s => s.shared.Carried ∧ s.InOrder)
    (fun _ _ _ hi hok hs => inOrder_step hi hok hs)
    ⟨SharedConn.carried_established name sockfd callbacks store,
      inOrder_established name sockfd callbacks store⟩ hg hr
  exact ⟨s.sent, h.stream, h.first⟩

/-- Two threads send, the loop's thread sends in between and shuts down. -/
theorem sends_in_order_mixed :
    let as : List (SharedConn.Action Bool Unit) := [.send false () 1, .enqueueSend false,
      .send true () 1, .loopSend [66] (.took 0), .swap, .start (.took 0), .enqueueSend true,
      .finish, .handleWrite (.took 1), .loopShutdown, .send false () 1, .swap, .start (.took 0)]
    ∃ s, exec step ⟨SharedConn.established [] 5 {} fun t _ _ => if t then 67 else 65, []⟩ as =
        some s ∧ s.called.length = 4 ∧ ∃ sent : List (Message Bool),
      s.shared.site.conn.socket_.accepted ++ s.shared.site.conn.outputBuffer_.contents =
        (sent.map (·.text)).flatten ∧
      ∀ who, sent.filter (·.sender = who) <+: s.called.filter (·.sender = who) := by
  intro as
  have hrun : (exec step ⟨SharedConn.established [] 5 {} fun t _ _ => if t then 67 else 65, []⟩
      as).map (·.called.length) = some 4 := by decide +kernel
  obtain ⟨s, hs, hlen⟩ := Option.map_eq_some_iff.mp hrun
  exact ⟨s, hs, hlen, sends_in_order [] 5 {} _ as (by decide +kernel) hs⟩

end Runs

end Traffic

end Mymuduo.Connection

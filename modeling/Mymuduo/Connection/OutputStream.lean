import Mymuduo.Connection.TcpConnection

/-!
# The output stream of a connection

What the kernel has accepted followed by what `outputBuffer_` still holds is
the stream of the connection. While the connection is open the stream is the
concatenation of the messages given to `sendInLoop`, and there is write
interest exactly while something waits in the buffer: this is what keeps the
direct write behind the buffered bytes.
-/

namespace Mymuduo.Connection

universe u

variable {κ : Type u}

def outputStream (w : Site κ) : List Byte :=
  w.conn.socket_.accepted ++ w.conn.outputBuffer_.contents

/-- An open connection to which the messages of `given` have been given. -/
structure Open (w : Site κ) (given : List (List Byte)) : Prop where
  live : w.conn.state_ ≠ .kDisconnected
  stream : outputStream w = given.flatten
  interest : w.conn.channel_.isWriting = true ↔ w.conn.outputBuffer_.contents ≠ []

/-- A closed one: nothing more will be written. -/
structure Closed (w : Site κ) (given : List (List Byte)) : Prop where
  state : w.conn.state_ = .kDisconnected
  mute : w.conn.channel_.isWriting = false
  accepted : w.conn.socket_.accepted <+: given.flatten

/-- A message is lost to a reset: the direct write of its call fails with
`EPIPE` or `ECONNRESET`. -/
def reset (w : Site κ) (r : WriteResult) : Bool :=
  decide (w.conn.state_ ≠ .kDisconnected) && w.writesDirectly && Site.faultError r

/-! ## One method -/

theorem take_append_drop_taken (data : List Byte) (n : Nat) :
    data.take n ++ data.drop (data.take n).length = data := by
  rw [List.length_take]
  rcases Nat.le_total n data.length with h | h
  · rw [Nat.min_eq_left h, List.take_append_drop]
  · rw [Nat.min_eq_right h, List.take_of_length_le h, List.drop_length, List.append_nil]

section Methods

variable (self : κ) {w : Site κ} {given : List (List Byte)}

/-- The second half of `sendInLoop` adds its bytes to the stream, and leaves
write interest where there are any. -/
theorem bufferRest_spec (rest : List Byte) :
    (w.bufferRest self rest).conn.outputBuffer_.contents = w.conn.outputBuffer_.contents ++ rest ∧
      (w.bufferRest self rest).conn.socket_ = w.conn.socket_ ∧
      (w.bufferRest self rest).conn.state_ = w.conn.state_ ∧
      (w.bufferRest self rest).conn.channel_.isWriting = true := by
  simp only [Site.bufferRest]
  split
  · rename_i hw
    simpa using hw
  · simp

/-- The first half writes a part of the message, and only where nothing waits. -/
theorem directWrite_spec (data : List Byte) (r : WriteResult) :
    ∃ nwrote fault w', w.directWrite data r = (nwrote, fault, w') ∧
      w'.conn = (w.accept (data.take nwrote)).conn ∧
      fault = (w.writesDirectly && Site.faultError r) ∧
      (fault = true ∨ w.writesDirectly = false → nwrote = 0) := by
  unfold Site.directWrite
  split
  · rename_i hd
    cases r with
    | took n =>
      refine ⟨(data.take n).length, false, _, rfl, ?_,
        by simp [hd, Site.faultError, WriteResult.errno], by simp [hd]⟩
      simp [WriteResult.accepted, List.take_eq_take_min]
    | failed errno => exact ⟨0, _, _, rfl, by simp [WriteResult.accepted], by simp [hd], by simp⟩
  · rename_i hd
    simp only [Bool.not_eq_true] at hd
    exact ⟨0, false, w, rfl, by simp, by simp [hd], by simp⟩

/-- `sendInLoop` writes a first part of its bytes and puts the others into the
buffer, unless they meet a reset; it writes only where there is no write
interest, and creates write interest for what it buffers. -/
theorem sendInLoop_spec (hs : w.conn.state_ ≠ .kDisconnected) (data : List Byte)
    (r : WriteResult) : ∃ k,
      (w.sendInLoop self data r).conn.socket_.accepted =
        w.conn.socket_.accepted ++ data.take k ∧
      (w.sendInLoop self data r).conn.outputBuffer_.contents =
        w.conn.outputBuffer_.contents ++ (if reset w r then [] else data.drop k) ∧
      (reset w r = true ∨ w.conn.channel_.isWriting = true → k = 0) ∧
      (w.sendInLoop self data r).conn.state_ = w.conn.state_ ∧
      (w.sendInLoop self data r).conn.socket_.writeShut = w.conn.socket_.writeShut ∧
      ((w.sendInLoop self data r).conn.channel_.isWriting = true ↔
        w.conn.channel_.isWriting = true ∨ reset w r = false ∧ data.drop k ≠ []) := by
  obtain ⟨nwrote, fault, w', hd, hconn, hfault, hzero⟩ := directWrite_spec (w := w) data r
  have hreset : reset w r = fault := by simp [reset, hs, hfault]
  have hcontents : w'.conn.outputBuffer_ = w.conn.outputBuffer_ := by rw [hconn]; rfl
  have hwriting : w'.conn.channel_ = w.conn.channel_ := by rw [hconn]; rfl
  have hstate : w'.conn.state_ = w.conn.state_ := by rw [hconn]; rfl
  have haccepted : w'.conn.socket_.accepted = w.conn.socket_.accepted ++ data.take nwrote := by
    rw [hconn]; rfl
  have hshut : w'.conn.socket_.writeShut = w.conn.socket_.writeShut := by rw [hconn]; rfl
  have hmute : reset w r = true ∨ w.conn.channel_.isWriting = true → nwrote = 0 := by
    rintro (h | h)
    · exact hzero (.inl (hreset ▸ h))
    · exact hzero (.inr (by simp [Site.writesDirectly, h]))
  refine ⟨nwrote, ?_⟩
  simp only [Site.sendInLoop, if_neg hs, hd, ← hreset]
  split
  · rename_i hrest
    simp only [Bool.and_eq_true, Bool.not_eq_true', decide_eq_true_eq] at hrest
    obtain ⟨hc, hs', hst', hw⟩ := bufferRest_spec self (w := w') (data.drop nwrote)
    have hne : data.drop nwrote ≠ [] := by
      rw [Ne, List.drop_eq_nil_iff]; omega
    refine ⟨by rw [hs', haccepted], by simp [hc, hcontents, hrest.1], hmute, by rw [hst', hstate],
      by rw [hs', hshut], iff_of_true hw (.inr ⟨hrest.1, hne⟩)⟩
  · rename_i hrest
    simp only [Bool.and_eq_true, Bool.not_eq_true', decide_eq_true_eq, not_and, not_lt] at hrest
    have hnil : reset w r = false → data.drop nwrote = [] := fun h =>
      List.drop_eq_nil_of_le (by have := hrest h; omega)
    refine ⟨haccepted, ?_, hmute, hstate, hshut, ?_⟩
    · rw [hcontents]
      split <;> simp_all
    · rw [hwriting]
      exact ⟨.inl, fun h => h.resolve_right fun hr => hr.2 (hnil hr.1)⟩

/-- A message enters the stream as a whole unless it meets a reset. -/
theorem Open.sendInLoop (h : Open w given) (data : List Byte) (r : WriteResult) :
    Open (w.sendInLoop self data r) (if reset w r then given else given ++ [data]) := by
  obtain ⟨k, ha, hc, hk, hs, -, hw⟩ := sendInLoop_spec self h.live data r
  -- nothing waits in the buffer where the kernel has taken a part
  have hempty : k = 0 ∨ w.conn.outputBuffer_.contents = [] := by
    by_cases hm : w.conn.channel_.isWriting = true
    · exact .inl (hk (.inr hm))
    · exact .inr (not_not.mp (mt h.interest.mpr hm))
  have hst := h.stream
  simp only [outputStream] at hst
  refine ⟨by rw [hs]; exact h.live, ?_, ?_⟩
  · rw [outputStream, ha, hc]
    split
    · rename_i hr
      rw [hk (.inl hr), List.take_zero, List.append_nil, List.append_nil, hst]
    · rw [List.flatten_append, ← hst]
      obtain rfl | he := hempty
      · simp
      · simp [he]
  · rw [hw, h.interest, hc]
    by_cases he : w.conn.outputBuffer_.contents = [] <;> split <;> simp_all

/-- What a write takes off the front is what its return value counts. -/
theorem accepted_append_drop (r : WriteResult) (data : List Byte) :
    r.accepted data ++ data.drop (r.count data).toNat = data := by
  cases r with
  | took n => exact take_append_drop_taken data n
  | failed errno => rfl

theorem accepted_of_count {r : WriteResult} {data : List Byte} (h : ¬ 0 < r.count data) :
    r.accepted data = [] := by
  cases r with
  | took n =>
    have hlen : (data.take n).length = 0 := by
      simp only [WriteResult.count] at h
      omega
    exact List.length_eq_zero_iff.mp hlen
  | failed errno => rfl

theorem drained_spec :
    (w.drained self).conn.outputBuffer_ = w.conn.outputBuffer_ ∧
      (w.drained self).conn.socket_.accepted = w.conn.socket_.accepted ∧
      (w.drained self).conn.state_ = w.conn.state_ ∧
      (w.drained self).conn.channel_.isWriting = false ∧
      (w.conn.state_ ≠ .kDisconnecting → (w.drained self).conn.socket_ = w.conn.socket_) := by
  simp only [Site.drained]
  split
  · rename_i hd
    obtain ⟨b, hb⟩ := Site.shutdownInLoop_conn ((w.channel .disableWriting self).queueIf
      (w.channel .disableWriting self).conn.writeCompleteCallback_ .writeComplete)
    rw [hb]
    simp_all
  · simp

theorem open_drained (hs : w.conn.state_ ≠ .kDisconnected) (hst : outputStream w = given.flatten)
    (hz : w.conn.outputBuffer_.contents = []) : Open (w.drained self) given := by
  obtain ⟨hb, ha, hs', hmute, -⟩ := drained_spec self (w := w)
  refine ⟨by rw [hs']; exact hs, ?_, by simp [hmute, hb, hz]⟩
  rw [outputStream, hb, ha]
  exact hst

/-- The write takes all that waits. -/
def drains (w : Site κ) (r : WriteResult) : Bool :=
  w.conn.channel_.isWriting && decide (0 < r.count w.conn.outputBuffer_.contents) &&
    (w.conn.outputBuffer_.contents.drop (r.count w.conn.outputBuffer_.contents).toNat).isEmpty

/-- `handleWrite` moves bytes from the buffer to the kernel and leaves the rest
alone, except where it has drained the buffer. -/
theorem handleWrite_cases (r : WriteResult) :
    ∃ v : Site κ, outputStream v = outputStream w ∧ v.conn.state_ = w.conn.state_ ∧
      v.conn.socket_.writeShut = w.conn.socket_.writeShut ∧
      v.conn.channel_ = w.conn.channel_ ∧
      (drains w r = false ∧ w.handleWrite self r = v ∧
          (v.conn.outputBuffer_ = w.conn.outputBuffer_ ∨ w.conn.channel_.isWriting = true ∧
            v.conn.outputBuffer_.contents ≠ []) ∨
        drains w r = true ∧ w.handleWrite self r = v.drained self ∧
          v.conn.outputBuffer_.contents = []) := by
  simp only [Site.handleWrite, SoundBuffer.writeFd_fst, SoundBuffer.writeFd_snd]
  split
  case isFalse hw =>
    exact ⟨w, rfl, rfl, rfl, rfl, .inl ⟨by simp [drains, hw], rfl, .inl rfl⟩⟩
  rename_i hw
  split
  case isFalse hn =>
    refine ⟨w.accept (r.accepted w.conn.outputBuffer_.contents), ?_, rfl, rfl, rfl,
      .inl ⟨by simp [drains, hn], rfl, .inl rfl⟩⟩
    simp [outputStream, accepted_of_count hn]
  rename_i hn
  let v := (w.accept (r.accepted w.conn.outputBuffer_.contents)).setOutputBuffer
    (w.conn.outputBuffer_.retrieve (r.count w.conn.outputBuffer_.contents).toNat)
  have hcontents : v.conn.outputBuffer_.contents =
      w.conn.outputBuffer_.contents.drop (r.count w.conn.outputBuffer_.contents).toNat :=
    SoundBuffer.contents_retrieve _ _
  refine ⟨v, ?_, rfl, rfl, rfl, ?_⟩
  · simp only [outputStream, hcontents]
    simp only [v, Site.setOutputBuffer_conn, Site.accept_conn, List.append_assoc,
      accepted_append_drop]
  show drains w r = false ∧ (if v.conn.outputBuffer_.readableBytes = 0 then v.drained self else v)
      = v ∧ _ ∨ drains w r = true ∧
      (if v.conn.outputBuffer_.readableBytes = 0 then v.drained self else v) = v.drained self ∧ _
  split
  · rename_i hz
    rw [SoundBuffer.readableBytes_eq_zero] at hz
    exact .inr ⟨by simp [drains, hw, hn, ← hcontents, hz], rfl, hz⟩
  · rename_i hz
    rw [SoundBuffer.readableBytes_eq_zero] at hz
    exact .inl ⟨by simp [drains, ← hcontents, hz], rfl, .inr ⟨hw, hz⟩⟩

theorem Open.handleWrite (h : Open w given) (r : WriteResult) :
    Open (w.handleWrite self r) given := by
  obtain ⟨v, hst, hs, -, hch, ⟨-, he, hb⟩ | ⟨-, he, hz⟩⟩ := handleWrite_cases self (w := w) r
  · rw [he]
    refine ⟨by rw [hs]; exact h.live, by rw [hst]; exact h.stream, ?_⟩
    rw [hch]
    obtain hb | ⟨hw, hne⟩ := hb
    · rw [hb]
      exact h.interest
    · exact iff_of_true hw hne
  · rw [he]
    exact open_drained self (by rw [hs]; exact h.live) (by rw [hst]; exact h.stream) hz

/-- What neither adds to the stream nor touches write interest keeps the
connection open. -/
theorem Open.of_same {w' : Site κ} (h : Open w given) (hs : w'.conn.state_ ≠ .kDisconnected)
    (hb : w'.conn.outputBuffer_ = w.conn.outputBuffer_)
    (ha : w'.conn.socket_.accepted = w.conn.socket_.accepted)
    (hw : w'.conn.channel_.isWriting = w.conn.channel_.isWriting) : Open w' given := by
  refine ⟨hs, ?_, by rw [hb, hw]; exact h.interest⟩
  rw [outputStream, hb, ha]
  exact h.stream

theorem Open.shutdown (h : Open w given) : Open w.shutdown given := by
  unfold Site.shutdown
  split
  · obtain ⟨b, hb⟩ := Site.shutdownInLoop_conn (w.setState .kDisconnecting)
    exact h.of_same (by rw [hb]; simp) (by rw [hb]; rfl) (by rw [hb]; rfl) (by rw [hb]; rfl)
  · exact h

/-- Closing keeps what the kernel has, and nothing is written afterwards. -/
theorem closed_handleClose (ha : w.conn.socket_.accepted <+: given.flatten) :
    Closed (w.handleClose self) given := by
  simp only [Site.handleClose]
  exact ⟨by simp, by simp, by simpa using ha⟩

/-- A read closes the connection at end of file, and touches neither state nor
output otherwise. -/
theorem handleRead_cases (r : ReadvResult) :
    ((w.conn.inputBuffer_.readFd r).1 = 0 ∧ w.handleRead self r =
      { w with conn.inputBuffer_ := (w.conn.inputBuffer_.readFd r).2 }.handleClose self) ∨
    ((w.conn.inputBuffer_.readFd r).1 ≠ 0 ∧ (w.handleRead self r).conn =
      { w.conn with inputBuffer_ := (w.conn.inputBuffer_.readFd r).2 }) := by
  simp only [Site.handleRead]
  split
  · rename_i hn
    exact .inr ⟨by omega, Site.invoke_conn _ _ _⟩
  · split
    · rename_i hz
      exact .inl ⟨hz, rfl⟩
    · rename_i hz
      exact .inr ⟨hz, rfl⟩

theorem Open.accepted_prefix (h : Open w given) : w.conn.socket_.accepted <+: given.flatten := by
  rw [← h.stream]
  exact List.prefix_append _ _

/-- `connectDestroyed` closes a connected connection; otherwise it only
deregisters the channel. -/
theorem Open.connectDestroyed (h : Open w given) :
    Open (w.connectDestroyed self) given ∨ Closed (w.connectDestroyed self) given := by
  have hremove : ∀ v : Site κ, Open v given → Open (v.channel .remove self) given := fun v hv =>
    hv.of_same hv.live rfl rfl (Site.isWriting_remove self v)
  by_cases hs : w.conn.state_ = .kConnected
  · right
    simp only [Site.connectDestroyed, Site.leaveConnected, if_pos hs]
    split
    · exact ⟨by simp, by simp, by simpa using h.accepted_prefix⟩
    · exact ⟨by simp, by simp, by simpa using h.accepted_prefix⟩
  · left
    simp only [Site.connectDestroyed, Site.leaveConnected, if_neg hs]
    split
    · exact h
    · exact hremove w h

theorem Closed.append (h : Closed w given) (data : List Byte) : Closed w (given ++ [data]) :=
  ⟨h.state, h.mute, h.accepted.trans (by simp)⟩

theorem Closed.of_same {w' : Site κ} (h : Closed w given) (hs : w'.conn.state_ = w.conn.state_)
    (ha : w'.conn.socket_.accepted = w.conn.socket_.accepted)
    (hw : w'.conn.channel_.isWriting = w.conn.channel_.isWriting) : Closed w' given :=
  ⟨hs ▸ h.state, hw ▸ h.mute, ha ▸ h.accepted⟩

end Methods

/-! ## Runs on the loop's thread -/

inductive Op
  | sendInLoop (data : List Byte) (r : WriteResult)
  | handleWrite (r : WriteResult)
  | handleRead (r : ReadvResult)
  | shutdown
  | handleClose
  | connectDestroyed
  | setHighWaterMarkCallback (highWaterMark : Nat)
  deriving DecidableEq, Repr

/-- A connection in use, with the messages given to `sendInLoop`, less those
lost to a reset, and whether `handleClose` or `connectDestroyed` has run. -/
structure Session (κ : Type u) where
  site : Site κ
  given : List (List Byte) := []
  ended : Bool := false

def step (self : κ) (s : Session κ) : Op → Session κ
  | .sendInLoop data r =>
    { s with
      site := s.site.sendInLoop self data r
      given := if reset s.site r then s.given else s.given ++ [data] }
  | .handleWrite r => { s with site := s.site.handleWrite self r }
  | .handleRead r =>
    { s with
      site := s.site.handleRead self r
      ended := s.ended || (s.site.conn.inputBuffer_.readFd r).1 == 0 }
  | .shutdown => { s with site := s.site.shutdown }
  | .handleClose => { s with site := s.site.handleClose self, ended := true }
  | .connectDestroyed => { s with site := s.site.connectDestroyed self, ended := true }
  | .setHighWaterMarkCallback n => { s with site := s.site.setHighWaterMarkCallback n }

/-- A connection just after `connectEstablished`. -/
def established (self : κ) (conn : TcpConnection) (poller : EPollPoller κ) : Session κ where
  site := ({ conn := conn, poller := poller } : Site κ).connectEstablished self

/-- While the connection has not ended it is open; once it has, it may be closed. -/
def Inv (s : Session κ) : Prop :=
  Open s.site s.given ∨ s.ended = true ∧ Closed s.site s.given

variable {self : κ} {s : Session κ}

theorem inv_step_open (h : Open s.site s.given) (op : Op) : Inv (step self s op) := by
  cases op with
  | sendInLoop data r => exact .inl (h.sendInLoop self data r)
  | handleWrite r => exact .inl (h.handleWrite self r)
  | handleRead r =>
    obtain ⟨hz, he⟩ | ⟨-, he⟩ := handleRead_cases self (w := s.site) r
    · right
      exact ⟨by simp [step, hz], by simp only [step, he]; exact closed_handleClose self h.accepted_prefix⟩
    · left
      simp only [step]
      exact h.of_same (by rw [he]; exact h.live) (by rw [he]) (by rw [he]) (by rw [he])
  | shutdown => exact .inl h.shutdown
  | handleClose => exact .inr ⟨rfl, closed_handleClose self h.accepted_prefix⟩
  | connectDestroyed => exact (h.connectDestroyed self).imp id fun hc => ⟨rfl, hc⟩
  | setHighWaterMarkCallback n => exact .inl (h.of_same h.live rfl rfl rfl)

theorem inv_step_closed (he : s.ended = true) (h : Closed s.site s.given) (op : Op) :
    Inv (step self s op) := by
  right
  cases op with
  | sendInLoop data r =>
    refine ⟨he, ?_⟩
    simp only [step, Site.sendInLoop, if_pos h.state]
    split
    · exact h
    · exact h.append data
  | handleWrite r =>
    refine ⟨he, ?_⟩
    simp only [step, Site.handleWrite, h.mute, Bool.false_eq_true, if_false]
    exact h
  | handleRead r =>
    refine ⟨by simp [step, he], ?_⟩
    obtain ⟨-, hr⟩ | ⟨-, hr⟩ := handleRead_cases self (w := s.site) r
    · simp only [step, hr]
      exact closed_handleClose self h.accepted
    · simp only [step]
      exact h.of_same (by rw [hr]) (by rw [hr]) (by rw [hr])
  | shutdown =>
    refine ⟨he, ?_⟩
    simp only [step, Site.shutdown, h.state, reduceCtorEq, if_false]
    exact h
  | handleClose => exact ⟨rfl, closed_handleClose self h.accepted⟩
  | connectDestroyed =>
    refine ⟨rfl, ?_⟩
    simp only [step, Site.connectDestroyed, Site.leaveConnected, h.state, reduceCtorEq, if_false]
    split
    · exact h
    · exact h.of_same rfl rfl (Site.isWriting_remove self s.site)
  | setHighWaterMarkCallback n => exact ⟨he, h.of_same rfl rfl rfl⟩

theorem open_established (self : κ) (name : List Char) (sockfd : Int) (callbacks : Callbacks)
    (poller : EPollPoller κ) :
    Open (established self (TcpConnection.new name sockfd callbacks) poller).site [] := by
  simp only [established, Site.connectEstablished]
  refine ⟨by simp, by simp [outputStream, TcpConnection.new], ?_⟩
  have hmute : ∀ ch : Channel, ch.events_ = 0 → ch.isWriting = false := fun ch h => by
    simp [Channel.isWriting, h]
  rw [Site.invoke_conn, Site.isWriting_enableReading, hmute _ rfl]
  simp [TcpConnection.new]

/-- After any operations on a connection in use: while it has not ended, no
byte of the messages given to `sendInLoop` is lost, doubled or out of order,
and there is write interest exactly while bytes wait; at any time the kernel
holds a prefix of them. -/
theorem output_stream (self : κ) (name : List Char) (sockfd : Int) (callbacks : Callbacks)
    (poller : EPollPoller κ) (ops : List Op) :
    let s := ops.foldl (step self)
      (established self (TcpConnection.new name sockfd callbacks) poller)
    (s.ended = false →
      s.site.conn.socket_.accepted ++ s.site.conn.outputBuffer_.contents = s.given.flatten ∧
      (s.site.conn.channel_.isWriting = true ↔ s.site.conn.outputBuffer_.contents ≠ [])) ∧
    s.site.conn.socket_.accepted <+: s.given.flatten := by
  intro s
  have hi : Inv s := by
    refine List.foldlRecOn ops (step self)
      (.inl (open_established self name sockfd callbacks poller)) ?_
    intro t ht op _
    obtain ho | ⟨he, hc⟩ := ht
    · exact inv_step_open ho op
    · exact inv_step_closed he hc op
  obtain ho | ⟨he, hc⟩ := hi
  · exact ⟨fun _ => ⟨ho.stream, ho.interest⟩, ho.accepted_prefix⟩
  · exact ⟨fun hf => absurd (he.symm.trans hf) (by decide), hc.accepted⟩

end Mymuduo.Connection

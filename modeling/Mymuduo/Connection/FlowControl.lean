import Mymuduo.Connection.Methods
import Mymuduo.Connection.OutputStream

/-!
# Flow-control notifications

`sendInLoop` decides on lengths, before it appends, whether the bytes that wait
in `outputBuffer_` reach the high-water mark; `handleWrite` decides after it has
retrieved whether they are gone. Both decisions agree with what has happened to
the buffer when the method returns.
-/

namespace Mymuduo.Connection

universe u

variable {κ : Type u}

/-- The bytes that wait in `outputBuffer_`. -/
def unsent (w : Site κ) : Nat := w.conn.outputBuffer_.readableBytes

/-- A `sendInLoop` whose direct write takes the whole message. -/
def writesWhole (w : Site κ) : Op → Bool
  | .sendInLoop data r =>
    decide (w.conn.state_ ≠ .kDisconnected) && w.writesDirectly && r.count data == data.length
  | _ => false

def Op.isHandleWrite : Op → Bool
  | .handleWrite _ => true
  | _ => false

/-- The operation leaves the mark and its callback alone. -/
def Op.keepsMark : Op → Bool
  | .setHighWaterMarkCallback _ => false
  | _ => true

/-- The high-water callback for a step that lifts the unsent bytes to the mark. -/
def crossing (w w' : Site κ) : List Notice :=
  if unsent w < w.conn.highWaterMark_ ∧ w.conn.highWaterMark_ ≤ unsent w' then
    [.highWaterMark (unsent w')]
  else []

/-- The write-complete callback for a step that empties the buffer, or needs none. -/
def completion (w w' : Site κ) (op : Op) : List Notice :=
  if (op.isHandleWrite = true ∧ unsent w ≠ 0 ∧ unsent w' = 0) ∨ writesWhole w op = true then
    [.writeComplete]
  else []

/-! ## What each method queues -/

section Methods

variable (self : κ) {w : Site κ}

theorem queued_queueIf (b : Bool) (n : Notice) :
    (w.queueIf b n).queued = w.queued ++ if b then [n] else [] := by
  unfold Site.queueIf
  cases b <;> simp

theorem queued_shutdownInLoop (w : Site κ) : w.shutdownInLoop.queued = w.queued := by
  unfold Site.shutdownInLoop
  split <;> rfl

theorem queued_invoke (target : Bool) (i : Invocation) : (w.invoke target i).queued = w.queued := by
  unfold Site.invoke
  split <;> rfl

theorem unsent_eq (w : Site κ) : unsent w = w.conn.outputBuffer_.contents.length :=
  (SoundBuffer.length_contents _).symm

theorem unsent_pos : unsent w ≠ 0 ↔ w.conn.outputBuffer_.contents ≠ [] :=
  not_congr SoundBuffer.readableBytes_eq_zero

/-- A step that leaves the buffer alone has nothing to say, unless it is a
`sendInLoop` that has written its whole message. -/
theorem silent_of_same {w' : Site κ} {op : Op} (hsame : unsent w' = unsent w)
    (hop : writesWhole w op = false) : crossing w w' ++ completion w w' op = [] := by
  have hcross : crossing w w' = [] := if_neg fun h => by omega
  have hcomplete : completion w w' op = [] := if_neg (by
    rw [hop, hsame]
    simp)
  rw [hcross, hcomplete, List.append_nil]

/-- The first half of `sendInLoop`. -/
theorem queued_directWrite (hset : w.conn.writeCompleteCallback_ = true) (data : List Byte)
    (r : WriteResult) :
    (w.directWrite data r).2.2.queued = w.queued ++
        (if w.writesDirectly && r.count data == data.length then [.writeComplete] else []) ∧
      ((w.writesDirectly && r.count data == data.length) = true →
        (w.directWrite data r).1 = data.length) := by
  unfold Site.directWrite
  split
  · rename_i hd
    cases r with
    | took n =>
      have hcount : ((data.take n).length = data.length) ↔
          data.length - (data.take n).length = 0 := by
        have hle := List.length_take_le' n data
        omega
      simp only [WriteResult.count, hd, Bool.true_and, Int.natCast_nonneg, if_true, Int.toNat_natCast,
        queued_queueIf, Site.accept_conn, hset, Bool.and_true, beq_iff_eq, Int.natCast_inj]
      refine ⟨?_, id⟩
      congr 1
      simp only [decide_eq_true_eq, ← hcount]
    | failed errno =>
      have hne : ((-1 : Int) == (data.length : Int)) = false := by
        rw [beq_eq_false_iff_ne]
        omega
      simp [WriteResult.count, hd, hne, Site.accept]
  · rename_i hd
    simp [hd]

theorem queued_bufferRest (rest : List Byte) :
    (w.bufferRest self rest).queued = w.queued ++
      if Site.reachesMark rest.length w.conn then
        [.highWaterMark (w.conn.outputBuffer_.readableBytes + rest.length)]
      else [] := by
  simp only [Site.bufferRest]
  split
  · exact queued_queueIf _ _
  · exact queued_queueIf _ _

/-- `sendInLoop` tells of the whole message where the direct write has taken it,
and of the mark where the rest lifts the unsent bytes to it. -/
theorem queued_sendInLoop (hw : w.conn.writeCompleteCallback_ = true)
    (hh : w.conn.highWaterMarkCallback_ = true) (data : List Byte) (r : WriteResult) :
    (w.sendInLoop self data r).queued = w.queued ++ (crossing w (w.sendInLoop self data r) ++
      completion w (w.sendInLoop self data r) (.sendInLoop data r)) := by
  by_cases hs : w.conn.state_ = .kDisconnected
  · have hsame : w.sendInLoop self data r = w := if_pos hs
    rw [hsame, silent_of_same rfl (by simp [writesWhole, hs]), List.append_nil]
  obtain ⟨nwrote, fault, v, hd, hconn, -, -⟩ := directWrite_spec (w := w) data r
  obtain ⟨hqueued, hwhole⟩ := queued_directWrite hw data r
  rw [hd] at hqueued hwhole
  have hbuffer : v.conn.outputBuffer_ = w.conn.outputBuffer_ := by rw [hconn]; rfl
  have hsame : unsent v = unsent w := congrArg SoundBuffer.readableBytes hbuffer
  simp only [Site.sendInLoop, if_neg hs, hd]
  cases hall : w.writesDirectly && r.count data == data.length with
  | true =>
    have hwrites : writesWhole w (.sendInLoop data r) = true := by
      simpa [writesWhole, hs] using hall
    have hn : nwrote = data.length := hwhole hall
    have hrest : (!fault && decide (0 < data.length - nwrote)) = false := by simp [hn]
    simp only [hall, if_true] at hqueued
    have hcross : crossing w v = [] := if_neg fun h => by omega
    have hcomplete : completion w v (.sendInLoop data r) = [.writeComplete] := if_pos (.inr hwrites)
    rw [hrest, if_neg Bool.false_ne_true, hcross, hcomplete, hqueued, List.nil_append]
  | false =>
    have hwrites : writesWhole w (.sendInLoop data r) = false := by
      simpa [writesWhole, hs] using hall
    simp only [hall, Bool.false_eq_true, if_false, List.append_nil] at hqueued
    split
    · -- the rest goes into the buffer
      obtain ⟨hcontents, -⟩ := bufferRest_spec self (w := v) (data.drop nwrote)
      have hlen : unsent (v.bufferRest self (data.drop nwrote)) =
          unsent w + (data.drop nwrote).length := by
        rw [unsent_eq, hcontents, List.length_append, ← unsent_eq, hsame]
      have hcomplete : completion w (v.bufferRest self (data.drop nwrote)) (.sendInLoop data r) = [] :=
        if_neg (by simp [hwrites, Op.isHandleWrite])
      have hreach : Site.reachesMark (data.drop nwrote).length v.conn = true ↔
          unsent w < w.conn.highWaterMark_ ∧
            w.conn.highWaterMark_ ≤ unsent (v.bufferRest self (data.drop nwrote)) := by
        rw [hlen]
        simp [Site.reachesMark, hconn, hh, unsent, and_comm]
      rw [queued_bufferRest, hqueued, hcomplete, List.append_nil, crossing, hbuffer]
      simp only [hreach, hlen]
      rfl
    · rw [silent_of_same hsame hwrites, List.append_nil, hqueued]

theorem queued_drained : (w.drained self).queued = w.queued ++
    if w.conn.writeCompleteCallback_ then [.writeComplete] else [] := by
  simp only [Site.drained]
  split
  · rw [queued_shutdownInLoop, queued_queueIf]
    rfl
  · rw [queued_queueIf]
    rfl

/-- `handleWrite` tells where it has emptied the buffer. -/
theorem queued_handleWrite (hw : w.conn.writeCompleteCallback_ = true) (r : WriteResult) :
    (w.handleWrite self r).queued = w.queued ++ (crossing w (w.handleWrite self r) ++
      completion w (w.handleWrite self r) (.handleWrite r)) := by
  simp only [Site.handleWrite, SoundBuffer.writeFd_fst, SoundBuffer.writeFd_snd]
  split
  case isFalse => rw [silent_of_same rfl rfl, List.append_nil]
  split
  case isFalse =>
    have hsame : unsent (w.accept (r.accepted w.conn.outputBuffer_.contents)) = unsent w := rfl
    rw [silent_of_same hsame rfl, List.append_nil]
    rfl
  rename_i hcount
  have hwaiting : unsent w ≠ 0 := by
    rw [unsent_pos]
    intro hnil
    rw [hnil] at hcount
    cases r <;> simp [WriteResult.count] at hcount
  let v := (w.accept (r.accepted w.conn.outputBuffer_.contents)).setOutputBuffer
    (w.conn.outputBuffer_.retrieve (r.count w.conn.outputBuffer_.contents).toNat)
  have hless : unsent v ≤ unsent w := by
    have hv : v.conn.outputBuffer_.contents = w.conn.outputBuffer_.contents.drop
      (r.count w.conn.outputBuffer_.contents).toNat := SoundBuffer.contents_retrieve _ _
    rw [unsent_eq, unsent_eq, hv, List.length_drop]
    omega
  have hcross : ∀ w', unsent w' = unsent v → crossing w w' = [] := fun w' he =>
    if_neg fun h => by omega
  show (if unsent v = 0 then v.drained self else v).queued =
    w.queued ++ (crossing w (if unsent v = 0 then v.drained self else v) ++
      completion w (if unsent v = 0 then v.drained self else v) (.handleWrite r))
  split
  · rename_i hzero
    have hsame : unsent (v.drained self) = unsent v :=
      congrArg SoundBuffer.readableBytes (drained_spec self (w := v)).1
    have hcomplete : completion w (v.drained self) (.handleWrite r) = [.writeComplete] :=
      if_pos (.inl ⟨rfl, hwaiting, hsame.trans hzero⟩)
    rw [hcross _ hsame, List.nil_append]
    refine (queued_drained self).trans ?_
    have hset : v.conn.writeCompleteCallback_ = true := hw
    rw [hset, if_pos rfl]
    exact congrArg (w.queued ++ ·) hcomplete.symm
  · rename_i hleft
    have hcomplete : completion w v (.handleWrite r) = [] :=
      if_neg (by simp [hleft, writesWhole])
    rw [hcross v rfl, List.nil_append]
    exact ((congrArg (w.queued ++ ·) hcomplete).trans (List.append_nil _)).symm

theorem queued_handleClose (w : Site κ) : (w.handleClose self).queued = w.queued :=
  (Site.handleClose_calls self w).1

theorem queued_connectDestroyed (w : Site κ) : (w.connectDestroyed self).queued = w.queued := by
  have hleave : (w.leaveConnected self).queued = w.queued := by
    unfold Site.leaveConnected
    split
    · exact queued_invoke _ _
    · rfl
  simp only [Site.connectDestroyed]
  split
  · exact hleave
  · exact hleave

end Methods

/-! ## What the methods leave as it was set -/

/-- What only the connection's owner sets. -/
def settings (c : TcpConnection) : Callbacks × Nat := (c.toCallbacks, c.highWaterMark_)

section Settings

variable (self : κ) (w : Site κ)

theorem settings_sendInLoop (data : List Byte) (r : WriteResult) :
    settings (w.sendInLoop self data r).conn = settings w.conn := by
  obtain ⟨nwrote, fault, v, hd, hconn, -, -⟩ := directWrite_spec (w := w) data r
  have hv : settings v.conn = settings w.conn := by rw [hconn]; rfl
  simp only [Site.sendInLoop, hd]
  split
  · rfl
  · split
    · simp only [Site.bufferRest]
      split
      · simpa [settings] using hv
      · simpa [settings, Site.channel] using hv
    · exact hv

theorem settings_shutdownInLoop : settings w.shutdownInLoop.conn = settings w.conn := by
  obtain ⟨b, hb⟩ := Site.shutdownInLoop_conn w
  rw [hb]
  rfl

theorem settings_handleWrite (r : WriteResult) :
    settings (w.handleWrite self r).conn = settings w.conn := by
  have hdrained : ∀ v : Site κ, settings (v.drained self).conn = settings v.conn := fun v => by
    simp only [Site.drained]
    split
    · rw [settings_shutdownInLoop, Site.queueIf_conn]
      rfl
    · rw [Site.queueIf_conn]
      rfl
  simp only [Site.handleWrite]
  split
  · split
    · split
      · exact hdrained _
      · rfl
    · rfl
  · rfl

theorem settings_handleClose : settings (w.handleClose self).conn = settings w.conn := by
  simp only [Site.handleClose, Site.invokeIf_conn]
  rfl

theorem settings_step (s : Session κ) {op : Op} (hop : op.keepsMark = true) :
    settings (step self s op).site.conn = settings s.site.conn := by
  cases op with
  | sendInLoop data r => exact settings_sendInLoop self s.site data r
  | handleWrite r => exact settings_handleWrite self s.site r
  | handleRead r =>
    obtain ⟨-, he⟩ | ⟨-, he⟩ := handleRead_cases self (w := s.site) r
    · simp only [step, he]
      exact settings_handleClose self _
    · simp only [step, he]
      rfl
  | shutdown =>
    simp only [step, Site.shutdown]
    split
    · exact settings_shutdownInLoop _
    · rfl
  | handleClose => exact settings_handleClose self s.site
  | connectDestroyed =>
    have hleave : settings (s.site.leaveConnected self).conn = settings s.site.conn := by
      simp only [Site.leaveConnected]
      split
      · rw [Site.invoke_conn]
        rfl
      · rfl
    simp only [step, Site.connectDestroyed]
    split
    · exact hleave
    · exact hleave
  | setHighWaterMarkCallback n => cases hop

end Settings

/-! ## Runs -/

variable (self : κ)

/-- What a step queues is decided by what it does to the unsent bytes. -/
theorem queued_step (s : Session κ) {op : Op} (hop : op.keepsMark = true)
    (hw : s.site.conn.writeCompleteCallback_ = true)
    (hh : s.site.conn.highWaterMarkCallback_ = true) :
    (step self s op).site.queued = s.site.queued ++
      (crossing s.site (step self s op).site ++ completion s.site (step self s op).site op) := by
  have hsilent : unsent (step self s op).site = unsent s.site → writesWhole s.site op = false →
      (step self s op).site.queued = s.site.queued →
      (step self s op).site.queued = s.site.queued ++
        (crossing s.site (step self s op).site ++ completion s.site (step self s op).site op) :=
    fun hsame hop hq => by rw [silent_of_same hsame hop, List.append_nil, hq]
  cases op with
  | sendInLoop data r => exact queued_sendInLoop self hw hh data r
  | handleWrite r => exact queued_handleWrite self hw r
  | handleRead r =>
    refine hsilent ?_ rfl ?_
    · obtain ⟨-, he⟩ | ⟨-, he⟩ := handleRead_cases self (w := s.site) r
      · simp [step, he, unsent, Site.handleClose]
      · simp [step, he, unsent]
    · simp only [step, Site.handleRead]
      split
      · exact queued_invoke _ _
      · split
        · exact queued_handleClose self _
        · rfl
  | shutdown =>
    refine hsilent ?_ rfl ?_
    · simp only [step, Site.shutdown]
      split
      · obtain ⟨b, hb⟩ := Site.shutdownInLoop_conn (s.site.setState .kDisconnecting)
        simp [unsent, hb]
      · rfl
    · simp only [step, Site.shutdown]
      split
      · exact queued_shutdownInLoop _
      · rfl
  | handleClose => exact hsilent (by simp [step, unsent, Site.handleClose]) rfl (queued_handleClose self _)
  | connectDestroyed =>
    refine hsilent ?_ rfl (queued_connectDestroyed self _)
    simp only [step, unsent, Site.connectDestroyed, Site.leaveConnected]
    split <;> split <;> simp
  | setHighWaterMarkCallback n => cases hop

/-- The notices that an operation queues. -/
def notices (s : Session κ) (op : Op) : List Notice :=
  (step self s op).site.queued.drop s.site.queued.length

theorem settings_run {ops : List Op} (hops : ∀ op ∈ ops, op.keepsMark = true) (s : Session κ) :
    settings (ops.foldl (step self) s).site.conn = settings s.site.conn := by
  induction ops generalizing s with
  | nil => rfl
  | cons op ops ih =>
    have hrest := ih (fun o ho => hops o (List.mem_cons_of_mem op ho)) (step self s op)
    exact hrest.trans (settings_step self s (hops op List.mem_cons_self))

theorem notices_step (s : Session κ) {op : Op} (hop : op.keepsMark = true)
    (hw : s.site.conn.writeCompleteCallback_ = true)
    (hh : s.site.conn.highWaterMarkCallback_ = true) :
    (step self s op).site.queued = s.site.queued ++ notices self s op ∧
    notices self s op =
      crossing s.site (step self s op).site ++ completion s.site (step self s op).site op := by
  have hq := queued_step self s hop hw hh
  have hn : notices self s op =
      crossing s.site (step self s op).site ++ completion s.site (step self s op).site op := by
    rw [notices, hq, List.drop_left]
  exact ⟨by rw [hn]; exact hq, hn⟩

theorem crossed_of_mem {w w' : Site κ} {op : Op}
    (h : ∃ n, .highWaterMark n ∈ crossing w w' ++ completion w w' op) :
    unsent w < w.conn.highWaterMark_ ∧ w.conn.highWaterMark_ ≤ unsent w' := by
  obtain ⟨n, hn⟩ := h
  by_contra hnot
  rw [crossing, if_neg hnot, List.nil_append, completion] at hn
  split at hn <;> simp at hn

/-- From any state of a connection in which both callbacks are set, and as long
as the mark stays: an operation queues the high-water callback, with the number
of unsent bytes, where it takes that number from below the mark to the mark or
above, and the write-complete callback where `handleWrite` empties the buffer or
the direct write of `sendInLoop` takes the whole message; and it queues nothing
else. Between two high-water callbacks fewer bytes than the mark have been unsent. -/
theorem flow_control {s₀ : Session κ}
    (hw : s₀.site.conn.writeCompleteCallback_ = true)
    (hh : s₀.site.conn.highWaterMarkCallback_ = true) (ops : List Op) (op : Op)
    (hops : ∀ o ∈ ops, o.keepsMark = true) (hop : op.keepsMark = true) :
    let mark := s₀.site.conn.highWaterMark_
    let s := ops.foldl (step self) s₀
    let s' := step self s op
    s'.site.queued = s.site.queued ++ notices self s op ∧
    notices self s op =
      (if unsent s.site < mark ∧ mark ≤ unsent s'.site then [.highWaterMark (unsent s'.site)]
        else []) ++
      (if (op.isHandleWrite = true ∧ unsent s.site ≠ 0 ∧ unsent s'.site = 0) ∨
        writesWhole s.site op = true then [.writeComplete] else []) ∧
    ∀ (later : List Op) (op₂ : Op), (∀ o ∈ later, o.keepsMark = true) → op₂.keepsMark = true →
      let t := later.foldl (step self) s'
      (∃ n, .highWaterMark n ∈ notices self s op) → (∃ n, .highWaterMark n ∈ notices self t op₂) →
      mark ≤ unsent s'.site ∧ unsent t.site < mark := by
  intro mark s s'
  have hset : ∀ {ops : List Op}, (∀ o ∈ ops, o.keepsMark = true) →
      (ops.foldl (step self) s₀).site.conn.writeCompleteCallback_ = true ∧
      (ops.foldl (step self) s₀).site.conn.highWaterMarkCallback_ = true ∧
      (ops.foldl (step self) s₀).site.conn.highWaterMark_ = mark := fun hops => by
    have h := settings_run self hops s₀
    simp only [settings, Prod.mk.injEq] at h
    exact ⟨(congrArg Callbacks.writeCompleteCallback_ h.1).trans hw,
      (congrArg Callbacks.highWaterMarkCallback_ h.1).trans hh, h.2⟩
  obtain ⟨hw₁, hh₁, hmark⟩ := hset hops
  obtain ⟨hqueued, hnotices⟩ := notices_step self s hop hw₁ hh₁
  refine ⟨hqueued, ?_, ?_⟩
  · rw [hnotices, crossing, hmark]
    rfl
  intro later op₂ hlater hop₂ t hfirst hsecond
  have hthen : t = (ops ++ op :: later).foldl (step self) s₀ := by
    rw [List.foldl_append, List.foldl_cons]
  have hall : ∀ o ∈ ops ++ op :: later, o.keepsMark = true := by
    intro o ho
    simp only [List.mem_append, List.mem_cons] at ho
    rcases ho with ho | rfl | ho
    · exact hops o ho
    · exact hop
    · exact hlater o ho
  obtain ⟨hw₂, hh₂, hmark₂⟩ := hset hall
  rw [← hthen] at hw₂ hh₂ hmark₂
  rw [hnotices] at hfirst
  rw [(notices_step self t hop₂ hw₂ hh₂).2] at hsecond
  have hreached := (crossed_of_mem hfirst).2
  have hbelow := (crossed_of_mem hsecond).1
  rw [hmark] at hreached
  rw [hmark₂] at hbelow
  exact ⟨hreached, hbelow⟩

/-- Three bytes with a mark at two, then a write that takes them all. -/
theorem flow_control_mark :
    let s₀ := [.setHighWaterMarkCallback 2].foldl (step ())
      (established () (TcpConnection.new [] 5 { writeCompleteCallback_ := true }) {})
    let op : Op := .sendInLoop [65, 66, 67] (.took 0)
    (step () s₀ op).site.queued = s₀.site.queued ++ notices () s₀ op ∧
      notices () s₀ op = [.highWaterMark 3] ∧
      (step () (step () s₀ op) (.handleWrite (.took 3))).site.queued =
        [.highWaterMark 3, .writeComplete] := by
  intro s₀ op
  obtain ⟨hq, -, -⟩ := flow_control () (by decide : s₀.site.conn.writeCompleteCallback_ = true)
    (by decide : s₀.site.conn.highWaterMarkCallback_ = true) [] op (by decide) (by decide)
  exact ⟨hq, by decide +kernel, by decide +kernel⟩

end Mymuduo.Connection

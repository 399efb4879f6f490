import Mymuduo.Connection.ShutdownRequest
import Mymuduo.Server.Moves
import Mymuduo.Server.Streams

/-!
# Half close, to its end

`shutdown` leaves the write side open as long as something waits. From then on nothing is added to
the output buffer, each write that takes a byte makes it shorter, and the write that empties it
shuts the write side. So the peer gets all that has been sent and then the end of the stream, unless
the connection is closed before.
-/

namespace Mymuduo

open Mymuduo.Library Mymuduo.Connection

universe u v

/-- The write side is shut exactly where a connection that is left has nothing to send. -/
structure TcpConnection.ShutsLast (conn : TcpConnection) : Prop where
  unshut : conn.state_ = .kConnecting ∨ conn.state_ = .kConnected → conn.socket_.writeShut = false
  shut : conn.state_ = .kDisconnecting →
    (conn.socket_.writeShut = true ↔ conn.outputBuffer_.contents = [])

namespace TcpConnection.ShutsLast

theorem new (name : List Char) (sockfd : Int) (callbacks : Callbacks) :
    (TcpConnection.new name sockfd callbacks).ShutsLast where
  unshut _ := rfl
  shut h := by cases h

theorem congr {conn conn' : TcpConnection} (h : conn.ShutsLast)
    (hstate : conn'.state_ = conn.state_)
    (hshut : conn'.socket_.writeShut = conn.socket_.writeShut)
    (hout : conn'.outputBuffer_ = conn.outputBuffer_) : conn'.ShutsLast := by
  constructor
  · rw [hstate, hshut]
    exact h.unshut
  · rw [hstate, hshut, hout]
    exact h.shut

theorem of_closed {conn : TcpConnection} (hs : conn.state_ = .kDisconnected) :
    conn.ShutsLast := by
  constructor
  · intro hopen
    rw [hs] at hopen
    rcases hopen with hopen | hopen <;> cases hopen
  · intro hleft
    rw [hs] at hleft
    cases hleft

end TcpConnection.ShutsLast

/-! ## One method -/

section Methods

variable {κ : Type u} {self : κ} {w : Site κ}

theorem state_leave (w : Site κ) : (w.leaveConnected self).conn.state_ = .kDisconnected ∨
    w.leaveConnected self = w := by
  by_cases hs : w.conn.state_ = .kConnected
  · left
    simp only [Site.leaveConnected, if_pos hs, Site.invoke_conn]
    rfl
  · right
    rw [Site.leaveConnected, if_neg hs]

/-- What a write leaves of the output buffer. -/
theorem contents_handleWrite (r : WriteResult) :
    (w.handleWrite self r).conn.outputBuffer_.contents =
      if w.conn.channel_.isWriting then
        w.conn.outputBuffer_.contents.drop (r.count w.conn.outputBuffer_.contents).toNat
      else w.conn.outputBuffer_.contents := by
  simp only [Site.handleWrite, SoundBuffer.writeFd_fst, SoundBuffer.writeFd_snd]
  split
  case isFalse => rfl
  split
  case isFalse hn =>
    have hzero : (r.count w.conn.outputBuffer_.contents).toNat = 0 := by omega
    rw [hzero]
    rfl
  split
  · rw [(drained_spec self).1]
    exact SoundBuffer.contents_retrieve _ _
  · exact SoundBuffer.contents_retrieve _ _

theorem shutsLast_handleWrite (h : w.conn.ShutsLast) (hf : Feeding w)
    (hbegun : w.conn.state_ ≠ .kConnecting) (r : WriteResult) :
    (w.handleWrite self r).conn.ShutsLast := by
  have hstate := (Site.silent_handleWrite self r w).state
  constructor
  · intro hopen
    rw [hstate] at hopen
    have hconnected := hopen.resolve_left hbegun
    rw [writeShut_handleWrite, h.unshut hopen, hconnected]
    rfl
  · intro hleft
    rw [hstate] at hleft
    have hinterest := hf.interest (by rw [hleft]; simp)
    have hshut := h.shut hleft
    obtain ⟨v, -, -, hv, -, ⟨-, he, hout⟩ | ⟨hd, he, hempty⟩⟩ := handleWrite_cases self (w := w) r
    · rw [he, hv]
      rcases hout with hout | ⟨hwriting, hne⟩
      · rw [hout]
        exact hshut
      · have hnot : w.conn.outputBuffer_.contents ≠ [] := hinterest.mp hwriting
        exact iff_of_false (fun hs => hnot (hshut.mp hs)) hne
    · refine iff_of_true ?_ ?_
      · rw [writeShut_handleWrite, hleft, hd, Bool.or_eq_true]
        exact .inr rfl
      · rw [he, (drained_spec self).1]
        exact hempty

theorem shutsLast_shutdown (h : w.conn.ShutsLast) (hf : Feeding w) :
    w.shutdown.conn.ShutsLast := by
  by_cases hs : w.conn.state_ = .kConnected
  swap
  · rw [Site.shutdown, if_neg hs]
    exact h
  have hinterest := hf.interest (by rw [hs]; simp)
  have hstate : w.shutdown.conn.state_ = .kDisconnecting := by
    rw [Site.state_shutdown, if_pos hs]
  have hout : w.shutdown.conn.outputBuffer_ = w.conn.outputBuffer_ := by
    obtain ⟨b, hb⟩ := Site.shutdownInLoop_conn (w.setState .kDisconnecting)
    rw [Site.shutdown, if_pos hs, hb]
    rfl
  constructor
  · intro hopen
    rw [hstate] at hopen
    rcases hopen with hopen | hopen <;> cases hopen
  · intro _
    rw [writeShut_shutdown, h.unshut (.inr hs), hs, hout]
    cases hwriting : w.conn.channel_.isWriting with
    | true => simpa using hinterest.mp hwriting
    | false =>
      have hempty := mt hinterest.mpr (by simp [hwriting])
      simpa using hempty

end Methods

/-! ## One action -/

section Moves

variable {κ : Type u} {self : κ} {conn conn' : TcpConnection}

theorem Move.shutsLast (hm : Move self conn conn') (h : conn.ShutsLast)
    (hf : ∀ w : Site κ, w.conn = conn → Feeding w) : conn'.ShutsLast := by
  cases hm with
  | stay => exact h
  | reported revents => exact h.congr rfl rfl rfl
  | establish hw hs =>
    rename_i w
    subst hw
    constructor
    · intro _
      simp only [Site.connectEstablished, Site.invoke_conn]
      exact h.unshut (.inl hs)
    · intro hleft
      rw [Site.state_connectEstablished] at hleft
      cases hleft
  | leave hw =>
    rename_i w
    subst hw
    rcases state_leave w with hs | hsame
    · exact .of_closed hs
    · rw [hsame]
      exact h
  | remove hw hs =>
    subst hw
    exact .of_closed hs
  | callback hw hs read write cb =>
    rename_i w
    subst hw
    cases cb with
    | closeCallback => exact .of_closed (Site.state_handleClose self w)
    | errorCallback => exact h
    | readCallback =>
      obtain ⟨-, he⟩ | ⟨-, he⟩ := handleRead_cases self (w := w) read
      · refine .of_closed ?_
        show (w.handleRead self read).conn.state_ = .kDisconnected
        rw [he]
        exact Site.state_handleClose self _
      · show (w.handleRead self read).conn.ShutsLast
        rw [he]
        exact h.congr rfl rfl rfl
    | writeCallback => exact shutsLast_handleWrite h (hf w rfl) hs write
  | send hw data r =>
    rename_i w
    subst hw
    by_cases hc : w.conn.state_ = .kConnected
    · rw [Site.send, if_pos hc]
      have hstate := (Site.silent_sendInLoop self data r w).state
      constructor
      · intro hopen
        rw [hstate] at hopen
        rw [writeShut_sendInLoop]
        exact h.unshut hopen
      · intro hleft
        rw [hstate, hc] at hleft
        cases hleft
    · rw [Site.send, if_neg hc]
      exact h
  | shutdown hw =>
    rename_i w
    subst hw
    exact shutsLast_shutdown h (hf w rfl)
  | mark hw n =>
    subst hw
    exact h.congr rfl rfl rfl

/-- A connection that is left or closed is closed, or it is as before and its output buffer has not
grown. -/
theorem Move.past (hm : Move self conn conn')
    (h : conn.state_ = .kDisconnecting ∨ conn.state_ = .kDisconnected) :
    conn'.state_ = .kDisconnected ∨ conn'.state_ = conn.state_ ∧
      conn'.outputBuffer_.contents.length ≤ conn.outputBuffer_.contents.length := by
  have hconnected : conn.state_ ≠ .kConnected := by rcases h with h | h <;> rw [h] <;> simp
  cases hm with
  | stay | reported => exact .inr ⟨rfl, Nat.le_refl _⟩
  | establish hw hs =>
    rw [hs] at h
    rcases h with h | h <;> cases h
  | leave hw =>
    rename_i w
    subst hw
    rcases state_leave w with hs | hsame
    · exact .inl hs
    · rw [hsame]
      exact .inr ⟨rfl, Nat.le_refl _⟩
  | remove hw hs =>
    subst hw
    exact .inl hs
  | callback hw hs read write cb =>
    rename_i w
    subst hw
    cases cb with
    | closeCallback => exact .inl (Site.state_handleClose self w)
    | errorCallback => exact .inr ⟨rfl, Nat.le_refl _⟩
    | readCallback =>
      obtain ⟨-, he⟩ | ⟨-, he⟩ := handleRead_cases self (w := w) read
      · left
        show (w.handleRead self read).conn.state_ = .kDisconnected
        rw [he]
        exact Site.state_handleClose self _
      · right
        exact ⟨by simp only [Site.callback, he], Nat.le_of_eq (by simp only [Site.callback, he])⟩
    | writeCallback =>
      right
      constructor
      · exact (Site.silent_handleWrite self write w).state
      · show (w.handleWrite self write).conn.outputBuffer_.contents.length ≤ _
        rw [contents_handleWrite]
        split
        · rw [List.length_drop]
          omega
        · exact Nat.le_refl _
  | send hw data r =>
    subst hw
    rw [Site.send, if_neg hconnected]
    exact .inr ⟨rfl, Nat.le_refl _⟩
  | shutdown hw =>
    subst hw
    rw [Site.shutdown, if_neg hconnected]
    exact .inr ⟨rfl, Nat.le_refl _⟩
  | mark hw n =>
    subst hw
    exact .inr ⟨rfl, Nat.le_refl _⟩

end Moves

namespace TcpServer

variable {T : Type u} {L : Type v} {s s' : TcpServer T L} {c : ConnId}

/-- The action is a write from the output buffer of which the kernel takes a byte or more. -/
def effective (s : TcpServer T L) (c : ConnId) : Action T L → Bool
  | .run ℓ _ (.took n) => n ≠ 0 && (s.loops ℓ).work.head? = some (.handle .writeCallback c)
  | _ => false

section Steps

variable [Fintype L] [DecidableEq L] [DecidableEq T]

/-- The number of such writes in a run. -/
def writes (s : TcpServer T L) (c : ConnId) : List (Action T L) → Nat
  | [] => 0
  | a :: as => (if s.effective c a then 1 else 0) +
    match s.step a with
    | some s' => s'.writes c as
    | none => 0

theorem effective_act (hf : Feeding (s.site c)) (hleft : (s.conns c).state_ = .kDisconnecting)
    {a : Action T L} (ha : s.effective c a = true) (hs : s.act a = some s') :
    (s'.conns c).outputBuffer_.contents.length ≤
      (s.conns c).outputBuffer_.contents.length - 1 := by
  cases a with
  | run ℓ read write =>
    cases write with
    | failed errno => cases ha
    | took n =>
      obtain ⟨job, rest, hwork, rfl⟩ := act_run hs
      have heff : n ≠ 0 ∧ job = .handle .writeCallback c := by
        simpa [effective, hwork] using ha
      obtain ⟨hn, rfl⟩ := heff
      have hconn : ((s.popJob ℓ (.handle .writeCallback c) rest).runJob ℓ read (.took n)
          (.handle .writeCallback c)).conns c = _ := onConn_conns _ _
      rw [hconn, if_pos rfl]
      show (Site.handleWrite c (.took n) _).conn.outputBuffer_.contents.length ≤ _
      rw [contents_handleWrite]
      have hinterest := hf.interest (by rw [site, hleft]; simp)
      show (if (s.conns c).channel_.isWriting then (s.conns c).outputBuffer_.contents.drop
          (WriteResult.count (.took n) (s.conns c).outputBuffer_.contents).toNat
        else (s.conns c).outputBuffer_.contents).length ≤ _
      split
      · rename_i hwriting
        have hne : (s.conns c).outputBuffer_.contents ≠ [] := hinterest.mp hwriting
        have hpos := List.length_pos_iff.mpr hne
        have hcount : (WriteResult.count (.took n) (s.conns c).outputBuffer_.contents).toNat =
            min n (s.conns c).outputBuffer_.contents.length := by
          rw [WriteResult.count, Int.toNat_natCast, List.length_take]
        rw [List.length_drop, hcount]
        omega
      · rename_i hwriting
        have hempty : (s.conns c).outputBuffer_.contents = [] := by
          by_contra hne
          exact hwriting (hinterest.mpr hne)
        rw [hempty]
        exact Nat.zero_le _
  | _ => cases ha

/-- Nothing is handed to a connection that is left. -/
theorem handed_left (hwf : s.Wf) (hleft : (s.conns c).state_ ≠ .kConnected) {a : Action T L}
    (ha : a.own = true) (hs : s.act a = some s') : s.handed c a = [] := by
  cases a with
  | run ℓ read write =>
    obtain ⟨job, rest, hwork, -⟩ := act_run hs
    have hown := (hwf.fit_of_work hwork).own
    simp only [handed, hwork]
    cases job with
    | sendInLoop => cases hown
    | _ => rfl
  | send c' data r => exact if_neg fun h => hleft h.2
  | _ => rfl

/-! ## Runs -/

/-- A server all of whose connections shut their write sides last. -/
structure Draining (s : TcpServer T L) : Prop where
  owned : s.Owned
  flows : ∃ sent, s.Flows sent
  shuts : ∀ c, s.Born c → (s.conns c).ShutsLast

omit [Fintype L] [DecidableEq T] in
theorem Draining.feeding (h : s.Draining) (hc : s.Born c) {w : Site ConnId}
    (hw : w.conn = s.conns c) : Feeding w := by
  obtain ⟨sent, hflows⟩ := h.flows
  exact (hflows.feeding c hc).congr hw

omit [Fintype L] [DecidableEq T] in
theorem draining_fresh (config : Config L) : (fresh config : TcpServer T L).Draining where
  owned := owned_fresh config
  flows := ⟨_, flows_fresh config⟩
  shuts _ hc := absurd hc.2 (Nat.not_lt.mpr hc.1)

omit [Fintype L] [DecidableEq L] [DecidableEq T] in
theorem timely_of_spared {a : Action T L} (ha : a.spared = true) : s.Timely a := by
  cases a with
  | storeDisconnecting t => cases ha
  | _ => trivial

theorem Draining.move (h : s.Draining) (hc : s.Born c) {a : Action T L} (ha : a.spared = true)
    (hs : s.act a = some s') : Move c (s.conns c) (s'.conns c) :=
  move_act h.owned.wf (h.owned.held c hc) hc (Action.own_of_spared ha).1 hs

theorem Draining.step (h : s.Draining) {a : Action T L} (ha : a.spared = true)
    (hs : s.step a = some s') : s'.Draining := by
  obtain ⟨hterm, -, hact⟩ := step_eq hs
  obtain ⟨sent, hflows⟩ := h.flows
  constructor
  · exact owned_act h.owned hterm ha hact
  · exact ⟨_, hflows.act (timely_of_spared ha) hact⟩
  · intro c hc
    by_cases hb : s.Born c
    · exact (h.move hb ha hact).shutsLast (h.shuts c hb) fun w hw => h.feeding hb hw
    · obtain ⟨ioLoop, sockfd, rfl, rfl, rfl⟩ := accepted_act hact hc hb
      rw [newConnection_conns, if_pos rfl]
      exact .new _ _ _

theorem draining_exec (h : s.Draining) {as : List (Action T L)} (has : ∀ a ∈ as, a.spared = true)
    (hr : Execution.exec TcpServer.step s as = some s') : s'.Draining :=
  Execution.exec_invariant Draining (fun _ _ _ h ha hs => h.step ha hs) h
    (Execution.guarded_of_forall has s) hr

theorem Draining.closed (h : s.Draining) (hc : s.Born c)
    (hclosed : (s.conns c).state_ = .kDisconnected) {bs : List (Action T L)}
    (hbs : ∀ b ∈ bs, b.spared = true) (hr : Execution.exec TcpServer.step s bs = some s') :
    (s'.conns c).state_ = .kDisconnected := by
  have hrun := Execution.exec_invariant
    (fun s => s.Draining ∧ s.Born c ∧ (s.conns c).state_ = .kDisconnected) ?_ ⟨h, hc, hclosed⟩
    (Execution.guarded_of_forall hbs s) hr
  · exact hrun.2.2
  · rintro s b s' ⟨h, hc, hclosed⟩ hb hs
    have hact := (step_eq hs).2.2
    refine ⟨h.step hb hs, born_act hact hc, ?_⟩
    rcases (h.move hc hb hact).past (.inr hclosed) with hs' | ⟨hs', -⟩
    · exact hs'
    · exact hs'.trans hclosed

/-- What has become of a connection that was left: it is closed, or its output stream is what it
was and its output buffer is shorter by `n` bytes at least. -/
def Drained (conn conn' : TcpConnection) (n : Nat) : Prop :=
  conn'.state_ = .kDisconnected ∨ conn'.state_ = .kDisconnecting ∧
    conn'.socket_.accepted ++ conn'.outputBuffer_.contents =
      conn.socket_.accepted ++ conn.outputBuffer_.contents ∧
    conn'.outputBuffer_.contents.length ≤ conn.outputBuffer_.contents.length - n

theorem Draining.drained_step (h : s.Draining) (hc : s.Born c)
    (hleft : (s.conns c).state_ = .kDisconnecting) {a : Action T L} (ha : a.spared = true)
    (hs : s.step a = some s') :
    Drained (s.conns c) (s'.conns c) (if s.effective c a then 1 else 0) := by
  obtain ⟨-, -, hact⟩ := step_eq hs
  rcases (h.move hc ha hact).past (.inl hleft) with hclosed | ⟨hstate, hlength⟩
  · exact .inl hclosed
  right
  obtain ⟨sent, hflows⟩ := h.flows
  have hcarries := carries_act hflows.raised hc (hflows.feeding c hc) (timely_of_spared ha) hact
  have hnothing := handed_left h.owned.wf (by rw [hleft]; simp) (Action.own_of_spared ha).1 hact
  constructor
  · exact hstate.trans hleft
  constructor
  · have hstream := hcarries.stream
    rw [hnothing, List.flatten_nil, List.append_nil] at hstream
    exact hstream
  · split
    · rename_i heff
      exact effective_act (hflows.feeding c hc) hleft heff hact
    · exact hlength

/-- The induction is on the run; a closed connection stays closed. -/
theorem Draining.drained (h : s.Draining) (hc : s.Born c)
    (hleft : (s.conns c).state_ = .kDisconnecting) {bs : List (Action T L)}
    (hbs : ∀ b ∈ bs, b.spared = true) (hr : Execution.exec TcpServer.step s bs = some s') :
    Drained (s.conns c) (s'.conns c) (s.writes c bs) := by
  induction bs generalizing s with
  | nil =>
    obtain rfl := Option.some.inj hr
    exact .inr ⟨hleft, rfl, Nat.le_refl _⟩
  | cons b bs ih =>
    obtain ⟨t, ht, hrest⟩ := Execution.exec_cons_some.mp hr
    have hb := hbs b List.mem_cons_self
    have hlater : ∀ b ∈ bs, b.spared = true := fun b' hb' => hbs b' (List.mem_cons_of_mem b hb')
    have hborn : t.Born c := born_act (step_eq ht).2.2 hc
    rcases h.drained_step hc hleft hb ht with hclosed | ⟨hstate, hstream, hlength⟩
    · exact .inl ((h.step hb ht).closed hborn hclosed hlater hrest)
    · rcases ih (h.step hb ht) hborn hstate hlater hrest with
        hclosed | ⟨hstate', hstream', hlength'⟩
      · exact .inl hclosed
      · refine .inr ⟨hstate', hstream'.trans hstream, ?_⟩
        simp only [writes, ht]
        omega

/-- As long as the server lives and user code keeps to the connection's loop: once a connection is
left, nothing more is added to what goes out on it, and unless it is closed the write side is shut
exactly when nothing waits; so it is shut, with everything sent, after as many writes that take
something as bytes were waiting. -/
theorem half_close_completes (config : Config L) (as : List (Action T L))
    (has : ∀ a ∈ as, a.spared = true)
    (hr : Execution.exec TcpServer.step (fresh config) as = some s) (hc : s.Born c)
    (hleft : (s.conns c).state_ = .kDisconnecting) (bs : List (Action T L))
    (hbs : ∀ b ∈ bs, b.spared = true) (hr' : Execution.exec TcpServer.step s bs = some s') :
    let conn := s.conns c
    let conn' := s'.conns c
    conn'.state_ = .kDisconnected ∨ conn'.state_ = .kDisconnecting ∧
      conn'.socket_.accepted ++ conn'.outputBuffer_.contents =
        conn.socket_.accepted ++ conn.outputBuffer_.contents ∧
      (conn'.socket_.writeShut = true ↔ conn'.outputBuffer_.contents = []) ∧
      (conn.outputBuffer_.contents.length ≤ s.writes c bs →
        conn'.socket_.writeShut = true ∧
          conn'.socket_.accepted = conn.socket_.accepted ++ conn.outputBuffer_.contents) := by
  intro conn conn'
  have hdraining := draining_exec (draining_fresh config) has hr
  have hdraining' := draining_exec hdraining hbs hr'
  rcases hdraining.drained hc hleft hbs hr' with hclosed | ⟨hstate, hstream, hlength⟩
  · exact .inl hclosed
  right
  have hborn : s'.Born c := Execution.exec_preserves (fun s => s.Born c)
    (fun _ _ _ hb hs => born_act (step_eq hs).2.2 hb) hc hr'
  have hshut := (hdraining'.shuts c hborn).shut hstate
  refine ⟨hstate, hstream, hshut, ?_⟩
  intro hwrites
  have hempty : conn'.outputBuffer_.contents = [] := by
    rw [← List.length_eq_zero_iff]
    have hlength' : conn'.outputBuffer_.contents.length ≤
      conn.outputBuffer_.contents.length - s.writes c bs := hlength
    omega
  constructor
  · exact hshut.mpr hempty
  · rw [hempty, List.append_nil] at hstream
    exact hstream

/-- One round of the loop in which the kernel takes one byte. -/
def writeOne : List (Action Unit Bool) :=
  [.swap false, .finish false, .poll false [(1, Channel.kWriteEvent)], .dispatch false,
    .run false (.delivered []) (.took 1), .release false]

theorem half_close_completes_two : ∃ s s' : TcpServer Unit Bool,
    Execution.exec TcpServer.step pair (greeted ++ [.shutdown 1]) = some s ∧
      Execution.exec TcpServer.step s (writeOne ++ writeOne) = some s' ∧
      (s.conns 1).socket_.accepted = [] ∧ (s'.conns 1).socket_.writeShut = true ∧
      (s'.conns 1).socket_.accepted = [72, 105] := by
  have hrun : (Execution.exec TcpServer.step pair (greeted ++ [.shutdown 1])).map (fun s =>
      decide (s.Born 1 ∧ (s.conns 1).state_ = .kDisconnecting ∧
        (s.conns 1).socket_.accepted = [] ∧ (s.conns 1).outputBuffer_.contents = [72, 105] ∧
        s.writes 1 (writeOne ++ writeOne) = 2 ∧
        (Execution.exec TcpServer.step s (writeOne ++ writeOne)).map
          (fun s' => (s'.conns 1).state_) = some .kDisconnecting)) = some true := by
    decide +kernel
  obtain ⟨s, hs, hres⟩ := Option.map_eq_some_iff.mp hrun
  obtain ⟨hborn, hleft, haccepted, hcontents, hwrites, hlater⟩ := of_decide_eq_true hres
  obtain ⟨s', hs', hstate'⟩ := Option.map_eq_some_iff.mp hlater
  refine ⟨s, s', hs, hs', haccepted, ?_⟩
  rcases half_close_completes _ _ (by decide) hs hborn hleft _ (by decide) hs' with
    hclosed | ⟨-, -, -, hdone⟩
  · rw [hstate'] at hclosed
    cases hclosed
  · obtain ⟨hshut, hsent⟩ := hdone (by rw [hwrites, hcontents]; decide)
    rw [haccepted, hcontents] at hsent
    exact ⟨hshut, hsent⟩

end Steps

end TcpServer

end Mymuduo

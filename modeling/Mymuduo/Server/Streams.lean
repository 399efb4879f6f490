import Mymuduo.Server.DirectSend
import Mymuduo.Server.Establishment

/-!
# Every connection carries its own messages

What the kernel has accepted on a connection, followed by what its output buffer
still holds, is the concatenation of the messages that were handed to its
`sendInLoop` while it was open: in their order, none lost, none doubled, and none
of another connection. The messages come from user code on the connection's loop
and from the functors that other threads queue. Only a `shutdown` on another
thread that stores `kDisconnecting` into a connection already closed spoils this.
-/

namespace Mymuduo

open Mymuduo.Library

universe u v

namespace Connection

variable {κ : Type u} {w w' : Site κ}

/-- Feeding reads the connection only. -/
theorem Feeding.congr (h : Feeding w) (hw : w'.conn = w.conn) : Feeding w' := by
  refine ⟨?_, ?_, ?_⟩
  · rw [hw]
    exact h.roomy
  · rw [hw]
    exact h.interest
  · rw [hw]
    exact h.mute

theorem feeding_new (name : List Char) (sockfd : Int) (callbacks : Callbacks) :
    Feeding ({ conn := TcpConnection.new name sockfd callbacks } : Site κ) where
  roomy := TcpConnection.roomy_new name sockfd callbacks
  interest _ := by
    refine iff_of_false ?_ (by simp [TcpConnection.new])
    simp [TcpConnection.new, Channel.isWriting]
  mute := nofun

/-- A connection that is established has not been closed before. -/
theorem Feeding.connectEstablished (h : Feeding w) (self : κ)
    (hs : w.conn.state_ ≠ .kDisconnected) : Feeding (w.connectEstablished self) := by
  simp only [Site.connectEstablished]
  refine ⟨?_, fun _ => ?_, ?_⟩
  · simpa using h.roomy
  · rw [Site.invoke_conn, Site.isWriting_enableReading]
    exact h.interest hs
  · simp

theorem Feeding.leaveConnected (h : Feeding w) (self : κ) : Adds w (w.leaveConnected self) := by
  simp only [Site.leaveConnected]
  split
  · exact adds_of_closed h.roomy (by simp) (by simp) (by simp) (by simp)
  · exact h.of_same rfl rfl rfl (.inl rfl)

theorem Feeding.callback (h : Feeding w) (self : κ) (read : ReadvResult) (write : WriteResult)
    (cb : ChannelCallback) : Adds w (w.callback self read write cb) := by
  cases cb with
  | closeCallback => exact h.handleClose self
  | errorCallback => exact h.of_same rfl rfl rfl (.inl rfl)
  | readCallback => exact h.handleRead self read
  | writeCallback => exact h.handleWrite self write

end Connection

open Connection

namespace TcpServer

variable {T : Type u} {L : Type v} {s s' : TcpServer T L} {c : ConnId}

/-! ## What is handed to a connection -/

/-- The message that a job takes to the connection, if that is open. -/
def taken (s : TcpServer T L) (c : ConnId) : Job → List (List Byte)
  | .sendInLoop c' data => if c' = c ∧ (s.conns c).state_ ≠ .kDisconnected then [data] else []
  | _ => []

/-- The message that an action hands to `sendInLoop` of the connection while it is open. -/
def handed (s : TcpServer T L) (c : ConnId) : Action T L → List (List Byte)
  | .run ℓ _ _ =>
    match (s.loops ℓ).work with
    | job :: _ => s.taken c job
    | [] => []
  | .send c' data _ => if c' = c ∧ (s.conns c).state_ = .kConnected then [data] else []
  | _ => []

/-- The messages that a run hands to the connection, in order. -/
def messages [Fintype L] [DecidableEq L] [DecidableEq T] (s : TcpServer T L) (c : ConnId) :
    List (Action T L) → List (List Byte)
  | [] => []
  | a :: as => s.handed c a ++
    match s.step a with
    | some s' => s'.messages c as
    | none => []

/-- `shutdown` on another thread has not been overtaken by the end of the connection. -/
def Timely (s : TcpServer T L) : Action T L → Prop
  | .storeDisconnecting t =>
    ∀ c, s.caller t = .leaving c → (s.conns c).state_ ≠ .kDisconnected
  | _ => True

/-! ## One action -/

/-- The connection as it is when one of its methods is called. -/
def site (s : TcpServer T L) (c : ConnId) : Site ConnId := { conn := s.conns c }

/-- From one state of the connection to another, with bytes added to its stream. -/
structure Carries (w : Site ConnId) (bytes : List Byte) (w' : Site ConnId) : Prop where
  feeding : Feeding w'
  stream : outputStream w' = outputStream w ++ bytes

theorem Carries.of_adds {w w' : Site ConnId} (h : Adds w w') : Carries w [] w' :=
  ⟨h.feeding, by rw [h.stream, List.append_nil]⟩

theorem Carries.congr {w w' v v' : Site ConnId} {bytes : List Byte} (h : Carries v bytes v')
    (hv : v.conn = w.conn) (hv' : v'.conn = w'.conn) : Carries w bytes w' := by
  refine ⟨h.feeding.congr hv'.symm, ?_⟩
  have hstream := h.stream
  simp only [outputStream, hv, hv'] at hstream ⊢
  exact hstream

theorem carries_same (h : Feeding (s.site c)) (hconn : s'.conns c = s.conns c) :
    Carries (s.site c) [] (s'.site c) :=
  ⟨h.congr hconn, by rw [outputStream, site, hconn, List.append_nil, outputStream, site]⟩

section Steps

variable [DecidableEq L] {ℓ : L}

theorem carries_onConn (h : Feeding (s.site c)) {c' : ConnId} {f : Site ConnId → Site ConnId}
    {bytes : List Byte} (hbytes : c' ≠ c → bytes = [])
    (hf : c' = c → Carries { conn := s.conns c, poller := (s.loops ℓ).poller } bytes
      (f { conn := s.conns c, poller := (s.loops ℓ).poller })) :
    Carries (s.site c) bytes ((s.onConn ℓ c' f).site c) := by
  have hconns := onConn_conns (ℓ := ℓ) (s := s) (c := c') f c
  by_cases hc : c' = c
  · subst hc
    rw [if_pos rfl] at hconns
    exact (hf rfl).congr rfl hconns.symm
  · rw [if_neg (Ne.symm hc)] at hconns
    rw [hbytes hc]
    exact carries_same h hconns

theorem carries_runInLoop (h : Feeding (s.site c)) (ℓ target : L) (job : Job) :
    Carries (s.site c) [] ((s.runInLoop ℓ target job).site c) := by
  obtain ⟨loops, hloops⟩ := s.runInLoop_eq ℓ target job
  refine carries_same h ?_
  rw [hloops]

/-- A job of the connection that sends nothing, or one of another. -/
theorem carries_silent (h : Feeding (s.site c)) {c' : ConnId} {f : Site ConnId → Site ConnId}
    (hf : ∀ w : Site ConnId, c' = c → w.conn = s.conns c → Feeding w → Adds w (f w)) :
    Carries (s.site c) [] ((s.onConn ℓ c' f).site c) :=
  carries_onConn h (fun _ => rfl) fun he => .of_adds (hf _ he rfl (h.congr rfl))

theorem carries_runJob (h : Feeding (s.site c)) {job : Job}
    (hopen : job = .connectEstablished c → (s.conns c).state_ ≠ .kDisconnected)
    (read : ReadvResult) (write : WriteResult) :
    Carries (s.site c) (s.taken c job).flatten ((s.runJob ℓ read write job).site c) := by
  cases job with
  | connectEstablished c' =>
    refine carries_onConn h (fun _ => rfl) fun he => ?_
    subst he
    have hf : Feeding { conn := s.conns c', poller := (s.loops ℓ).poller } := h.congr rfl
    refine ⟨hf.connectEstablished c' (hopen rfl), ?_⟩
    simp [Site.connectEstablished, outputStream, taken]
  | connectDestroyed c' => exact carries_silent h fun w _ _ hw => hw.leaveConnected c'
  | removeChannel c' =>
    exact carries_silent h fun w _ _ hw =>
      hw.of_same rfl rfl (Site.isWriting_remove c' w) (.inl rfl)
  | removeConnectionInLoop c' => exact carries_same h rfl
  | closeCallback c' => exact carries_runInLoop h ℓ _ _
  | handle cb c' => exact carries_silent h fun w _ _ hw => hw.callback c' read write cb
  | notice n c' => exact carries_same h rfl
  | shutdownInLoop c' => exact carries_silent h fun w _ _ hw => hw.shutdownInLoop
  | sendInLoop c' data =>
    have hnone : c' ≠ c → (s.taken c (.sendInLoop c' data)).flatten = [] := fun hne => by
      rw [taken, if_neg fun he => hne he.1, List.flatten_nil]
    refine carries_onConn h hnone fun he => ?_
    subst he
    have hf : Feeding { conn := s.conns c', poller := (s.loops ℓ).poller } := h.congr rfl
    obtain ⟨hfeeding, -, hstream⟩ := hf.sendInLoop c' data write
    refine ⟨hfeeding, hstream.trans ?_⟩
    by_cases hd : (s.conns c').state_ = .kDisconnected <;> simp [taken, hd]

variable [Fintype L]

theorem carries_userCall (h : Feeding (s.site c)) {c' : ConnId} {f : Site ConnId → Site ConnId}
    (hf : ∀ w : Site ConnId, c' = c → w.conn = s.conns c → Feeding w → Adds w (f w))
    (hs : s.userCall c' f = some s') : Carries (s.site c) [] (s'.site c) := by
  obtain ⟨-, -, rfl⟩ := userCall_eq hs
  exact carries_silent h hf

theorem carries_send (h : Feeding (s.site c)) {c' : ConnId} {data : List Byte} {r : WriteResult}
    (hs : s.userCall c' (Site.send c' data r) = some s') :
    Carries (s.site c) (s.handed c (.send c' data r : Action T L)).flatten (s'.site c) := by
  obtain ⟨-, -, rfl⟩ := userCall_eq hs
  simp only [handed]
  refine carries_onConn h (fun hne => by rw [if_neg fun he => hne he.1]; rfl) fun he => ?_
  subst he
  have hf : Feeding { conn := s.conns c', poller := (s.loops (s.loopOf c')).poller } := h.congr rfl
  by_cases hc : (s.conns c').state_ = .kConnected
  · obtain ⟨hfeeding, -, hstream⟩ := hf.sendInLoop c' data r
    rw [Site.send, if_pos hc]
    refine ⟨hfeeding, hstream.trans ?_⟩
    simp [hc]
  · rw [Site.send, if_neg hc]
    exact ⟨hf, by simp [hc]⟩

/-- An action adds to the stream of a connection what it hands to it. -/
theorem carries_act [DecidableEq T] (hr : s.Raised) (hb : s.Born c) (h : Feeding (s.site c))
    {a : Action T L} (hok : s.Timely a) (hs : s.act a = some s') :
    Carries (s.site c) (s.handed c a).flatten (s'.site c) := by
  cases a with
  | poll ℓ reports =>
    obtain ⟨-, -, -, -, rfl⟩ := act_poll hs
    obtain ⟨v, hv⟩ := setRevents_eq reports s.conns c
    have hreported : Adds (s.site c) { conn := { s.conns c with channel_.revents_ := v } } :=
      h.of_same rfl rfl rfl (.inl rfl)
    exact (Carries.of_adds hreported).congr rfl hv.symm
  | dispatch ℓ =>
    obtain ⟨c', rest, -, -, ⟨-, rfl⟩ | ⟨-, rfl⟩⟩ := dispatch_cases hs <;> exact carries_same h rfl
  | start ℓ =>
    obtain ⟨-, -, job, queue, -, rfl⟩ := act_start hs
    exact carries_same h rfl
  | run ℓ read write =>
    obtain ⟨job, rest, hwork, rfl⟩ := act_run hs
    have hopen : job = .connectEstablished c → (s.conns c).state_ ≠ .kDisconnected := fun he => by
      obtain ⟨-, -, hpos⟩ := hr.confined.arrivals_pos (he ▸ hwork)
      rw [((hr.dawning c hb).untouched hpos).conn.state]
      decide
    have hrun := carries_runJob (s := s.popJob ℓ job rest) (ℓ := ℓ) h hopen read write
    have hhanded : s.handed c (.run ℓ read write) = s.taken c job := by simp only [handed, hwork]
    rw [hhanded]
    cases job <;> exact hrun
  | newConnection ioLoop sockfd =>
    obtain ⟨-, -, -, rfl⟩ := act_newConnection hs
    refine carries_same h ?_
    obtain ⟨loops, hloops⟩ := runInLoop_eq (s.addConnection ioLoop sockfd) s.config.loop_ ioLoop
      (.connectEstablished s.nextConnId_)
    rw [newConnection, hloops]
    exact (addConnection_conns s ioLoop sockfd c).trans (if_neg (ne_next hb))
  | destroyItem key c' =>
    obtain ⟨-, -, -, rfl⟩ := act_destroyItem hs
    exact carries_runInLoop (s := { s with connections_ := s.connections_.erase (key, c') }) h _ _ _
  | send c' data r => exact carries_send h hs
  | shutdown c' => exact carries_userCall h (fun w _ _ hw => hw.shutdown) hs
  | setHighWaterMarkCallback c' n =>
    have hmark : ∀ w : Site ConnId, Feeding w → Adds w (w.setHighWaterMarkCallback n) := fun w hw =>
      hw.of_same rfl rfl rfl (.inl rfl)
    exact carries_userCall h (fun w _ _ => hmark w) hs
  | drop c' =>
    obtain rfl := act_drop hs
    exact carries_same h rfl
  | testSend t c' data =>
    obtain ⟨-, rfl | rfl⟩ := act_testSend hs <;> exact carries_same h rfl
  | testShutdown t c' =>
    obtain ⟨-, rfl | rfl⟩ := act_testShutdown hs <;> exact carries_same h rfl
  | enqueueSend t =>
    obtain ⟨c', data, -, rfl⟩ := act_enqueueSend hs
    exact carries_same h rfl
  | storeDisconnecting t =>
    obtain ⟨c', hcaller, rfl⟩ := act_storeDisconnecting hs
    by_cases hc : c = c'
    · subst hc
      have hlive := hok c hcaller
      have hleft : Carries (s.site c) []
          { conn := { s.conns c with state_ := .kDisconnecting } } :=
        ⟨⟨h.roomy, fun _ => h.interest hlive, fun hd => by cases hd⟩, (List.append_nil _).symm⟩
      exact hleft.congr rfl (Function.update_self c _ s.conns).symm
    · exact carries_same h (Function.update_of_ne hc _ _)
  | enqueueShutdown t =>
    obtain ⟨c', -, rfl⟩ := act_enqueueShutdown hs
    exact carries_same h rfl
  | release | swap | finish | destroy | destroyEnd | keep =>
    simp only [act, Option.ite_none_right_eq_some, Option.some.injEq] at hs
    obtain ⟨-, rfl⟩ := hs
    exact carries_same h rfl

end Steps

/-! ## Runs -/

/-- Every connection's stream is what has been sent on it. -/
structure Flows (s : TcpServer T L) (sent : ConnId → List (List Byte)) : Prop where
  raised : s.Raised
  feeding : ∀ c, s.Born c → Feeding (s.site c)
  stream : ∀ c, s.Born c → outputStream (s.site c) = (sent c).flatten
  unsent : ∀ c, ¬ s.Born c → sent c = []

theorem flows_fresh (config : Config L) : (fresh config : TcpServer T L).Flows fun _ => [] where
  raised := raised_fresh config
  feeding _ hc := absurd hc.2 (Nat.not_lt.mpr hc.1)
  stream _ hc := absurd hc.2 (Nat.not_lt.mpr hc.1)
  unsent _ _ := rfl

section Runs

variable [Fintype L] [DecidableEq L] [DecidableEq T]

theorem handed_of_unborn (h : s.Confined) (hc : ¬ s.Born c) {a : Action T L}
    (hs : s.act a = some s') : s.handed c a = [] := by
  cases a with
  | run ℓ read write =>
    obtain ⟨job, rest, hwork, -⟩ := act_run hs
    have hb := ((h.seated ℓ).jobs job (by rw [Loop.agenda, hwork]; exact List.mem_cons_self)).1
    simp only [handed, hwork]
    cases job with
    | sendInLoop c' data =>
      refine if_neg ?_
      rintro ⟨rfl, -⟩
      exact hc hb
    | _ => rfl
  | send c' data r =>
    obtain ⟨hb, -, -⟩ := userCall_eq hs
    refine if_neg ?_
    rintro ⟨rfl, -⟩
    exact hc hb
  | _ => rfl

omit [Fintype L] [DecidableEq T] in
/-- The connection that is accepted has a stream of its own, which is empty. -/
theorem site_newConnection (ioLoop : L) (sockfd : Int) :
    Feeding ((s.newConnection ioLoop sockfd).site s.nextConnId_) ∧
      outputStream ((s.newConnection ioLoop sockfd).site s.nextConnId_) = [] := by
  obtain ⟨loops, hloops⟩ := runInLoop_eq (s.addConnection ioLoop sockfd) s.config.loop_ ioLoop
    (.connectEstablished s.nextConnId_)
  have hconn : (s.newConnection ioLoop sockfd).conns s.nextConnId_ =
      TcpConnection.new (s.nameOf s.nextConnId_) sockfd s.callbacks := by
    rw [newConnection, hloops]
    exact (addConnection_conns s ioLoop sockfd _).trans (if_pos rfl)
  rw [site, hconn]
  exact ⟨feeding_new _ _ _, by simp [outputStream, TcpConnection.new]⟩

theorem Flows.act {sent : ConnId → List (List Byte)} (h : s.Flows sent) {a : Action T L}
    (hok : s.Timely a) (hs : s.act a = some s') :
    s'.Flows fun c => sent c ++ s.handed c a := by
  have hraised := h.raised.act hs
  have hnew : ∀ c, s'.Born c → ¬ s.Born c → Feeding (s'.site c) ∧
      outputStream (s'.site c) = [] := fun c hc hn => by
    obtain ⟨ioLoop, sockfd, -, rfl, rfl⟩ := accepted_act hs hc hn
    exact site_newConnection ioLoop sockfd
  refine ⟨hraised, fun c hc => ?_, fun c hc => ?_, fun c hc => ?_⟩
  · by_cases hb : s.Born c
    · exact (carries_act h.raised hb (h.feeding c hb) hok hs).feeding
    · exact (hnew c hc hb).1
  · by_cases hb : s.Born c
    · rw [(carries_act h.raised hb (h.feeding c hb) hok hs).stream, h.stream c hb,
        List.flatten_append]
    · rw [(hnew c hc hb).2, h.unsent c hb, handed_of_unborn h.raised.confined hb hs]
      rfl
  · have hn : ¬ s.Born c := fun hb => hc (born_act hs hb)
    rw [h.unsent c hn, handed_of_unborn h.raised.confined hn hs]
    rfl

theorem Flows.exec {sent : ConnId → List (List Byte)} (h : s.Flows sent) {as : List (Action T L)}
    (hg : Execution.Guarded step Timely s as) (hr : Execution.exec step s as = some s') :
    s'.Flows fun c => sent c ++ s.messages c as := by
  induction as generalizing s sent with
  | nil =>
    obtain rfl := Option.some.inj hr
    simpa [messages] using h
  | cons a as ih =>
    obtain ⟨t, ht, hrest⟩ := Execution.exec_cons_some.mp hr
    have hnext := ih (h.act hg.1 (step_eq ht).2.2) (hg.2 t ht) hrest
    simpa only [messages, ht, List.append_assoc] using hnext

/-- Where no other thread calls `shutdown`, every run is timely. -/
theorem timely_of_forall {as : List (Action T L)}
    (h : ∀ a ∈ as, ∀ t, a ≠ .storeDisconnecting t) (s : TcpServer T L) :
    Execution.Guarded step Timely s as := by
  refine (Execution.guarded_of_forall h s).mono fun s a ha => ?_
  cases a with
  | storeDisconnecting t => exact absurd rfl (ha t)
  | _ => trivial

/-- In every run, with calls from any thread, as long as no `shutdown` revives a closed
connection: the bytes accepted on a connection and those in its output buffer are the messages
handed to it while it was open; and until it is closed there is write interest exactly while
something waits. -/
theorem messages_kept (config : Config L) (as : List (Action T L))
    (hg : Execution.Guarded step Timely (fresh config) as)
    (hr : Execution.exec step (fresh config) as = some s) (c : ConnId) (hc : s.Born c) :
    (s.conns c).socket_.accepted ++ (s.conns c).outputBuffer_.contents =
      ((fresh config : TcpServer T L).messages c as).flatten ∧
    ((s.conns c).state_ ≠ .kDisconnected →
      ((s.conns c).channel_.isWriting = true ↔ (s.conns c).outputBuffer_.contents ≠ [])) := by
  have h := (flows_fresh config).exec hg hr
  exact ⟨h.stream c hc, (h.feeding c hc).interest⟩

/-- A connection accepted on the base loop, and a message from its connection callback. -/
def greeted : List (Action Unit Bool) := established ++ [.send 1 [72, 105] (.took 2)]

/-- A second message comes from another thread. -/
def greetedTwice : List (Action Unit Bool) := greeted ++ [.keep 1, .testSend () 1 [33],
  .enqueueSend (), .swap false, .start false, .run false (.delivered []) (.took 1)]

theorem messages_kept_greeted : ∃ s, Execution.exec step pair greetedTwice = some s ∧
    pair.messages 1 greetedTwice = [[72, 105], [33]] ∧
    (s.conns 1).socket_.accepted ++ (s.conns 1).outputBuffer_.contents =
      (pair.messages 1 greetedTwice).flatten ∧
    ((s.conns 1).state_ ≠ .kDisconnected →
      ((s.conns 1).channel_.isWriting = true ↔ (s.conns 1).outputBuffer_.contents ≠ [])) := by
  have hrun : (Execution.exec step pair greetedTwice).map (fun s => decide (s.Born 1)) =
      some true := by
    decide +kernel
  obtain ⟨s, hs, hborn⟩ := Option.map_eq_some_iff.mp hrun
  have htwo : pair.messages 1 greetedTwice = [[72, 105], [33]] := by decide +kernel
  have hnone : ∀ a ∈ greetedTwice, ∀ t, a ≠ .storeDisconnecting t := by
    rintro a ha t rfl
    simp [greetedTwice, greeted, established] at ha
  exact ⟨s, hs, htwo,
    messages_kept _ greetedTwice (timely_of_forall hnone _) hs 1 (of_decide_eq_true hborn)⟩

end Runs

end TcpServer

end Mymuduo

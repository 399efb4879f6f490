import Mymuduo.Connection.TcpConnection

/-!
# The life of one connection

What the server and its loops do to one connection, seen from that connection
alone: its state, whether its channel is registered, whether it stands in the
server's map, what is still to be done for it on its own loop and on the base
loop, and what its user has been told. A step names the events that decide
whether a life goes as it should.
-/

namespace Mymuduo

/-- What a loop's thread still has to do for a connection of its own. -/
inductive Duty
  | establish
  | destroy
  /-- `channel_->remove()`, the end of `connectDestroyed` -/
  | deregister
  | callback (cb : ChannelCallback)
  /-- call `closeCallback_`, the end of `handleClose` -/
  | finishClose
  | notice (n : Notice)
  deriving DecidableEq

inductive Status
  | alive
  /-- in `~TcpServer` -/
  | destroying
  | destroyed
  deriving DecidableEq

structure Life where
  state : StateE
  registered : Bool
  tied : Bool
  /-- its loop is the base loop -/
  onBase : Bool
  /-- in `connections_` -/
  mapped : Bool
  /-- in what is left of `activeChannels_` -/
  active : Bool
  /-- held by the guard of `Channel::handleEvent` -/
  guarded : Bool
  /-- its loop is in `doPendingFunctors` -/
  calling : Bool
  /-- duties of the handler or functor that its loop is in -/
  now : List Duty
  /-- duties queued on its loop -/
  later : List Duty
  /-- calls of `removeConnectionInLoop` to come on the base loop -/
  removals : Nat
  status : Status
  /-- a `connectionCallback_` has been set -/
  heard : Bool
  invoked : List Invocation
  /-- how often `connectDestroyed` has been entered, and has returned -/
  destroys : Nat
  deregisters : Nat
  /-- calls of `removeConnectionInLoop` after `~TcpServer` has begun -/
  lateRemovals : Nat
  /-- the process has been terminated -/
  thrown : Bool

/-- What matters about a step for the way a life goes. -/
inductive Event
  /-- `handleClose` is run by a callback of the channel -/
  | close
  /-- a message is delivered -/
  | deliver
  /-- `connectDestroyed` is entered -/
  | leave
  /-- an event is dispatched to the channel of a connection without owner -/
  | dangle
  /-- `~TcpServer` begins -/
  | destroy
  | quiet
  deriving DecidableEq

namespace Life

def duties (l : Life) : List Duty := l.now ++ l.later

inductive Step : Event → Life → Life → Prop
  | stay {l} : Step .quiet l l
  /-- a callback of another connection has thrown -/
  | terminate {l} : Step .quiet l { l with thrown := true }
  | destroy {l} : l.status = .alive → Step .destroy l { l with status := .destroying }
  | destroyEnd {l} : l.status = .destroying → Step .quiet l { l with status := .destroyed }
  | poll {l} (reported : Bool) : (reported = true → l.registered = true) → l.calling = false →
      l.now = [] → Step .quiet l { l with active := reported }
  | dispatch {l} (cbs : List ChannelCallback) : l.active = true → l.calling = false → l.now = [] →
      Step .quiet l { l with active := false, guarded := l.tied, now := cbs.map .callback }
  | dangle {l} : l.active = true → Step .dangle l { l with active := false }
  | release {l} : l.now = [] → Step .quiet l { l with guarded := false }
  | swap {l} : l.active = false → l.now = [] → Step .quiet l { l with calling := true }
  | start {l d rest} : l.calling = true → l.now = [] → l.later = d :: rest →
      Step .quiet l { l with now := [d], later := rest }
  | finish {l} : l.now = [] → Step .quiet l { l with calling := false }
  | establish {l rest} : l.now = .establish :: rest →
      Step .quiet l { l with
        state := .kConnected, registered := true, tied := true, now := rest
        invoked := l.invoked ++ (if l.heard then [.connectionCallback .kConnected] else [])
        thrown := !l.heard }
  | leave {l rest} : l.now = .destroy :: rest → l.state = .kConnected →
      Step .leave l { l with
        state := .kDisconnected, registered := true, now := .deregister :: rest
        invoked := l.invoked ++ (if l.heard then [.connectionCallback .kDisconnected] else [])
        thrown := !l.heard, destroys := l.destroys + 1 }
  | leaveSilently {l rest} : l.now = .destroy :: rest → l.state ≠ .kConnected →
      Step .leave l { l with now := .deregister :: rest, destroys := l.destroys + 1 }
  | deregister {l rest} : l.now = .deregister :: rest →
      Step .quiet l { l with registered := false, now := rest, deregisters := l.deregisters + 1 }
  | close {l cb rest} : l.now = .callback cb :: rest →
      Step .close l { l with
        state := .kDisconnected, registered := true, now := .finishClose :: rest
        invoked := l.invoked ++ (if l.heard then [.connectionCallback .kDisconnected] else []) }
  | deliver {l cb rest} (told : Bool) : l.now = .callback cb :: rest →
      Step .deliver l { l with
        now := rest
        invoked := l.invoked ++ (if told then [.messageCallback] else [])
        thrown := !told }
  | handle {l cb rest} (registered : Bool) (notices : List Notice) :
      l.now = .callback cb :: rest → (l.registered = true → registered = true) →
      Step .quiet l { l with
        registered := registered, now := rest, later := l.later ++ notices.map .notice }
  | finishClose {l rest} : l.now = .finishClose :: rest →
      Step .quiet l { l with now := rest, removals := l.removals + 1 }
  | notice {l n rest} : l.now = .notice n :: rest → Step .quiet l { l with now := rest }
  | remove {l n} : l.removals = n + 1 →
      Step .quiet l { l with
        mapped := false, removals := n, later := l.later ++ [.destroy]
        lateRemovals := l.lateRemovals + if l.status = .alive then 0 else 1 }
  | destroyItem {l} : l.status = .destroying → l.mapped = true → (l.onBase = true → l.now = []) →
      Step .quiet l { l with
        mapped := false
        now := if l.onBase then [.destroy] else l.now
        later := if l.onBase then l.later else l.later ++ [.destroy] }
  | user {l} (state : StateE) (registered : Bool) (notices : List Notice) :
      l.state = .kConnected → (state = .kConnected ∨ state = .kDisconnecting) →
      (l.registered = true → registered = true) →
      Step .quiet l { l with
        state := state, registered := registered, later := l.later ++ notices.map .notice }

/-- A connection that has just been accepted. -/
structure New (l : Life) : Prop where
  state : l.state = .kConnecting
  registered : l.registered = false
  mapped : l.mapped = true
  active : l.active = false
  duties : l.duties = [.establish]
  front : l.onBase = true → l.now = [.establish]
  removals : l.removals = 0
  status : l.status = .alive
  invoked : l.invoked = []
  destroys : l.destroys = 0
  deregisters : l.deregisters = 0
  lateRemovals : l.lateRemovals = 0

/-! ## `connectEstablished` comes first -/

structure Begun (l : Life) : Prop where
  connecting : l.state = .kConnecting → ∃ rest, l.duties = .establish :: rest ∧
    .establish ∉ rest ∧ (l.onBase = true → l.now ≠ [])
  bare : l.state = .kConnecting → l.registered = false ∧ l.active = false
  begun : l.state ≠ .kConnecting → .establish ∉ l.duties

variable {e : Event} {l l' : Life}

theorem Begun.of_new (h : New l) : Begun l where
  connecting _ := ⟨[], h.duties, List.not_mem_nil, fun hb => by rw [h.front hb]; nofun⟩
  bare _ := ⟨h.registered, h.active⟩
  begun hn := absurd h.state hn

/-- While the connection is not established, nothing else is done for it. -/
theorem Begun.head (h : Begun l) {d : Duty} {rest : List Duty} (hnow : l.now = d :: rest)
    (hd : d ≠ .establish) : l.state ≠ .kConnecting := by
  intro hs
  obtain ⟨rest', hduties, -⟩ := h.connecting hs
  rw [Life.duties, hnow] at hduties
  exact hd (List.cons.inj hduties).1

theorem Begun.of_registered (h : Begun l) (hr : l.registered = true) : l.state ≠ .kConnecting :=
  fun hs => by rw [(h.bare hs).1] at hr; cases hr

theorem Begun.of_active (h : Begun l) (hr : l.active = true) : l.state ≠ .kConnecting :=
  fun hs => by rw [(h.bare hs).2] at hr; cases hr

/-- Once it is established, duties come and go but no second `establish`. -/
theorem Begun.of_duties (hs : l'.state ≠ .kConnecting) (hd : .establish ∉ l'.duties) : Begun l' :=
  ⟨fun h => absurd h hs, fun h => absurd h hs, fun _ => hd⟩

/-- The rest of the duties after one that is not `establish`. -/
theorem Begun.rest (h : Begun l) {d : Duty} {rest : List Duty} (hnow : l.now = d :: rest)
    (hd : d ≠ .establish) : .establish ∉ rest ∧ .establish ∉ l.later := by
  have hnot := h.begun (h.head hnow hd)
  rw [Life.duties, hnow, List.cons_append, List.mem_cons, List.mem_append] at hnot
  exact ⟨fun hm => hnot (.inr (.inl hm)), fun hm => hnot (.inr (.inr hm))⟩

theorem Begun.step (h : Begun l) (hs : Step e l l') : Begun l' := by
  cases hs with
  | stay => exact h
  | terminate => exact ⟨h.connecting, h.bare, h.begun⟩
  | destroy => exact ⟨h.connecting, h.bare, h.begun⟩
  | destroyEnd => exact ⟨h.connecting, h.bare, h.begun⟩
  | poll reported hr hc hn =>
    refine ⟨h.connecting, fun hs => ⟨(h.bare hs).1, ?_⟩, h.begun⟩
    cases reported
    · rfl
    · exact absurd hs (h.of_registered (hr rfl))
  | dispatch cbs ha hc hn =>
    have hstate := h.of_active ha
    have hlater := h.begun hstate
    simp only [Life.duties, hn, List.nil_append] at hlater
    exact .of_duties hstate (by simp [Life.duties, hlater])
  | dangle ha => exact .of_duties (h.of_active ha) (h.begun (h.of_active ha))
  | release => exact ⟨h.connecting, h.bare, h.begun⟩
  | swap => exact ⟨h.connecting, h.bare, h.begun⟩
  | @start _ d rest hc hn hl =>
    have hduties : l.duties = d :: rest := by rw [Life.duties, hn, hl, List.nil_append]
    refine ⟨fun hs => ?_, h.bare, fun hs => ?_⟩
    · obtain ⟨rest', heq, hnot, -⟩ := h.connecting hs
      exact ⟨rest', hduties.symm.trans heq, hnot, fun _ => by simp⟩
    · have hnot := h.begun hs
      rw [hduties] at hnot
      exact hnot
  | finish => exact ⟨h.connecting, h.bare, h.begun⟩
  | @establish _ rest hn =>
    refine .of_duties (by simp) ?_
    by_cases hs : l.state = .kConnecting
    · obtain ⟨rest', hduties, hnot, -⟩ := h.connecting hs
      rw [Life.duties, hn] at hduties
      have hrest : rest ++ l.later = rest' := (List.cons.inj hduties).2
      rw [← hrest] at hnot
      exact hnot
    · exact absurd (List.mem_append_left _ (hn ▸ List.mem_cons_self)) (h.begun hs)
  | leave hn hst =>
    obtain ⟨hrest, hlater⟩ := h.rest hn (by decide)
    exact .of_duties (by simp) (by simp [Life.duties, hrest, hlater])
  | leaveSilently hn hst =>
    obtain ⟨hrest, hlater⟩ := h.rest hn (by decide)
    exact .of_duties (h.head hn (by decide)) (by simp [Life.duties, hrest, hlater])
  | deregister hn =>
    obtain ⟨hrest, hlater⟩ := h.rest hn (by decide)
    exact .of_duties (h.head hn (by decide)) (by simp [Life.duties, hrest, hlater])
  | close hn =>
    obtain ⟨hrest, hlater⟩ := h.rest hn nofun
    exact .of_duties (by simp) (by simp [Life.duties, hrest, hlater])
  | deliver told hn =>
    obtain ⟨hrest, hlater⟩ := h.rest hn nofun
    exact .of_duties (h.head hn nofun) (by simp [Life.duties, hrest, hlater])
  | handle registered notices hn hr =>
    obtain ⟨hrest, hlater⟩ := h.rest hn nofun
    exact .of_duties (h.head hn nofun) (by simp [Life.duties, hrest, hlater])
  | finishClose hn =>
    obtain ⟨hrest, hlater⟩ := h.rest hn (by decide)
    exact .of_duties (h.head hn (by decide)) (by simp [Life.duties, hrest, hlater])
  | notice hn =>
    obtain ⟨hrest, hlater⟩ := h.rest hn nofun
    exact .of_duties (h.head hn nofun) (by simp [Life.duties, hrest, hlater])
  | remove hn =>
    refine ⟨fun hs => ?_, h.bare, fun hs => ?_⟩
    · obtain ⟨rest, hduties, hnot, hbase⟩ := h.connecting hs
      refine ⟨rest ++ [.destroy], ?_, by simp [hnot], hbase⟩
      rw [← List.cons_append, ← hduties]
      simp [Life.duties]
    · have hnot := h.begun hs
      simp only [Life.duties, List.mem_append, not_or] at hnot ⊢
      exact ⟨hnot.1, hnot.2, by simp⟩
  | destroyItem hst hm hn =>
    cases hb : l.onBase with
    | true =>
      have hnow := hn hb
      refine ⟨fun hs => ?_, h.bare, fun hs => ?_⟩
      · obtain ⟨rest, -, -, hbase⟩ := h.connecting hs
        exact absurd hnow (hbase hb)
      · have hnot := h.begun hs
        simp only [Life.duties, hnow, List.nil_append] at hnot
        simp [Life.duties, hnot]
    | false =>
      refine ⟨fun hs => ?_, h.bare, fun hs => ?_⟩
      · obtain ⟨rest, hduties, hnot, -⟩ := h.connecting hs
        refine ⟨rest ++ [.destroy], ?_, by simp [hnot], nofun⟩
        rw [← List.cons_append, ← hduties]
        simp [Life.duties]
      · have hnot := h.begun hs
        simp only [Life.duties, List.mem_append, not_or] at hnot
        simp [Life.duties, hnot.1, hnot.2]
  | user state registered notices hst hst' hr =>
    have hnot := h.begun (by rw [hst]; decide)
    simp only [Life.duties, List.mem_append, not_or] at hnot
    refine .of_duties (by rcases hst' with rfl | rfl <;> simp) ?_
    simp [Life.duties, hnot.1, hnot.2]

end Life

end Mymuduo

import Mymuduo.Server.Simulation

/-!
# The callbacks of a connection

A connection should tell its user once that it is up, then of any number of
messages, then once that it is down. `handleClose` does not look at the state
it closes, the callbacks of one event follow each other unchecked, and
`connectDestroyed` tells of the end only in state `kConnected`. Where these
three are kept from going wrong, the protocol holds in every run.
-/

namespace Mymuduo

open Mymuduo.Library

universe u v

/-! ## Callback sequences -/

/-- Up, then messages. -/
def Ongoing (calls : List Invocation) : Prop :=
  ∃ k, calls = .connectionCallback .kConnected :: List.replicate k .messageCallback

/-- Up, messages, down. -/
def Complete (calls : List Invocation) : Prop :=
  ∃ k, calls = .connectionCallback .kConnected :: List.replicate k .messageCallback ++
    [.connectionCallback .kDisconnected]

/-- What may have been called at any time. -/
def Regular (calls : List Invocation) : Prop := calls = [] ∨ Ongoing calls ∨ Complete calls

theorem ongoing_up : Ongoing [.connectionCallback .kConnected] := ⟨0, rfl⟩

theorem Ongoing.message {calls : List Invocation} (h : Ongoing calls) :
    Ongoing (calls ++ [.messageCallback]) := by
  obtain ⟨k, rfl⟩ := h
  exact ⟨k + 1, by rw [List.replicate_succ', List.cons_append]⟩

theorem Ongoing.down {calls : List Invocation} (h : Ongoing calls) :
    Complete (calls ++ [.connectionCallback .kDisconnected]) := by
  obtain ⟨k, rfl⟩ := h
  exact ⟨k, rfl⟩

namespace Life

/-- What must not happen: a callback runs `handleClose` or delivers a message
after the end, or `connectDestroyed` finds the connection half closed. -/
structure Orderly (e : Event) (l : Life) : Prop where
  close : e = .close → l.state ≠ .kDisconnected
  deliver : e = .deliver → l.state ≠ .kDisconnected
  leave : e = .leave → l.state ≠ .kDisconnecting

structure Protocol (l : Life) : Prop where
  order : Begun l
  regular : Regular l.invoked
  heard : l.thrown = false → l.state ≠ .kConnecting → l.heard = true
  connecting : l.thrown = false → l.state = .kConnecting → l.invoked = []
  ongoing : l.thrown = false → l.state = .kConnected ∨ l.state = .kDisconnecting → Ongoing l.invoked
  complete : l.thrown = false → l.state = .kDisconnected → Complete l.invoked
  leaving : l.thrown = false → .deregister ∈ l.duties ∨ 0 < l.deregisters →
    l.state = .kDisconnected
  left : 0 < l.deregisters → Complete l.invoked

variable {e : Event} {l l' : Life}

theorem Protocol.of_new (h : New l) : Protocol l where
  order := .of_new h
  regular := .inl h.invoked
  heard _ hn := absurd h.state hn
  connecting _ _ := h.invoked
  ongoing _ hs := by rw [h.state] at hs; rcases hs with hs | hs <;> cases hs
  complete _ hs := by rw [h.state] at hs; cases hs
  leaving _ hd := by
    rw [h.duties, h.deregisters] at hd
    rcases hd with hd | hd
    · cases List.mem_singleton.mp hd
    · exact absurd hd (Nat.lt_irrefl 0)
  left hd := by rw [h.deregisters] at hd; exact absurd hd (Nat.lt_irrefl 0)

/-- A step that leaves the state, the callbacks and the end alone. -/
theorem Protocol.of_same (h : Protocol l) (horder : Begun l') (hstate : l'.state = l.state)
    (hheard : l'.heard = l.heard) (hinvoked : l'.invoked = l.invoked)
    (hderegisters : l'.deregisters = l.deregisters)
    (hduties : .deregister ∈ l'.duties → .deregister ∈ l.duties)
    (hthrown : l'.thrown = false → l.thrown = false) : Protocol l' where
  order := horder
  regular := hinvoked ▸ h.regular
  heard ht := by rw [hstate, hheard]; exact h.heard (hthrown ht)
  connecting ht := by rw [hstate, hinvoked]; exact h.connecting (hthrown ht)
  ongoing ht := by rw [hstate, hinvoked]; exact h.ongoing (hthrown ht)
  complete ht := by rw [hstate, hinvoked]; exact h.complete (hthrown ht)
  leaving ht hd := by
    rw [hstate]
    rw [hderegisters] at hd
    exact h.leaving (hthrown ht) (hd.imp_left hduties)
  left hd := by rw [hinvoked]; exact h.left (hderegisters ▸ hd)

/-- The end is told of while the connection is up. -/
theorem Protocol.of_down (h : Protocol l) (ht : l.thrown = false)
    (hup : l.state = .kConnected ∨ l.state = .kDisconnecting) (horder : Begun l')
    (hstate : l'.state = .kDisconnected) (hheard : l'.heard = l.heard)
    (hinvoked : l'.invoked = l.invoked ++
      if l.heard then [.connectionCallback .kDisconnected] else []) : Protocol l' := by
  have htold : l.heard = true := h.heard ht (by rcases hup with hup | hup <;> simp [hup])
  rw [if_pos htold] at hinvoked
  have hcomplete : Complete l'.invoked := hinvoked ▸ (h.ongoing ht hup).down
  refine ⟨horder, .inr (.inr hcomplete), fun _ _ => hheard.trans htold, fun _ hs => ?_,
    fun _ hs => ?_, fun _ _ => hcomplete, fun _ _ => hstate, fun _ => hcomplete⟩
  · rw [hstate] at hs
    cases hs
  · rw [hstate] at hs
    rcases hs with hs | hs <;> cases hs

/-- Once the connection is up, it is not on its way out of its loop. -/
theorem Protocol.staying (h : Protocol l) (ht : l.thrown = false)
    (hn : l.state ≠ .kDisconnected) : .deregister ∉ l.duties ∧ ¬ 0 < l.deregisters :=
  ⟨fun hd => hn (h.leaving ht (.inl hd)), fun hd => hn (h.leaving ht (.inr hd))⟩

theorem Protocol.up (h : Protocol l) {d : Duty} {rest : List Duty} (hn : l.now = d :: rest)
    (hd : d ≠ .establish) (hopen : l.state ≠ .kDisconnected) :
    l.state = .kConnected ∨ l.state = .kDisconnecting := by
  have hbegun := h.order.head hn hd
  cases hs : l.state <;> simp_all

theorem Protocol.step (h : Protocol l) (ht : l.thrown = false) (ho : Orderly e l)
    (hs : Step e l l') : Protocol l' := by
  have horder := h.order.step hs
  cases hs with
  | stay => exact h
  | terminate => exact h.of_same horder rfl rfl rfl rfl id (by simp)
  | destroy | destroyEnd | poll | dangle | release | swap | finish =>
    exact h.of_same horder rfl rfl rfl rfl id id
  | dispatch cbs ha hc hn =>
    exact h.of_same horder rfl rfl rfl rfl (fun hd => by simpa [Life.duties, hn] using hd) id
  | start hc hn hl =>
    exact h.of_same horder rfl rfl rfl rfl (fun hd => by simpa [Life.duties, hn, hl] using hd) id
  | establish hn =>
    have hst : l.state = .kConnecting := by
      by_contra hne
      exact h.order.begun hne (List.mem_append_left _ (hn ▸ List.mem_cons_self))
    obtain ⟨hnever, hnone⟩ := h.staying ht (by rw [hst]; decide)
    have hcalls : (l.invoked ++ if l.heard then [.connectionCallback .kConnected] else []) =
        if l.heard then [.connectionCallback .kConnected] else [] := by
      rw [h.connecting ht hst, List.nil_append]
    have htold : (!l.heard) = false → l.heard = true := fun hth => by simpa using hth
    refine ⟨horder, ?_, fun hth _ => htold hth, by simp, fun hth _ => ?_, by simp, fun _ hd => ?_,
      fun hd => absurd hd hnone⟩
    · rw [hcalls]
      split
      · exact .inr (.inl ongoing_up)
      · exact .inl rfl
    · rw [hcalls, if_pos (htold hth)]
      exact ongoing_up
    · rcases hd with hd | hd
      · have hin : .deregister ∈ l.duties := by
          rw [Life.duties, hn]
          exact List.mem_cons_of_mem _ hd
        exact absurd hin hnever
      · exact absurd hd hnone
  | leave hn hst => exact h.of_down ht (.inl hst) horder rfl rfl rfl
  | leaveSilently hn hst =>
    have hclosed : l.state = .kDisconnected := by
      have hbegun := h.order.head hn (by decide)
      have hleave := ho.leave rfl
      cases hs : l.state <;> simp_all
    exact ⟨horder, h.regular, h.heard, h.connecting, h.ongoing, h.complete, fun _ _ => hclosed,
      h.left⟩
  | deregister hn =>
    have hclosed : l.state = .kDisconnected :=
      h.leaving ht (.inl (List.mem_append_left _ (hn ▸ List.mem_cons_self)))
    exact ⟨horder, h.regular, h.heard, h.connecting, h.ongoing, h.complete, fun _ _ => hclosed,
      fun _ => h.complete ht hclosed⟩
  | close hn => exact h.of_down ht (h.up hn (by simp) (ho.close rfl)) horder rfl rfl rfl
  | deliver told hn =>
    have hup := h.up hn (by simp) (ho.deliver rfl)
    have hongoing := h.ongoing ht hup
    have hmessage : Ongoing (l.invoked ++ if told then [.messageCallback] else []) := by
      cases told
      · exact (List.append_nil l.invoked).symm ▸ hongoing
      · exact hongoing.message
    obtain ⟨hnever, hnone⟩ := h.staying ht (ho.deliver rfl)
    refine ⟨horder, .inr (.inl hmessage), fun _ => h.heard ht, fun _ hs => ?_, fun _ _ => hmessage,
      fun _ hs => absurd hs (ho.deliver rfl), fun _ hd => ?_, fun hd => absurd hd hnone⟩
    · exact absurd hs (h.order.head hn (by simp))
    · refine h.leaving ht (hd.imp_left fun hm => ?_)
      simpa [Life.duties, hn] using hm
  | handle registered notices hn hr =>
    exact h.of_same horder rfl rfl rfl rfl (fun hd => by simpa [Life.duties, hn] using hd) id
  | finishClose hn =>
    exact h.of_same horder rfl rfl rfl rfl (fun hd => by simpa [Life.duties, hn] using hd) id
  | notice hn =>
    exact h.of_same horder rfl rfl rfl rfl (fun hd => by simpa [Life.duties, hn] using hd) id
  | remove hn =>
    exact h.of_same horder rfl rfl rfl rfl (fun hd => by simpa [Life.duties] using hd) id
  | destroyItem hst hm hn =>
    refine h.of_same horder rfl rfl rfl rfl (fun hd => ?_) id
    cases hb : l.onBase <;> simp_all [Life.duties]
  | user state registered notices hst hst' hr =>
    have hongoing := h.ongoing ht (.inl hst)
    obtain ⟨hnever, hnone⟩ := h.staying ht (by rw [hst]; decide)
    refine ⟨horder, .inr (.inl hongoing), fun _ _ => h.heard ht (by rw [hst]; decide),
      fun _ hs => ?_, fun _ _ => hongoing, fun _ hs => ?_, fun _ hd => ?_, h.left⟩
    · rcases hst' with rfl | rfl <;> cases hs
    · rcases hst' with rfl | rfl <;> cases hs
    · rcases hd with hd | hd
      · exact absurd (by simpa [Life.duties] using hd) hnever
      · exact absurd hd hnone

end Life

namespace TcpServer

variable {T : Type u} {L : Type v} [Fintype L] [DecidableEq T] [DecidableEq L]

/-- No callback of a channel runs `handleClose` or delivers a message once its
connection is `kDisconnected`, and `connectDestroyed` is not entered in
`kDisconnecting`. -/
def Orderly (s : TcpServer T L) (a : Action T L) : Prop :=
  a.own = true ∧ ∀ c, s.Born c →
    ((s.event a c = .close ∨ s.event a c = .deliver) → (s.conns c).state_ ≠ .kDisconnected) ∧
    (s.event a c = .leave → (s.conns c).state_ ≠ .kDisconnecting)

instance (s : TcpServer T L) (a : Action T L) : Decidable (s.Orderly a) :=
  inferInstanceAs (Decidable (_ ∧ _))

/-- In a run whose steps are all orderly the callbacks of every connection are
up, messages, down; and it has been told that it is down when `connectDestroyed`
returns. -/
theorem callback_protocol (config : Config L) (as : List (Action T L)) {s : TcpServer T L}
    (hg : Execution.Guarded step Orderly (fresh config) as)
    (hr : Execution.exec step (fresh config) as = some s) (c : ConnId) (hc : s.Born c) :
    Regular (s.invoked c) ∧
    (.removeChannel c ∈ s.done.map (·.1) → Complete (s.invoked c)) := by
  have hfit : ∀ (s : TcpServer T L) a, s.Orderly a →
      a.own = true ∧ ∀ c, s.Born c → Life.Orderly (s.event a c) (s.view c) := fun s a ho =>
    ⟨ho.1, fun c hc => ⟨fun he => (ho.2 c hc).1 (.inl he), fun he => (ho.2 c hc).1 (.inr he),
      (ho.2 c hc).2⟩⟩
  obtain ⟨-, hlives⟩ := lives hfit (fun _ => Life.Protocol.of_new)
    (fun _ _ _ ht h ho hs => h.step ht ho hs) hg hr
  have h := hlives c hc
  exact ⟨h.regular, fun hdone => h.left (List.count_pos_iff.mpr hdone)⟩

/-- One connection: a message, then the end of the stream. -/
theorem callback_protocol_message_close :
    let as : List (Action Unit Bool) := [.poll false [], .newConnection true 7,
      .poll true [], .swap true, .start true, .run true (.delivered []) (.took 0), .finish true,
      .poll true [(1, POLLIN)], .dispatch true, .run true (.delivered [65]) (.took 0),
      .release true, .swap true, .finish true,
      .poll true [(1, POLLIN)], .dispatch true, .run true (.delivered []) (.took 0),
      .run true (.delivered []) (.took 0), .release true, .swap true, .finish true,
      .swap false, .start false, .run false (.delivered []) (.took 0), .finish false,
      .poll true [], .swap true, .start true, .run true (.delivered []) (.took 0),
      .run true (.delivered []) (.took 0)]
    ∃ s, Execution.exec step pair as = some s ∧ Complete (s.invoked 1) := by
  intro as
  have hdone : (Execution.exec step pair as).map (fun s => decide (s.Born 1 ∧
      .removeChannel 1 ∈ s.done.map (·.1))) = some true := by decide +kernel
  obtain ⟨s, hs, hb⟩ := Option.map_eq_some_iff.mp hdone
  obtain ⟨hborn, hmem⟩ := of_decide_eq_true hb
  exact ⟨s, hs, (callback_protocol _ as (by decide +kernel) hs 1 hborn).2 hmem⟩

theorem not_complete_up : ¬ Complete [.connectionCallback .kConnected] := by
  rintro ⟨k, hk⟩
  have hlen := congrArg List.length hk
  simp at hlen

theorem not_regular_down_twice : ¬ Regular [.connectionCallback .kConnected,
    .connectionCallback .kDisconnected, .connectionCallback .kDisconnected] := by
  rintro (h | ⟨k, hk⟩ | ⟨k, hk⟩)
  · cases h
  · cases k with
    | zero => cases hk
    | succ k => cases hk
  · cases k with
    | zero => cases hk
    | succ k => cases hk

/-- A connection that its own loop has shut down is never told that it is down
when `~TcpServer` runs `connectDestroyed`; and one event word with `POLLHUP` and
`POLLPRI` tells of the end twice. -/
theorem callback_protocol_fails :
    let up : List (Action Unit Bool) := [.poll false [], .newConnection true 7, .swap false,
      .finish false, .poll true [], .swap true, .start true,
      .run true (.delivered []) (.took 0)]
    let gone := up ++ [.shutdown 1, .finish true, .destroy,
      .destroyItem (pair.nameOf 1) 1, .poll true [], .swap true, .start true,
      .run true (.delivered []) (.took 0), .run true (.delivered []) (.took 0)]
    let hangup := up ++ [.finish true, .poll true [(1, POLLHUP ||| POLLPRI)], .dispatch true,
      .run true (.delivered []) (.took 0), .run true (.delivered []) (.took 0),
      .run true (.delivered []) (.took 0)]
    (∀ a ∈ gone ++ hangup, a.own = true) ∧
    (∃ s, Execution.exec step pair gone = some s ∧ .removeChannel 1 ∈ s.done.map (·.1) ∧
      ¬ Complete (s.invoked 1)) ∧
    ∃ s, Execution.exec step pair hangup = some s ∧ ¬ Regular (s.invoked 1) := by
  intro up gone hangup
  have hgone : (Execution.exec step pair gone).map (fun s => (s.invoked 1,
      decide (.removeChannel 1 ∈ s.done.map (·.1)))) =
      some ([.connectionCallback .kConnected], true) := by decide +kernel
  have hhangup : (Execution.exec step pair hangup).map (·.invoked 1) =
      some [.connectionCallback .kConnected, .connectionCallback .kDisconnected,
        .connectionCallback .kDisconnected] := by decide +kernel
  obtain ⟨s, hs, hg⟩ := Option.map_eq_some_iff.mp hgone
  obtain ⟨s', hs', hh⟩ := Option.map_eq_some_iff.mp hhangup
  obtain ⟨hinvoked, hmem⟩ := Prod.mk.inj hg
  refine ⟨by decide +kernel, ⟨s, hs, of_decide_eq_true hmem, ?_⟩, s', hs', ?_⟩
  · rw [hinvoked]
    exact not_complete_up
  · rw [hh]
    exact not_regular_down_twice

end TcpServer

end Mymuduo

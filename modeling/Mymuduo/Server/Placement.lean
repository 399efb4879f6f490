import Mymuduo.Connection.Methods
import Mymuduo.Server.ConnectionMap
import Mymuduo.Server.Cover
import Mymuduo.Server.Ownership

/-!
# Servers that other threads call

Jobs, guards and pointers belong to accepted connections, and a functor that names
its connection by `this` stands on the loop of that connection. This holds with
calls from any thread, as long as the server lives.
-/

namespace Mymuduo

open Mymuduo.Library

universe u v

namespace TcpServer

variable {T : Type u} {L : Type v} {s s' : TcpServer T L} {c : ConnId}

structure Placed (s : TcpServer T L) (ℓ : L) (l : Loop) : Prop where
  born : ∀ j ∈ l.work ++ l.queue.held, s.Born j.conn
  home : ∀ j ∈ l.work ++ l.queue.held, ∀ c, j.rawThis = some c → s.loopOf c = ℓ
  guarded : ∀ c, l.guard = some c → s.Born c
  drained : l.phase ≠ .calling → l.queue.todo = []

structure Sound (s : TcpServer T L) : Prop where
  alive : s.status = .alive
  named : s.Named
  placed : ∀ ℓ, s.Placed ℓ (s.loops ℓ)
  pointers : ∀ c, s.refs c ≠ 0 → s.Born c
  callers : ∀ t c, (s.caller t).conn = some c → s.Born c

theorem sound_fresh (config : Config L) : (fresh config : TcpServer T L).Sound where
  alive := rfl
  named := named_fresh config
  placed ℓ := ⟨by simp [fresh, TaskQueue.held, TaskQueue.waiting],
    by simp [fresh, TaskQueue.held, TaskQueue.waiting], by simp [fresh], by simp [fresh]⟩
  pointers c hc := absurd rfl hc
  callers t c hc := by cases hc

theorem Placed.congr {ℓ : L} {l : Loop} (h : s.Placed ℓ l) (hid : s'.nextConnId_ = s.nextConnId_)
    (hloop : s'.loopOf = s.loopOf) : s'.Placed ℓ l := by
  have hborn : ∀ c, s.Born c → s'.Born c := fun c hc => by rwa [Born, hid]
  refine ⟨fun j hj => hborn _ (h.born j hj), fun j hj => ?_, fun c hc => hborn _ (h.guarded c hc),
    h.drained⟩
  rw [hloop]
  exact h.home j hj

theorem Placed.of_le {ℓ : L} {l l' : Loop} (h : s.Placed ℓ l)
    (hjobs : ∀ j ∈ l'.work ++ l'.queue.held, j ∈ l.work ++ l.queue.held)
    (hguard : ∀ c, l'.guard = some c → s.Born c)
    (hdrained : l'.phase ≠ .calling → l'.queue.todo = []) : s.Placed ℓ l' :=
  ⟨fun j hj => h.born j (hjobs j hj), fun j hj => h.home j (hjobs j hj), hguard, hdrained⟩

/-- Methods and the user's pointers apart, nothing changes. -/
theorem Sound.congr (h : s.Sound) (hs : s' = { s with
      conns := s'.conns, refs := s'.refs, caller := s'.caller, invoked := s'.invoked,
      done := s'.done, dangling := s'.dangling, terminated := s'.terminated })
    (hnames : ∀ c, (s'.conns c).name_ = (s.conns c).name_)
    (hrefs : ∀ c, s'.refs c ≠ 0 → s.Born c)
    (hcallers : ∀ t c, (s'.caller t).conn = some c → s.Born c) : s'.Sound := by
  rw [hs]
  exact ⟨h.alive, h.named.congr rfl rfl hnames (List.Sublist.refl _),
    fun ℓ => (h.placed ℓ).congr rfl rfl, hrefs, hcallers⟩

theorem Sound.setConnections (h : s.Sound) {m : ConnectionMap} (hm : m.Sublist s.connections_) :
    ({ s with connections_ := m } : TcpServer T L).Sound :=
  ⟨h.alive, h.named.congr rfl rfl (fun _ => rfl) hm, fun ℓ => (h.placed ℓ).congr rfl rfl,
    h.pointers, h.callers⟩

/-- Who is owned has been accepted. -/
theorem Sound.born_of_useCount [Fintype L] (h : s.Sound) (hu : s.useCount c ≠ 0) : s.Born c := by
  by_contra hb
  refine hu (useCount_eq_zero.mpr ⟨fun hm => hb ?_, ?_, fun ℓ ho => hb ?_⟩)
  · obtain ⟨e, he, rfl⟩ := List.mem_map.mp hm
    exact (h.named.keys e he).1
  · by_contra hr
    exact hb (h.pointers c hr)
  · obtain ho | ho := List.mem_append.mp ho
    · exact (h.placed ℓ).guarded c (by simpa using ho)
    · obtain ⟨j, hj, hown⟩ := List.mem_filterMap.mp ho
      exact Job.conn_of_owner hown ▸ (h.placed ℓ).born j hj

section Jobs

variable [DecidableEq L] {ℓ : L} {job : Job}

theorem Sound.setLoop (h : s.Sound) {l : Loop} (hl : s.Placed ℓ l) : (s.setLoop ℓ l).Sound where
  alive := h.alive
  named := h.named.congr rfl rfl (fun _ => rfl) (List.Sublist.refl _)
  placed ℓ' := by
    by_cases hℓ : ℓ' = ℓ
    · subst hℓ
      simp only [TcpServer.setLoop, Function.update_self]
      exact hl.congr rfl rfl
    · simp only [TcpServer.setLoop, Function.update_of_ne hℓ]
      exact (h.placed ℓ').congr rfl rfl
  pointers := h.pointers
  callers := h.callers

theorem Sound.callNext (h : s.Sound) (hb : s.Born job.conn) (hraw : job.rawThis = none) :
    (s.callNext ℓ job).Sound := by
  have hp := h.placed ℓ
  refine h.setLoop ⟨fun j hj => ?_, fun j hj c hc => ?_, hp.guarded, hp.drained⟩
  · obtain rfl | hj := List.mem_cons.mp (List.cons_append ▸ hj)
    · exact hb
    · exact hp.born j hj
  · obtain rfl | hj := List.mem_cons.mp (List.cons_append ▸ hj)
    · rw [hraw] at hc
      cases hc
    · exact hp.home j hj c hc

theorem Sound.queueInLoop (h : s.Sound) (hb : s.Born job.conn)
    (hhome : ∀ c, job.rawThis = some c → s.loopOf c = ℓ) : (s.queueInLoop ℓ job).Sound := by
  have hp := h.placed ℓ
  have hmem : ∀ j, j ∈ (s.loops ℓ).work ++ ((s.loops ℓ).queue.push job).held →
      j ∈ (s.loops ℓ).work ++ (s.loops ℓ).queue.held ∨ j = job := fun j hj => by
    simp only [TaskQueue.held, TaskQueue.waiting_push, List.mem_append, List.mem_singleton] at hj ⊢
    tauto
  refine h.setLoop ⟨fun j hj => ?_, fun j hj c hc => ?_, hp.guarded, hp.drained⟩
  · obtain hj | rfl := hmem j hj
    · exact hp.born j hj
    · exact hb
  · obtain hj | rfl := hmem j hj
    · exact hp.home j hj c hc
    · exact hhome c hc

theorem Sound.runInLoop (h : s.Sound) {target : L} (hb : s.Born job.conn)
    (hraw : job.rawThis = none) : (s.runInLoop ℓ target job).Sound := by
  unfold TcpServer.runInLoop
  split
  · exact h.callNext hb hraw
  · exact h.queueInLoop hb fun c hc => by rw [hraw] at hc; cases hc

theorem Sound.popJob (h : s.Sound) {rest : List Job} (hwork : (s.loops ℓ).work = job :: rest) :
    (s.popJob ℓ job rest).Sound := by
  have hp := h.placed ℓ
  have hset : (s.setLoop ℓ { s.loops ℓ with work := rest }).Sound := by
    refine h.setLoop (hp.of_le (fun j hj => ?_) hp.guarded hp.drained)
    rw [hwork]
    exact List.mem_cons_of_mem _ hj
  exact hset.congr rfl (fun _ => rfl) h.pointers h.callers

theorem Sound.onConn (h : s.Sound) (hb : s.Born c) {f : Site ConnId → Site ConnId}
    (hf : (f { conn := s.conns c, poller := (s.loops ℓ).poller }).conn.name_ =
      (s.conns c).name_) : (s.onConn ℓ c f).Sound := by
  set w := f { conn := s.conns c, poller := (s.loops ℓ).poller } with hw
  have hp := h.placed ℓ
  have hmem : ∀ j, j ∈ ((if w.closing then [.closeCallback c] else []) ++ (s.loops ℓ).work) ++
      ((s.loops ℓ).queue.pushAll (w.queued.map (.notice · c))).held →
      j ∈ (s.loops ℓ).work ++ (s.loops ℓ).queue.held ∨ j.conn = c ∧ j.rawThis = none := by
    intro j hj
    simp only [TaskQueue.held, TaskQueue.waiting_pushAll, List.mem_append, List.mem_map] at hj ⊢
    obtain (hj | hj) | hj | hj | ⟨n, -, rfl⟩ := hj
    · split at hj
      · rw [List.mem_singleton.mp hj]
        exact .inr ⟨rfl, rfl⟩
      · cases hj
    · exact .inl (.inl hj)
    · exact .inl (.inr (.inl hj))
    · exact .inl (.inr (.inr hj))
    · exact .inr ⟨rfl, rfl⟩
  have hset : (s.setLoop ℓ { s.loops ℓ with
      work := (if w.closing then [.closeCallback c] else []) ++ (s.loops ℓ).work
      queue := (s.loops ℓ).queue.pushAll (w.queued.map (.notice · c))
      poller := w.poller }).Sound := by
    refine h.setLoop ⟨fun j hj => ?_, fun j hj c' hc' => ?_, hp.guarded, hp.drained⟩
    · obtain hj | ⟨rfl, -⟩ := hmem j hj
      · exact hp.born j hj
      · exact hb
    · obtain hj | ⟨-, hraw⟩ := hmem j hj
      · exact hp.home j hj c' hc'
      · rw [hraw] at hc'
        cases hc'
  refine hset.congr rfl (fun c' => ?_) h.pointers h.callers
  show (Function.update s.conns c w.conn c').name_ = (s.conns c').name_
  by_cases hc : c' = c
  · rw [hc, Function.update_self, hf]
  · rw [Function.update_of_ne hc]

end Jobs

end TcpServer

end Mymuduo

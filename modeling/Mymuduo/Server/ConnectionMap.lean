import Mathlib.Data.List.Nodup
import Mymuduo.Library.Execution
import Mymuduo.Server.TcpServer

/-!
# The connection map is exact

`connections_` is keyed by text. Every accepted connection has a name of its
own, so a new entry replaces none, and an erasure by name takes out the entry of
the one connection it is meant for, if that is still there. In every run of
`newConnection` and `removeConnectionInLoop` the map therefore holds the accepted
connections that have not been removed.
-/

namespace Mymuduo

open Mymuduo.Library

universe u v

namespace TcpServer

variable {T : Type u} {L : Type v} {s s' : TcpServer T L} {c : ConnId}

/-- The name that `newConnection` has given to a connection. -/
def nameOf (s : TcpServer T L) (c : ConnId) : List Char := connName s.config.name_ s.ipPort_ c

structure Named (s : TcpServer T L) : Prop where
  ids : 1 ≤ s.nextConnId_ ∧ s.nextConnId_ ≤ 0x7fffffff
  names : ∀ c, s.Born c → (s.conns c).name_ = s.nameOf c
  keys : ∀ e ∈ s.connections_, s.Born e.2 ∧ e.1 = s.nameOf e.2
  once : s.connections_.Nodup

theorem named_fresh (config : Config L) : (fresh config : TcpServer T L).Named where
  ids := by simp [fresh]
  names c hc := by simp only [Born, fresh] at hc; omega
  keys := by simp [fresh]
  once := List.nodup_nil

/-- Names read four parts of the server, and entries may leave the map. -/
theorem Named.congr (h : s.Named) (hid : s'.nextConnId_ = s.nextConnId_)
    (hconfig : s'.config = s.config) (hnames : ∀ c, (s'.conns c).name_ = (s.conns c).name_)
    (hmap : s'.connections_.Sublist s.connections_) : s'.Named := by
  have hborn : ∀ c, s'.Born c ↔ s.Born c := fun c => by rw [Born, Born, hid]
  have hname : ∀ c, s'.nameOf c = s.nameOf c := fun c => by
    rw [nameOf, nameOf, ipPort_, ipPort_, hconfig]
  refine ⟨hid ▸ h.ids, fun c hc => ?_, fun e he => ?_, h.once.sublist hmap⟩
  · rw [hnames, hname]
    exact h.names c ((hborn c).mp hc)
  · rw [hborn, hname]
    exact h.keys e (hmap.subset he)

/-- A name can be read back for every `int` id. -/
theorem nameOf_injective (h : s.Named) {c c' : Nat} (hc : c ≤ s.nextConnId_)
    (hc' : c' ≤ s.nextConnId_) (he : s.nameOf c = s.nameOf c') : c = c' := by
  have hids := h.ids.2
  exact connName_injective _ _ (by omega) (by omega) he

/-! ## Accepting and removing -/

theorem born_addConnection (h : s.Named) (ioLoop : L) (sockfd : Int) (c : Nat) :
    (s.addConnection ioLoop sockfd).Born c ↔ s.Born c ∨ c = s.nextConnId_ := by
  have hids := h.ids.1
  show 1 ≤ c ∧ c < s.nextConnId_ + 1 ↔ (1 ≤ c ∧ c < s.nextConnId_) ∨ c = s.nextConnId_
  omega

theorem ne_next {c : Nat} (hc : s.Born c) : c ≠ s.nextConnId_ := Nat.ne_of_lt hc.2

theorem addConnection_conns (s : TcpServer T L) (ioLoop : L) (sockfd : Int) (c : ConnId) :
    (s.addConnection ioLoop sockfd).conns c = if c = s.nextConnId_ then
      TcpConnection.new (s.nameOf s.nextConnId_) sockfd s.callbacks else s.conns c :=
  Function.update_apply _ _ _ _

theorem addConnection_loopOf (s : TcpServer T L) (ioLoop : L) (sockfd : Int) (c : ConnId) :
    (s.addConnection ioLoop sockfd).loopOf c = if c = s.nextConnId_ then ioLoop else s.loopOf c :=
  Function.update_apply _ _ _ _

/-- `connections_[connName] = conn` finds no entry under that name. -/
theorem Named.connections_addConnection (h : s.Named) (ioLoop : L) (sockfd : Int) :
    (s.addConnection ioLoop sockfd).connections_ =
      s.connections_ ++ [(s.nameOf s.nextConnId_, s.nextConnId_)] := by
  have hkeep : s.connections_.eraseKey (s.nameOf s.nextConnId_) = s.connections_ := by
    refine List.filter_eq_self.mpr fun e he => decide_eq_true fun hkey => ?_
    obtain ⟨hborn, hname⟩ := h.keys e he
    exact ne_next hborn
      (nameOf_injective h hborn.2.le (Nat.le_refl _) (hname.symm.trans hkey))
  show s.connections_.eraseKey (s.nameOf s.nextConnId_) ++ _ = _
  rw [hkeep]
  rfl

theorem Named.addConnection (h : s.Named) (hid : s.nextConnId_ < 0x7fffffff) (ioLoop : L)
    (sockfd : Int) : (s.addConnection ioLoop sockfd).Named := by
  have hborn := born_addConnection h ioLoop sockfd
  have hmap := h.connections_addConnection ioLoop sockfd
  refine ⟨⟨Nat.le_succ_of_le h.ids.1, hid⟩, fun c hc => ?_, fun e he => ?_, ?_⟩
  · rw [addConnection_conns]
    obtain hc | rfl := (hborn c).mp hc
    · rw [if_neg (ne_next hc)]
      exact h.names c hc
    · rw [if_pos rfl]
      rfl
  · rw [hmap] at he
    obtain he | he := List.mem_append.mp he
    · obtain ⟨hc, hname⟩ := h.keys e he
      exact ⟨(hborn e.2).mpr (.inl hc), hname⟩
    · obtain rfl := List.mem_singleton.mp he
      exact ⟨(hborn _).mpr (.inr rfl), rfl⟩
  · rw [hmap]
    refine h.once.append (List.nodup_singleton _) fun e he he' => ?_
    obtain rfl := List.mem_singleton.mp he'
    exact ne_next (h.keys _ he).1 rfl

/-- Erasing by the name of `c` leaves every entry but that of `c`. -/
theorem Named.mem_eraseKey (h : s.Named) (hc : s.Born c) {e : List Char × ConnId} :
    e ∈ s.connections_.eraseKey (s.conns c).name_ ↔ e ∈ s.connections_ ∧ e.2 ≠ c := by
  rw [h.names c hc, ConnectionMap.eraseKey, List.mem_filter, decide_eq_true_iff]
  refine and_congr_right fun he => not_congr ?_
  obtain ⟨hborn, hname⟩ := h.keys e he
  rw [hname]
  exact ⟨nameOf_injective h hborn.2.le hc.2.le, fun heq => by rw [heq]⟩

section Primitives

variable [DecidableEq L]

theorem Named.runInLoop (h : s.Named) (ℓ target : L) (job : Job) :
    (s.runInLoop ℓ target job).Named := by
  unfold TcpServer.runInLoop
  split <;> exact h.congr rfl rfl (fun _ => rfl) (List.Sublist.refl _)

theorem Named.newConnection (h : s.Named) (hid : s.nextConnId_ < 0x7fffffff) (ioLoop : L)
    (sockfd : Int) : (s.newConnection ioLoop sockfd).Named :=
  (h.addConnection hid ioLoop sockfd).runInLoop _ _ _

theorem Named.removeConnectionInLoop (h : s.Named) (c : ConnId) :
    (s.removeConnectionInLoop c).Named :=
  h.congr rfl rfl (fun _ => rfl) List.filter_sublist

/-- `runInLoop` touches no connection and no entry. -/
theorem runInLoop_eq (s : TcpServer T L) (ℓ target : L) (job : Job) :
    ∃ loops, s.runInLoop ℓ target job = { s with loops := loops } := by
  unfold runInLoop
  split <;> exact ⟨_, rfl⟩

theorem Named.connections_newConnection (h : s.Named) (ioLoop : L) (sockfd : Int) :
    (s.newConnection ioLoop sockfd).connections_ =
      s.connections_ ++ [(s.nameOf s.nextConnId_, s.nextConnId_)] := by
  obtain ⟨loops, hrun⟩ := (s.addConnection ioLoop sockfd).runInLoop_eq s.config.loop_ ioLoop
    (.connectEstablished s.nextConnId_)
  rw [TcpServer.newConnection, hrun]
  exact h.connections_addConnection ioLoop sockfd

theorem newConnection_conns (s : TcpServer T L) (ioLoop : L) (sockfd : Int) (c : ConnId) :
    (s.newConnection ioLoop sockfd).conns c = if c = s.nextConnId_ then
      TcpConnection.new (s.nameOf s.nextConnId_) sockfd s.callbacks else s.conns c := by
  obtain ⟨loops, hrun⟩ := (s.addConnection ioLoop sockfd).runInLoop_eq s.config.loop_ ioLoop
    (.connectEstablished s.nextConnId_)
  rw [newConnection, hrun]
  exact s.addConnection_conns ioLoop sockfd c

theorem newConnection_nextConnId_ (s : TcpServer T L) (ioLoop : L) (sockfd : Int) :
    (s.newConnection ioLoop sockfd).nextConnId_ = s.nextConnId_ + 1 := by
  unfold newConnection runInLoop
  split <;> rfl

end Primitives

/-! ## Every run of the two -/

inductive MapOp (L : Type v)
  | newConnection (ioLoop : L) (sockfd : Int)
  | removeConnectionInLoop (c : ConnId)

/-- A server and the connections for which `removeConnectionInLoop` has run. -/
structure Register (T : Type u) (L : Type v) where
  server : TcpServer T L
  removed : List ConnId := []

namespace Register

variable [DecidableEq L]

/-- `removeConnectionInLoop` may come again for the same connection; the caller
has its pointer. -/
def step (r : Register T L) : MapOp L → Option (Register T L)
  | .newConnection ioLoop sockfd =>
    -- `++nextConnId_` must not overflow `int`
    if r.server.nextConnId_ < 0x7fffffff then
      some { r with server := r.server.newConnection ioLoop sockfd }
    else none
  | .removeConnectionInLoop c =>
    if r.server.Born c then
      some { server := r.server.removeConnectionInLoop c, removed := c :: r.removed }
    else none

/-- The entries are those of the connections accepted and not yet removed. -/
structure Exact (r : Register T L) : Prop where
  named : r.server.Named
  accepted : ∀ c ∈ r.removed, r.server.Born c
  entries : ∀ e, e ∈ r.server.connections_ ↔
    (r.server.Born e.2 ∧ e.2 ∉ r.removed) ∧ e.1 = r.server.nameOf e.2

omit [DecidableEq L] in
theorem exact_fresh (config : Config L) :
    (⟨fresh config, []⟩ : Register T L).Exact where
  named := named_fresh config
  accepted := by simp
  entries e := by
    simp only [Born, fresh, List.not_mem_nil, false_iff]
    omega

theorem Exact.newConnection {r : Register T L} (h : r.Exact)
    (hid : r.server.nextConnId_ < 0x7fffffff) (ioLoop : L) (sockfd : Int) :
    ({ r with server := r.server.newConnection ioLoop sockfd } : Register T L).Exact := by
  have hnext := r.server.newConnection_nextConnId_ ioLoop sockfd
  have hborn : ∀ c, (r.server.newConnection ioLoop sockfd).Born c ↔
      r.server.Born c ∨ c = r.server.nextConnId_ := fun c => by
    rw [Born, hnext]
    exact born_addConnection h.named ioLoop sockfd c
  have hname : ∀ c, (r.server.newConnection ioLoop sockfd).nameOf c = r.server.nameOf c := by
    obtain ⟨loops, hrun⟩ := (r.server.addConnection ioLoop sockfd).runInLoop_eq
      r.server.config.loop_ ioLoop (.connectEstablished r.server.nextConnId_)
    intro c
    rw [TcpServer.newConnection, hrun]
    rfl
  refine ⟨h.named.newConnection hid ioLoop sockfd,
    fun c hc => (hborn c).mpr (.inl (h.accepted c hc)), fun e => ?_⟩
  show e ∈ (r.server.newConnection ioLoop sockfd).connections_ ↔ _
  rw [h.named.connections_newConnection, List.mem_append, List.mem_singleton, h.entries, hborn,
    hname]
  constructor
  · rintro (⟨⟨hb, hn⟩, hkey⟩ | rfl)
    · exact ⟨⟨.inl hb, hn⟩, hkey⟩
    · exact ⟨⟨.inr rfl, fun hm => ne_next (h.accepted _ hm) rfl⟩, rfl⟩
  · rintro ⟨⟨hb | hb, hn⟩, hkey⟩
    · exact .inl ⟨⟨hb, hn⟩, hkey⟩
    · exact .inr (Prod.ext (hb ▸ hkey) hb)

theorem Exact.removeConnectionInLoop {r : Register T L} (h : r.Exact) {c : ConnId}
    (hc : r.server.Born c) :
    (⟨r.server.removeConnectionInLoop c, c :: r.removed⟩ : Register T L).Exact := by
  refine ⟨h.named.removeConnectionInLoop c, fun c' hc' => ?_, fun e => ?_⟩
  · obtain rfl | hc' := List.mem_cons.mp hc'
    · exact hc
    · exact h.accepted c' hc'
  · show e ∈ r.server.connections_.eraseKey (r.server.conns c).name_ ↔
      (r.server.Born e.2 ∧ e.2 ∉ c :: r.removed) ∧ e.1 = r.server.nameOf e.2
    rw [h.named.mem_eraseKey hc, h.entries, List.mem_cons, not_or]
    tauto

theorem Exact.step {r r' : Register T L} (h : r.Exact) {op : MapOp L}
    (hs : r.step op = some r') : r'.Exact := by
  cases op with
  | newConnection ioLoop sockfd =>
    simp only [Register.step, Option.ite_none_right_eq_some, Option.some.injEq] at hs
    obtain ⟨hid, rfl⟩ := hs
    exact h.newConnection hid ioLoop sockfd
  | removeConnectionInLoop c =>
    simp only [Register.step, Option.ite_none_right_eq_some, Option.some.injEq] at hs
    obtain ⟨hc, rfl⟩ := hs
    exact h.removeConnectionInLoop hc

/-- In every run, in whatever order connections are accepted and removed, the map
holds exactly the connections accepted and not yet removed, each under its name.
No two names are equal, no new entry replaces an old one, a removal leaves the
others, and the suffix fits its buffer. -/
theorem connection_map_exact (config : Config L) (ops : List (MapOp L)) {r : Register T L}
    (hr : Execution.exec step (⟨fresh config, []⟩ : Register T L) ops = some r) :
    (∀ name c, (name, c) ∈ r.server.connections_ ↔
      (r.server.Born c ∧ c ∉ r.removed) ∧ name = (r.server.conns c).name_) ∧
    (r.server.connections_.map (·.1)).Nodup ∧
    (∀ c c', r.server.Born c → r.server.Born c' →
      (r.server.conns c).name_ = (r.server.conns c').name_ → c = c') ∧
    (∀ ioLoop sockfd, r.server.nextConnId_ < 0x7fffffff →
      (r.server.newConnection ioLoop sockfd).connections_ = r.server.connections_ ++
        [(((r.server.newConnection ioLoop sockfd).conns r.server.nextConnId_).name_,
          r.server.nextConnId_)]) ∧
    (∀ c e, r.server.Born c → (e ∈ (r.server.removeConnectionInLoop c).connections_ ↔
      e ∈ r.server.connections_ ∧ e.2 ≠ c)) ∧
    ∀ a id, id < 0x80000000 →
      snprintf 64 (connSuffix (InetAddress.toIpPort a) id) = connSuffix a.toIpPort id := by
  have h : r.Exact := Execution.exec_preserves Exact (fun _ _ _ hi hs => hi.step hs)
    (exact_fresh config) hr
  refine ⟨fun name c => ?_, ?_, fun c c' hc hc' hname => ?_, fun ioLoop sockfd hid => ?_,
    fun c e hc => h.named.mem_eraseKey hc, fun a id hid => snprintf_connSuffix a hid⟩
  · rw [h.entries]
    refine and_congr_right fun hc => ?_
    rw [h.named.names c hc.1]
  · refine h.named.once.map_on fun e he e' he' hkey => ?_
    obtain ⟨hb, hn⟩ := h.named.keys e he
    obtain ⟨hb', hn'⟩ := h.named.keys e' he'
    exact Prod.ext hkey
      (nameOf_injective h.named hb.2.le hb'.2.le (hn.symm.trans (hkey.trans hn')))
  · rw [h.named.names c hc, h.named.names c' hc'] at hname
    exact nameOf_injective h.named hc.2.le hc'.2.le hname
  · rw [h.named.connections_newConnection, newConnection_conns, if_pos rfl]
    rfl

/-- A connection that is removed twice. -/
theorem connection_map_exact_twice :
    let config : Config Bool := ⟨false, ⟨(127, 0, 0, 1), 8000⟩, ['s'], true, true, false⟩
    let ops : List (MapOp Bool) := [.newConnection true 7, .newConnection false 8,
      .removeConnectionInLoop 1, .newConnection true 9, .removeConnectionInLoop 1]
    ∃ r : Register Unit Bool, Execution.exec step ⟨fresh config, []⟩ ops = some r ∧
      r.removed = [1, 1] ∧ r.server.nextConnId_ = 4 ∧
      (∀ name c, (name, c) ∈ r.server.connections_ ↔
        (r.server.Born c ∧ c ∉ r.removed) ∧ name = (r.server.conns c).name_) := by
  intro config ops
  have hrun : (Execution.exec step (⟨fresh config, []⟩ : Register Unit Bool) ops).map
      (fun r => (r.removed, r.server.nextConnId_)) = some ([1, 1], 4) := by decide +kernel
  obtain ⟨r, hr, hres⟩ := Option.map_eq_some_iff.mp hrun
  obtain ⟨hremoved, hnext⟩ := Prod.mk.inj hres
  exact ⟨r, hr, hremoved, hnext, (connection_map_exact config ops hr).1⟩

end Register

end TcpServer

end Mymuduo

import Mymuduo.Library.Rotation
import Mymuduo.Server.ConnectionMap
import Mymuduo.Server.EventLoopThreadPool

/-!
# Connections are given to the loops in turn, for one round

`getNextLoop` is to hand out the loops of a started pool in turn. It wraps its
index only after the index has passed `loops_.size()`, so the first round goes
right and the call after it reads an element that `loops_` does not have.
-/

namespace Mymuduo

open Mymuduo.Library

universe u

namespace TcpServer

/-- How many of the accepted connections have been given to the loop. -/
def connectionsOn (s : TcpServer Unit LoopAddr) (loop : LoopAddr) : Nat :=
  ((List.range' 1 (s.nextConnId_ - 1)).map s.loopOf).count loop

theorem newConnection_loopOf {T : Type u} (s : TcpServer T LoopAddr) (ioLoop : LoopAddr)
    (sockfd : Int) (c : ConnId) :
    (s.newConnection ioLoop sockfd).loopOf c = if c = s.nextConnId_ then ioLoop else s.loopOf c := by
  obtain ⟨loops, hrun⟩ := (s.addConnection ioLoop sockfd).runInLoop_eq s.config.loop_ ioLoop
    (.connectEstablished s.nextConnId_)
  rw [newConnection, hrun]
  exact s.addConnection_loopOf ioLoop sockfd c

end TcpServer

/-- A server with its pool. -/
structure Dispatcher where
  pool : EventLoopThreadPool
  server : TcpServer Unit LoopAddr
  /-- history: what the calls of `getNextLoop` have returned -/
  chosen : List LoopAddr := []

/-- The calls that user code and the acceptor make on the base loop's thread. -/
inductive PoolCall
  | getNextLoop
  | newConnection (sockfd : Int)
  | getLoopForHash (hashCode : Nat)
  | getAllLoops
  | setThreadNum (numThreads : Int)
  deriving DecidableEq

/-- The call runs `getNextLoop`. -/
def PoolCall.takesLoop : PoolCall → Bool
  | getNextLoop | newConnection _ => true
  | getLoopForHash _ | getAllLoops | setThreadNum _ => false

namespace Dispatcher

/-- The server after its constructor, `setThreadNum(n)` and `start`. -/
def started (config : Config LoopAddr) (cb : Bool) (n : Nat) : Dispatcher where
  pool := .started cb n
  server := .fresh config

def step (d : Dispatcher) : PoolCall → Option Dispatcher
  | .getNextLoop =>
    d.pool.getNextLoop.map fun (loop, pool) =>
      { d with pool := pool, chosen := d.chosen ++ [loop] }
  | .newConnection sockfd =>
    d.pool.getNextLoop.map fun (ioLoop, pool) =>
      { pool := pool
        server := d.server.newConnection ioLoop sockfd
        chosen := d.chosen ++ [ioLoop] }
  | .getLoopForHash hashCode => (d.pool.getLoopForHash hashCode).map fun _ => d
  | .getAllLoops => some d
  | .setThreadNum numThreads => some { d with pool := d.pool.setThreadNum numThreads }

/-- How many of the calls run `getNextLoop`. -/
def taken (calls : List PoolCall) : Nat := calls.countP PoolCall.takesLoop

/-- Every index is inside `loops_`, call `k` returns `loops_[k mod n]`, and where
`newConnection` alone has called, any two of the `n` loops have been given the same
number of connections but for one. -/
def InTurn (config : Config LoopAddr) (cb : Bool) (n : Nat) (calls : List PoolCall) : Prop :=
  ∃ d, Execution.exec step (started config cb n) calls = some d ∧
    d.chosen.map some = (List.range (taken calls)).map (fun k => d.pool.loops_[k % n]?) ∧
    ((∀ call ∈ calls, call ≠ .getNextLoop) → ∀ i < n, ∀ j < n,
      d.server.connectionsOn (.thread i) ≤ d.server.connectionsOn (.thread j) + 1)

/-! ## The first round -/

/-- The loops handed out so far, in the first round. -/
structure FirstRound (n : Nat) (d : Dispatcher) : Prop where
  loops : d.pool.loops_ = EventLoopThreadPool.threadLoops n
  next : d.pool.next_ = d.chosen.length
  chosen : d.chosen = EventLoopThreadPool.threadLoops d.chosen.length

theorem firstRound_started (config : Config LoopAddr) (cb : Bool) (n : Nat) :
    FirstRound n (started config cb n) := by
  rw [started, EventLoopThreadPool.started_eq]
  constructor <;> rfl

/-- A call of `getNextLoop` in the first round. -/
theorem FirstRound.getNextLoop {n : Nat} {d : Dispatcher} (h : FirstRound n d)
    (hlt : d.chosen.length < n) :
    d.pool.getNextLoop = some (.thread d.chosen.length,
      { d.pool with next_ := d.chosen.length + 1 }) := by
  have hin : d.pool.next_ < d.pool.loops_.length := by
    rw [h.next, h.loops, EventLoopThreadPool.length_threadLoops]
    exact hlt
  have hloop : d.pool.loops_[d.pool.next_] = .thread d.chosen.length := by
    refine Option.some.inj ?_
    rw [← List.getElem?_eq_getElem hin, h.loops, h.next,
      EventLoopThreadPool.getElem?_threadLoops, if_pos hlt]
  rw [EventLoopThreadPool.getNextLoop_inside hin, hloop, h.next]

/-- The first round goes on with one more loop handed out. -/
theorem FirstRound.take {n : Nat} {d : Dispatcher} (h : FirstRound n d)
    (server : TcpServer Unit LoopAddr) :
    FirstRound n
      { pool := { d.pool with next_ := d.chosen.length + 1 }
        server := server
        chosen := d.chosen ++ [.thread d.chosen.length] } := by
  constructor
  · exact h.loops
  · simp
  · show d.chosen ++ _ = EventLoopThreadPool.threadLoops (d.chosen ++ [_]).length
    rw [List.length_append, List.length_singleton, EventLoopThreadPool.threadLoops,
      List.range_succ, List.map_append]
    exact congrArg (· ++ _) h.chosen

theorem FirstRound.step {n : Nat} {d : Dispatcher} (h : FirstRound n d) (call : PoolCall)
    (hlt : call.takesLoop = true → d.chosen.length < n) :
    ∃ d', d.step call = some d' ∧ FirstRound n d' ∧
      d'.chosen.length = d.chosen.length + if call.takesLoop then 1 else 0 := by
  cases call with
  | getNextLoop =>
    have hnext := h.getNextLoop (hlt rfl)
    exact ⟨_, by rw [Dispatcher.step, hnext]; rfl, h.take d.server, by simp [PoolCall.takesLoop]⟩
  | newConnection sockfd =>
    have hnext := h.getNextLoop (hlt rfl)
    exact ⟨_, by rw [Dispatcher.step, hnext]; rfl, h.take _, by simp [PoolCall.takesLoop]⟩
  | getLoopForHash hashCode =>
    obtain ⟨loop, hloop, -⟩ := EventLoopThreadPool.getLoopForHash_mem (p := d.pool) hashCode
    exact ⟨d, by rw [Dispatcher.step, hloop]; rfl, h, rfl⟩
  | getAllLoops => exact ⟨d, rfl, h, rfl⟩
  | setThreadNum numThreads => exact ⟨_, rfl, ⟨h.loops, h.next, h.chosen⟩, rfl⟩

/-- When all loops have been handed out, the next call reads `loops_[n]`. -/
theorem FirstRound.stuck {n : Nat} {d : Dispatcher} (h : FirstRound n d) (hn : 0 < n)
    (hall : d.chosen.length = n) {call : PoolCall} (htakes : call.takesLoop = true) :
    d.step call = none := by
  have hlen : d.pool.loops_.length = n := by
    rw [h.loops, EventLoopThreadPool.length_threadLoops]
  have hnext : d.pool.getNextLoop = none := by
    refine EventLoopThreadPool.getNextLoop_outside ?_ (by rw [h.next]; omega)
    intro he
    rw [he, List.length_nil] at hlen
    omega
  cases call with
  | getNextLoop => rw [Dispatcher.step, hnext]; rfl
  | newConnection sockfd => rw [Dispatcher.step, hnext]; rfl
  | getLoopForHash _ => cases htakes
  | getAllLoops => cases htakes
  | setThreadNum _ => cases htakes

theorem taken_cons (call : PoolCall) (calls : List PoolCall) :
    taken (call :: calls) = taken calls + if call.takesLoop then 1 else 0 := by
  rw [taken, List.countP_cons, taken]

theorem FirstRound.exec {n : Nat} {d : Dispatcher} {calls : List PoolCall} (h : FirstRound n d)
    (hle : d.chosen.length + taken calls ≤ n) :
    ∃ d', Execution.exec Dispatcher.step d calls = some d' ∧ FirstRound n d' ∧
      d'.chosen.length = d.chosen.length + taken calls := by
  induction calls generalizing d with
  | nil => exact ⟨d, rfl, h, rfl⟩
  | cons call calls ih =>
    rw [taken_cons] at hle
    obtain ⟨m, hm, hfirst, hlen⟩ := h.step call fun ht => by rw [if_pos ht] at hle; omega
    obtain ⟨d', hd', hfirst', hlen'⟩ := ih hfirst (by omega)
    refine ⟨d', Execution.exec_cons_some.mpr ⟨m, hm, hd'⟩, hfirst', ?_⟩
    rw [taken_cons]
    omega

/-- A longer run comes to the call after the first round. -/
theorem FirstRound.exec_none {n : Nat} {d : Dispatcher} {calls : List PoolCall}
    (h : FirstRound n d) (hn : 0 < n) (hle : d.chosen.length ≤ n)
    (hlt : n < d.chosen.length + taken calls) : Execution.exec Dispatcher.step d calls = none := by
  induction calls generalizing d with
  | nil =>
    simp only [taken, List.countP_nil] at hlt
    omega
  | cons call calls ih =>
    rw [taken_cons] at hlt
    by_cases hall : call.takesLoop = true ∧ d.chosen.length = n
    · rw [Execution.exec, h.stuck hn hall.2 hall.1]
      rfl
    · have hroom : call.takesLoop = true → d.chosen.length < n := fun ht => by
        have hne : d.chosen.length ≠ n := fun he => hall ⟨ht, he⟩
        omega
      obtain ⟨m, hm, hfirst, hlen⟩ := h.step call hroom
      rw [Execution.exec, hm]
      refine ih hfirst ?_ (by omega)
      rw [hlen]
      split
      · rename_i ht
        exact hroom ht
      · exact hle

/-! ## Connections -/

/-- Every loop handed out has been given the connection accepted by that call. -/
structure Given (d : Dispatcher) : Prop where
  ids : 1 ≤ d.server.nextConnId_
  loops : (List.range' 1 (d.server.nextConnId_ - 1)).map d.server.loopOf = d.chosen

theorem given_started (config : Config LoopAddr) (cb : Bool) (n : Nat) :
    Given (started config cb n) := by
  constructor
  · exact Nat.le_refl 1
  · rfl

theorem Given.step {d d' : Dispatcher} (h : Given d) {call : PoolCall}
    (hcall : call ≠ .getNextLoop) (hs : d.step call = some d') : Given d' := by
  cases call with
  | getNextLoop => exact absurd rfl hcall
  | newConnection sockfd =>
    obtain ⟨⟨ioLoop, pool⟩, -, rfl⟩ := Option.map_eq_some_iff.mp hs
    have hnext := d.server.newConnection_nextConnId_ ioLoop sockfd
    have hids := h.ids
    constructor
    · show 1 ≤ (d.server.newConnection ioLoop sockfd).nextConnId_
      omega
    · show (List.range' 1 ((d.server.newConnection ioLoop sockfd).nextConnId_ - 1)).map
        (d.server.newConnection ioLoop sockfd).loopOf = d.chosen ++ [ioLoop]
      have hsplit : (d.server.newConnection ioLoop sockfd).nextConnId_ - 1 =
          (d.server.nextConnId_ - 1) + 1 := by omega
      have hlast : 1 + (d.server.nextConnId_ - 1) = d.server.nextConnId_ := by omega
      rw [hsplit, List.range'_1_concat, List.map_append, List.map_singleton, hlast,
        TcpServer.newConnection_loopOf, if_pos rfl, ← h.loops]
      refine congrArg (· ++ _) (List.map_congr_left fun (c : Nat) hc => ?_)
      have hne : c ≠ d.server.nextConnId_ := by
        have hc' := List.mem_range'_1.mp hc
        omega
      rw [TcpServer.newConnection_loopOf, if_neg hne]
  | getLoopForHash hashCode =>
    obtain ⟨_, -, rfl⟩ := Option.map_eq_some_iff.mp hs
    exact h
  | getAllLoops =>
    obtain rfl := Option.some.inj hs
    exact h
  | setThreadNum numThreads =>
    obtain rfl := Option.some.inj hs
    exact ⟨h.ids, h.loops⟩

theorem Given.connectionsOn {d : Dispatcher} (h : Given d) (loop : LoopAddr) :
    d.server.connectionsOn loop = d.chosen.count loop := by
  rw [TcpServer.connectionsOn, h.loops]

/-- What is handed out in turn is handed out evenly. -/
theorem count_thread (l : List Nat) (i : Nat) :
    (l.map LoopAddr.thread).count (.thread i) = l.count i :=
  List.count_map_of_injective l LoopAddr.thread (fun _ _ h => LoopAddr.thread.inj h) i

/-! ## Exactly one round -/

/-- For every pool of `n ≥ 1` threads and every sequence of calls, the loops are
handed out in turn exactly when `getNextLoop` is called at most `n` times. -/
theorem round_robin_iff (config : Config LoopAddr) (cb : Bool) {n : Nat} (hn : 0 < n)
    (calls : List PoolCall) : InTurn config cb n calls ↔ taken calls ≤ n := by
  have hfirst := firstRound_started config cb n
  constructor
  · rintro ⟨d, hd, -⟩
    by_contra hgt
    have hmore : n < 0 + taken calls := by omega
    rw [hfirst.exec_none hn (Nat.zero_le n) hmore] at hd
    cases hd
  · intro hle
    have hfit : 0 + taken calls ≤ n := by omega
    obtain ⟨d, hd, hround, hlen⟩ := hfirst.exec hfit
    have hlen' : d.chosen.length = taken calls := hlen.trans (Nat.zero_add _)
    have hchosen : d.chosen = (turns n (taken calls)).map LoopAddr.thread := by
      rw [turns_of_le hle, ← hlen']
      exact hround.chosen
    refine ⟨d, hd, ?_, fun hcalls i hi j hj => ?_⟩
    · rw [hchosen, turns, List.map_map, List.map_map, hround.loops]
      refine List.map_congr_left fun k _ => ?_
      show some (LoopAddr.thread (k % n)) = _
      rw [EventLoopThreadPool.getElem?_threadLoops, if_pos (Nat.mod_lt k hn)]
    · have hstep : ∀ d call d', Given d → call ≠ .getNextLoop → Dispatcher.step d call = some d' →
          Given d' := fun _ _ _ h hcall hs => h.step hcall hs
      have hgiven : Given d := Execution.exec_invariant Given hstep (given_started config cb n)
        (Execution.guarded_of_forall hcalls _) hd
      rw [hgiven.connectionsOn, hgiven.connectionsOn, hchosen, count_thread, count_thread]
      exact turns_balanced _ hi hj

/-- Two loops, each given one connection. -/
theorem round_robin_iff_two :
    InTurn ⟨.baseLoop, ⟨(127, 0, 0, 1), 8000⟩, ['s'], true, true, false⟩ false 2
      [.newConnection 7, .getLoopForHash 5, .newConnection 8] :=
  (round_robin_iff _ false (by decide) _).mpr (by decide)

/-- The third connection of a server with two io loops is given to `loops_[2]`. -/
theorem round_robin_iff_fails :
    ¬∀ config cb n, 0 < n → ∀ calls, InTurn config cb n calls := by
  intro h
  obtain ⟨d, hd, -⟩ := h ⟨.baseLoop, ⟨(127, 0, 0, 1), 8000⟩, ['s'], true, true, false⟩ false 2
    (by decide) [.newConnection 7, .newConnection 8, .newConnection 9]
  have hnone : (Execution.exec step
      (started ⟨.baseLoop, ⟨(127, 0, 0, 1), 8000⟩, ['s'], true, true, false⟩ false 2)
      [.newConnection 7, .newConnection 8, .newConnection 9]).isNone = true := by decide
  rw [hd] at hnone
  cases hnone

end Dispatcher

end Mymuduo

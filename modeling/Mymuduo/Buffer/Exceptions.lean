import Mymuduo.Buffer.MakeRoom

/-!
# The buffer when memory runs out

`std::vector::resize` may throw, and it is called from `append`, `ensureWritableBytes` and
`readFd`. Then the caller has an exception in place of an answer, and goes on with the buffer as
it is: `append` and `ensureWritableBytes` have left it alone, while `readFd` has already stored
what found room in the vector, and what `readv` had put into `extrabuf` is lost. On the bytes this
is a queue that may refuse.
-/

namespace Mymuduo

/-- The answer, if the call returns. -/
def Outcome.value? {α : Type} : Outcome α → Option α
  | returned a _ => some a
  | threw _ | outside => none

namespace SizeT

open Mymuduo.Library
open Mymuduo.Library.Window
open Mymuduo.Buffer (Op Result queueOp)
open Outcome

/-- What `readv` has handed over. -/
def delivered : Op → List Byte
  | .readFd (.delivered bytes) => bytes
  | _ => []

/-- The number of bytes that an operation makes room for. -/
def demand : Op → Nat
  | .append data => data.length
  | .ensureWritableBytes len => len
  | .readFd (.delivered bytes) => bytes.length
  | _ => 0

/-- There is no memory to be had, or the vector would become longer than it can be. -/
def Starved (b : Buffer) (call : Op × Bool) : Prop :=
  call.2 = false ∨ maxSize < b.buffer_.length + demand call.1

/-- The caller's part, with the sums that the operation forms. -/
structure Served (b : Buffer) (call : Op × Bool) : Prop where
  sized : Sized b call.1
  fits : Fits b call
  admissible : b.Admissible call.1

instance (b : Buffer) (call : Op × Bool) : Decidable (Served b call) :=
  decidable_of_iff (Sized b call.1 ∧ Fits b call ∧ b.Admissible call.1)
    ⟨fun h => ⟨h.1, h.2.1, h.2.2⟩, fun h => ⟨h.sized, h.fits, h.admissible⟩⟩

/-! ## The queue that may refuse -/

/-- One operation on the queue, with its answer or none for an exception. -/
inductive Attempt (q : List Byte) (op : Op) : Option Result → List Byte → Prop
  | returned : Attempt q op (some (queueOp q op).1) (queueOp q op).2
  | threw {kept lost : List Byte} (demands : demand op ≠ 0) (split : delivered op = kept ++ lost)
      (short : delivered op ≠ [] → lost ≠ []) : Attempt q op none (q ++ kept)

inductive Attempts : List Byte → List Op → List (Option Result) → List Byte → Prop
  | nil (q : List Byte) : Attempts q [] [] q
  | cons {q q' q'' : List Byte} {op : Op} {ops : List Op} {reply : Option Result}
      {replies : List (Option Result)} (first : Attempt q op reply q')
      (rest : Attempts q' ops replies q'') : Attempts q (op :: ops) (reply :: replies) q''

/-- A queue that has not refused anything is the plain one. -/
theorem Attempts.of_answered {q q' : List Byte} {ops : List Op} {replies : List (Option Result)}
    (h : Attempts q ops replies q') (hreplies : none ∉ replies) :
    q' = ops.foldl (fun q op => (queueOp q op).2) q := by
  induction h with
  | nil q => rfl
  | cons first rest ih =>
    rw [List.mem_cons, not_or] at hreplies
    cases first with
    | returned => exact ih hreplies.2
    | threw => exact absurd rfl hreplies.1

/-! ## One operation -/

variable {b b' : Buffer}

/-- `resize` is called for more bytes than there is room for, and gives up only if it must. -/
theorem Sound.starved (h : Sound b) {alloc : Bool} {len : Nat}
    (hfits : b.writerIndex_ + len < 0x10000000000000000)
    (hthrew : SizeT.ensureWritableBytes alloc b len = .threw b') :
    len ≠ 0 ∧ (alloc = false ∨ maxSize < b.buffer_.length + len) := by
  have hi := h.wf.inside
  rw [SizeT.ensureWritableBytes, SizeT.makeSpace, addSize_of_lt hfits] at hthrew
  split at hthrew
  · rename_i hlt
    refine ⟨by omega, ?_⟩
    split at hthrew
    · cases hv : vectorResize alloc b.buffer_ (b.writerIndex_ + len) with
      | some v =>
        rw [hv] at hthrew
        cases hthrew
      | none =>
        simp only [vectorResize, ite_eq_left_iff, reduceCtorEq, imp_false, not_not] at hv
        rcases hv.2 with hmax | halloc
        · exact .inr (by omega)
        · exact .inl (by simpa using halloc)
    · dsimp only at hthrew
      split at hthrew
      · cases hthrew
      · cases hthrew
  · cases hthrew

/-- `append` after it has made room. -/
theorem Sound.copyIn_eq (h : Sound b) {data : List Byte} (hroom : data.length ≤ b.writableBytes) :
    ∃ b', SizeT.copyIn data b = .returned () b' ∧ Sound b' ∧ b'.contents = b.contents ++ data := by
  have hi := h.wf.inside
  have hsize : b.buffer_.length ≤ 0x7fffffffffffffff := h.size
  rw [Buffer.writableBytes] at hroom
  obtain ⟨v, hv, hlen, hwin⟩ := window_overwrite data h.wf.ordered
    (by omega : b.writerIndex_ + data.length ≤ b.buffer_.length)
  have hcopy : SizeT.copyIn data b = .returned () { b with
      buffer_ := v
      writerIndex_ := addSize b.writerIndex_ data.length } := by
    rw [SizeT.copyIn, hv]
  refine ⟨_, hcopy, h.write hlen (by omega), ?_⟩
  rw [addSize_of_lt (by omega)]
  exact hwin

theorem Sound.append_cases (h : Sound b) (alloc : Bool) {data : List Byte}
    (hfits : b.writerIndex_ + data.length < 0x10000000000000000) :
    (∃ b', SizeT.append alloc b data = .returned () b' ∧ Sound b' ∧
      b'.contents = b.contents ++ data) ∨
    SizeT.append alloc b data = .threw b ∧ data.length ≠ 0 ∧
      (alloc = false ∨ maxSize < b.buffer_.length + data.length) := by
  obtain ⟨m, hm, hsound, hcont, hroom⟩ | hthrew := h.ensureWritableBytes_cases alloc hfits
  · obtain ⟨b', hb', hsound', hcont'⟩ := hsound.copyIn_eq hroom
    refine .inl ⟨b', ?_, hsound', by rw [hcont', hcont]⟩
    rw [SizeT.append, hm]
    exact hb'
  · refine .inr ⟨?_, h.starved hfits hthrew⟩
    rw [SizeT.append, hthrew]
    rfl

/-- `readFd` has stored what fits before it calls `append` for the rest. -/
theorem Sound.readFd_cases (h : Sound b) (alloc : Bool) {bytes : List Byte}
    (hcap : bytes.length ≤ b.readCapacity) :
    (∃ b', SizeT.readFd alloc b (.delivered bytes) = .returned bytes.length b' ∧ Sound b' ∧
      b'.contents = b.contents ++ bytes) ∨
    ∃ b', SizeT.readFd alloc b (.delivered bytes) = .threw b' ∧ Sound b' ∧
      b'.contents = b.contents ++ bytes.take b.writableBytes ∧ b.writableBytes < bytes.length ∧
      (alloc = false ∨ maxSize < b.buffer_.length + bytes.length) := by
  have ho := h.wf.ordered
  have hi := h.wf.inside
  have hsize : b.buffer_.length ≤ 0x7fffffffffffffff := h.size
  have hfit : b.writerIndex_ + (bytes.take b.writableBytes).length ≤ b.buffer_.length := by
    rw [List.length_take, Buffer.writableBytes]
    omega
  obtain ⟨v, hv, hlen, hwin⟩ := window_overwrite _ ho hfit
  rw [SizeT.readFd, h.writableBytes_eq, hv]
  dsimp only
  split
  · rename_i hlt
    have htake : bytes.take b.writableBytes = bytes := List.take_of_length_le (Nat.le_of_lt hlt)
    rw [htake] at hwin hfit
    refine .inl ⟨_, rfl, h.write hlen (by omega), ?_⟩
    rw [addSize_of_lt (by omega)]
    exact hwin
  · rename_i hge
    -- the vector is full, and `append` is called for what is in `extrabuf`
    have hfull : b.writerIndex_ + (bytes.take b.writableBytes).length = v.length := by
      rw [Buffer.writableBytes] at hge
      rw [List.length_take, Buffer.writableBytes]
      omega
    have hsound := h.fill hlen
    have hstored : Buffer.contents { b with buffer_ := v, writerIndex_ := v.length } =
        b.contents ++ bytes.take b.writableBytes := by
      rw [hfull] at hwin
      exact hwin
    have hrest : (bytes.drop b.writableBytes).length = bytes.length - b.writableBytes :=
      List.length_drop
    have hextra : v.length + (bytes.drop b.writableBytes).length < 0x10000000000000000 := by
      rw [Buffer.readCapacity, extrabufSize] at hcap
      split at hcap <;> omega
    obtain ⟨b', hb', hsound', hcont'⟩ | ⟨hthrew, hne, hstarved⟩ := hsound.append_cases alloc hextra
    · refine .inl ⟨b', ?_, hsound', ?_⟩
      · rw [hb']
        rfl
      · rw [hcont', hstored, List.append_assoc, List.take_append_drop]
    · refine .inr ⟨_, ?_, hsound, hstored, by omega, ?_⟩
      · rw [hthrew]
        rfl
      · rcases hstarved with halloc | hmax
        · exact .inl halloc
        · refine .inr ?_
          have hmax' : maxSize < v.length + (bytes.drop b.writableBytes).length := hmax
          omega

/-- How a call may end. -/
def Ends (b : Buffer) (call : Op × Bool) : Outcome Result → Prop
  | .returned reply b' => Sound b' ∧ Attempt b.contents call.1 (some reply) b'.contents
  | .threw b' => Sound b' ∧ Attempt b.contents call.1 none b'.contents ∧ Starved b call
  | .outside => False

theorem ends_returned {call : Op × Bool} {reply : Result} (hsound : Sound b')
    (hreply : (queueOp b.contents call.1).1 = reply)
    (hcont : b'.contents = (queueOp b.contents call.1).2) : Ends b call (.returned reply b') := by
  refine ⟨hsound, ?_⟩
  rw [hcont, ← hreply]
  exact .returned

theorem ends_threw {call : Op × Bool} (hsound : Sound b') (hdemand : demand call.1 ≠ 0)
    (hnone : delivered call.1 = []) (hcont : b'.contents = b.contents) (hstarved : Starved b call) :
    Ends b call (.threw b') := by
  refine ⟨hsound, ?_, hstarved⟩
  have hsplit : delivered call.1 = [] ++ [] := hnone
  have hattempt : Attempt b.contents call.1 none (b.contents ++ []) :=
    .threw hdemand hsplit fun hne => absurd hnone hne
  rw [hcont]
  rwa [List.append_nil] at hattempt

theorem Sound.ends (h : Sound b) {call : Op × Bool} (hserved : Served b call) :
    Ends b call (SizeT.apply call.2 b call.1) := by
  obtain ⟨op, alloc⟩ := call
  have ho := h.wf.ordered
  have hi := h.wf.inside
  have hread : ∀ {len : Nat}, len ≤ b.readableBytes →
      readRange b.buffer_ b.readerIndex_ len = some (b.contents.take len) := by
    intro len hlen
    rw [Buffer.readableBytes] at hlen
    rw [readRange, if_pos (by omega), Buffer.contents, take_window (by omega)]
  have hwhole : b.contents.take b.readableBytes = b.contents :=
    List.take_of_length_le (Nat.le_of_eq h.wf.length_contents)
  have htaken : ∀ len, (SizeT.retrieve b len).contents = b.contents.drop len := by
    intro len
    rw [h.ordered.retrieve_eq, Buffer.contents_retrieve h.wf]
  cases op with
  | append data =>
    rw [SizeT.apply]
    obtain ⟨b', hb', hsound, hcont⟩ | ⟨hthrew, hne, hstarved⟩ := h.append_cases alloc hserved.fits
    · rw [hb']
      exact ends_returned hsound rfl hcont
    · rw [hthrew]
      exact ends_threw h hne rfl rfl hstarved
  | ensureWritableBytes len =>
    rw [SizeT.apply]
    obtain ⟨b', hb', hsound, hcont, -⟩ | hthrew := h.ensureWritableBytes_cases alloc hserved.fits
    · rw [hb']
      exact ends_returned hsound rfl hcont
    · obtain ⟨hne, hstarved⟩ := h.starved hserved.fits hthrew
      rw [hthrew]
      exact ends_threw h hne rfl rfl hstarved
  | retrieve len => exact ends_returned (h.retrieve len) rfl (htaken len)
  | retrieveAll =>
    exact ends_returned ⟨h.wf.retrieveAll, h.size⟩ rfl (Buffer.contents_retrieveAll b)
  | retrieveAsString len =>
    rw [SizeT.apply, SizeT.retrieveAsString, hread hserved.admissible]
    exact ends_returned (h.retrieve len) rfl (htaken len)
  | retrieveAllAsString =>
    rw [SizeT.apply, SizeT.retrieveAllAsString, SizeT.retrieveAsString, h.ordered.readableBytes_eq,
      hread (Nat.le_refl _), hwhole]
    refine ends_returned (h.retrieve _) rfl ?_
    rw [htaken, ← h.wf.length_contents, List.drop_length]
    rfl
  | readFd r =>
    cases r with
    | failed errno => exact ends_returned h rfl rfl
    | delivered bytes =>
      rw [SizeT.apply]
      obtain ⟨b', hb', hsound, hcont⟩ | ⟨b', hb', hsound, hcont, hlt, hstarved⟩ :=
        h.readFd_cases alloc hserved.admissible
      · rw [hb']
        exact ends_returned hsound rfl hcont
      · rw [hb']
        refine ⟨hsound, ?_, hstarved⟩
        rw [hcont]
        refine .threw ?_ (List.take_append_drop b.writableBytes bytes).symm fun _ hnil => ?_
        · show bytes.length ≠ 0
          omega
        · have hlen := List.drop_eq_nil_iff.mp hnil
          omega
  | writeFd r =>
    rw [SizeT.apply, SizeT.writeFd, h.ordered.readableBytes_eq, hread (Nat.le_refl _), hwhole]
    exact ends_returned h rfl rfl

/-! ## Runs -/

/-- What the caller is told, call by call. -/
def replies (b : Buffer) : List (Op × Bool) → List (Option Result)
  | [] => []
  | call :: calls =>
    let o := SizeT.apply call.2 b call.1
    o.value? :: match o.left? with
      | some b' => replies b' calls
      | none => []

theorem Sound.step_ends (h : Sound b) {call : Op × Bool} (hserved : Served b call) : ∃ b',
    SizeT.step b call = some b' ∧ (SizeT.apply call.2 b call.1).left? = some b' ∧ Sound b' ∧
      Attempt b.contents call.1 (SizeT.apply call.2 b call.1).value? b'.contents ∧
      ((SizeT.apply call.2 b call.1).value? = none → Starved b call) := by
  have hends := h.ends hserved
  rw [SizeT.step, if_pos hserved.sized]
  cases ho : SizeT.apply call.2 b call.1 with
  | returned reply b' =>
    rw [ho] at hends
    exact ⟨b', rfl, rfl, hends.1, hends.2, fun hnone => by cases hnone⟩
  | threw b' =>
    rw [ho] at hends
    exact ⟨b', rfl, rfl, hends.1, hends.2.1, fun _ => hends.2.2⟩
  | outside =>
    rw [ho] at hends
    exact hends.elim

theorem Sound.attempts {calls : List (Op × Bool)} (h : Sound b)
    (hg : Execution.Guarded SizeT.step Served b calls) : ∃ b',
    Execution.exec SizeT.step b calls = some b' ∧ Sound b' ∧
      Attempts b.contents (calls.map (·.1)) (replies b calls) b'.contents ∧
      (Execution.Guarded SizeT.step (fun b call => ¬ Starved b call) b calls →
        none ∉ replies b calls) := by
  induction calls generalizing b with
  | nil => exact ⟨b, rfl, h, .nil _, fun _ => List.not_mem_nil⟩
  | cons call calls ih =>
    obtain ⟨m, hm, hleft, hsound, hattempt, hstarved⟩ := h.step_ends hg.1
    obtain ⟨b', hb', hsound', hattempts, hample⟩ := ih hsound (hg.2 m hm)
    have hreplies : replies b (call :: calls) =
        (SizeT.apply call.2 b call.1).value? :: replies m calls := by
      rw [replies, hleft]
    rw [hreplies]
    refine ⟨b', Execution.exec_cons_some.mpr ⟨m, hm, hb'⟩, hsound', .cons hattempt hattempts, ?_⟩
    intro hfed hmem
    rcases List.mem_cons.mp hmem with hnone | hmem
    · exact hfed.1 (hstarved hnone.symm)
    · exact hample (hfed.2 m hm) hmem

/-- From the constructor, whichever of the calls find no memory: no call accesses memory outside
the vector, the indices stay in order, and to the callers the buffer is a queue that may refuse.
It refuses nothing while memory lasts. -/
theorem exceptions_safe {alloc : Bool} {initialSize : Nat} {b₀ : Buffer}
    (hfits : kCheapPrepend + initialSize < 0x10000000000000000)
    (hnew : new alloc initialSize = some b₀) (calls : List (Op × Bool))
    (hg : Execution.Guarded SizeT.step Served b₀ calls) :
    ∃ b, Execution.exec SizeT.step b₀ calls = some b ∧
      (kCheapPrepend ≤ b.readerIndex_ ∧ b.readerIndex_ ≤ b.writerIndex_ ∧
        b.writerIndex_ ≤ b.buffer_.length ∧ b.buffer_.length ≤ maxSize) ∧
      Attempts [] (calls.map (·.1)) (replies b₀ calls) b.contents ∧
      (Execution.Guarded SizeT.step (fun b call => ¬ Starved b call) b₀ calls →
        none ∉ replies b₀ calls ∧
        b.contents = (calls.map (·.1)).foldl (fun q op => (queueOp q op).2) []) := by
  have hsound := sound_new hfits hnew
  have hempty : b₀.contents = [] := by
    simp only [new, Option.ite_none_left_eq_some, Option.some.injEq] at hnew
    obtain ⟨-, rfl⟩ := hnew
    exact window_self _ _
  obtain ⟨b, hb, hsound', hattempts, hample⟩ := hsound.attempts hg
  rw [hempty] at hattempts
  refine ⟨b, hb, ⟨hsound'.wf.prepend, hsound'.wf.ordered, hsound'.wf.inside, hsound'.size⟩,
    hattempts, fun hfed => ⟨hample hfed, hattempts.of_answered (hample hfed)⟩⟩

/-- A vector for two bytes: `readv` delivers three, there is no memory for the third, and a string
of what is left is taken. -/
def cutShort : List (Op × Bool) :=
  [(.readFd (.delivered [1, 2, 3]), false), (.append [4], true), (.retrieveAllAsString, false)]

theorem exceptions_safe_cut : ∃ b₀ b, new true 2 = some b₀ ∧
    Execution.exec SizeT.step b₀ cutShort = some b ∧
    replies b₀ cutShort = [none, some .void, some (.string [1, 2, 4])] ∧
    Attempts [] (cutShort.map (·.1)) (replies b₀ cutShort) b.contents := by
  have hnew : new true 2 = some ⟨List.replicate 10 0, 8, 8⟩ := by decide
  have hg : Execution.Guarded SizeT.step Served ⟨List.replicate 10 0, 8, 8⟩ cutShort := by
    decide +kernel
  obtain ⟨b, hb, -, hattempts, -⟩ := exceptions_safe (by decide) hnew cutShort hg
  exact ⟨_, b, hnew, hb, by decide +kernel, hattempts⟩

end SizeT

end Mymuduo
